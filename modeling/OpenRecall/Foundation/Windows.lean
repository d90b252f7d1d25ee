import Mathlib

/-!
# Greedy windows

`windows breaks l` cuts a list into windows: a window takes its first element and every
following one until some element breaks from the first, which then starts the next
window. All windows but the last are closed, so more elements at the end of the list
change the last one only (`windows_append`). That is what makes windowing incremental: to
window a growing list, it is enough to keep the closed windows and to window the last one
again together with what is new.
-/

set_option autoImplicit false

namespace Foundation

universe u

variable {α : Type u} (breaks : α → α → Bool)

/-- Cut a list into windows; `breaks first e` says that `e` cannot join the window that
`first` started. -/
def windows : List α → List (List α)
  | [] => []
  | e :: es =>
    (e :: es.takeWhile fun x => !breaks e x) :: windows (es.dropWhile fun x => !breaks e x)
termination_by l => l.length
decreasing_by
  have := (List.dropWhile_sublist (fun x => !breaks e x) (l := es)).length_le
  simp only [List.length_cons]
  omega

/-- The part of the list that is still open: its last window. -/
def openWindow (l : List α) : List α := (windows breaks l).getLastD []

@[simp] theorem windows_nil : windows breaks [] = [] := by
  unfold windows
  rfl

theorem windows_cons (e : α) (es : List α) :
    windows breaks (e :: es) = (e :: es.takeWhile fun x => !breaks e x) ::
      windows breaks (es.dropWhile fun x => !breaks e x) := by
  rw [windows]

@[simp] theorem windows_eq_nil_iff (l : List α) : windows breaks l = [] ↔ l = [] := by
  cases l with
  | nil => simp
  | cons e es => simp [windows_cons]

/-- Windows cut a list without losing, repeating or reordering anything. -/
theorem flatten_windows (l : List α) : (windows breaks l).flatten = l := by
  induction h : l.length using Nat.strong_induction_on generalizing l with
  | _ n ih =>
    cases l with
    | nil => simp
    | cons e es =>
      have hlen := (List.dropWhile_sublist (fun x => !breaks e x) (l := es)).length_le
      simp only [List.length_cons] at h
      rw [windows_cons, List.flatten_cons, ih _ (by omega) _ rfl, List.cons_append,
        List.takeWhile_append_dropWhile]

/-- No window is empty. -/
theorem ne_nil_of_mem_windows {l w : List α} (hw : w ∈ windows breaks l) : w ≠ [] := by
  induction h : l.length using Nat.strong_induction_on generalizing l with
  | _ n ih =>
    cases l with
    | nil => simp at hw
    | cons e es =>
      have hlen := (List.dropWhile_sublist (fun x => !breaks e x) (l := es)).length_le
      simp only [List.length_cons] at h
      rw [windows_cons] at hw
      rcases List.mem_cons.mp hw with rfl | hw
      · simp
      · exact ih _ (by omega) hw rfl

/-- No window occurs twice if no element does. -/
theorem nodup_windows {l : List α} (hl : l.Nodup) : (windows breaks l).Nodup := by
  have hdisjoint := (List.nodup_flatten.mp ((flatten_windows breaks l).symm ▸ hl)).2
  apply hdisjoint.imp_of_mem
  rintro w v hw - hwv rfl
  obtain ⟨e, he⟩ := List.exists_mem_of_ne_nil w (ne_nil_of_mem_windows breaks hw)
  exact hwv he he

/-- **Windowing is incremental**: elements added at the end are windowed together with the
open window, and the closed windows stay as they are. -/
theorem windows_append (l m : List α) :
    windows breaks (l ++ m) =
      (windows breaks l).dropLast ++ windows breaks (openWindow breaks l ++ m) := by
  induction h : l.length using Nat.strong_induction_on generalizing l with
  | _ n ih =>
    cases l with
    | nil => simp [openWindow]
    | cons e es =>
      have hlen := (List.dropWhile_sublist (fun x => !breaks e x) (l := es)).length_le
      simp only [List.length_cons] at h
      cases hrest : es.dropWhile fun x => !breaks e x with
      | nil =>
        -- the list is a single window, which stays open
        have hall : es.takeWhile (fun x => !breaks e x) = es := by
          have happ := List.takeWhile_append_dropWhile (p := fun x => !breaks e x) (l := es)
          rwa [hrest, List.append_nil] at happ
        have hone : windows breaks (e :: es) = [e :: es] := by
          rw [windows_cons, hall, hrest, windows_nil]
        rw [openWindow, hone]
        rfl
      | cons b rest =>
        have hne : es.dropWhile (fun x => !breaks e x) ≠ [] := by simp [hrest]
        have htake : (es ++ m).takeWhile (fun x => !breaks e x) =
            es.takeWhile fun x => !breaks e x := by
          rw [List.takeWhile_append]
          split_ifs with hfull
          · have happ := List.takeWhile_append_dropWhile (p := fun x => !breaks e x) (l := es)
            have hlen' := congrArg List.length happ
            rw [List.length_append, hfull, hrest, List.length_cons] at hlen'
            omega
          · rfl
        have hdrop : (es ++ m).dropWhile (fun x => !breaks e x) =
            es.dropWhile (fun x => !breaks e x) ++ m := by
          rw [List.dropWhile_append, if_neg (by simp [hrest])]
        have hwne : windows breaks (es.dropWhile fun x => !breaks e x) ≠ [] := by
          rwa [Ne, windows_eq_nil_iff]
        rw [List.cons_append, windows_cons, htake, hdrop, ih _ (by omega) _ rfl, openWindow,
          openWindow, windows_cons, List.dropLast_cons_of_ne_nil hwne, List.cons_append]
        congr 3
        cases hw : windows breaks (es.dropWhile fun x => !breaks e x) with
        | nil => exact absurd hw hwne
        | cons w ws => rfl

/-- The open window is what the closed windows leave of the list. -/
theorem flatten_dropLast_append_openWindow (l : List α) :
    (windows breaks l).dropLast.flatten ++ openWindow breaks l = l := by
  rcases List.eq_nil_or_concat (windows breaks l) with hnil | ⟨ws, w, hws⟩
  · rw [windows_eq_nil_iff] at hnil
    subst hnil
    simp [openWindow]
  · have hflat := flatten_windows breaks l
    rw [hws] at hflat
    rw [openWindow, hws, List.concat_eq_append, List.dropLast_concat,
      List.getLastD_eq_getLast?, List.getLast?_concat]
    simpa using hflat

/-- The open window is a window of its own. -/
theorem windows_openWindow {l : List α} (hl : l ≠ []) :
    windows breaks (openWindow breaks l) = [openWindow breaks l] := by
  have happ := windows_append breaks l []
  rw [List.append_nil, List.append_nil] at happ
  rcases List.eq_nil_or_concat (windows breaks l) with hnil | ⟨ws, w, hws⟩
  · exact absurd ((windows_eq_nil_iff breaks l).mp hnil) hl
  · have hopen : openWindow breaks l = w := by
      rw [openWindow, hws, List.concat_eq_append, List.getLastD_eq_getLast?, List.getLast?_concat]
      rfl
    rw [hopen] at happ ⊢
    rw [hws, List.concat_eq_append, List.dropLast_concat] at happ
    exact (List.append_cancel_left happ).symm

end Foundation
