import Mathlib

/-!
# The run at the end of a list

`trailing p l` counts the elements at the end of `l` that have a property. It can be kept up to date
piece by piece: a piece that has the property throughout adds its length (`trailing_append_of_all`),
any other piece starts the count again (`trailing_append_of_not`).
-/

set_option autoImplicit false

namespace Foundation.TrailingRun

universe u

variable {α : Type u} {p : α → Bool}

/-- How many elements at the end have the property. -/
def trailing (p : α → Bool) (l : List α) : ℕ := (l.rtakeWhile p).length

@[simp] theorem trailing_nil : trailing p [] = 0 := by simp [trailing]

theorem trailing_eq_length {l : List α} (h : ∀ c ∈ l, p c = true) : trailing p l = l.length := by
  rw [trailing, List.rtakeWhile_eq_self_iff.mpr h]

theorem trailing_append_of_all {ys : List α} (h : ∀ c ∈ ys, p c = true) (xs : List α) :
    trailing p (xs ++ ys) = trailing p xs + ys.length := by
  induction ys using List.reverseRecOn with
  | nil => simp
  | append_singleton ys y ih =>
    have hys := ih fun c hc => h c (List.mem_append_left _ hc)
    rw [trailing] at hys ⊢
    rw [← List.append_assoc, List.rtakeWhile_concat_pos p (xs ++ ys) y (h y (by simp)),
      List.length_append, hys, List.length_append, ← add_assoc]

theorem trailing_append_of_not {ys : List α} (h : ∃ c ∈ ys, p c = false) (xs : List α) :
    trailing p (xs ++ ys) = trailing p ys := by
  induction ys using List.reverseRecOn with
  | nil => simp at h
  | append_singleton ys y ih =>
    rw [trailing, trailing, ← List.append_assoc]
    cases hy : p y with
    | false =>
      rw [List.rtakeWhile_concat_neg p _ y (by simp [hy]),
        List.rtakeWhile_concat_neg p _ y (by simp [hy])]
    | true =>
      have hys : ∃ c ∈ ys, p c = false := by
        obtain ⟨c, hc, hpc⟩ := h
        rcases List.mem_append.mp hc with hc | hc
        · exact ⟨c, hc, hpc⟩
        · rw [List.mem_singleton.mp hc, hy] at hpc
          cases hpc
      rw [List.rtakeWhile_concat_pos p _ y hy, List.rtakeWhile_concat_pos p _ y hy,
        List.length_append, List.length_append]
      exact congrArg (· + [y].length) (ih hys)

/-- An element without the property lies before the run. -/
theorem add_trailing_lt {l : List α} {k : ℕ} {c : α} (hk : l[k]? = some c) (hc : p c = false) :
    k + trailing p l < l.length := by
  have hsplit : l.rdropWhile p ++ l.rtakeWhile p = l := List.rdropWhile_append_rtakeWhile
  have hlen : (l.rdropWhile p).length + trailing p l = l.length := by
    rw [trailing, ← List.length_append, hsplit]
  by_contra hge
  rw [← hsplit, List.getElem?_append_right (by omega)] at hk
  have hpc : p c = true := List.mem_rtakeWhile_imp (List.mem_of_getElem? hk)
  simp [hpc] at hc

/-- The run goes back to the last element without the property. -/
theorem length_le_add_trailing {l : List α} {k : ℕ}
    (h : ∀ m c, k < m → l[m]? = some c → p c = true) : l.length ≤ k + 1 + trailing p l := by
  have hsplit : l.rdropWhile p ++ l.rtakeWhile p = l := List.rdropWhile_append_rtakeWhile
  have hlen : (l.rdropWhile p).length + trailing p l = l.length := by
    rw [trailing, ← List.length_append, hsplit]
  by_contra hlt
  have hne : l.rdropWhile p ≠ [] := fun hnil => by simp [hnil] at hlen; omega
  have hlast : (l.rdropWhile p ++ l.rtakeWhile p)[(l.rdropWhile p).length - 1]? =
      some ((l.rdropWhile p).getLast hne) := by
    rw [List.getElem?_append_left (Nat.sub_lt (List.length_pos_of_ne_nil hne) one_pos),
      ← List.getLast?_eq_getElem?, List.getLast?_eq_some_getLast hne]
  rw [hsplit] at hlast
  exact List.rdropWhile_last_not p l hne (h _ _ (by omega) hlast)

end Foundation.TrailingRun
