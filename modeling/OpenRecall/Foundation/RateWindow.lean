import Mathlib

/-!
# A sliding window of times

A limiter remembers when it last admitted something. It forgets what is older than the span, and
admits one more when it remembers fewer than the limit. What is done only when it is admitted is
done no more often than the limit in any span of time, on a clock that does not go back.

The span may count with its end (`Within`) or without it (`Paced`); in the second kind what is
admitted may be done a little later than it was asked for.
-/

set_option autoImplicit false

namespace Foundation.RateWindow

universe u

/-- A list none of whose items is dropped stays within what is left. -/
theorem sublist_dropWhile {β : Type u} {l w : List β} {p : β → Bool} (h : List.Sublist l w)
    (hl : ∀ x ∈ l, p x = false) : List.Sublist l (w.dropWhile p) := by
  induction h with
  | slnil => exact List.Sublist.slnil
  | cons x h ih =>
    rw [List.dropWhile_cons]
    split_ifs
    · exact ih hl
    · exact h.cons x
  | cons_cons x h ih =>
    rw [List.dropWhile_cons_of_neg (by simp [hl x List.mem_cons_self])]
    exact h.cons_cons x

variable {α : Type u} [AddCommGroup α] [LinearOrder α]

/-- What is remembered of the times: those that are not older than the span, from the oldest of
them on. -/
def kept (span now : α) (window : List α) : List α := window.dropWhile fun t => span < now - t

/-- Whether there is room for one more, and the window after. -/
def grant (limit : ℤ) (span now : α) (window : List α) : Bool × List α :=
  if limit ≤ (kept span now window).length then (false, kept span now window)
  else (true, kept span now window ++ [now])

/-- How many of the times are in the span that begins at `a`. -/
def countIn (span a : α) (times : List α) : ℕ := times.countP fun t => a ≤ t ∧ t ≤ a + span

/-- The window remembers every time that is not older than the span, and no span has had more times
than the limit. -/
structure Within (limit : ℤ) (span now : α) (times window : List α) : Prop where
  remembered : List.Sublist (times.filter fun t => now - t ≤ span) window
  rate : ∀ a, (countIn span a times : ℤ) ≤ limit

variable {limit : ℤ} {span now next : α} {times window : List α}

/-- With no times yet. -/
theorem Within.nil (hlimit : 0 ≤ limit) (span now : α) (window : List α) :
    Within limit span now [] window :=
  ⟨List.nil_sublist window, fun _ => hlimit⟩

variable [IsOrderedAddMonoid α]

/-- As time goes on fewer times are recent. -/
theorem Within.later (h : Within limit span now times window) (hle : now ≤ next) :
    Within limit span next times window := by
  refine ⟨List.Sublist.trans ?_ h.remembered, h.rate⟩
  refine List.monotone_filter_right times fun t ht => ?_
  simp only [decide_eq_true_eq] at ht ⊢
  exact (sub_le_sub_right hle t).trans ht

/-- What is forgotten is not recent. -/
theorem Within.kept (h : Within limit span now times window) :
    List.Sublist (times.filter fun t => now - t ≤ span) (RateWindow.kept span now window) := by
  refine sublist_dropWhile h.remembered fun t ht => ?_
  simpa using (List.mem_filter.mp ht).2

/-- Asking for room keeps the rate. -/
theorem Within.grant (h : Within limit span now times window) :
    Within limit span now times (RateWindow.grant limit span now window).2 := by
  refine ⟨?_, h.rate⟩
  rw [RateWindow.grant]
  split_ifs
  · exact h.kept
  · exact h.kept.trans (List.sublist_append_left _ _)

/-- **Doing what is admitted keeps the rate.** -/
theorem Within.act (h : Within limit span now times window) (hspan : 0 ≤ span)
    (hroom : (RateWindow.grant limit span now window).1 = true) :
    Within limit span now (times ++ [now]) (RateWindow.grant limit span now window).2 := by
  rw [RateWindow.grant] at hroom ⊢
  split_ifs at hroom ⊢ with hfull
  have hrecent : List.Sublist ((times ++ [now]).filter fun t => now - t ≤ span)
      (RateWindow.kept span now window ++ [now]) := by
    rw [List.filter_append, List.filter_singleton, sub_self]
    simpa [hspan] using h.kept
  refine ⟨hrecent, fun a => ?_⟩
  by_cases hnow : a ≤ now ∧ now ≤ a + span
  · have hin : countIn span a (times ++ [now]) ≤
        ((times ++ [now]).filter fun t => now - t ≤ span).length := by
      rw [countIn, ← List.countP_eq_length_filter]
      refine List.countP_mono_left fun t _ ht => ?_
      simp only [decide_eq_true_eq] at ht ⊢
      exact (sub_le_sub_left ht.1 now).trans (sub_le_iff_le_add'.mpr hnow.2)
    have hlength := hrecent.length_le
    rw [List.length_append, List.length_singleton] at hlength
    omega
  · have hsame : countIn span a (times ++ [now]) = countIn span a times := by
      simp [countIn, hnow]
    rw [hsame]
    exact h.rate a

/-! ## Spans without their ends -/

/-- The times that are less than a span ago. -/
def recent (span now : α) (window : List α) : List α := window.filter fun t => now - t < span

/-- How many of the times are in the span that begins at `a` and ends before `a + span`. -/
def countBefore (span a : α) (times : List α) : ℕ := times.countP fun t => a ≤ t ∧ t < a + span

/-- The window remembers every time that is less than a span ago, and no span has had more times
than the limit. -/
structure Paced (limit : ℕ) (span now : α) (times window : List α) : Prop where
  remembered : List.Sublist (recent span now times) window
  rate : ∀ a, countBefore span a times ≤ limit

section

omit [IsOrderedAddMonoid α]

/-- With no times yet. -/
theorem Paced.nil (limit : ℕ) (span now : α) : Paced limit span now [] [] :=
  ⟨List.Sublist.refl [], fun _ => Nat.zero_le limit⟩

/-- Forgetting what is not recent. -/
theorem Paced.prune {limit : ℕ} (h : Paced limit span now times window) :
    Paced limit span now times (recent span now window) := by
  refine ⟨?_, h.rate⟩
  have hsub := h.remembered.filter fun t => decide (now - t < span)
  simpa only [recent, List.filter_filter, Bool.and_self] using hsub

end

/-- As time goes on fewer times are recent. -/
theorem Paced.later {limit : ℕ} (h : Paced limit span now times window) (hle : now ≤ next) :
    Paced limit span next times window := by
  refine ⟨List.Sublist.trans ?_ h.remembered, h.rate⟩
  refine List.monotone_filter_right times fun t ht => ?_
  simp only [decide_eq_true_eq] at ht ⊢
  exact (sub_le_sub_right hle t).trans_lt ht

/-- **Doing what there is room for keeps the rate.** -/
theorem Paced.act {limit : ℕ} (h : Paced limit span now times window)
    (hroom : window.length < limit) : Paced limit span now (times ++ [now]) (window ++ [now]) := by
  constructor
  · rw [recent, List.filter_append]
    exact h.remembered.append List.filter_sublist
  · intro a
    by_cases hnow : a ≤ now ∧ now < a + span
    · have hin : countBefore span a times ≤ (recent span now times).length := by
        rw [countBefore, recent, ← List.countP_eq_length_filter]
        refine List.countP_mono_left fun t _ ht => ?_
        simp only [decide_eq_true_eq] at ht ⊢
        exact sub_lt_iff_lt_add'.mpr (hnow.2.trans_le (add_le_add_left ht.1 span))
      have hlength := h.remembered.length_le
      have hone : countBefore span a (times ++ [now]) = countBefore span a times + 1 := by
        simp [countBefore, hnow]
      omega
    · have hsame : countBefore span a (times ++ [now]) = countBefore span a times := by
        simp [countBefore, hnow]
      rw [hsame]
      exact h.rate a

/-- Times a span apart from those before are in no span with them. -/
theorem countBefore_append_le {old new : List α} (hgap : ∀ x ∈ old, ∀ y ∈ new, x + span ≤ y) (a : α) :
    countBefore span a (old ++ new) ≤ max (countBefore span a old) new.length := by
  by_cases hnew : countBefore span a new = 0
  · have happend : countBefore span a (old ++ new) = countBefore span a old := by
      rw [countBefore, List.countP_append]
      exact Nat.add_eq_left.mpr hnew
    rw [happend]
    exact le_max_left _ _
  · obtain ⟨y, hy, hin⟩ := List.countP_pos_iff.mp (Nat.pos_of_ne_zero hnew)
    have hin' : a ≤ y ∧ y < a + span := of_decide_eq_true hin
    have hold : countBefore span a old = 0 := by
      refine List.countP_eq_zero.mpr fun x hx hxin => ?_
      have hxin' : a ≤ x ∧ x < a + span := of_decide_eq_true hxin
      have hfar : a + span ≤ y := (add_le_add_left hxin'.1 span).trans (hgap x hx y hy)
      exact absurd hin'.2 (not_lt.mpr hfar)
    rw [countBefore, List.countP_append]
    refine le_trans ?_ (le_max_right _ _)
    rw [show List.countP _ old = 0 from hold, Nat.zero_add]
    exact List.countP_le_length

end Foundation.RateWindow
