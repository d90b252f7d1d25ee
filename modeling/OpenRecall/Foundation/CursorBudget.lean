import Mathlib

/-!
# A cursor with a budget

A cursor goes on to marks in turn, and each step spends the distance it goes, as long as a budget
lasts. However the way is cut into steps, what is spent is the whole distance or the budget
(`sum_amounts`).
-/

set_option autoImplicit false

namespace Foundation.CursorBudget

/-- What the steps to some marks spend, from a cursor and with something spent before. -/
def amounts (cap : ℕ) : List ℕ → ℕ → ℕ → List ℕ
  | [], _, _ => []
  | mark :: marks, cursor, spent =>
    min (mark - cursor) (cap - spent) ::
      amounts cap marks (max cursor mark) (spent + min (mark - cursor) (cap - spent))

theorem le_foldl_max (marks : List ℕ) (cursor : ℕ) : cursor ≤ marks.foldl max cursor := by
  induction marks generalizing cursor with
  | nil => exact le_rfl
  | cons mark marks ih => exact (le_max_left _ _).trans (ih _)

/-- **The steps together** spend the distance from the cursor to the last mark it reaches, or what is
left of the budget. -/
theorem sum_amounts (cap : ℕ) (marks : List ℕ) (cursor spent : ℕ) :
    (amounts cap marks cursor spent).sum =
      min (marks.foldl max cursor - cursor) (cap - spent) := by
  induction marks generalizing cursor spent with
  | nil => simp [amounts]
  | cons mark marks ih =>
    have hle := le_foldl_max marks (max cursor mark)
    rw [amounts, List.sum_cons, ih, List.foldl_cons, ← Nat.sub_sub]
    generalize cap - spent = left
    rcases le_total mark cursor with hpast | hpast
    · rw [max_eq_left hpast, Nat.sub_eq_zero_of_le hpast, Nat.zero_min, Nat.zero_add, Nat.sub_zero]
    · rw [max_eq_right hpast] at hle ⊢
      omega

/-- Marks below a last one make no difference. -/
theorem sum_amounts_concat {marks : List ℕ} {last : ℕ} (h : ∀ mark ∈ marks, mark ≤ last)
    (cap cursor : ℕ) :
    (amounts cap (marks ++ [last]) cursor 0).sum = min (last - cursor) cap := by
  have hmax : ∀ cursor, (marks ++ [last]).foldl max cursor = max cursor last := by
    induction marks with
    | nil => simp
    | cons mark marks ih =>
      intro cursor
      have hmark := h mark (by simp)
      rw [List.cons_append, List.foldl_cons, ih fun m hm => h m (List.mem_cons_of_mem _ hm)]
      omega
  rw [sum_amounts, hmax]
  omega

end Foundation.CursorBudget
