import Mathlib

/-!
# Intervals on two clocks

Items with a start and a duration. Laid end to end, each starts where the one before it
stops: `EndToEnd`. Placed in time they leave pauses, `pausesFrom`, and the start of an item
is what the items before it last and the pauses so far add up to (`sum_pauses`).

If items are laid end to end although they stand for intervals with pauses, each starts too
early by the pauses so far: `EndToEnd.start_add_pauses`.
-/

set_option autoImplicit false

universe u v

namespace Foundation

variable {α : Type u} {β : Type v}

/-- The items are laid end to end from one time to another. -/
inductive EndToEnd (start duration : α → ℤ) : ℤ → List α → ℤ → Prop where
  | nil (t : ℤ) : EndToEnd start duration t [] t
  | cons {x : α} {xs : List α} {t t' : ℤ} (hstart : start x = t)
      (rest : EndToEnd start duration (t + duration x) xs t') :
      EndToEnd start duration t (x :: xs) t'

/-- The pauses before the items, from a time on; one is negative where items overlap. -/
def pausesFrom (start duration : α → ℤ) : ℤ → List α → List ℤ
  | _, [] => []
  | t, x :: xs => (start x - t) :: pausesFrom start duration (start x + duration x) xs

/-- The pauses up to an item and the durations before it add up to its start. -/
theorem sum_pauses (start duration : α → ℤ) (t : ℤ) {xs : List α} {k : ℕ} {x : α}
    (hx : xs[k]? = some x) :
    t + ((pausesFrom start duration t xs).take (k + 1)).sum + ((xs.take k).map duration).sum =
      start x := by
  induction xs generalizing t k with
  | nil => simp at hx
  | cons y ys ih =>
    cases k with
    | zero =>
      obtain rfl := Option.some.inj hx
      simp [pausesFrom]
    | succ k =>
      have htail := ih (start y + duration y) hx
      rw [pausesFrom, List.take_succ_cons, List.take_succ_cons, List.map_cons, List.sum_cons,
        List.sum_cons]
      omega

section

variable {start duration : α → ℤ}

/-- Two stretches that meet are one. -/
theorem EndToEnd.append {t t' t'' : ℤ} {xs ys : List α} (h : EndToEnd start duration t xs t')
    (h' : EndToEnd start duration t' ys t'') : EndToEnd start duration t (xs ++ ys) t'' := by
  induction h with
  | nil => exact h'
  | cons hstart _ ih => exact .cons hstart (ih h')

/-- An item starts when those before it have passed. -/
theorem EndToEnd.start_eq {t t' : ℤ} {xs : List α} (h : EndToEnd start duration t xs t')
    {k : ℕ} {x : α} (hx : xs[k]? = some x) :
    start x = t + ((xs.take k).map duration).sum := by
  induction h generalizing k with
  | nil => simp at hx
  | @cons y ys t t' hstart _ ih =>
    cases k with
    | zero =>
      obtain rfl := Option.some.inj hx
      simpa using hstart
    | succ k =>
      have htail := ih hx
      rw [List.take_succ_cons, List.map_cons, List.sum_cons]
      omega

/-- **Laid end to end, an item starts too early by the pauses so far** of what it stands for. -/
theorem EndToEnd.start_add_pauses {start' duration' : β → ℤ} {t t' : ℤ} {xs : List α}
    {ys : List β} (h : EndToEnd start duration t xs t')
    (hsame : xs.map duration = ys.map duration') {k : ℕ} {x : α} {y : β}
    (hx : xs[k]? = some x) (hy : ys[k]? = some y) :
    start x + ((pausesFrom start' duration' t ys).take (k + 1)).sum = start' y := by
  have hxs := h.start_eq hx
  have hys := sum_pauses start' duration' t hy
  have htake : (xs.take k).map duration = (ys.take k).map duration' := by
    rw [List.map_take, List.map_take, hsame]
  rw [htake] at hxs
  omega

end

end Foundation
