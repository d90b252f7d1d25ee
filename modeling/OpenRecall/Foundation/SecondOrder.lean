import Mathlib

/-!
# Second-order recursions

A recursion of order two keeps a state of two numbers, `u` and `v`, and takes it to
`-a₁ u + v` and `-a₂ u`, plus what is fed in. Where the roots of its polynomial are not real the
quadratic form `energy` is positive, and a step without input multiplies it by `a₂`. So inputs of
bounded energy keep the state in a bounded ellipse.
-/

set_option autoImplicit false

namespace Foundation.SecondOrder

variable {K : Type} [Field K]

/-- The form that a step multiplies. -/
def energy (a₁ a₂ u v : K) : K := a₂ * u ^ 2 - a₁ * u * v + v ^ 2

/-- **A step without input multiplies the energy by `a₂`.** -/
theorem energy_step (a₁ a₂ u v : K) :
    energy a₁ a₂ (-a₁ * u + v) (-a₂ * u) = a₂ * energy a₁ a₂ u v := by
  unfold energy
  ring

theorem energy_smul (a₁ a₂ u v x : K) :
    energy a₁ a₂ (u * x) (v * x) = energy a₁ a₂ u v * x ^ 2 := by
  unfold energy
  ring

variable [LinearOrder K] [IsStrictOrderedRing K] {a₁ a₂ : K}

/-- The energy bounds the first number of the state. -/
theorem sq_le_energy (a₁ a₂ u v : K) :
    (4 * a₂ - a₁ ^ 2) * u ^ 2 ≤ 4 * energy a₁ a₂ u v := by
  have hsquare := sq_nonneg (a₁ * u - 2 * v)
  unfold energy
  linarith

theorem energy_nonneg (h : a₁ ^ 2 ≤ 4 * a₂) (u v : K) : 0 ≤ energy a₁ a₂ u v := by
  have hle := sq_le_energy a₁ a₂ u v
  have hpos := mul_nonneg (sub_nonneg.mpr h) (sq_nonneg u)
  linarith

/-- The energy of a sum, for any weight of its two parts. -/
theorem energy_add_le (h : a₁ ^ 2 ≤ 4 * a₂) {t : K} (ht : 0 < t) (u v u' v' : K) :
    energy a₁ a₂ (u + u') (v + v') ≤
      (1 + t) * energy a₁ a₂ u v + (1 + 1 / t) * energy a₁ a₂ u' v' := by
  have hmixed := mul_nonneg (one_div_pos.mpr ht).le
    (energy_nonneg h (t * u - u') (t * v - v'))
  have hsplit : (1 + t) * energy a₁ a₂ u v + (1 + 1 / t) * energy a₁ a₂ u' v' -
      energy a₁ a₂ (u + u') (v + v') =
        1 / t * energy a₁ a₂ (t * u - u') (t * v - v') := by
    unfold energy
    field_simp
    ring
  linarith

/-- **The ellipse is invariant**: a state of energy at most `r` stays so, under inputs of energy
at most `m`, if the two together leave room for the weight `t`. -/
theorem energy_next_le (h : a₁ ^ 2 ≤ 4 * a₂) (ha₂ : 0 ≤ a₂) {t r m : K} (ht : 0 < t)
    (hroom : (1 + t) * (a₂ * r) + (1 + 1 / t) * m ≤ r) {u v p q : K}
    (hstate : energy a₁ a₂ u v ≤ r) (hinput : energy a₁ a₂ p q ≤ m) :
    energy a₁ a₂ (-a₁ * u + v + p) (-a₂ * u + q) ≤ r := by
  have hsum := energy_add_le h ht (-a₁ * u + v) (-a₂ * u) p q
  rw [energy_step] at hsum
  have hfree : (1 + t) * (a₂ * energy a₁ a₂ u v) ≤ (1 + t) * (a₂ * r) := by gcongr
  have hfed : (1 + 1 / t) * energy a₁ a₂ p q ≤ (1 + 1 / t) * m := by gcongr
  linarith

end Foundation.SecondOrder
