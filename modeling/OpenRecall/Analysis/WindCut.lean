import OpenRecall.Foundation.Run
import OpenRecall.Foundation.SecondOrder
import OpenRecall.Model.AudioFilters

/-!
# The wind cut does not overflow

The poles of the high-pass are complex and lie within the unit circle, so that the energy of its
state, in the sense of second-order recursions, shrinks by `a₂` at each sample. What a sample and
the rounding of the output add is small beside that, because the zeros of the filter are close to
its poles. `noOverflow_process` follows: from the initial state on, no sequence of samples takes
a value out of the integer that holds it.
-/

set_option autoImplicit false

namespace OpenRecall.Analysis.WindCut

open Foundation Foundation.SecondOrder OpenRecall.Model OpenRecall.Model.Hpf

/-- **No value of the step leaves the integer that holds it**: the state and the output are held
in 32 bits, the accumulator in 64. -/
structure NoOverflow (f : Hpf) (x0 : Sample) : Prop where
  state : Fits 32 f.x1 ∧ Fits 32 f.x2 ∧ Fits 32 f.y1Q14 ∧ Fits 32 f.y2Q14
  accInputs : Fits 64 ((hpfB0Q14 * x0.1 + hpfB1Q14 * f.x1 + hpfB2Q14 * f.x2) * 2 ^ 14)
  accFirst : Fits 64 (f.accInputs x0 - hpfA1Q14 * f.y1Q14)
  acc : Fits 64 (f.accFirst x0 - hpfA2Q14 * f.y2Q14)
  y0 : Fits 32 (f.acc x0 / 2 ^ 14)
  bias : Fits 32 (f.y0 x0 + 2 ^ 13)
  rounded : Fits 32 (f.rounded x0)

/-! ## The state as numbers -/

/-- The feedback coefficients. -/
def a₁ : ℚ := hpfA1Q14 / 2 ^ 14

def a₂ : ℚ := hpfA2Q14 / 2 ^ 14

/-- What the next output has apart from the next sample. -/
def ahead (f : Hpf) : ℚ := hpfB1Q14 * f.x1 + hpfB2Q14 * f.x2 - a₁ * f.y1Q14 - a₂ * f.y2Q14

/-- What the output after it has from the past. -/
def further (f : Hpf) : ℚ := hpfB2Q14 * f.x1 - a₂ * f.y1Q14

/-- What the energy stays below. -/
def maxEnergy : ℚ := 2489519708222346

/-- What the outputs stay below. -/
def maxOutput : ℤ := 1559078273

/-- The invariant: the last inputs are samples, the last outputs are bounded, and the energy of
what is ahead is. -/
structure Bounded (f : Hpf) : Prop where
  x1 : -32768 ≤ f.x1 ∧ f.x1 ≤ 32767
  x2 : -32768 ≤ f.x2 ∧ f.x2 ≤ 32767
  y1 : -maxOutput ≤ f.y1Q14 ∧ f.y1Q14 ≤ maxOutput
  y2 : -maxOutput ≤ f.y2Q14 ∧ f.y2Q14 ≤ maxOutput
  energy : energy a₁ a₂ (ahead f) (further f) ≤ maxEnergy

theorem bounded_init : Bounded {} := by
  refine ⟨by decide, by decide, by decide, by decide, ?_⟩
  simp [ahead, further, energy, maxEnergy]

theorem sq_a₁_le : a₁ ^ 2 ≤ 4 * a₂ := by
  norm_num [a₁, a₂, hpfA1Q14, hpfA2Q14]

section

variable {f : Hpf}

/-- The energy bounds what is ahead. -/
theorem Bounded.ahead_le (h : Bounded f) : |ahead f| ≤ 1048388992 := by
  have hform := (sq_le_energy a₁ a₂ (ahead f) (further f)).trans
    (mul_le_mul_of_nonneg_left h.energy (by norm_num : (0 : ℚ) ≤ 4))
  apply abs_le_of_sq_le_sq _ (by norm_num)
  simp only [a₁, a₂, hpfA1Q14, hpfA2Q14, maxEnergy] at hform
  norm_num at hform ⊢
  linarith

/-- The accumulator's value. -/
def exactAcc (f : Hpf) (x0 : Sample) : ℤ :=
  (hpfB0Q14 * x0.1 + hpfB1Q14 * f.x1 + hpfB2Q14 * f.x2) * 2 ^ 14 - hpfA1Q14 * f.y1Q14 -
    hpfA2Q14 * f.y2Q14

theorem exactAcc_eq (f : Hpf) (x0 : Sample) :
    (exactAcc f x0 : ℚ) = (hpfB0Q14 * x0.1 + ahead f) * 2 ^ 14 := by
  simp only [exactAcc, ahead, a₁, a₂]
  push_cast
  ring

/-- The output before it is narrowed: the accumulator's value without its fraction. -/
theorem output_between (f : Hpf) (x0 : Sample) :
    ((exactAcc f x0 / 2 ^ 14 : ℤ) : ℚ) ≤ hpfB0Q14 * x0.1 + ahead f ∧
      hpfB0Q14 * x0.1 + ahead f < ((exactAcc f x0 / 2 ^ 14 : ℤ) : ℚ) + 1 := by
  have hle : exactAcc f x0 / 2 ^ 14 * 2 ^ 14 ≤ exactAcc f x0 :=
    Int.ediv_mul_le _ (by norm_num)
  have hlt : exactAcc f x0 < (exactAcc f x0 / 2 ^ 14 + 1) * 2 ^ 14 :=
    Int.lt_ediv_add_one_mul_self _ (by norm_num)
  have hle' : ((exactAcc f x0 / 2 ^ 14 : ℤ) : ℚ) * 2 ^ 14 ≤ exactAcc f x0 := by exact_mod_cast hle
  have hlt' : (exactAcc f x0 : ℚ) < (((exactAcc f x0 / 2 ^ 14 : ℤ) : ℚ) + 1) * 2 ^ 14 := by
    exact_mod_cast hlt
  rw [exactAcc_eq] at hle' hlt'
  exact ⟨le_of_mul_le_mul_right hle' (by norm_num), lt_of_mul_lt_mul_right hlt' (by norm_num)⟩

theorem sample_le (x0 : Sample) : (-32768 : ℚ) ≤ x0.1 ∧ (x0.1 : ℚ) ≤ 32767 := by
  exact_mod_cast x0.2

theorem Bounded.output_le (h : Bounded f) (x0 : Sample) :
    -maxOutput ≤ exactAcc f x0 / 2 ^ 14 ∧ exactAcc f x0 / 2 ^ 14 ≤ maxOutput := by
  obtain ⟨hle, hlt⟩ := output_between f x0
  obtain ⟨hlow, hhigh⟩ := sample_le x0
  obtain ⟨hahead, hahead'⟩ := abs_le.mp h.ahead_le
  have hlower : (-maxOutput : ℚ) < ((exactAcc f x0 / 2 ^ 14 : ℤ) : ℚ) := by
    simp only [hpfB0Q14, maxOutput] at hlt ⊢
    push_cast at hlt ⊢
    linarith
  have hupper : ((exactAcc f x0 / 2 ^ 14 : ℤ) : ℚ) ≤ (maxOutput : ℚ) := by
    simp only [hpfB0Q14, maxOutput] at hle ⊢
    push_cast at hle ⊢
    linarith
  constructor
  · exact_mod_cast hlower.le
  · exact_mod_cast hupper

/-- The state after a step whose values fit. -/
def next (f : Hpf) (x0 : Sample) : Hpf := ⟨x0.1, f.x1, exactAcc f x0 / 2 ^ 14, f.y1Q14⟩

/-- What a sample and a rounding error add to the state has little energy: the first two
coefficients of the response nearly cancel. -/
theorem energy_input_le (x0 : Sample) {e : ℚ} (he : 0 ≤ e ∧ e ≤ 1) :
    energy a₁ a₂ ((hpfB1Q14 - a₁ * hpfB0Q14) * x0.1 + a₁ * e)
      ((hpfB2Q14 - a₂ * hpfB0Q14) * x0.1 + a₂ * e) ≤ 5916936213608 := by
  have hsum := energy_add_le sq_a₁_le (by norm_num : (0 : ℚ) < 1 / 1000)
    ((hpfB1Q14 - a₁ * hpfB0Q14) * x0.1) ((hpfB2Q14 - a₂ * hpfB0Q14) * x0.1) (a₁ * e) (a₂ * e)
  rw [energy_smul, energy_smul] at hsum
  have hx : (x0.1 : ℚ) ^ 2 ≤ 32768 ^ 2 := by
    obtain ⟨hlow, hhigh⟩ := sample_le x0
    apply sq_le_sq' hlow
    linarith
  have he : e ^ 2 ≤ 1 := pow_le_one₀ he.1 he.2
  simp only [energy, a₁, a₂, hpfA1Q14, hpfA2Q14, hpfB0Q14, hpfB1Q14, hpfB2Q14] at hsum ⊢
  norm_num at hsum ⊢
  linarith

theorem Bounded.next (h : Bounded f) (x0 : Sample) : Bounded (next f x0) := by
  refine ⟨x0.2, h.x1, h.output_le x0, h.y1, ?_⟩
  obtain ⟨hle, hlt⟩ := output_between f x0
  set e : ℚ := hpfB0Q14 * x0.1 + ahead f - ((exactAcc f x0 / 2 ^ 14 : ℤ) : ℚ) with he
  have hahead : ahead (WindCut.next f x0) = -a₁ * ahead f + further f +
      ((hpfB1Q14 - a₁ * hpfB0Q14) * x0.1 + a₁ * e) := by
    rw [he, ahead, WindCut.next, further]
    ring
  have hfurther : further (WindCut.next f x0) =
      -a₂ * ahead f + ((hpfB2Q14 - a₂ * hpfB0Q14) * x0.1 + a₂ * e) := by
    rw [he, further, WindCut.next]
    ring
  rw [hahead, hfurther]
  apply energy_next_le sq_a₁_le _ (by norm_num : (0 : ℚ) < 1 / 20) _ h.energy
    (energy_input_le x0 ⟨by linarith, by linarith⟩)
  · norm_num [a₂, hpfA2Q14]
  · norm_num [a₂, hpfA2Q14, maxEnergy]

/-! ## The machine integers -/

/-- In a bounded state the accumulator is exact. -/
theorem Bounded.acc_eq (h : Bounded f) (x0 : Sample) :
    Fits 64 ((hpfB0Q14 * x0.1 + hpfB1Q14 * f.x1 + hpfB2Q14 * f.x2) * 2 ^ 14) ∧
      Fits 64 (f.accInputs x0 - hpfA1Q14 * f.y1Q14) ∧
      Fits 64 (f.accFirst x0 - hpfA2Q14 * f.y2Q14) ∧ f.acc x0 = exactAcc f x0 := by
  obtain ⟨hx0, hx0'⟩ := x0.2
  obtain ⟨⟨hx1, hx1'⟩, ⟨hx2, hx2'⟩, ⟨hy1, hy1'⟩, ⟨hy2, hy2'⟩, -⟩ := h
  simp only [maxOutput] at hy1 hy1' hy2 hy2'
  have hinputs : Fits 64 ((hpfB0Q14 * x0.1 + hpfB1Q14 * f.x1 + hpfB2Q14 * f.x2) * 2 ^ 14) := by
    simp only [Fits, hpfB0Q14, hpfB1Q14, hpfB2Q14]
    omega
  have haccInputs := wrap_eq_self (by norm_num) hinputs
  have hfirst : Fits 64 (f.accInputs x0 - hpfA1Q14 * f.y1Q14) := by
    rw [accInputs, haccInputs]
    simp only [Fits, hpfB0Q14, hpfB1Q14, hpfB2Q14, hpfA1Q14]
    omega
  have haccFirst := wrap_eq_self (by norm_num) hfirst
  have hacc : Fits 64 (f.accFirst x0 - hpfA2Q14 * f.y2Q14) := by
    rw [accFirst, haccFirst, accInputs, haccInputs]
    simp only [Fits, hpfB0Q14, hpfB1Q14, hpfB2Q14, hpfA1Q14, hpfA2Q14]
    omega
  refine ⟨hinputs, hfirst, hacc, ?_⟩
  rw [Hpf.acc, wrap_eq_self (by norm_num) hacc, accFirst, haccFirst, accInputs, haccInputs, exactAcc]

theorem fits_of_abs_le {v : ℤ} (h : -maxOutput - 2 ^ 13 ≤ v ∧ v ≤ maxOutput + 2 ^ 13) : Fits 32 v := by
  simp only [maxOutput] at h
  simp only [Fits]
  omega

/-- **The step lemma.** -/
theorem Bounded.step (h : Bounded f) (x0 : Sample) :
    NoOverflow f x0 ∧ (f.step x0).1 = WindCut.next f x0 := by
  obtain ⟨hinputs, hfirst, hacc, haccEq⟩ := h.acc_eq x0
  obtain ⟨hlow, hhigh⟩ := h.output_le x0
  have hy0 : f.y0 x0 = exactAcc f x0 / 2 ^ 14 := by
    rw [Hpf.y0, haccEq]
    apply wrap_eq_self (by norm_num)
    apply fits_of_abs_le
    omega
  have hbias : Fits 32 (f.y0 x0 + 2 ^ 13) := by
    rw [hy0]
    apply fits_of_abs_le
    omega
  constructor
  · refine ⟨⟨?_, ?_, ?_, ?_⟩, hinputs, hfirst, hacc, ?_, hbias, ?_⟩
    · obtain ⟨hx, hx'⟩ := h.x1
      apply fits_of_abs_le
      simp only [maxOutput]
      omega
    · obtain ⟨hx, hx'⟩ := h.x2
      apply fits_of_abs_le
      simp only [maxOutput]
      omega
    · obtain ⟨hy, hy'⟩ := h.y1
      apply fits_of_abs_le
      omega
    · obtain ⟨hy, hy'⟩ := h.y2
      apply fits_of_abs_le
      omega
    · rw [haccEq]
      apply fits_of_abs_le
      omega
    · rw [Hpf.rounded, wrap_eq_self (by norm_num) hbias, hy0]
      apply fits_of_abs_le
      simp only [maxOutput] at hlow hhigh ⊢
      omega
  · rw [Hpf.step, hy0, WindCut.next]

theorem Bounded.process (h : Bounded f) (pcm : List Sample) : Bounded (f.process pcm).1 := by
  unfold Hpf.process
  induction pcm generalizing f with
  | nil => exact h
  | cons x0 pcm ih =>
    have hnext : Bounded (f.step x0).1 := by
      rw [(h.step x0).2]
      exact h.next x0
    exact ih hnext

end

/-- **The wind cut never overflows**: after any chunks of samples from the initial state, and at
every sample of the next chunk, every value fits in the integer that holds it.
SOURCE: hpf.c:11-42, config.h:120-124 -/
theorem noOverflow_process (chunks : List (List Sample)) (chunk : List Sample) :
    EveryStep (fun f x0 => (Hpf.step f x0).1) NoOverflow
      (chunks.foldl (fun f pcm => (Hpf.process f pcm).1) {}) chunk := by
  have hbounded : Bounded (chunks.foldl (fun f pcm => (Hpf.process f pcm).1) {}) :=
    run_invariant (fun f pcm h => h.process pcm) bounded_init chunks
  refine (everyStep_true _ chunk).of_invariant (I := Bounded) (fun f x0 h _ => ?_)
    (fun f x0 h _ => (h.step x0).1) hbounded
  rw [(h.step x0).2]
  exact h.next x0

end OpenRecall.Analysis.WindCut
