import OpenRecall.Model.AudioFilters

/-!
# Which offsets the DC blocker removes

While the input is constant the output only decays: it is multiplied by a little less than 1 and
rounded down. So a positive output goes to 0, and a negative one from -199 on stays where it is.
`settles_iff` says exactly from which states and for which constants the output gets below the
bound of the host test: from those whose first output is above -100.
-/

set_option autoImplicit false

namespace OpenRecall.Analysis.DcRemoval

open OpenRecall.Model OpenRecall.Model.DcBlocker

/-- The bound of the host test.
SOURCE: test_dc_blocker.c:36-37 -/
def testBound : ℤ := 100

/-- **A constant is removed**: from some sample on, all outputs are below the bound for as long as
the input stays constant. -/
def Settles (b : DcBlocker) (c : Sample) : Prop :=
  ∃ N, ∀ n, ∀ y ∈ (b.process (List.replicate n c)).2.drop N, |y.1| < testBound

/-! ## The decay of the output -/

/-- The output after a given one, while the input is constant. -/
def decay (y : ℤ) : ℤ := dcBlockerRQ15 * y / 2 ^ 15

theorem decay_lt {y : ℤ} (h : 0 < y) : 0 ≤ decay y ∧ decay y < y := by
  simp only [decay, dcBlockerRQ15]
  omega

/-- Near zero a negative output is not rounded towards it. -/
theorem decay_eq_self {y : ℤ} (h : -199 ≤ y ∧ y ≤ 0) : decay y = y := by
  simp only [decay, dcBlockerRQ15]
  omega

theorem decay_le {y : ℤ} (h : y ≤ -100) : decay y ≤ -100 := by
  simp only [decay, dcBlockerRQ15]
  omega

theorem iterate_decay_le (k : ℕ) {y : ℤ} (h : y ≤ -100) : decay^[k] y ≤ -100 := by
  induction k generalizing y with
  | zero => exact h
  | succ k ih => exact ih (decay_le h)

/-- A positive output is 0 after as many samples as it is large. -/
theorem iterate_decay_of_nonneg (k : ℕ) {y : ℤ} (h : 0 ≤ y) :
    0 ≤ decay^[k] y ∧ decay^[k] y ≤ max (y - k) 0 := by
  induction k generalizing y with
  | zero => simpa using h
  | succ k ih =>
    rw [Function.iterate_succ_apply]
    rcases h.eq_or_lt with rfl | hpos
    · have hzero : decay 0 = 0 := decay_eq_self (by omega)
      obtain ⟨hlow, hhigh⟩ := ih hzero.ge
      rw [hzero] at hlow hhigh ⊢
      refine ⟨hlow, hhigh.trans ?_⟩
      simp
    · obtain ⟨hnonneg, hless⟩ := decay_lt hpos
      obtain ⟨hlow, hhigh⟩ := ih hnonneg
      refine ⟨hlow, hhigh.trans ?_⟩
      push_cast
      omega

/-- **The decay gets below the bound, and stays there, exactly from above -100.** -/
theorem iterate_decay_iff (y : ℤ) :
    (∃ N, ∀ k, N ≤ k → |decay^[k] y| < testBound) ↔ -100 < y := by
  constructor
  · rintro ⟨N, h⟩
    by_contra hlow
    have hstays := iterate_decay_le N (not_lt.mp hlow)
    have hN := abs_lt.mp (h N le_rfl)
    simp only [testBound] at hN
    omega
  · intro hlow
    rcases le_or_gt 0 y with hnonneg | hneg
    · refine ⟨y.toNat, fun k hk => ?_⟩
      obtain ⟨hlow, hhigh⟩ := iterate_decay_of_nonneg k hnonneg
      rw [abs_lt, testBound]
      omega
    · refine ⟨0, fun k _ => ?_⟩
      rw [Function.iterate_fixed (decay_eq_self ⟨by omega, hneg.le⟩), abs_lt, testBound]
      omega

/-! ## The filter under a constant -/

/-- No value of a step leaves its 32 bits. -/
theorem raw_eq (b : DcBlocker) (x : Sample) :
    b.raw x = x.1 - b.xPrev.1 + dcBlockerRQ15 * b.yPrev.1 / 2 ^ 15 := by
  obtain ⟨hx, hx'⟩ := x.2
  obtain ⟨hprev, hprev'⟩ := b.xPrev.2
  obtain ⟨hy, hy'⟩ := b.yPrev.2
  have hproduct : wrap 32 (dcBlockerRQ15 * b.yPrev.1) = dcBlockerRQ15 * b.yPrev.1 := by
    apply wrap_eq_self (by norm_num)
    simp only [Fits, dcBlockerRQ15]
    omega
  rw [raw, hproduct]
  apply wrap_eq_self (by norm_num)
  simp only [Fits, dcBlockerRQ15]
  omega

theorem satInt16_eq_self {v : ℤ} (h : -32768 ≤ v ∧ v ≤ 32767) : (satInt16 v).1 = v := by
  unfold satInt16
  split_ifs
  · omega
  · omega
  · rfl

theorem lt_satInt16_iff (v : ℤ) : -100 < (satInt16 v).1 ↔ -100 < v := by
  unfold satInt16
  split_ifs <;> dsimp only <;> omega

theorem step_same (c y : Sample) : (step ⟨c, y⟩ c).2.1 = decay y.1 := by
  obtain ⟨hlow, hhigh⟩ := y.2
  show (satInt16 (raw ⟨c, y⟩ c)).1 = decay y.1
  rw [raw_eq, sub_self, zero_add]
  apply satInt16_eq_self
  simp only [dcBlockerRQ15]
  omega

/-- **The outputs under a constant**: a first one, which then decays. -/
theorem process_replicate (b : DcBlocker) (c : Sample) (n : ℕ) :
    (b.process (List.replicate n c)).2.map Subtype.val =
      (List.range n).map fun k => decay^[k] (b.step c).2.1 := by
  induction n generalizing b with
  | zero => rfl
  | succ n ih =>
    have hrest := ih (b.step c).1
    rw [show (b.step c).1 = ⟨c, (b.step c).2⟩ from rfl, step_same] at hrest
    rw [List.replicate_succ, List.range_succ_eq_map, List.map_cons, List.map_map]
    exact congrArg ((b.step c).2.1 :: ·) hrest

theorem settles_iff_decay (b : DcBlocker) (c : Sample) :
    Settles b c ↔ ∃ N, ∀ k, N ≤ k → |decay^[k] (b.step c).2.1| < testBound := by
  apply exists_congr
  intro N
  have hmem (n : ℕ) : (∀ y ∈ (b.process (List.replicate n c)).2.drop N, |y.1| < testBound) ↔
      ∀ v ∈ ((List.range n).map fun k => decay^[k] (b.step c).2.1).drop N, |v| < testBound := by
    rw [← process_replicate, ← List.map_drop, List.forall_mem_map]
  have hdrop (n k : ℕ) : k ∈ (List.range n).drop N ↔ N ≤ k ∧ k < n := by
    rw [List.range_eq_range', List.drop_range', List.mem_range'_1]
    omega
  simp only [hmem, ← List.map_drop, List.forall_mem_map, hdrop]
  constructor
  · intro h k hk
    exact h (k + 1) k ⟨hk, Nat.lt_succ_self k⟩
  · intro h n k hk
    exact h k hk.1

/-- **A constant is removed if and only if the first output under it is above -100.**
SOURCE: dc_blocker.c:17-33, test_dc_blocker.c:19-38 -/
theorem settles_iff (b : DcBlocker) (c : Sample) :
    Settles b c ↔ -100 < c.1 - b.xPrev.1 + dcBlockerRQ15 * b.yPrev.1 / 2 ^ 15 := by
  rw [settles_iff_decay, iterate_decay_iff, ← raw_eq]
  exact lt_satInt16_iff _

/-- Silence, and then -150 for ever: the output stays -150. -/
theorem not_always_settles : ¬ ∀ (pcm : List Sample) (c : Sample),
    Settles (process {} pcm).1 c := by
  intro h
  obtain ⟨N, hN⟩ := (settles_iff_decay {} ⟨-150, by decide⟩).mp (h [] ⟨-150, by decide⟩)
  have hstays := hN N le_rfl
  rw [show (step {} ⟨-150, by decide⟩).2.1 = -150 from rfl,
    Function.iterate_fixed (decay_eq_self (by omega))] at hstays
  exact absurd hstays (by decide)

end OpenRecall.Analysis.DcRemoval
