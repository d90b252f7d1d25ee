import OpenRecall.Foundation.Run
import OpenRecall.Foundation.SlidingWindow
import OpenRecall.Model.Vad

/-!
# The law of the voice detector

The countdown after a voiced frame says how long ago that frame was. What it counts is stated for
every number at once: the countdown is above `k` exactly when one of the last frames was voiced,
`k` fewer of them than are kept (`mem_rtake_iff`). The noise floor stays below the energy that a
frame can have, so the product with the multiplier of the firmware fits in 32 bits.
-/

set_option autoImplicit false

namespace OpenRecall.Analysis.VadLaw

open Foundation OpenRecall.Model OpenRecall.Model.Vad

/-- The detector, and how it classified the frames so far. -/
abbrev Classified := Vad × List VadState

def step (r : Classified) (frame : List Sample) : Classified :=
  ((r.1.processSingleAdaptive frame).1, r.2 ++ [(r.1.processSingleAdaptive frame).2])

/-- **The law of one frame**: which state it gets by its energy and the states before it, and what
becomes of the noise floor. -/
structure Lawful (hangoverFrames : ℤ) (r : Classified) (frame : List Sample) : Prop where
  speech_iff : (r.1.processSingleAdaptive frame).2 = .speech ↔ r.1.threshold < energy frame
  hangover_iff : (r.1.processSingleAdaptive frame).2 = .hangover ↔
    energy frame ≤ r.1.threshold ∧ .speech ∈ r.2.rtake hangoverFrames.toNat
  gapMarker_iff : (r.1.processSingleAdaptive frame).2 = .gapMarker ↔
    energy frame ≤ r.1.threshold ∧ .speech ∉ r.2.rtake hangoverFrames.toNat
  frozen : (r.1.processSingleAdaptive frame).2 ≠ .gapMarker →
    (r.1.processSingleAdaptive frame).1.noiseFloor = r.1.noiseFloor
  towards : (r.1.processSingleAdaptive frame).1.noiseFloor.toNat ∈
    Set.uIcc r.1.noiseFloor.toNat (energy frame).toNat

/-- The threshold is computed without a wrap, so it is the documented one. -/
structure NoWrap (vad : Vad) : Prop where
  product_lt : vad.noiseFloor.toNat * vad.multiplier.toNat < 2 ^ 32
  threshold_eq : vad.threshold.toNat =
    max vad.floorMin.toNat (vad.noiseFloor.toNat * vad.multiplier.toNat)

/-! ## What one frame does -/

theorem process_of_lt {vad : Vad} {frame : List Sample} (h : vad.threshold < energy frame) :
    vad.processSingleAdaptive frame =
      ({ vad with hangoverLeft := vad.hangoverFrames }, .speech) := by
  simp [processSingleAdaptive, h]

theorem process_of_hangover {vad : Vad} {frame : List Sample}
    (h : ¬ vad.threshold < energy frame) (hleft : 0 < vad.hangoverLeft) :
    vad.processSingleAdaptive frame =
      ({ vad with hangoverLeft := vad.hangoverLeft - 1 }, .hangover) := by
  simp [processSingleAdaptive, h, hleft]

theorem process_of_gap {vad : Vad} {frame : List Sample}
    (h : ¬ vad.threshold < energy frame) (hleft : ¬ 0 < vad.hangoverLeft) :
    vad.processSingleAdaptive frame =
      ({ vad with noiseFloor := nextFloor vad.noiseFloor (energy frame) }, .gapMarker) := by
  simp [processSingleAdaptive, h, hleft]

/-! ## The countdown and the frames before -/

/-- Between two frames the countdown tells how many frames ago the last voiced one was. -/
structure Counted (hangoverFrames : ℤ) (r : Classified) : Prop where
  frames_eq : r.1.hangoverFrames = hangoverFrames
  mem_rtake_iff : ∀ k : ℕ,
    .speech ∈ r.2.rtake (hangoverFrames.toNat - k) ↔ (k : ℤ) < r.1.hangoverLeft

theorem counted_init (floor multiplier : UInt32) (hangoverFrames : ℤ) :
    Counted hangoverFrames (initAdaptive floor multiplier hangoverFrames, []) := by
  constructor
  · simp [initAdaptive]
  · intro k
    simp [initAdaptive]

/-- **A frame keeps the count.** -/
theorem Counted.step {hangoverFrames : ℤ} {r : Classified} (h : Counted hangoverFrames r)
    (frame : List Sample) : Counted hangoverFrames (step r frame) := by
  obtain ⟨vad, states⟩ := r
  obtain ⟨hframes, hcount⟩ := h
  simp only at hframes hcount
  by_cases hvoiced : vad.threshold < energy frame
  · simp only [VadLaw.step, process_of_lt hvoiced]
    refine ⟨hframes, fun k => ?_⟩
    rw [SlidingWindow.mem_rtake_concat]
    by_cases hroom : (k : ℤ) < hangoverFrames
    · have hpos : 0 < hangoverFrames.toNat - k := by omega
      simp [hpos, hframes, hroom]
    · have hnone : hangoverFrames.toNat - k = 0 := by omega
      simp [hnone, hframes, hroom]
  by_cases hleft : 0 < vad.hangoverLeft
  · simp only [VadLaw.step, process_of_hangover hvoiced hleft]
    refine ⟨hframes, fun k => ?_⟩
    rw [SlidingWindow.mem_rtake_concat, Nat.sub_sub, hcount (k + 1)]
    simp
    omega
  · simp only [VadLaw.step, process_of_gap hvoiced hleft]
    refine ⟨hframes, fun k => ?_⟩
    rw [SlidingWindow.mem_rtake_concat, Nat.sub_sub, hcount (k + 1)]
    simp
    omega

/-- Where the count is kept, the next frame is classified by the law. -/
theorem Counted.lawful {hangoverFrames : ℤ} {r : Classified} (h : Counted hangoverFrames r)
    (frame : List Sample) : Lawful hangoverFrames r frame := by
  have hkept : .speech ∈ r.2.rtake hangoverFrames.toNat ↔ 0 < r.1.hangoverLeft := by
    simpa using h.mem_rtake_iff 0
  by_cases hvoiced : r.1.threshold < energy frame
  · have hnot := UInt32.not_le.mpr hvoiced
    constructor <;> simp [process_of_lt hvoiced, hvoiced, hnot]
  have hquiet := UInt32.not_lt.mp hvoiced
  by_cases hleft : 0 < r.1.hangoverLeft
  · constructor <;> simp [process_of_hangover hvoiced hleft, hvoiced, hquiet, hkept, hleft]
  · have htowards : (nextFloor r.1.noiseFloor (energy frame)).toNat ∈
        Set.uIcc r.1.noiseFloor.toNat (energy frame).toNat := by
      rw [Set.mem_uIcc]
      rcases lt_or_ge (energy frame).toNat r.1.noiseFloor.toNat with hless | hmore
      · obtain ⟨hlow, hhigh⟩ := nextFloor_of_lt hless
        exact .inr ⟨hlow, hhigh.le⟩
      · exact .inl (nextFloor_of_le hmore)
    constructor <;>
      simp [process_of_gap hvoiced hleft, hvoiced, hquiet, hkept, hleft, htowards]

/-! ## The bound of the noise floor -/

/-- The noise floor is at most the greater of where it began and the energy of the loudest frame,
and the multiplier is the one that was configured. -/
structure Bounded (floor multiplier : UInt32) (r : Classified) : Prop where
  multiplier_eq : r.1.multiplier = multiplier
  noiseFloor_le : r.1.noiseFloor.toNat ≤ max floor.toNat (2 ^ 30)

theorem bounded_init (floor multiplier : UInt32) (hangoverFrames : ℤ) :
    Bounded floor multiplier (initAdaptive floor multiplier hangoverFrames, []) := by
  constructor
  · simp [initAdaptive]
  · simp [initAdaptive]

theorem Bounded.step {floor multiplier : UInt32} {r : Classified}
    (h : Bounded floor multiplier r) (frame : List Sample) :
    Bounded floor multiplier (step r frame) := by
  by_cases hvoiced : r.1.threshold < energy frame
  · simpa only [VadLaw.step, process_of_lt hvoiced] using ⟨h.multiplier_eq, h.noiseFloor_le⟩
  by_cases hleft : 0 < r.1.hangoverLeft
  · simpa only [VadLaw.step, process_of_hangover hvoiced hleft]
      using ⟨h.multiplier_eq, h.noiseFloor_le⟩
  · simp only [VadLaw.step, process_of_gap hvoiced hleft]
    refine ⟨h.multiplier_eq, ?_⟩
    have hfloor := h.noiseFloor_le
    have henergy := toNat_energy_le frame
    simp only
    rcases lt_or_ge (energy frame).toNat r.1.noiseFloor.toNat with hless | hmore
    · have hfall := nextFloor_of_lt hless
      omega
    · have hrise := nextFloor_of_le hmore
      omega

theorem noWrap_of_lt {vad : Vad} (h : vad.noiseFloor.toNat * vad.multiplier.toNat < 2 ^ 32) :
    NoWrap vad := by
  refine ⟨h, ?_⟩
  have hproduct : (vad.noiseFloor * vad.multiplier).toNat =
      vad.noiseFloor.toNat * vad.multiplier.toNat := by
    rw [UInt32.toNat_mul, Nat.mod_eq_of_lt h]
  rw [← hproduct, Vad.threshold]
  split
  · rename_i hless
    exact (max_eq_left (UInt32.lt_iff_toNat_lt.mp hless).le).symm
  · rename_i hmore
    exact (max_eq_right (UInt32.le_iff_toNat_le.mp (UInt32.not_lt.mp hmore))).symm

theorem Bounded.noWrap {floor multiplier : UInt32} {r : Classified}
    (h : Bounded floor multiplier r)
    (hconfig : max floor.toNat (2 ^ 30) * multiplier.toNat < 2 ^ 32) : NoWrap r.1 := by
  apply noWrap_of_lt
  rw [h.multiplier_eq]
  exact (Nat.mul_le_mul_right _ h.noiseFloor_le).trans_lt hconfig

/-- **The law of the detector**: after any frames the next one is classified by the law, whatever
the detector is configured with, and no threshold of the detector of the audio task wraps. Nor does
one of a detector whose floor and multiplier leave room for the loudest frame.
SOURCE: vad.c:68-108 -/
theorem lawful_noWrap (frames : List (List Sample)) :
    (∀ (floor multiplier : UInt32) (hangoverFrames : ℤ) (frame : List Sample),
      Lawful hangoverFrames (run step (initAdaptive floor multiplier hangoverFrames, []) frames)
        frame) ∧
    (∀ (floor multiplier : UInt32) (hangoverFrames : ℤ),
      max floor.toNat (2 ^ 30) * multiplier.toNat < 2 ^ 32 →
        NoWrap (run step (initAdaptive floor multiplier hangoverFrames, []) frames).1) ∧
    NoWrap (run step (ofConfig, []) frames).1 := by
  have hnoWrap : ∀ (floor multiplier : UInt32) (hangoverFrames : ℤ),
      max floor.toNat (2 ^ 30) * multiplier.toNat < 2 ^ 32 →
        NoWrap (run step (initAdaptive floor multiplier hangoverFrames, []) frames).1 := by
    intro floor multiplier hangoverFrames hconfig
    have hbounded := run_invariant (I := Bounded floor multiplier)
      (fun r frame h => h.step frame) (bounded_init floor multiplier hangoverFrames) frames
    exact hbounded.noWrap hconfig
  refine ⟨fun floor multiplier hangoverFrames frame => ?_, hnoWrap, ?_⟩
  · have hcounted := run_invariant (I := Counted hangoverFrames) (fun r frame h => h.step frame)
      (counted_init floor multiplier hangoverFrames) frames
    exact hcounted.lawful frame
  · apply hnoWrap
    decide

end OpenRecall.Analysis.VadLaw
