import OpenRecall.Model.AudioPacket
import OpenRecall.Model.AudioFilters

/-!
# The voice detector of the microphone

A frame is voiced when its energy is above a threshold. The threshold follows the energy of the
quiet frames, and after a voiced frame some frames more are kept.
-/

set_option autoImplicit false

namespace OpenRecall.Model

/-- SOURCE: config.h:90 -/
def vadEnergyThresholdFloor : UInt32 := 10000

/-- SOURCE: config.h:91 -/
def vadNoiseMultiplier : UInt32 := 3

/-- SOURCE: config.h:92 -/
def vadNoiseAlphaDownQ16 : ℤ := 1311

/-- SOURCE: config.h:93 -/
def vadNoiseAlphaUpQ16 : ℤ := 131

/-- SOURCE: config.h:40-41 -/
def vadHangoverFrames : ℤ := 600 / 20

/-- The detector that tracks the noise, with the fields that it reads.
SOURCE: vad.h:23-34 -/
structure Vad where
  hangoverFrames : ℤ
  hangoverLeft : ℤ
  noiseFloor : UInt32
  multiplier : UInt32
  floorMin : UInt32

namespace Vad

/-- SOURCE: vad.c:58-66 -/
def initAdaptive (floor multiplier : UInt32) (hangoverFrames : ℤ) : Vad where
  hangoverFrames := hangoverFrames
  hangoverLeft := 0
  noiseFloor := floor
  multiplier := multiplier
  floorMin := floor

/-- The detector of the audio task.
SOURCE: openrecall_sensor.c:74-79 -/
def ofConfig : Vad := initAdaptive vadEnergyThresholdFloor vadNoiseMultiplier vadHangoverFrames

/-- The mean square of the samples, 0 for none.
SOURCE: vad.c:69-74 -/
def energy (primary : List Sample) : UInt32 :=
  let sp := primary.foldl (fun sp p => sp + UInt64.ofNat (p.1 * p.1).toNat) 0
  if 0 < primary.length then UInt32.ofNat (sp.toNat / primary.length) else 0

/-- SOURCE: vad.c:76-79 -/
def threshold (vad : Vad) : UInt32 :=
  let thresh := vad.noiseFloor * vad.multiplier
  if thresh < vad.floorMin then vad.floorMin else thresh

/-- The noise floor after a quiet frame: it falls fast, rises slowly, and stays where it is under a
burst. The shift of a negative number rounds down.
SOURCE: vad.c:91-107 -/
def nextFloor (noiseFloor e : UInt32) : UInt32 :=
  let delta : ℤ := e.toNat - noiseFloor.toNat
  let update : ℤ :=
    if delta < 0 then delta * vadNoiseAlphaDownQ16 / 2 ^ 16
    else if (e.toNat : ℤ) < noiseFloor.toNat * 3 / 2 then delta * vadNoiseAlphaUpQ16 / 2 ^ 16
    else 0
  let nf := noiseFloor.toNat + update
  UInt32.ofInt (if nf < 0 then 0 else nf)

/-- SOURCE: vad.c:68-108 -/
def processSingleAdaptive (vad : Vad) (primary : List Sample) : Vad × VadState :=
  let e := energy primary
  if vad.threshold < e then
    ({ vad with hangoverLeft := vad.hangoverFrames }, .speech)
  else if 0 < vad.hangoverLeft then
    -- the floor is frozen
    ({ vad with hangoverLeft := vad.hangoverLeft - 1 }, .hangover)
  else
    ({ vad with noiseFloor := nextFloor vad.noiseFloor e }, .gapMarker)

/-! ## The bounds of what it computes -/

theorem square_le (p : Sample) : (p.1 * p.1).toNat ≤ 2 ^ 30 := by
  obtain ⟨v, hlo, hhi⟩ := p
  have hsquare : v * v ≤ 32768 * 32768 := by nlinarith
  simp only
  omega

theorem toNat_sum_le (primary : List Sample) (sp : UInt64) :
    (primary.foldl (fun sp p => sp + UInt64.ofNat (p.1 * p.1).toNat) sp).toNat ≤
      sp.toNat + primary.length * 2 ^ 30 := by
  induction primary generalizing sp with
  | nil => simp
  | cons p primary ih =>
    have hsquare := square_le p
    have hcast : (UInt64.ofNat (p.1 * p.1).toNat).toNat ≤ (p.1 * p.1).toNat := by
      rw [UInt64.toNat_ofNat']
      exact Nat.mod_le _ _
    have hone : (sp + UInt64.ofNat (p.1 * p.1).toNat).toNat ≤ sp.toNat + 2 ^ 30 := by
      rw [UInt64.toNat_add]
      exact (Nat.mod_le _ _).trans (by omega)
    have hrest := ih (sp + UInt64.ofNat (p.1 * p.1).toNat)
    rw [List.foldl_cons, List.length_cons]
    omega

/-- The mean square of samples of 16 bits has 31. -/
theorem toNat_energy_le (primary : List Sample) : (energy primary).toNat ≤ 2 ^ 30 := by
  rw [energy]
  split
  · rename_i hpos
    rw [UInt32.toNat_ofNat']
    apply (Nat.mod_le _ _).trans
    apply Nat.div_le_of_le_mul
    have hsum := toNat_sum_le primary 0
    simpa using hsum
  · simp

theorem toNat_ofInt {z : ℤ} (hlow : 0 ≤ z) (hhigh : z < 2 ^ 32) :
    ((UInt32.ofInt z).toNat : ℤ) = z := by
  rw [UInt32.ofInt, UInt32.toNat_ofNat']
  omega

/-- The floor falls towards a lower energy and not past it. -/
theorem nextFloor_of_lt {noiseFloor e : UInt32} (h : e.toNat < noiseFloor.toNat) :
    e.toNat ≤ (nextFloor noiseFloor e).toNat ∧
      (nextFloor noiseFloor e).toNat < noiseFloor.toNat := by
  have hbound := noiseFloor.toNat_lt
  have hdelta : (e.toNat : ℤ) - noiseFloor.toNat < 0 := by omega
  zify
  simp only [nextFloor, hdelta, if_true, vadNoiseAlphaDownQ16]
  rw [toNat_ofInt]
  · split <;> omega
  · split <;> omega
  · split <;> omega

/-- The floor rises towards a higher energy, if at all, and not past it. -/
theorem nextFloor_of_le {noiseFloor e : UInt32} (h : noiseFloor.toNat ≤ e.toNat) :
    noiseFloor.toNat ≤ (nextFloor noiseFloor e).toNat ∧
      (nextFloor noiseFloor e).toNat ≤ e.toNat := by
  have hbound := e.toNat_lt
  have hdelta : ¬ (e.toNat : ℤ) - noiseFloor.toNat < 0 := by omega
  zify
  simp only [nextFloor, hdelta, if_false, vadNoiseAlphaUpQ16]
  rw [toNat_ofInt]
  · split <;> split <;> omega
  · split <;> split <;> omega
  · split <;> split <;> omega

end Vad

end OpenRecall.Model
