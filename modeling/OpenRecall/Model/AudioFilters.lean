import Mathlib

/-!
# The filters of the microphone

The captured samples go through two filters in place: one that removes a constant offset, and a
high-pass of second order against wind. Both compute in machine integers. A right shift of a
negative number rounds down.
-/

set_option autoImplicit false

namespace OpenRecall.Model

/-- A sample, an `int16_t`. -/
abbrev Sample := { v : ℤ // -32768 ≤ v ∧ v ≤ 32767 }

instance : Zero Sample := ⟨0, by decide⟩

/-- The value that an integer of so many bits holds. -/
def wrap (bits : ℕ) (v : ℤ) : ℤ := v.bmod (2 ^ bits)

/-- The value is one of an integer of so many bits. -/
def Fits (bits : ℕ) (v : ℤ) : Prop := -2 ^ (bits - 1) ≤ v ∧ v < 2 ^ (bits - 1)

theorem wrap_eq_self {bits : ℕ} (hbits : 0 < bits) {v : ℤ} (h : Fits bits v) :
    wrap bits v = v := by
  obtain ⟨n, rfl⟩ := Nat.exists_eq_succ_of_ne_zero hbits.ne'
  obtain ⟨hlo, hhi⟩ := h
  simp only [Nat.succ_eq_add_one, Nat.add_sub_cancel] at hlo hhi
  apply Int.bmod_eq_of_le
  · push_cast
    rw [pow_succ]
    omega
  · push_cast
    rw [pow_succ]
    omega

/-- SOURCE: dc_blocker.c:6-10, hpf.c:5-9 -/
def satInt16 (v : ℤ) : Sample :=
  if hhigh : 32767 < v then ⟨32767, by decide⟩
  else if hlow : v < -32768 then ⟨-32768, by decide⟩
  else ⟨v, not_lt.mp hlow, not_lt.mp hhigh⟩

/-- Run a filter over samples in place: its state after them, and what stands in their place. -/
def processWith {σ : Type} (step : σ → Sample → σ × Sample) : σ → List Sample → σ × List Sample
  | f, [] => (f, [])
  | f, x :: pcm =>
    let (f, y) := step f x
    let (f, rest) := processWith step f pcm
    (f, y :: rest)

/-! ## The offset -/

/-- SOURCE: dc_blocker.c:4 -/
def dcBlockerRQ15 : ℤ := 32604

/-- SOURCE: dc_blocker.h:35-38, dc_blocker.c:12-15 -/
structure DcBlocker where
  xPrev : Sample := 0
  yPrev : Sample := 0

namespace DcBlocker

/-- The new value before it is cut to a sample. -/
def raw (b : DcBlocker) (x : Sample) : ℤ :=
  wrap 32 (x.1 - b.xPrev.1 + wrap 32 (dcBlockerRQ15 * b.yPrev.1) / 2 ^ 15)

/-- SOURCE: dc_blocker.c:20-29 -/
def step (b : DcBlocker) (x : Sample) : DcBlocker × Sample :=
  let y16 := satInt16 (b.raw x)
  (⟨x, y16⟩, y16)

/-- SOURCE: dc_blocker.c:17-33 -/
def process (b : DcBlocker) (pcm : List Sample) : DcBlocker × List Sample :=
  processWith step b pcm

end DcBlocker

/-! ## The wind cut -/

/-- SOURCE: config.h:120 -/
def hpfB0Q14 : ℤ := 15585

/-- SOURCE: config.h:121 -/
def hpfB1Q14 : ℤ := -31170

/-- SOURCE: config.h:122 -/
def hpfB2Q14 : ℤ := 15585

/-- SOURCE: config.h:123 -/
def hpfA1Q14 : ℤ := -31131

/-- SOURCE: config.h:124 -/
def hpfA2Q14 : ℤ := 14825

/-- The last two inputs and the last two outputs, the latter with 14 bits of fraction.
SOURCE: hpf.h:30-33, hpf.c:11-16 -/
structure Hpf where
  x1 : ℤ := 0
  x2 : ℤ := 0
  y1Q14 : ℤ := 0
  y2Q14 : ℤ := 0

namespace Hpf

/-- The accumulator after the inputs.
SOURCE: hpf.c:27-29 -/
def accInputs (f : Hpf) (x0 : Sample) : ℤ :=
  wrap 64 ((hpfB0Q14 * x0.1 + hpfB1Q14 * f.x1 + hpfB2Q14 * f.x2) * 2 ^ 14)

/-- SOURCE: hpf.c:30 -/
def accFirst (f : Hpf) (x0 : Sample) : ℤ := wrap 64 (f.accInputs x0 - hpfA1Q14 * f.y1Q14)

/-- SOURCE: hpf.c:31 -/
def acc (f : Hpf) (x0 : Sample) : ℤ := wrap 64 (f.accFirst x0 - hpfA2Q14 * f.y2Q14)

/-- SOURCE: hpf.c:32 -/
def y0 (f : Hpf) (x0 : Sample) : ℤ := wrap 32 (f.acc x0 / 2 ^ 14)

/-- SOURCE: hpf.c:33 -/
def rounded (f : Hpf) (x0 : Sample) : ℤ := wrap 32 (f.y0 x0 + 2 ^ 13) / 2 ^ 14

/-- SOURCE: hpf.c:21-37 -/
def step (f : Hpf) (x0 : Sample) : Hpf × Sample :=
  (⟨x0.1, f.x1, f.y0 x0, f.y1Q14⟩, satInt16 (f.rounded x0))

/-- SOURCE: hpf.c:18-42 -/
def process (f : Hpf) (pcm : List Sample) : Hpf × List Sample := processWith step f pcm

end Hpf

end OpenRecall.Model
