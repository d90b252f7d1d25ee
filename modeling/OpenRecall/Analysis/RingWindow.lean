import OpenRecall.Analysis.DrainReads

/-!
# The window of the ring

The ring is meant to hold the last `RING_FRAMES` pushes under their numbers modulo `2 ^ 32`. It
does so until the counter starts anew: an index from before is then above the counter, and the
range test takes it for one that is not written yet. The frames come back one push at a time, so
that the window is whole again when the counter has reached `RING_FRAMES`.
-/

set_option autoImplicit false

namespace OpenRecall.Analysis.RingWindow

open OpenRecall.Model OpenRecall.Analysis.DrainReads

/-- The ring after some pushes. -/
def pushAll (pushes : List RingFrame) : RingBuffer := pushes.foldl RingBuffer.push {}

/-- The frame is one of the last pushes, and the index is its number in 32 bits. -/
def Recent (pushes : List RingFrame) (index : ℕ) (f : RingFrame) : Prop :=
  ∃ n, pushes[n]? = some f ∧ pushes.length ≤ n + ringFrames ∧ n % 2 ^ 32 = index

/-- Both ways to read the ring give the last pushes, and the copy has their bytes.
SOURCE: ring_buffer.c:53-89 -/
structure HoldsLast (pushes : List RingFrame) (ring : RingBuffer) : Prop where
  get : ∀ index f, ring.get index = some f ↔ Recent pushes index f
  getCopy : ∀ index dataBuf f,
    (ring.getCopy index dataBuf).1 = some f ↔ Recent pushes index f
  copied : ∀ index dataBuf f, (ring.getCopy index dataBuf).1 = some f →
    f.data <+: (ring.getCopy index dataBuf).2

theorem records_pushAll (pushes : List RingFrame) : Records pushes (pushAll pushes) := by
  induction pushes using List.reverseRecOn with
  | nil => exact ⟨rfl, fun back hpos _ hback => absurd hback (not_le.mpr hpos)⟩
  | append_singleton pushes f ih =>
    unfold pushAll at *
    rw [List.foldl_append]
    exact ih.push f

/-- The two ways differ in where the bytes are. -/
theorem getCopy_fst (ring : RingBuffer) (index : ℕ) (dataBuf : Bytes) :
    (ring.getCopy index dataBuf).1 = ring.get index := by
  unfold RingBuffer.getCopy RingBuffer.get
  split_ifs <;> rfl

theorem prefix_getCopy {ring : RingBuffer} {index : ℕ} {dataBuf : Bytes} {f : RingFrame}
    (h : (ring.getCopy index dataBuf).1 = some f) : f.data <+: (ring.getCopy index dataBuf).2 := by
  unfold RingBuffer.getCopy at *
  split_ifs at h ⊢
  obtain rfl := Option.some.inj h
  exact List.prefix_append _ _

section

variable {pushes : List RingFrame} {ring : RingBuffer}

/-- What is read is always one of the last pushes. -/
theorem recent_of_get (h : Records pushes ring) {index : ℕ} {f : RingFrame}
    (hget : ring.get index = some f) : Recent pushes index f := by
  obtain ⟨hlt, hpush⟩ := h.get hget
  have hwrite := h.writeIndex
  have hle := h.writeIndex_le
  refine ⟨_, hpush, ?_, ?_⟩
  · unfold RingBuffer.get at hget
    split_ifs at hget with hwindow
    omega
  · have hmod : (pushes.length - (ring.writeIndex - index)) % 2 ^ 32 = index := by omega
    exact hmod

/-- A push that is in the window is read, if the counter did not start anew since. -/
theorem get_of_recent (h : Records pushes ring) {n : ℕ} {f : RingFrame}
    (hpush : pushes[n]? = some f) (hnear : pushes.length ≤ n + ringFrames)
    (hround : pushes.length - n ≤ ring.writeIndex) : ring.get (n % 2 ^ 32) = some f := by
  have hlt := (List.getElem?_eq_some_iff.mp hpush).1
  have hwrite := h.writeIndex
  have hindex : n % 2 ^ 32 = ring.writeIndex - (pushes.length - n) := by omega
  have hslot := h.slots (pushes.length - n) (by omega) (by omega) hround
  rw [Nat.sub_sub_self hlt.le, hpush] at hslot
  rw [hindex, RingBuffer.get, if_pos (by omega), hslot]

/-- A push from before the counter started anew is not read. -/
theorem get_of_wrapped (h : Records pushes ring) {n : ℕ} (hlt : n < pushes.length)
    (hnear : pushes.length ≤ n + ringFrames) (hwrapped : ring.writeIndex < pushes.length - n) :
    ring.get (n % 2 ^ 32) = none := by
  have hwrite := h.writeIndex
  have hcap : ringFrames = 3000 := rfl
  have habove : ring.writeIndex ≤ n % 2 ^ 32 := by omega
  exact if_neg fun hwindow => absurd hwindow.1 (not_lt.mpr habove)

/-- **The ring holds the last pushes exactly when the counter has not started anew among them.**
SOURCE: ring_buffer.c:34-89 -/
theorem holdsLast_iff_of_records (h : Records pushes ring) :
    HoldsLast pushes ring ↔ min pushes.length ringFrames ≤ pushes.length % 2 ^ 32 := by
  rw [← h.writeIndex]
  constructor
  · intro hlast
    by_contra hwrapped
    have hle := h.writeIndex_le
    -- the oldest push of the window is from before the counter started anew
    obtain ⟨n, hn⟩ : ∃ n, n = pushes.length - min pushes.length ringFrames := ⟨_, rfl⟩
    have hlt : n < pushes.length := by omega
    have hnone := get_of_wrapped h hlt (by omega) (by omega)
    have hsome := (hlast.get (n % 2 ^ 32) pushes[n]).mpr
      ⟨n, List.getElem?_eq_getElem hlt, by omega, rfl⟩
    rw [hnone] at hsome
    cases hsome
  · intro hround
    have hget : ∀ index f, ring.get index = some f ↔ Recent pushes index f := by
      intro index f
      constructor
      · exact recent_of_get h
      · rintro ⟨n, hpush, hnear, rfl⟩
        have hlt := (List.getElem?_eq_some_iff.mp hpush).1
        exact get_of_recent h hpush hnear (by omega)
    refine ⟨hget, fun index dataBuf f => ?_, fun index dataBuf f => prefix_getCopy⟩
    rw [getCopy_fst]
    exact hget index f

end

/-- **After any number of pushes the ring holds the last of them exactly when the counter has not
started anew within the window.**
SOURCE: ring_buffer.c:34-89 -/
theorem holdsLast_iff (pushes : List RingFrame) :
    HoldsLast pushes (pushAll pushes) ↔
      min pushes.length ringFrames ≤ pushes.length % 2 ^ 32 :=
  holdsLast_iff_of_records (records_pushAll pushes)

/-- **When the counter starts anew the ring is empty**: of `2 ^ 32` pushes none is read. -/
theorem not_always_holdsLast : ¬ ∀ pushes : List RingFrame, HoldsLast pushes (pushAll pushes) := by
  intro h
  have hlast := (holdsLast_iff_of_records (records_pushAll _)).mp
    (h (List.replicate (2 ^ 32) (RingFrame.gap 0)))
  rw [List.length_replicate] at hlast
  exact absurd hlast (by decide)

end OpenRecall.Analysis.RingWindow
