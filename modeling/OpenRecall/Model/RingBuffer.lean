import OpenRecall.Model.C6Packet

/-!
# The ring of encoded audio

The audio task pushes a frame for every 20 ms: an encoded one where there is voice, else an
empty one that marks a gap. An encoder that fails pushes nothing. The ring keeps the last
minute of frames, and a frame is read by how many were pushed before it.
-/

set_option autoImplicit false

namespace OpenRecall.Model

/-- SOURCE: config.h:19-37 -/
def deviceFrameMs : ℕ := 20
def maxOpusBytes : ℕ := 256
def ringFrames : ℕ := 3000

/-- A frame with its time and its voice state; the length is a byte.
SOURCE: ring_buffer.h:23-28 -/
structure RingFrame where
  vadState : VadState
  relTsMs : UInt32
  data : Bytes
  len_le : data.length ≤ 255
  deriving DecidableEq

/-- A frame that the body of a packet leaves out.
SOURCE: ble_drain.c:88, ble_drain.c:251 -/
def RingFrame.silent (f : RingFrame) : Bool := f.vadState = .gapMarker ∨ f.data = []

theorem RingFrame.zero_le : ([] : Bytes).length ≤ 255 := Nat.zero_le 255

/-- A gap marker. -/
def RingFrame.gap (relTsMs : UInt32) : RingFrame := ⟨.gapMarker, relTsMs, [], RingFrame.zero_le⟩

theorem ringFrames_pos : 0 < ringFrames := by decide

/-- The slots, and the number of frames written, modulo `2^32`.
SOURCE: ring_buffer.c:20-32 -/
structure RingBuffer where
  slots : Fin ringFrames → RingFrame := fun _ => .gap 0
  writeIndex : ℕ := 0

namespace RingBuffer

def slot (index : ℕ) : Fin ringFrames := ⟨index % ringFrames, Nat.mod_lt index ringFrames_pos⟩

/-- SOURCE: ring_buffer.c:34-47 -/
def push (ring : RingBuffer) (f : RingFrame) : RingBuffer where
  slots := Function.update ring.slots (slot ring.writeIndex) f
  writeIndex := (ring.writeIndex + 1) % 2 ^ 32

/-- The frame at an index, unless it is overwritten or not written yet.
SOURCE: ring_buffer.c:53-89 -/
def get (ring : RingBuffer) (index : ℕ) : Option RingFrame :=
  if index < ring.writeIndex ∧ ring.writeIndex - index ≤ ringFrames then
    some (ring.slots (slot index))
  else none

/-- The frame at an index, with its bytes copied to a buffer that the frame then points to.
SOURCE: ring_buffer.c:71-89 -/
def getCopy (ring : RingBuffer) (index : ℕ) (dataBuf : Bytes) : Option RingFrame × Bytes :=
  if index < ring.writeIndex ∧ ring.writeIndex - index ≤ ringFrames then
    let f := ring.slots (slot index)
    (some f, f.data ++ dataBuf.drop f.data.length)
  else (none, dataBuf)

end RingBuffer

/-- What the audio task hears in a frame: nothing, or no voice, or a voice (perhaps one that has
just ended) and what the encoder makes of it, which is empty where it fails.
SOURCE: openrecall_sensor.c:105-165 -/
inductive HeardFrame where
  | gap
  | voiced (hangover : Bool) (opus : Bytes)
  deriving DecidableEq

/-- SOURCE: openrecall_sensor.c:69-171 -/
structure AudioTask where
  ring : RingBuffer := {}
  relTsMs : UInt32 := 0

/-- The frame that is pushed, if one is.
SOURCE: openrecall_sensor.c:111-166 -/
def HeardFrame.pushed (relTsMs : UInt32) : HeardFrame → Option RingFrame
  | .gap => some (.gap relTsMs)
  | .voiced hangover opus =>
    if h : 0 < opus.length ∧ opus.length ≤ 255 then
      some ⟨if hangover then .hangover else .speech, relTsMs, opus, h.2⟩
    else none

/-- A frame of audio.
SOURCE: openrecall_sensor.c:105-171 -/
def AudioTask.step (s : AudioTask) (heard : HeardFrame) : AudioTask where
  ring := ((heard.pushed s.relTsMs).map s.ring.push).getD s.ring
  relTsMs := s.relTsMs + UInt32.ofNat deviceFrameMs

end OpenRecall.Model
