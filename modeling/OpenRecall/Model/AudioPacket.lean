import Mathlib

/-!
# The audio packet

The wire format of the audio channel: a header of twelve little-endian bytes and then the
Opus frames, each after a byte with its length. Parsing is strict: a malformed packet is
rejected with a message that says where.
-/

set_option autoImplicit false

namespace OpenRecall.Model

abbrev Bytes := List UInt8

/-- SOURCE: ingest/audio_packet.py:28-31 -/
inductive PacketType where
  | live
  | memoryChunk
  | historical
  deriving DecidableEq

/-- SOURCE: ingest/audio_packet.py:34-38 -/
inductive VadState where
  | gapMarker
  | speech
  | preroll
  | hangover
  deriving DecidableEq

/-- SOURCE: ingest/audio_packet.py:41-42 -/
structure AudioPacketError where
  message : String
  deriving DecidableEq

/-- SOURCE: ingest/audio_packet.py:45-53 -/
structure AudioPacket where
  version : ℕ
  ptype : PacketType
  chunkSeq : ℕ
  relTsMs : ℕ
  vadState : VadState
  flags : ℕ
  frames : List Bytes
  deriving DecidableEq

namespace AudioPacket

/-- SOURCE: ingest/audio_packet.py:60-63 -/
def isLastOfRequest (packet : AudioPacket) : Bool := packet.flags &&& 2 != 0

/-- A little-endian unsigned 32-bit integer. -/
def u32 (b₀ b₁ b₂ b₃ : UInt8) : ℕ :=
  b₀.toNat + 256 * b₁.toNat + 65536 * b₂.toNat + 16777216 * b₃.toNat

/-- SOURCE: ingest/audio_packet.py:28-31 -/
def packetType (raw : ℕ) : Except AudioPacketError PacketType :=
  match raw with
  | 0 => .ok .live
  | 1 => .ok .memoryChunk
  | 2 => .ok .historical
  | _ => .error ⟨s!"unknown packet type {raw}"⟩

/-- SOURCE: ingest/audio_packet.py:34-38 -/
def vadStateOf (raw : ℕ) : Except AudioPacketError VadState :=
  match raw with
  | 0 => .ok .gapMarker
  | 1 => .ok .speech
  | 2 => .ok .preroll
  | 3 => .ok .hangover
  | _ => .error ⟨s!"unknown vad_state {raw}"⟩

/-- The frames from the `i`-th on; what follows the last one is not looked at.
SOURCE: ingest/audio_packet.py:107-123 -/
def parseFrames (frameCount : ℕ) : ℕ → ℕ → Bytes → Except AudioPacketError (List Bytes)
  | _, 0, _ => .ok []
  | i, _ + 1, [] => .error ⟨s!"expected {frameCount} frames, ran out of data at frame {i}"⟩
  | i, left + 1, frameLen :: rest =>
    if rest.length < frameLen.toNat then
      .error ⟨s!"frame {i} truncated: need {frameLen.toNat} bytes, have {rest.length}"⟩
    else do
      let frames ← parseFrames frameCount (i + 1) left (rest.drop frameLen.toNat)
      return rest.take frameLen.toNat :: frames

/-- SOURCE: ingest/audio_packet.py:89-135 -/
def parse (data : Bytes) : Except AudioPacketError AudioPacket :=
  match data with
  | verPtype :: s₀ :: s₁ :: s₂ :: s₃ :: t₀ :: t₁ :: t₂ :: t₃ :: vad :: frameCount :: flags ::
      body => do
    let ptype ← packetType (verPtype.toNat % 16)
    let vadState ← vadStateOf vad.toNat
    let frames ← parseFrames frameCount.toNat 0 frameCount.toNat body
    return {
      version := verPtype.toNat / 16
      ptype := ptype
      chunkSeq := u32 s₀ s₁ s₂ s₃
      relTsMs := u32 t₀ t₁ t₂ t₃
      vadState := vadState
      flags := flags.toNat
      frames := frames }
  | _ => .error ⟨s!"buffer too short for header: {data.length} < 12"⟩

/-! ## Encoding -/

/-- SOURCE: ingest/audio_packet.py:28-31 -/
def ptypeValue : PacketType → ℕ
  | .live => 0
  | .memoryChunk => 1
  | .historical => 2

/-- SOURCE: ingest/audio_packet.py:34-38 -/
def vadValue : VadState → ℕ
  | .gapMarker => 0
  | .speech => 1
  | .preroll => 2
  | .hangover => 3

/-- What encoding raises: the packet's own error, or `struct.error` for a field out of range. -/
inductive EncodeError where
  | packet (e : AudioPacketError)
  | struct
  deriving DecidableEq

/-- A 32-bit number in little-endian order. -/
def u32Bytes (n : ℕ) : Bytes :=
  [UInt8.ofNat n, UInt8.ofNat (n / 256), UInt8.ofNat (n / 65536), UInt8.ofNat (n / 16777216)]

/-- The frames from the `i`-th on, each after its length.
SOURCE: ingest/audio_packet.py:81-86 -/
def encodeFrames : ℕ → List Bytes → Except EncodeError Bytes
  | _, [] => .ok []
  | i, frame :: frames =>
    if 0xFF < frame.length then
      .error (.packet ⟨s!"frame {i} too long: {frame.length} > 255 bytes"⟩)
    else do
      let body ← encodeFrames (i + 1) frames
      return UInt8.ofNat frame.length :: frame ++ body

/-- The fields that the header holds in fixed widths. -/
def HeaderFits (p : AudioPacket) : Prop :=
  p.chunkSeq < 2 ^ 32 ∧ p.relTsMs < 2 ^ 32 ∧ p.flags < 256

instance (p : AudioPacket) : Decidable p.HeaderFits :=
  inferInstanceAs (Decidable (p.chunkSeq < 2 ^ 32 ∧ p.relTsMs < 2 ^ 32 ∧ p.flags < 256))

/-- SOURCE: ingest/audio_packet.py:65-87 -/
def encode (p : AudioPacket) : Except EncodeError Bytes :=
  if 0xFF < p.frames.length then
    .error (.packet ⟨s!"too many frames: {p.frames.length} > 255"⟩)
  else if ¬ p.HeaderFits then .error .struct
  else do
    let body ← encodeFrames 0 p.frames
    return UInt8.ofNat ((p.version &&& 0x0F) <<< 4 ||| (ptypeValue p.ptype &&& 0x0F)) ::
      (u32Bytes p.chunkSeq ++ u32Bytes p.relTsMs ++
        [UInt8.ofNat (vadValue p.vadState), UInt8.ofNat p.frames.length, UInt8.ofNat p.flags] ++
        body)

/-! ## What is accepted is in range -/

theorem u32_lt (b₀ b₁ b₂ b₃ : UInt8) : u32 b₀ b₁ b₂ b₃ < 2 ^ 32 := by
  have h₀ := b₀.toNat_lt
  have h₁ := b₁.toNat_lt
  have h₂ := b₂.toNat_lt
  have h₃ := b₃.toNat_lt
  unfold u32
  omega

/-- The length of a frame fits in a byte. -/
theorem length_le_of_parseFrames {frameCount i left : ℕ} {body : Bytes} {frames : List Bytes}
    (h : parseFrames frameCount i left body = .ok frames) :
    ∀ frame ∈ frames, frame.length ≤ 255 := by
  induction left generalizing i body frames with
  | zero =>
    obtain rfl := Except.ok.inj h
    simp
  | succ left ih =>
    cases body with
    | nil => cases h
    | cons frameLen rest =>
      rw [parseFrames] at h
      split_ifs at h
      cases hrest : parseFrames frameCount (i + 1) left (rest.drop frameLen.toNat) with
      | error e =>
        rw [hrest] at h
        cases h
      | ok more =>
        rw [hrest] at h
        obtain rfl := Except.ok.inj h
        intro frame hframe
        rcases List.mem_cons.mp hframe with rfl | hframe
        · have hlt := frameLen.toNat_lt
          rw [List.length_take]
          omega
        · exact ih hrest frame hframe

/-- The time of a packet fits in 32 bits, and its frames are at most 255 bytes long.
SOURCE: ingest/audio_packet.py:89-135 -/
theorem bounds_of_parse {data : Bytes} {packet : AudioPacket} (h : parse data = .ok packet) :
    packet.relTsMs < 2 ^ 32 ∧ ∀ frame ∈ packet.frames, frame.length ≤ 255 := by
  unfold parse at h
  split at h
  · rename_i verPtype s₀ s₁ s₂ s₃ t₀ t₁ t₂ t₃ vad frameCount flags body
    cases htype : packetType (verPtype.toNat % 16) with
    | error e =>
      rw [htype] at h
      cases h
    | ok ptype =>
      cases hvad : vadStateOf vad.toNat with
      | error e =>
        rw [htype, hvad] at h
        cases h
      | ok vadState =>
        cases hframes : parseFrames frameCount.toNat 0 frameCount.toNat body with
        | error e =>
          rw [htype, hvad, hframes] at h
          cases h
        | ok frames =>
          rw [htype, hvad, hframes] at h
          obtain rfl := Except.ok.inj h
          exact ⟨u32_lt t₀ t₁ t₂ t₃, length_le_of_parseFrames hframes⟩
  · cases h

end AudioPacket

end OpenRecall.Model
