import OpenRecall.Model.C6Packet

/-!
# The audio packet's codec

The server's parser reads back what its encoder and the device's writer write, and these two write
the same bytes. The other way round the parser is not strict: it does not look at what follows the
last frame, so a buffer is the encoding of what it parses to exactly when nothing does.
-/

set_option autoImplicit false

namespace OpenRecall.Analysis.PacketCodec

open OpenRecall.Model OpenRecall.Model.AudioPacket

/-- All fields are in range, and so are the number of frames and their lengths. -/
structure WellFormed (p : AudioPacket) : Prop where
  version : p.version < 16
  header : p.HeaderFits
  count : p.frames.length ≤ 255
  frames : ∀ frame ∈ p.frames, frame.length ≤ 255

/-- The bytes that the frames of a body take, as its length bytes say. -/
def bodyLength : ℕ → Bytes → ℕ
  | 0, _ => 0
  | _ + 1, [] => 0
  | left + 1, frameLen :: rest =>
    1 + frameLen.toNat + bodyLength left (rest.drop frameLen.toNat)

/-- Nothing follows the last frame that the header counts. -/
def EndsWithLastFrame (data : Bytes) : Prop :=
  data.length = 12 + bodyLength (data.getD 10 0).toNat (data.drop 12)

instance (data : Bytes) : Decidable (EndsWithLastFrame data) :=
  inferInstanceAs (Decidable (_ = _))

/-! ## Bytes -/

/-- Two nibbles in a byte. -/
theorem nibbles : ∀ v t : Fin 16, ((v.val &&& 0x0F) <<< 4 ||| (t.val &&& 0x0F)) = 16 * v + t := by
  decide +kernel

theorem ptypeValue_lt (ptype : PacketType) : ptypeValue ptype < 16 := by
  cases ptype <;> decide

/-- The first byte holds the version and the type.
SOURCE: ingest/audio_packet.py:74 -/
theorem firstByte_eq {version : ℕ} (h : version < 16) (ptype : PacketType) :
    (version &&& 0x0F) <<< 4 ||| (ptypeValue ptype &&& 0x0F) = 16 * version + ptypeValue ptype :=
  nibbles ⟨version, h⟩ ⟨ptypeValue ptype, ptypeValue_lt ptype⟩

theorem toNat_firstByte {version : ℕ} (h : version < 16) (ptype : PacketType) :
    (UInt8.ofNat ((version &&& 0x0F) <<< 4 ||| (ptypeValue ptype &&& 0x0F))).toNat =
      16 * version + ptypeValue ptype := by
  have hlt := ptypeValue_lt ptype
  rw [firstByte_eq h, UInt8.toNat_ofNat']
  omega

theorem packetType_ptypeValue (ptype : PacketType) :
    packetType (ptypeValue ptype) = .ok ptype := by
  cases ptype <;> rfl

theorem vadStateOf_vadValue (vadState : VadState) :
    vadStateOf (vadValue vadState) = .ok vadState := by
  cases vadState <;> rfl

/-- A raw type that is known is its value. -/
theorem ptypeValue_of_packetType {raw : ℕ} {ptype : PacketType}
    (h : packetType raw = .ok ptype) : ptypeValue ptype = raw := by
  unfold packetType at h
  split at h <;> cases h <;> rfl

theorem vadValue_of_vadStateOf {raw : ℕ} {vadState : VadState}
    (h : vadStateOf raw = .ok vadState) : vadValue vadState = raw := by
  unfold vadStateOf at h
  split at h <;> cases h <;> rfl

theorem toNat_vadByte (vadState : VadState) :
    (UInt8.ofNat (vadValue vadState)).toNat = vadValue vadState := by
  cases vadState <;> rfl

/-- Little-endian bytes give the number back. -/
theorem u32_u32Bytes {n : ℕ} (h : n < 2 ^ 32) :
    u32 (UInt8.ofNat n) (UInt8.ofNat (n / 256)) (UInt8.ofNat (n / 65536))
      (UInt8.ofNat (n / 16777216)) = n := by
  simp only [u32, UInt8.toNat_ofNat']
  omega

/-- Four bytes are the little-endian bytes of their number. -/
theorem u32Bytes_u32 (b₀ b₁ b₂ b₃ : UInt8) : u32Bytes (u32 b₀ b₁ b₂ b₃) = [b₀, b₁, b₂, b₃] := by
  have h₀ := b₀.toNat_lt
  have h₁ := b₁.toNat_lt
  have h₂ := b₂.toNat_lt
  have h₃ := b₃.toNat_lt
  have hbyte : ∀ (n : ℕ) (b : UInt8), n % 256 = b.toNat → UInt8.ofNat n = b := by
    intro n b h
    apply UInt8.toNat_inj.mp
    rw [UInt8.toNat_ofNat']
    exact h
  unfold u32Bytes u32
  congr 1
  · apply hbyte
    omega
  congr 1
  · apply hbyte
    omega
  congr 1
  · apply hbyte
    omega
  congr 1
  apply hbyte
  omega

/-! ## Frames -/

/-- Frames that are not too long are written as the device writes them. -/
theorem encodeFrames_eq {frames : List Bytes} (h : ∀ frame ∈ frames, frame.length ≤ 255) (i : ℕ) :
    encodeFrames i frames = .ok (c6Body frames) := by
  induction frames generalizing i with
  | nil => rfl
  | cons frame frames ih =>
    rw [List.forall_mem_cons] at h
    rw [encodeFrames, if_neg (not_lt.mpr h.1), ih h.2]
    rfl

/-- What is parsed from a body is at its start, and takes what the length bytes say.
SOURCE: ingest/audio_packet.py:107-123 -/
theorem body_of_parseFrames {frameCount i left : ℕ} {body : Bytes} {frames : List Bytes}
    (h : parseFrames frameCount i left body = .ok frames) :
    frames.length = left ∧ (c6Body frames).length = bodyLength left body ∧
      c6Body frames <+: body := by
  induction left generalizing i body frames with
  | zero =>
    obtain rfl := Except.ok.inj h
    exact ⟨rfl, rfl, List.nil_prefix⟩
  | succ left ih =>
    cases body with
    | nil => cases h
    | cons frameLen rest =>
      rw [parseFrames] at h
      split_ifs at h with hshort
      cases hrest : parseFrames frameCount (i + 1) left (rest.drop frameLen.toNat) with
      | error e =>
        rw [hrest] at h
        cases h
      | ok more =>
        rw [hrest] at h
        obtain rfl := Except.ok.inj h
        obtain ⟨hcount, hlength, hprefix⟩ := ih hrest
        have htake : (rest.take frameLen.toNat).length = frameLen.toNat := by
          rw [List.length_take]
          omega
        have hbody : c6Body (rest.take frameLen.toNat :: more) =
            frameLen :: (rest.take frameLen.toNat ++ c6Body more) := by
          rw [c6Body, List.flatMap_cons, htake, UInt8.ofNat_toNat]
          rfl
        refine ⟨by rw [List.length_cons, hcount], ?_, ?_⟩
        · rw [hbody, List.length_cons, List.length_append, htake, hlength, bodyLength]
          omega
        · rw [hbody, List.cons_prefix_cons]
          refine ⟨rfl, ?_⟩
          conv_rhs => rw [← List.take_append_drop frameLen.toNat rest]
          exact (List.prefix_append_right_inj _).mpr hprefix

/-! ## Packets -/

/-- The bytes of a well-formed packet.
SOURCE: ingest/audio_packet.py:65-87 -/
theorem encode_eq {p : AudioPacket} (h : WellFormed p) :
    p.encode = .ok (UInt8.ofNat ((p.version &&& 0x0F) <<< 4 ||| (ptypeValue p.ptype &&& 0x0F)) ::
      (u32Bytes p.chunkSeq ++ u32Bytes p.relTsMs ++
        [UInt8.ofNat (vadValue p.vadState), UInt8.ofNat p.frames.length, UInt8.ofNat p.flags] ++
        c6Body p.frames)) := by
  rw [encode, if_neg (not_lt.mpr h.count), if_neg (not_not.mpr h.header),
    encodeFrames_eq h.frames]
  rfl

/-- **The parser reads back what the encoder writes.**
SOURCE: ingest/audio_packet.py:65-135 -/
theorem parse_encode {p : AudioPacket} (h : WellFormed p) :
    ∃ data, p.encode = .ok data ∧ AudioPacket.parse data = .ok p := by
  refine ⟨_, encode_eq h, ?_⟩
  obtain ⟨hseq, hts, hflags⟩ := h.header
  have hfirst := toNat_firstByte h.version p.ptype
  have hptype := ptypeValue_lt p.ptype
  have htype : packetType ((UInt8.ofNat ((p.version &&& 0x0F) <<< 4 |||
      (ptypeValue p.ptype &&& 0x0F))).toNat % 16) = .ok p.ptype := by
    rw [hfirst, Nat.mul_add_mod, Nat.mod_eq_of_lt hptype]
    exact packetType_ptypeValue p.ptype
  have hversion : (UInt8.ofNat ((p.version &&& 0x0F) <<< 4 |||
      (ptypeValue p.ptype &&& 0x0F))).toNat / 16 = p.version := by
    omega
  have hcount : (UInt8.ofNat p.frames.length).toNat = p.frames.length := by
    have hle := h.count
    rw [UInt8.toNat_ofNat']
    omega
  have hflags' : (UInt8.ofNat p.flags).toNat = p.flags := by
    rw [UInt8.toNat_ofNat']
    omega
  have hvad : vadStateOf (UInt8.ofNat (vadValue p.vadState)).toNat = .ok p.vadState := by
    rw [toNat_vadByte]
    exact vadStateOf_vadValue p.vadState
  have hframes := parseFrames_c6Body p.frames.length 0 h.frames
  simp only [u32Bytes, List.cons_append, List.nil_append, AudioPacket.parse, htype, hversion,
    hvad, hcount, hframes, hflags', u32_u32Bytes hseq, u32_u32Bytes hts]
  rfl

theorem byteOf_ofNat {n : ℕ} (h : n < 2 ^ 32) :
    [byteOf (UInt32.ofNat n) 0, byteOf (UInt32.ofNat n) 1, byteOf (UInt32.ofNat n) 2,
      byteOf (UInt32.ofNat n) 3] = u32Bytes n := by
  have hn : (UInt32.ofNat n).toNat = n := by
    rw [UInt32.toNat_ofNat']
    exact Nat.mod_eq_of_lt h
  simp [byteOf, u32Bytes, hn]

theorem length_c6Body (frames : List Bytes) :
    (c6Body frames).length = (frames.map fun frame => 1 + frame.length).sum := by
  induction frames with
  | nil => rfl
  | cons frame frames ih =>
    rw [c6Body] at ih
    rw [c6Body, List.flatMap_cons, List.length_append, ih, List.map_cons, List.sum_cons,
      List.length_cons]
    omega

/-- **The device writes what the encoder writes**, if its buffer has room.
SOURCE: c6_packet.c:7-38, ingest/audio_packet.py:65-87 -/
theorem c6WritePacket_eq {p : AudioPacket} (h : WellFormed p) (hversion : p.version = 1)
    {data : Bytes} (hdata : p.encode = .ok data) (cap : ℕ) :
    c6WritePacket cap p.ptype (UInt32.ofNat p.chunkSeq) (UInt32.ofNat p.relTsMs) p.vadState
      (UInt8.ofNat p.flags) p.frames = if data.length ≤ cap then some data else none := by
  obtain ⟨hseq, hts, -⟩ := h.header
  have hfirst : UInt8.ofNat ((p.version &&& 0x0F) <<< 4 ||| (ptypeValue p.ptype &&& 0x0F)) =
      (c6Version &&& 0x0F) <<< 4 ||| (p.ptype.code &&& 0x0F) := by
    rw [hversion]
    cases p.ptype <;> rfl
  have hvad : UInt8.ofNat (vadValue p.vadState) = p.vadState.code := by
    cases p.vadState <;> rfl
  rw [encode_eq h, Except.ok.injEq, hfirst, hvad, ← byteOf_ofNat hseq, ← byteOf_ofNat hts] at hdata
  have hlength : data.length =
      c6HeaderLen + (p.frames.map fun frame => 1 + frame.length).sum := by
    rw [← hdata, ← length_c6Body]
    simp only [List.length_cons, List.length_append, List.length_nil, c6HeaderLen]
    omega
  rw [c6WritePacket, if_neg (not_lt.mpr h.count), hlength]
  by_cases hroom : c6HeaderLen + (p.frames.map fun frame => 1 + frame.length).sum ≤ cap
  · rw [if_neg (not_lt.mpr hroom), if_pos hroom, ← hdata]
    rfl
  · rw [if_pos (not_le.mp hroom), if_neg hroom]

/-- **What is accepted** is the encoding of what it parses to exactly when nothing follows its last
frame.
SOURCE: ingest/audio_packet.py:65-135 -/
theorem encode_parse_iff {data : Bytes} {p : AudioPacket} (h : AudioPacket.parse data = .ok p) :
    p.encode = .ok data ↔ EndsWithLastFrame data := by
  unfold AudioPacket.parse at h
  split at h
  · rename_i verPtype s₀ s₁ s₂ s₃ t₀ t₁ t₂ t₃ vad frameCount flags body
    cases htype : packetType (verPtype.toNat % 16) with
    | error e => simp [htype, bind, Except.bind] at h
    | ok ptype =>
      cases hvad : vadStateOf vad.toNat with
      | error e => simp [htype, hvad, bind, Except.bind] at h
      | ok vadState =>
        cases hframes : parseFrames frameCount.toNat 0 frameCount.toNat body with
        | error e => simp [htype, hvad, hframes, bind, Except.bind] at h
        | ok frames =>
          rw [htype, hvad, hframes] at h
          obtain rfl := Except.ok.inj h
          obtain ⟨hcount, hlength, hprefix⟩ := body_of_parseFrames hframes
          have hver := verPtype.toNat_lt
          have hcountlt := frameCount.toNat_lt
          have hwell : WellFormed ⟨verPtype.toNat / 16, ptype, u32 s₀ s₁ s₂ s₃, u32 t₀ t₁ t₂ t₃,
              vadState, flags.toNat, frames⟩ := by
            refine ⟨?_, ⟨u32_lt s₀ s₁ s₂ s₃, u32_lt t₀ t₁ t₂ t₃, flags.toNat_lt⟩, ?_,
              length_le_of_parseFrames hframes⟩
            · dsimp only
              omega
            · dsimp only
              omega
          have hfirst : UInt8.ofNat ((verPtype.toNat / 16 &&& 0x0F) <<< 4 |||
              (ptypeValue ptype &&& 0x0F)) = verPtype := by
            rw [firstByte_eq hwell.version, ptypeValue_of_packetType htype, Nat.div_add_mod,
              UInt8.ofNat_toNat]
          rw [encode_eq hwell]
          dsimp only
          rw [hfirst, u32Bytes_u32, u32Bytes_u32, vadValue_of_vadStateOf hvad, hcount,
            UInt8.ofNat_toNat, UInt8.ofNat_toNat, UInt8.ofNat_toNat, Except.ok.injEq]
          simp only [List.cons_append, List.nil_append, List.cons.injEq, true_and]
          have hends : EndsWithLastFrame (verPtype :: s₀ :: s₁ :: s₂ :: s₃ :: t₀ :: t₁ :: t₂ ::
              t₃ :: vad :: frameCount :: flags :: body) ↔
                (c6Body frames).length = body.length := by
            rw [EndsWithLastFrame, hlength]
            simp only [List.length_cons, List.getD_cons_succ, List.getD_cons_zero,
              List.drop_succ_cons, List.drop_zero]
            omega
          rw [hends]
          exact ⟨congrArg List.length, hprefix.eq_of_length⟩
  · cases h

/-- **The three implementations**: the parser inverts the encoder on well-formed packets, the
device writes the encoder's bytes, and the encoder gives back an accepted buffer if and only if the
buffer ends with its last frame.
SOURCE: ingest/audio_packet.py:65-135, c6_packet.c:7-38 -/
theorem codec_iff (p : AudioPacket) (received : Bytes) :
    (WellFormed p → ∃ data, p.encode = .ok data ∧ AudioPacket.parse data = .ok p ∧
      (p.version = 1 → ∀ cap, c6WritePacket cap p.ptype (UInt32.ofNat p.chunkSeq)
        (UInt32.ofNat p.relTsMs) p.vadState (UInt8.ofNat p.flags) p.frames =
          if data.length ≤ cap then some data else none)) ∧
      (AudioPacket.parse received = .ok p →
        (p.encode = .ok received ↔ EndsWithLastFrame received)) := by
  refine ⟨fun h => ?_, fun h => encode_parse_iff h⟩
  obtain ⟨data, hencode, hparse⟩ := parse_encode h
  exact ⟨data, hencode, hparse, fun hversion cap => c6WritePacket_eq h hversion hencode cap⟩

/-- A gap marker with a byte after it. -/
def gapWithTrailer : Bytes := [0x10, 1, 0, 0, 0, 60, 0, 0, 0, 0, 0, 0, 7]

/-- The parser accepts it, and it is not the encoding of what it parses to. -/
theorem not_strict : ¬ ∀ data p, AudioPacket.parse data = .ok p → p.encode = .ok data := by
  intro h
  have hparse : AudioPacket.parse gapWithTrailer = .ok ⟨1, .live, 1, 60, .gapMarker, 0, []⟩ := by
    decide +kernel
  exact absurd ((encode_parse_iff hparse).mp (h _ _ hparse)) (by decide +kernel)

end OpenRecall.Analysis.PacketCodec
