import OpenRecall.Model.AudioPacket
import OpenRecall.Foundation.OggStream

/-!
# Serving audio as Ogg Opus

The frames of a session are put into an Ogg container on read. Two pages carry the headers, and
then a page goes out for every `frames_per_page` frames; the last page, which may be empty, ends
the stream. A gap slot, which is an empty frame, is served as a silent frame.
-/

set_option autoImplicit false

namespace OpenRecall.Model.OggMux

open Foundation.Ogg (leBytes wrap64)

/-- `struct.error`: a number does not fit the field that is packed. -/
structure StructError where
  deriving DecidableEq

def opusSampleRate : ℕ := 16000

/-- 20 ms at 48 kHz.
SOURCE: media/ogg.py:20 -/
def granulesPerFrame : ℕ := 960

def preSkip : ℕ := 312

/-- SOURCE: media/ogg.py:26 -/
def silentFrame : Bytes := [0xF8, 0xFF, 0xFE]

/-! ## The checksum -/

/-- One round of the loop that fills the table.
SOURCE: media/ogg.py:45 -/
def tableStep (r : ℕ) : ℕ :=
  if r &&& 0x80000000 ≠ 0 then ((r <<< 1) ^^^ 0x04C11DB7) &&& 0xFFFFFFFF
  else (r <<< 1) &&& 0xFFFFFFFF

/-- SOURCE: media/ogg.py:42-46 -/
def crcTable (i : ℕ) : ℕ := tableStep^[8] (i <<< 24)

/-- SOURCE: media/ogg.py:54 -/
def crcStep (crc : ℕ) (byte : UInt8) : ℕ :=
  ((crc <<< 8) &&& 0xFFFFFFFF) ^^^ crcTable (((crc >>> 24) &&& 0xFF) ^^^ byte.toNat)

/-- SOURCE: media/ogg.py:50-55 -/
def crc32 (data : Bytes) : ℕ := data.foldl crcStep 0

/-! ## Pages -/

/-- The lacing values of one packet.
SOURCE: media/ogg.py:66-69 -/
def lacing (size : ℕ) : Bytes :=
  if 255 ≤ size then 255 :: lacing (size - 255) else [UInt8.ofNat size]
  termination_by size

/-- SOURCE: media/ogg.py:58-70 -/
def segmentTable (packetSizes : List ℕ) : Bytes := packetSizes.flatMap lacing

/-- "<4sBBqIIIB", where the version and the checksum are zero.
SOURCE: media/ogg.py:28, media/ogg.py:82-84 -/
def packHeader (headerType : ℕ) (granule : ℤ) (serial sequence segments : ℕ) :
    Except StructError Bytes :=
  if headerType < 256 ∧ (-2 ^ 63 ≤ granule ∧ granule < 2 ^ 63) ∧ serial < 2 ^ 32 ∧
      sequence < 2 ^ 32 ∧ segments < 256 then
    .ok ([0x4F, 0x67, 0x67, 0x53] ++ [0] ++ leBytes 1 headerType ++ leBytes 8 (wrap64 granule) ++
      leBytes 4 serial ++ leBytes 4 sequence ++ leBytes 4 0 ++ leBytes 1 segments)
  else .error {}

/-- SOURCE: media/ogg.py:73-88 -/
def page (packets : List Bytes) (granule : ℤ) (serial sequence headerType : ℕ) :
    Except StructError Bytes := do
  let segments := segmentTable (packets.map List.length)
  let header ← packHeader headerType granule serial sequence segments.length
  let body := header ++ segments ++ packets.flatten
  return body.take 22 ++ leBytes 4 (crc32 body) ++ body.drop 26

/-- SOURCE: media/ogg.py:91-99 -/
def idHeader (channels : UInt8) (sampleRate : ℕ) : Bytes :=
  [0x4F, 0x70, 0x75, 0x73, 0x48, 0x65, 0x61, 0x64] ++ [1, channels] ++ leBytes 2 preSkip ++
    leBytes 4 sampleRate ++ leBytes 2 0 ++ [0]

/-- SOURCE: media/ogg.py:102-108 -/
def commentHeader (vendor : Bytes) : Bytes :=
  [0x4F, 0x70, 0x75, 0x73, 0x54, 0x61, 0x67, 0x73] ++ leBytes 4 vendor.length ++ vendor ++
    leBytes 4 0

/-- "OpusHead", for one channel. -/
def opusHead : Bytes := idHeader 1 opusSampleRate

/-- "OpusTags", with the vendor "openrecall". -/
def opusTags : Bytes :=
  commentHeader [0x6F, 0x70, 0x65, 0x6E, 0x72, 0x65, 0x63, 0x61, 0x6C, 0x6C]

/-! ## The stream -/

/-- A gap slot is served as silence.
SOURCE: media/ogg.py:140 -/
def orSilent (frame : Bytes) : Bytes := if frame ≠ [] then frame else silentFrame

/-- What the loop over the frames carries along. -/
structure MuxState where
  sequence : ℕ
  granule : ℕ
  batch : List Bytes

/-- The frame joins the batch. -/
def MuxState.add (st : MuxState) (frame : Bytes) : MuxState :=
  { st with batch := st.batch ++ [orSilent frame] }

/-- The granule position once the batch is out. -/
def MuxState.nextGranule (st : MuxState) : ℕ := st.granule + granulesPerFrame * st.batch.length

/-- The batch is out. -/
def MuxState.next (st : MuxState) : MuxState :=
  { sequence := st.sequence + 1, granule := st.nextGranule, batch := [] }

/-- The pages for the frames, and the last page.
SOURCE: media/ogg.py:139-155 -/
def muxFrom (serial framesPerPage : ℕ) : MuxState → List Bytes → Except StructError (List Bytes)
  | st, [] => do
    let last ← page st.batch st.nextGranule serial st.sequence 0x04
    return [last]
  | st, frame :: frames =>
    let st := st.add frame
    if framesPerPage ≤ st.batch.length then do
      let out ← page st.batch st.nextGranule serial st.sequence 0
      let rest ← muxFrom serial framesPerPage st.next frames
      return out :: rest
    else muxFrom serial framesPerPage st frames

/-- SOURCE: media/ogg.py:111-155 -/
def mux (frames : List Bytes) (serial framesPerPage : ℕ) : Except StructError (List Bytes) := do
  let head ← page [opusHead] 0 serial 0 0x02
  let tags ← page [opusTags] 0 serial 1 0
  let rest ← muxFrom serial framesPerPage { sequence := 2, granule := 0, batch := [] } frames
  return head :: tags :: rest

/-- With the defaults: serial 1 and 50 frames a page.
SOURCE: media/ogg.py:158-159 -/
def muxToBytes (frames : List Bytes) : Except StructError Bytes := do
  let pages ← mux frames 1 50
  return pages.flatten

end OpenRecall.Model.OggMux
