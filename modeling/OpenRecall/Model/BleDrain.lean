import OpenRecall.Foundation.Packing
import OpenRecall.Model.RingBuffer

/-!
# The drain task

The drain task reads the ring in batches of ten frames and sends the voiced ones, in packets
that fit a notification. At the onset of speech it first goes back by the preroll. When a
replay is requested it sends the last seconds of the ring once more, as memory chunks, with
packet numbers from the same counter.

A pass of the task is one function of the ring. The replay also tells what it writes to its
arrays, as it would if they had no end.
-/

set_option autoImplicit false

namespace OpenRecall.Model

open Foundation

/-- SOURCE: config.h:43, config.h:199 -/
def vadPrerollFrames : ℕ := 15
def c6FramesPerChunk : ℕ := 10

/-- SOURCE: ble_drain.c:30 -/
def packetBufCap : ℕ := c6HeaderLen + c6FramesPerChunk * (1 + maxOpusBytes)

/-- How many bytes of frames a notification has room for.
SOURCE: ble_drain.c:62-64, ble_drain.c:269-271 -/
def bodyBudget (mtu : ℕ) : ℕ := (if 23 ≤ mtu then mtu - 3 else 244) - c6HeaderLen

/-- What a packet is written from. -/
structure DrainPacket where
  ptype : PacketType
  chunkSeq : UInt32
  relTsMs : UInt32
  vadState : VadState
  flags : UInt8
  frames : List RingFrame
  deriving DecidableEq

def DrainPacket.bytes (p : DrainPacket) : Option Bytes :=
  c6WritePacket packetBufCap p.ptype p.chunkSeq p.relTsMs p.vadState p.flags
    (p.frames.map RingFrame.data)

/-- A packet is notified when it could be written. -/
def DrainPacket.notified (p : DrainPacket) : List DrainPacket :=
  if p.bytes.isSome then [p] else []

/-- A frame of a chunk with the state its packet's header says.
SOURCE: ble_drain.c:234-236 -/
structure ChunkFrame where
  frame : RingFrame
  vadState : VadState

/-- What a frame takes of the body. -/
def RingFrame.cost (f : RingFrame) : ℕ := 1 + f.data.length

/-- Send frames in packets that fit, each with the next number; a frame that fits no packet is
dropped. A frame is taken each time, so their number is fuel enough.
SOURCE: ble_drain.c:122-143, ble_drain.c:287-371 -/
def sendFrames (ptype : PacketType) (lastFlags : UInt8) (budget : ℕ) :
    ℕ → List ChunkFrame → UInt32 → List DrainPacket × UInt32
  | 0, _, seq => ([], seq)
  | _ + 1, [], seq => ([], seq)
  | fuel + 1, f :: fs, seq =>
    match fit (fun f => f.frame.cost) budget 0 (f :: fs) with
    | ([], _) => sendFrames ptype lastFlags budget fuel fs seq
    | (first :: others, rest) =>
      let packet : DrainPacket :=
        { ptype := ptype
          chunkSeq := seq
          relTsMs := first.frame.relTsMs
          vadState := first.vadState
          flags := if rest.isEmpty then lastFlags else 0
          frames := (first :: others).map ChunkFrame.frame }
      let (packets, seq) := sendFrames ptype lastFlags budget fuel rest (seq + 1)
      (packet.notified ++ packets, seq)

/-! ## The live drain -/

/-- SOURCE: ble_drain.c:165-167 -/
structure DrainState where
  cursor : ℕ := 0
  chunkSeq : UInt32 := 0
  inSpeech : Bool := false
  deriving DecidableEq

/-- How many frames there are from a cursor on.
SOURCE: ble_drain.c:187, ble_drain.c:216 -/
def available (ring : RingBuffer) (cursor : ℕ) : ℕ :=
  (ring.writeIndex + 2 ^ 32 - cursor) % 2 ^ 32

def VadState.isVoiced (vadState : VadState) : Bool :=
  vadState = .speech ∨ vadState = .hangover

/-- Where the next batch starts, and whether that is a preroll.
SOURCE: ble_drain.c:196-224 -/
def prerollCursor (ring : RingBuffer) (d : DrainState) : ℕ × Bool :=
  if d.inSpeech then (d.cursor, false)
  else
    match ring.get d.cursor with
    | none => (d.cursor, false)
    | some head =>
      if head.vadState.isVoiced then
        let rewindTo := if vadPrerollFrames ≤ d.cursor then d.cursor - vadPrerollFrames else 0
        match ring.get rewindTo with
        | none => (d.cursor, false)
        | some _ => if 0 < d.cursor - rewindTo then (rewindTo, true) else (d.cursor, false)
      else (d.cursor, false)

/-- Frames from a cursor on, until one is not there.
SOURCE: ble_drain.c:241-247 -/
def readBatch (ring : RingBuffer) : ℕ → ℕ → List RingFrame
  | _, 0 => []
  | cursor, n + 1 =>
    match ring.get cursor with
    | none => []
    | some f => f :: readBatch ring ((cursor + 1) % 2 ^ 32) n

/-- The voiced frames of a batch. A batch is shorter than the preroll, so that all of a batch
that starts with a preroll is tagged as one.
SOURCE: ble_drain.c:251-263 -/
def chunkFrames (prerolled : Bool) (slots : List RingFrame) : List ChunkFrame :=
  (slots.filter fun f => !f.silent).map fun f =>
    ⟨f, if prerolled then .preroll else f.vadState⟩

/-- A pass of the drain, when no replay is waiting.
SOURCE: ble_drain.c:186-381 -/
def drainLive (mtu : ℕ) (ring : RingBuffer) (d : DrainState) : List DrainPacket × DrainState :=
  if available ring d.cursor < c6FramesPerChunk then ([], d)
  else
    let (cursor, prerolled) := prerollCursor ring d
    if available ring cursor < c6FramesPerChunk then ([], { d with cursor := cursor })
    else
      let slots := readBatch ring cursor c6FramesPerChunk
      let frames := chunkFrames prerolled slots
      let (packets, chunkSeq) :=
        if frames.isEmpty then
          (({ ptype := .live
              chunkSeq := d.chunkSeq
              relTsMs := (slots.head?.map RingFrame.relTsMs).getD 0
              vadState := .gapMarker
              flags := 0
              frames := [] } : DrainPacket).notified, d.chunkSeq + 1)
        else sendFrames .live 0 (bodyBudget mtu) frames.length frames d.chunkSeq
      (packets,
        { cursor := (cursor + c6FramesPerChunk) % 2 ^ 32
          chunkSeq := chunkSeq
          inSpeech := (frames.getLast?.map fun f => f.vadState.isVoiced).getD false })

/-! ## The replay -/

/-- How many bytes `data_scratch` has.
SOURCE: ble_drain.c:50 -/
def dataScratchCap : ℕ := packetBufCap - c6HeaderLen

/-- A write of the replay: an entry of `frames`, `frame_vad` and `frame_rel_ts`, or bytes of
`data_scratch`. -/
inductive ReplayWrite where
  | entry (index : ℕ)
  | copy (start len : ℕ)
  deriving DecidableEq

/-- The write is within the array. -/
def ReplayWrite.InBounds : ReplayWrite → Prop
  | .entry index => index < c6FramesPerChunk
  | .copy start len => start + len ≤ dataScratchCap

/-- What the replay has collected for a packet; the number of frames is `count`.
SOURCE: ble_drain.c:69-77 -/
structure ReplayBatch where
  frames : List RingFrame := []
  firstRelTsMs : UInt32 := 0
  used : ℕ := 0
  dataOff : ℕ := 0

/-- The time of an empty packet is that of the last frame that was read for it.
SOURCE: ble_drain.c:87 -/
def ReplayBatch.stamp (f : RingFrame) (b : ReplayBatch) : ReplayBatch :=
  if b.frames.isEmpty then { b with firstRelTsMs := f.relTsMs } else b

/-- SOURCE: ble_drain.c:101-106 -/
def ReplayBatch.add (f : RingFrame) (b : ReplayBatch) : ReplayBatch :=
  { b with
    frames := b.frames ++ [f]
    used := b.used + f.cost
    dataOff := b.dataOff + f.data.length }

/-- The copy of a frame's bytes.
SOURCE: ring_buffer.c:81-83 -/
def ReplayBatch.copied (f : RingFrame) (b : ReplayBatch) : List ReplayWrite :=
  if f.data.isEmpty then [] else [.copy b.dataOff f.data.length]

/-- Collect frames until one does not fit, which is read again for the next packet, or is dropped
if it fits none. A frame's bytes are copied before its size is looked at.
SOURCE: ble_drain.c:79-108 -/
def collect (budget : ℕ) : List (Option RingFrame) → ReplayBatch →
    List ReplayWrite × ReplayBatch × List (Option RingFrame)
  | [], b => ([], b, [])
  | none :: reads, b => collect budget reads b
  | some f :: reads, b =>
    if f.silent then
      let (writes, b', rest) := collect budget reads (b.stamp f)
      (b.copied f ++ writes, b', rest)
    else if b.used + f.cost ≤ budget then
      let (writes, b', rest) := collect budget reads ((b.stamp f).add f)
      (b.copied f ++ .entry b.frames.length :: writes, b', rest)
    else (b.copied f, b.stamp f, if b.frames.isEmpty then reads else some f :: reads)

/-- The packets of a replay.
SOURCE: ble_drain.c:67-146 -/
def replayLoop (budget : ℕ) :
    ℕ → List (Option RingFrame) → UInt32 → List ReplayWrite × List DrainPacket × UInt32
  | 0, _, seq => ([], [], seq)
  | _ + 1, [], seq => ([], [], seq)
  | fuel + 1, read :: reads, seq =>
    let (writes, b, rest) := collect budget (read :: reads) {}
    let lastFlags := if rest.isEmpty then c6FlagLastOfReq else 0
    let (packets, seq) :=
      if b.frames.isEmpty then
        (({ ptype := .memoryChunk
            chunkSeq := seq
            relTsMs := b.firstRelTsMs
            vadState := .gapMarker
            flags := lastFlags
            frames := [] } : DrainPacket).notified, seq + 1)
      else
        sendFrames .memoryChunk lastFlags budget b.frames.length
          (b.frames.map fun f => ⟨f, f.vadState⟩) seq
    let (writes', packets', seq) := replayLoop budget fuel rest seq
    (writes ++ writes', packets ++ packets', seq)

/-- How many frames are replayed.
SOURCE: ble_drain.c:52-57, executor_core.c:108-115 -/
def replayCount (seconds writeIndex : ℕ) : ℕ :=
  min (min (seconds * (1000 / deviceFrameMs) % 2 ^ 32) ringFrames) writeIndex

/-- What the replay reads, one index after the other.
SOURCE: ble_drain.c:52-82 -/
def replayReads (seconds : ℕ) (ring : RingBuffer) : List (Option RingFrame) :=
  (List.range (replayCount seconds ring.writeIndex)).map fun i =>
    ring.get (ring.writeIndex - replayCount seconds ring.writeIndex + i)

/-- SOURCE: ble_drain.c:39-157 -/
def drainReplay (mtu seconds : ℕ) (ring : RingBuffer) (chunkSeq : UInt32) :
    List ReplayWrite × List DrainPacket × UInt32 :=
  match replayReads seconds ring with
  | [] =>
    ([],
      ({ ptype := .memoryChunk
         chunkSeq := chunkSeq
         relTsMs := 0
         vadState := .gapMarker
         flags := c6FlagLastOfReq
         frames := [] } : DrainPacket).notified, chunkSeq + 1)
  | reads => replayLoop (bodyBudget mtu) reads.length reads chunkSeq

end OpenRecall.Model
