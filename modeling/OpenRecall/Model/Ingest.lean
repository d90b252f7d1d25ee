import OpenRecall.Model.AudioStore
import OpenRecall.Model.Gateway
import OpenRecall.Model.Reassembler

/-!
# The audio ingest pipeline

A packet's frames are written to the audio store at the slot of the packet's own time. Then
the packets that the reassembler delivers are decoded into a PCM buffer, with zeros for the
silence between them, up to a cap for each run of silence; and the buffer is fed to a
streaming transcriber hop by hop. The segments that come out are the transcripts: a
transcript has the segment's duration, and not its position.

The decoder, the denoiser, the speaker identifier and the streaming transcriber are given by
their operations. A speaker is identified from a rolling window.
-/

set_option autoImplicit false

namespace OpenRecall.Model

open Foundation

/-- SOURCE: ingest/streaming_transcriber.py:84-95 -/
structure Segment where
  text : String
  startMs : ℤ
  endMs : ℤ
  sentenceId : ℕ := 0
  deriving DecidableEq

/-- What a pipeline is built of; `β` is the state of its parts. A call that raises leaves what
it did before. -/
structure IngestBackend (β : Type) where
  initial : β
  decode : Bytes → β → Except PipelineFault Bytes × β
  denoise : Bytes → β → Except PipelineFault Bytes × β
  identify : Bytes → β → Option SpeakerAssignment × β
  feed : Bytes → β → Except PipelineFault (List Segment) × β
  flush : β → Except PipelineFault (List Segment) × β

/-- How a pipeline is set up; the constructor refuses windows and hops that are not made of
frames.
SOURCE: ingest/pipeline.py:114-235 -/
structure IngestConfig where
  hopMs : ℕ := 1000
  windowMs : ℕ := 5000
  streamerHopMs : ℕ := hopMs
  sampleRate : ℕ := 16000
  speakerWindowMs : ℕ := 2000
  sentencePauseMs : ℕ := 1000
  gapSilenceCapMs : Option ℕ := none
  gapTimeoutMs : Option ℤ := none
  persistAudio : Bool := true
  isAlnum : Char → Bool
  window_frames : frameMs ∣ windowMs
  hop_frames : frameMs ∣ hopMs
  hop_le_window : hopMs ≤ windowMs
  hop_pos : 0 < hopMs
  frame_samples : 0 < sampleRate * frameMs / 1000

/-- SOURCE: ingest/pipeline.py:189-193 -/
def IngestConfig.gapCap (cfg : IngestConfig) : ℕ :=
  cfg.gapSilenceCapMs.getD (max 1500 (cfg.sentencePauseMs + 500))

/-- SOURCE: ingest/pipeline.py:460 -/
def IngestConfig.hopBytes (cfg : IngestConfig) : ℕ :=
  cfg.hopMs / frameMs * (cfg.sampleRate * frameMs / 1000) * 2

theorem IngestConfig.hopBytes_pos (cfg : IngestConfig) : 0 < cfg.hopBytes := by
  have hframes : 0 < cfg.hopMs / frameMs :=
    Nat.div_pos (Nat.le_of_dvd cfg.hop_pos cfg.hop_frames) (by decide)
  exact Nat.mul_pos (Nat.mul_pos hframes cfg.frame_samples) (by decide)

/-- SOURCE: ingest/pipeline.py:114-235 -/
structure AudioIngestPipeline (β : Type) where
  reassembler : SessionReassembler
  backend : β
  pcmBuffer : Bytes := []
  absoluteMs : ℕ := 0
  relTsCursor : Option ℕ := none
  silenceRunMs : ℕ := 0
  speakerWindow : Bytes := []
  lastSpeaker : Option SpeakerAssignment := none
  audioSession : Option String := none
  audioAnchorMs : Option ℤ := none

/-- A segment with what else makes its transcript: the duration it gets if it has none of its
own, and its speaker. -/
structure Attributed where
  segment : Segment
  fallbackMs : ℤ
  speaker : Option SpeakerAssignment
  deriving DecidableEq

/-- SOURCE: ingest/pipeline.py:479-492, ingest/pipeline.py:518-527, ingest/pipeline.py:543-552 -/
def Attributed.transcript (a : Attributed) : Transcript where
  text := a.segment.text
  durationMs :=
    if a.segment.endMs - a.segment.startMs ≤ 0 then a.fallbackMs
    else a.segment.endMs - a.segment.startMs
  speaker := a.speaker.map SpeakerAssignment.speakerId
  speakerConfidence := a.speaker.map SpeakerAssignment.confidence
  speakerAssignment := a.speaker.bind SpeakerAssignment.assignment

/-- The magnitudes of 16-bit little-endian samples. -/
def magnitudes : Bytes → List ℕ
  | b₀ :: b₁ :: rest =>
    (if 0x8000 ≤ unpackU16 b₀ b₁ then 0x10000 - unpackU16 b₀ b₁ else unpackU16 b₀ b₁) ::
      magnitudes rest
  | _ => []

/-- SOURCE: ingest/pipeline.py:91-110 -/
def peakOf (pcm : Bytes) : ℤ := (min 255 ((magnitudes pcm).foldl max 0 * 255 / 32767) : ℕ)

namespace AudioIngestPipeline

section

variable {β : Type} (cfg : IngestConfig) (backend : IngestBackend β)

/-! ## The audio log -/

/-- SOURCE: ingest/pipeline.py:325-344 -/
def peaksOf : List Bytes → β → List ℤ × β
  | [], b => ([], b)
  | frame :: frames, b =>
    let (peak, b) := match backend.decode frame b with
      | (.error _, b) => (0, b)
      | (.ok pcm, b) => (peakOf pcm, b)
    let (peaks, b) := peaksOf frames b
    (peak :: peaks, b)

/-- The device time of the session's slot 0: the first packet goes to the end of the log.
SOURCE: ingest/pipeline.py:268-295 -/
def anchorOf (sessionId : String) (packet : AudioPacket) (store : AudioStore)
    (p : AudioIngestPipeline β) : ℤ × AudioStore :=
  match p.audioAnchorMs with
  | some anchor => (anchor, store)
  | none =>
    let (stat, store) := store.stat cfg.isAlnum sessionId
    (packet.relTsMs - stat.slotCount * frameMs, store)

/-- Write a packet's frames at the slot of its time; what the store raises is swallowed.
SOURCE: ingest/pipeline.py:246-313 -/
def persist (packet : AudioPacket) (store : AudioStore) (p : AudioIngestPipeline β) :
    AudioStore × AudioIngestPipeline β :=
  match p.audioSession with
  | none => (store, p)
  | some sessionId =>
    if cfg.persistAudio then
      let (anchor, store) := p.anchorOf cfg sessionId packet store
      let slot := ((packet.relTsMs - anchor) / frameMs).toNat
      let (peaks, state) := peaksOf backend packet.frames p.backend
      ((store.writeAt cfg.isAlnum sessionId slot packet.frames (some peaks)).2,
        { p with audioAnchorMs := some anchor, backend := state })
    else (store, p)

/-! ## The PCM buffer -/

/-- How much of the silence before a packet is filled in.
SOURCE: ingest/pipeline.py:405-420 -/
def insertMs (pkt : AudioPacket) (p : AudioIngestPipeline β) : ℕ :=
  match p.relTsCursor with
  | none => 0
  | some cursor => min (pkt.relTsMs - cursor) (cfg.gapCap - p.silenceRunMs)

/-- Zeros for the silence before a packet; none where nothing is filled in.
SOURCE: ingest/pipeline.py:405-420 -/
def gapSilenceFor (pkt : AudioPacket) (p : AudioIngestPipeline β) : Bytes :=
  List.replicate (cfg.sampleRate * p.insertMs cfg pkt / 1000 * 2) 0

/-- Decode frames until one fails. -/
def decodeFrames : List Bytes → β → List Bytes × Option PipelineFault × β
  | [], b => ([], none, b)
  | frame :: frames, b =>
    match backend.decode frame b with
    | (.error e, b) => ([], some e, b)
    | (.ok pcm, b) =>
      let (pcms, fault, b) := decodeFrames frames b
      (pcm :: pcms, fault, b)

/-- Where the clock of the device stands after a packet; a marker never moves it back.
SOURCE: ingest/pipeline.py:446-456 -/
def cursorAfter (pkt : AudioPacket) (p : AudioIngestPipeline β) : Option ℕ :=
  if pkt.frames ≠ [] then some (pkt.relTsMs + pkt.frames.length * frameMs)
  else some (max pkt.relTsMs (p.relTsCursor.getD 0))

/-- Fill in the silence before a packet and decode its frames.
SOURCE: ingest/pipeline.py:434-456 -/
def bufferPacket (pkt : AudioPacket) (p : AudioIngestPipeline β) :
    Option PipelineFault × AudioIngestPipeline β :=
  let (pcms, fault, state) := decodeFrames backend pkt.frames p.backend
  let filled : AudioIngestPipeline β :=
    { p with
      pcmBuffer := p.pcmBuffer ++ p.gapSilenceFor cfg pkt ++ pcms.flatten
      silenceRunMs := p.silenceRunMs + p.insertMs cfg pkt
      backend := state }
  match fault with
  | some e => (some e, filled)
  | none =>
    (none,
      { filled with
        silenceRunMs := if pkt.frames ≠ [] then 0 else filled.silenceRunMs
        relTsCursor := p.cursorAfter pkt })

/-- SOURCE: ingest/pipeline.py:434-456 -/
def bufferPackets : List AudioPacket → AudioIngestPipeline β →
    Option PipelineFault × AudioIngestPipeline β
  | [], p => (none, p)
  | pkt :: pkts, p =>
    match p.bufferPacket cfg backend pkt with
    | (some e, p) => (some e, p)
    | (none, p) => bufferPackets pkts p

/-! ## The hops -/

/-- SOURCE: ingest/pipeline.py:392-403 -/
def denoiseHop (pcm : Bytes) (b : β) : Except PipelineFault Bytes × β :=
  if pcm.all (· = 0) then (.ok pcm, b) else backend.denoise pcm b

/-- The last bytes of a window; a window of no bytes is never cut. -/
def keepLast (size : ℕ) (window : Bytes) : Bytes :=
  if size = 0 then window else window.drop (window.length - size)

/-- SOURCE: ingest/pipeline.py:362-381 -/
def speaker (pcm : Bytes) (p : AudioIngestPipeline β) :
    Option SpeakerAssignment × AudioIngestPipeline β :=
  let window := keepLast (cfg.speakerWindowMs * (cfg.sampleRate * 2 / 1000))
    (p.speakerWindow ++ pcm)
  let (spk, state) := backend.identify window p.backend
  (spk, { p with speakerWindow := window, lastSpeaker := spk <|> p.lastSpeaker, backend := state })

/-- Feed PCM to the streamer and attribute what comes out: `rest` is what stays in the buffer,
and `fedMs` how much the PCM is taken for.
SOURCE: ingest/pipeline.py:467-492, ingest/pipeline.py:509-527 -/
def feedPcm (fedMs : Bytes → ℕ) (pcm rest : Bytes) (p : AudioIngestPipeline β) :
    Except PipelineFault (List Attributed) × AudioIngestPipeline β :=
  match denoiseHop backend pcm p.backend with
  | (.error e, state) => (.error e, { p with backend := state })
  | (.ok pcm, state) =>
    let p := { p with pcmBuffer := rest, absoluteMs := p.absoluteMs + fedMs pcm }
    match backend.feed pcm state with
    | (.error e, state) => (.error e, { p with backend := state })
    | (.ok segments, state) =>
      let (spk, p) := { p with backend := state }.speaker cfg backend pcm
      (.ok (segments.map fun segment => ⟨segment, fedMs pcm, spk⟩), p)

/-- Feed the buffer hop by hop; a hop takes bytes, so the length of the buffer is fuel enough.
SOURCE: ingest/pipeline.py:467-492 -/
def feedHops : ℕ → AudioIngestPipeline β →
    Except PipelineFault (List Attributed) × AudioIngestPipeline β
  | 0, p => (.ok [], p)
  | fuel + 1, p =>
    if p.pcmBuffer.length < cfg.hopBytes then (.ok [], p)
    else
      match p.feedPcm cfg backend (fun _ => cfg.streamerHopMs) (p.pcmBuffer.take cfg.hopBytes)
          (p.pcmBuffer.drop cfg.hopBytes) with
      | (.error e, p) => (.error e, p)
      | (.ok out, p) =>
        match feedHops fuel p with
        | (.error e, p) => (.error e, p)
        | (.ok more, p) => (.ok (out ++ more), p)

/-! ## The calls of the gateway -/

/-- SOURCE: ingest/pipeline.py:422-493 -/
def ingestSegments (env : IngestEnv) (packet : AudioPacket) (store : AudioStore)
    (p : AudioIngestPipeline β) :
    Except PipelineFault (List Attributed) × AudioStore × AudioIngestPipeline β :=
  let (delivered, reassembler) := p.reassembler.acceptPackets cfg.gapTimeoutMs env.now packet
  let p := { p with reassembler := reassembler }
  if env.audioEnabled then
    let (store, p) := p.persist cfg backend packet store
    match p.bufferPackets cfg backend delivered with
    | (some e, p) => (.error e, store, p)
    | (none, p) =>
      let (out, p) := p.feedHops cfg backend p.pcmBuffer.length
      (out, store, p)
  else (.ok [], store, p)

/-- The audio that is left, as a last hop.
SOURCE: ingest/pipeline.py:505-527 -/
def feedRest (p : AudioIngestPipeline β) :
    Except PipelineFault (List Attributed) × AudioIngestPipeline β :=
  if p.pcmBuffer = [] then (.ok [], p)
  else
    p.feedPcm cfg backend (fun pcm => pcm.length * 1000 / (cfg.sampleRate * 2)) p.pcmBuffer []

/-- SOURCE: ingest/pipeline.py:495-553 -/
def flushSegments (p : AudioIngestPipeline β) :
    Except PipelineFault (List Attributed) × AudioIngestPipeline β :=
  match p.feedRest cfg backend with
  | (.error e, p) => (.error e, p)
  | (.ok out, p) =>
    match backend.flush p.backend with
    | (.error e, state) => (.error e, { p with backend := state })
    | (.ok tail, state) =>
      (.ok (out ++ tail.map fun segment => ⟨segment, cfg.streamerHopMs, p.lastSpeaker⟩),
        { p with backend := state })

/-- The pipelines behind the gateway: they share the audio store.
SOURCE: gateway/adapter.py:462-495, ingest/pipeline.py:237-244, ingest/pipeline.py:383-390 -/
def factory : PipelineFactory AudioStore (AudioIngestPipeline β) where
  create startSeq := { reassembler := .create startSeq, backend := backend.initial }
  setAudioTarget sessionId p := { p with audioSession := some sessionId }
  ingest env packet store p :=
    let (out, store, p) := p.ingestSegments cfg backend env packet store
    (out.map (List.map Attributed.transcript), store, p)
  flush store p :=
    let (out, p) := p.flushSegments cfg backend
    (out.map (List.map Attributed.transcript), store, p)
  missingRange now p :=
    let (gap, reassembler) := p.reassembler.missingRange cfg.gapTimeoutMs now
    (gap, { p with reassembler := reassembler })
  nextExpectedSeq p := p.reassembler.next

end

/-! ## What the calls leave -/

section

variable {β : Type} {cfg : IngestConfig} {backend : IngestBackend β}

/-- What says where a pipeline's audio goes stays as it is. -/
structure Steady (p p' : AudioIngestPipeline β) : Prop where
  reassembler : p'.reassembler = p.reassembler
  session : p'.audioSession = p.audioSession
  anchor : p'.audioAnchorMs = p.audioAnchorMs

theorem Steady.refl (p : AudioIngestPipeline β) : Steady p p := ⟨rfl, rfl, rfl⟩

theorem Steady.trans {p p' p'' : AudioIngestPipeline β} (h : Steady p p') (h' : Steady p' p'') :
    Steady p p'' :=
  ⟨h'.reassembler.trans h.reassembler, h'.session.trans h.session, h'.anchor.trans h.anchor⟩

theorem steady_bufferPacket (pkt : AudioPacket) (p : AudioIngestPipeline β) :
    Steady p (p.bufferPacket cfg backend pkt).2 := by
  unfold bufferPacket
  dsimp only
  split <;> exact ⟨rfl, rfl, rfl⟩

theorem steady_bufferPackets (pkts : List AudioPacket) (p : AudioIngestPipeline β) :
    Steady p (p.bufferPackets cfg backend pkts).2 := by
  induction pkts generalizing p with
  | nil => exact .refl p
  | cons pkt pkts ih =>
    have hfirst : Steady p (p.bufferPacket cfg backend pkt).2 := steady_bufferPacket pkt p
    rw [bufferPackets]
    cases hbuffer : p.bufferPacket cfg backend pkt with
    | mk fault p' =>
      rw [hbuffer] at hfirst
      cases fault with
      | some e => exact hfirst
      | none => exact hfirst.trans (ih p')

theorem steady_feedPcm (fedMs : Bytes → ℕ) (pcm rest : Bytes) (p : AudioIngestPipeline β) :
    Steady p (p.feedPcm cfg backend fedMs pcm rest).2 := by
  unfold feedPcm
  split
  · exact ⟨rfl, rfl, rfl⟩
  · dsimp only
    split <;> exact ⟨rfl, rfl, rfl⟩

theorem steady_feedHops (fuel : ℕ) (p : AudioIngestPipeline β) :
    Steady p (p.feedHops cfg backend fuel).2 := by
  induction fuel generalizing p with
  | zero => exact .refl p
  | succ fuel ih =>
    rw [feedHops]
    split_ifs
    · exact .refl p
    · have hfirst : Steady p (p.feedPcm cfg backend (fun _ => cfg.streamerHopMs)
          (p.pcmBuffer.take cfg.hopBytes) (p.pcmBuffer.drop cfg.hopBytes)).2 :=
        steady_feedPcm _ _ _ p
      split
      · rename_i heq
        rwa [heq] at hfirst
      · rename_i out p' heq
        rw [heq] at hfirst
        have hrest := hfirst.trans (ih p')
        split
        · rename_i heq'
          rwa [heq'] at hrest
        · rename_i heq'
          rwa [heq'] at hrest

theorem steady_flushSegments (p : AudioIngestPipeline β) :
    Steady p (p.flushSegments cfg backend).2 := by
  have hrest : Steady p (p.feedRest cfg backend).2 := by
    unfold feedRest
    split_ifs
    · exact .refl p
    · exact steady_feedPcm _ _ _ p
  unfold flushSegments
  split
  · rename_i heq
    rwa [heq] at hrest
  · rename_i heq
    rw [heq] at hrest
    split <;> exact hrest.trans ⟨rfl, rfl, rfl⟩

/-- The device time of slot 0 in a sound store: what it is, or else the first packet goes to
the end of the log. -/
theorem anchorOf_eq {sessionId : String} {store : AudioStore}
    (hsound : store.Sound cfg.isAlnum sessionId) (packet : AudioPacket)
    (p : AudioIngestPipeline β) :
    (p.anchorOf cfg sessionId packet store).1 = p.audioAnchorMs.getD
        (packet.relTsMs - (store.slotsOf cfg.isAlnum sessionId).length * frameMs) ∧
      (p.anchorOf cfg sessionId packet store).2.Sound cfg.isAlnum sessionId ∧
      (p.anchorOf cfg sessionId packet store).2.slotsOf cfg.isAlnum sessionId =
        store.slotsOf cfg.isAlnum sessionId := by
  unfold anchorOf
  cases p.audioAnchorMs with
  | some anchor => exact ⟨rfl, hsound, rfl⟩
  | none =>
    obtain ⟨hcount, hsound', hslots⟩ := hsound.stat
    refine ⟨?_, hsound', hslots⟩
    dsimp only
    rw [hcount]
    rfl

/-- A packet's frames are placed at the slot of its time.
SOURCE: ingest/pipeline.py:246-313 -/
theorem persist_places (backend : IngestBackend β) {sessionId : String} {store : AudioStore}
    {packet : AudioPacket} {p : AudioIngestPipeline β} {anchor : ℤ}
    (hpersist : cfg.persistAudio = true)
    (hsession : p.audioSession = some sessionId) (hsound : store.Sound cfg.isAlnum sessionId)
    (hanchor : p.audioAnchorMs.getD
      (packet.relTsMs - (store.slotsOf cfg.isAlnum sessionId).length * frameMs) = anchor)
    (hslot : ((packet.relTsMs - anchor) / frameMs).toNat < 2 ^ 32) :
    ((p.persist cfg backend packet store).1.Sound cfg.isAlnum sessionId ∧
      (p.persist cfg backend packet store).1.slotsOf cfg.isAlnum sessionId =
        Slots.place [] ((packet.relTsMs - anchor) / frameMs).toNat
          (packet.frames.map AudioStore.kept) (store.slotsOf cfg.isAlnum sessionId)) ∧
      (p.persist cfg backend packet store).2.reassembler = p.reassembler ∧
      (p.persist cfg backend packet store).2.audioSession = some sessionId ∧
      (p.persist cfg backend packet store).2.audioAnchorMs = some anchor := by
  obtain ⟨heq, hsound', hslots⟩ := anchorOf_eq hsound packet p
  rw [hanchor] at heq
  unfold persist
  rw [hsession]
  dsimp only
  rw [if_pos hpersist, heq]
  refine ⟨?_, rfl, rfl, rfl⟩
  rw [← hslots]
  exact hsound'.writeAt ((Nat.sub_le _ _).trans_lt hslot) _ _

/-- A pipeline with what it has received of a packet: the packets that are delivered, the
store the packet is written to, and the pipeline before it decodes. -/
def received (cfg : IngestConfig) (backend : IngestBackend β) (env : IngestEnv)
    (packet : AudioPacket) (store : AudioStore) (p : AudioIngestPipeline β) :
    List AudioPacket × AudioStore × AudioIngestPipeline β :=
  let (delivered, reassembler) := p.reassembler.acceptPackets cfg.gapTimeoutMs env.now packet
  (delivered, { p with reassembler := reassembler }.persist cfg backend packet store)

variable (cfg backend) in
/-- A packet changes the store, and where the audio goes, by being received.
SOURCE: ingest/pipeline.py:422-493 -/
theorem ingestSegments_leaves {env : IngestEnv} (henabled : env.audioEnabled = true)
    (packet : AudioPacket) (store : AudioStore) (p : AudioIngestPipeline β) :
    (p.ingestSegments cfg backend env packet store).2.1 =
        (p.received cfg backend env packet store).2.1 ∧
      Steady (p.received cfg backend env packet store).2.2
        (p.ingestSegments cfg backend env packet store).2.2 := by
  unfold ingestSegments received
  dsimp only
  rw [if_pos henabled]
  have hbuffer {pkts : List AudioPacket} {p p' : AudioIngestPipeline β}
      {fault : Option PipelineFault} (heq : p.bufferPackets cfg backend pkts = (fault, p')) :
      Steady p p' := by
    have hsteady : Steady p (p.bufferPackets cfg backend pkts).2 := steady_bufferPackets pkts p
    rwa [heq] at hsteady
  split
  · rename_i heq
    exact ⟨rfl, hbuffer heq⟩
  · rename_i heq
    exact ⟨rfl, (hbuffer heq).trans (steady_feedHops _ _)⟩

end

end AudioIngestPipeline

end OpenRecall.Model
