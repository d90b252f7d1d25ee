import OpenRecall.Foundation.Intervals
import OpenRecall.Model.Connections
import OpenRecall.Model.Ingest

/-!
# Two clocks

The audio log is slotted by the device's clock: a frame stands at the slot of its packet's
time. A transcript's `startMs` comes from another clock, which the gateway keeps by adding up
the durations of the transcripts. So what the log knows and no transcript covers, silence and
frames of no segment, is missing from `startMs`: a transcript starts too early by the pauses
before it. Within a hop of its place in the log is what has had less than a hop of pauses,
and what has had none is read back from the log by its own `startMs`.
-/

set_option autoImplicit false

namespace OpenRecall.Analysis.Timeline

open Foundation OpenRecall.Model

/-! ## The gateway's clock -/

section

variable {ω π : Type}

/-- The emitted transcripts are laid end to end on the gateway's clock. -/
abbrev Clocked (t : ℤ) (emissions : List Emission) (t' : ℤ) : Prop :=
  EndToEnd (fun em : Emission => em.event.startMs) (fun em => em.event.durationMs) t emissions t'

/-- The durations of emitted transcripts. -/
def durations (emissions : List Emission) : List ℤ :=
  emissions.map fun em => em.event.durationMs

/-- SOURCE: gateway/core.py:616-698 -/
theorem clocked_emit (sessionId : String) (now : Time) (ts : List Transcript)
    (core : GatewayCore π) (world : GatewayWorld ω) :
    Clocked core.cumMs (GatewayCore.emit sessionId now ts core world).1
        (GatewayCore.emit sessionId now ts core world).2.1.cumMs ∧
      durations (GatewayCore.emit sessionId now ts core world).1 =
        ts.map Transcript.durationMs := by
  induction ts generalizing core world with
  | nil => exact ⟨.nil _, rfl⟩
  | cons t ts ih =>
    rw [GatewayCore.emit]
    obtain ⟨hclocked, hdurations⟩ := ih _ _
    exact ⟨.cons rfl hclocked, congrArg (t.durationMs :: ·) hdurations⟩

theorem requestGap_cumMs (sessionId : String) (gap : Option (ℤ × ℤ)) (core : GatewayCore π) :
    (GatewayCore.requestGap sessionId gap core).2.cumMs = core.cumMs := by
  unfold GatewayCore.requestGap
  split
  · rfl
  · split_ifs <;> rfl

/-- What a handler emits is laid on the clock of its connection, with the durations of the
pipeline's transcripts. A button press does not move the clock.
SOURCE: gateway/core.py:279-331, gateway/core.py:477-552 -/
theorem clocked_handle (factory : PipelineFactory ω π) (s : GatewayRun ω π) {st : ConnStep}
    (hno : ∀ sessionId startSeq, st.event ≠ .hello sessionId startSeq) :
    Clocked (s.cores st.conn).cumMs (s.handle factory st).1.emissions
        (s.handle factory st).2.1.cumMs ∧
      durations (s.handle factory st).1.emissions =
        (s.transcripts factory st).map Transcript.durationMs := by
  unfold GatewayRun.handle GatewayRun.transcripts
  cases hevent : st.event with
  | hello sessionId startSeq => exact absurd hevent (hno sessionId startSeq)
  | audio env data =>
    dsimp only
    unfold GatewayCore.onAudio GatewayCore.ingested
    cases (s.cores st.conn).pipeline with
    | none => exact ⟨.nil _, rfl⟩
    | some pipeline =>
      cases (s.cores st.conn).sessionId with
      | none => exact ⟨.nil _, rfl⟩
      | some sid =>
        cases AudioPacket.parse data with
        | error e => exact ⟨.nil _, rfl⟩
        | ok packet =>
          dsimp only
          split
          · rename_i heq
            rw [heq]
            exact ⟨.nil _, rfl⟩
          · rename_i transcripts shared _ heq
            rw [heq]
            obtain ⟨hclocked, hdurations⟩ := clocked_emit sid st.now transcripts
              (s.cores st.conn) { s.world with pipelines := shared }
            refine ⟨?_, hdurations⟩
            dsimp only
            rw [requestGap_cumMs]
            split_ifs <;> exact hclocked
  | bye =>
    dsimp only
    unfold GatewayCore.onBye GatewayCore.flushed
    cases (s.cores st.conn).pipeline with
    | none => exact ⟨.nil _, rfl⟩
    | some pipeline =>
      cases (s.cores st.conn).sessionId with
      | none => exact ⟨.nil _, rfl⟩
      | some sid =>
        dsimp only
        split
        · rename_i heq
          rw [heq]
          exact ⟨.nil _, rfl⟩
        · rename_i transcripts shared _ heq
          rw [heq]
          exact clocked_emit sid st.now transcripts _ _
  | disconnect =>
    dsimp only
    unfold GatewayCore.onDisconnect GatewayCore.finalFlush GatewayCore.flushed
    cases (s.cores st.conn).pipeline with
    | none => exact ⟨.nil _, rfl⟩
    | some pipeline =>
      cases (s.cores st.conn).sessionId with
      | none => exact ⟨.nil _, rfl⟩
      | some sid =>
        dsimp only
        split
        · rename_i heq
          rw [heq]
          exact ⟨.nil _, rfl⟩
        · rename_i transcripts shared pipeline' heq
          rw [heq]
          exact clocked_emit sid st.now transcripts
            { s.cores st.conn with sessionId := some sid, pipeline := some pipeline' }
            { s.world with pipelines := shared }

/-! ## The gateway's pipelines -/

theorem emit_pipelines (sessionId : String) (now : Time) (ts : List Transcript)
    (core : GatewayCore π) (world : GatewayWorld ω) :
    (GatewayCore.emit sessionId now ts core world).2.2.pipelines = world.pipelines ∧
      (GatewayCore.emit sessionId now ts core world).2.1.pipeline = core.pipeline := by
  induction ts generalizing core world with
  | nil => exact ⟨rfl, rfl⟩
  | cons t ts ih => exact ih _ _

section

variable (factory : PipelineFactory ω π) (now : Time) (core : GatewayCore π)
  (world : GatewayWorld ω)

/-- A packet goes to the pipeline, which may be asked about a gap afterwards.
SOURCE: gateway/core.py:279-331 -/
theorem onAudio_pipelines {env : IngestEnv} {data : Bytes} {packet : AudioPacket} {p : π}
    {sessionId : String} (hp : core.pipeline = some p) (hsid : core.sessionId = some sessionId)
    (hparse : AudioPacket.parse data = .ok packet) :
    (core.onAudio factory env now data world).2.2.pipelines =
        (factory.ingest env packet world.pipelines p).2.1 ∧
      ∀ p', (core.onAudio factory env now data world).2.1.pipeline = some p' →
        p' = (factory.ingest env packet world.pipelines p).2.2 ∨
        p' = (factory.missingRange env.gapCheckedAt
          (factory.ingest env packet world.pipelines p).2.2).2 := by
  unfold GatewayCore.onAudio
  rw [hp, hsid]
  dsimp only
  rw [hparse]
  dsimp only
  split
  · rename_i heq
    rw [heq]
    exact ⟨rfl, fun p' hp' => Or.inl (Option.some.inj hp').symm⟩
  · rename_i heq
    rw [heq]
    refine ⟨?_, fun p' hp' => Or.inr (Option.some.inj hp').symm⟩
    dsimp only
    split_ifs <;> exact (emit_pipelines _ _ _ _ _).1

/-- Audio does nothing on a connection without a session, or when it is malformed. -/
theorem onAudio_ignored {env : IngestEnv} {data : Bytes}
    (h : ∀ p sessionId packet, core.pipeline = some p → core.sessionId = some sessionId →
      AudioPacket.parse data ≠ .ok packet) :
    (core.onAudio factory env now data world).2 = (core, world) := by
  unfold GatewayCore.onAudio
  split
  · rename_i p sessionId hp hsid
    split
    · rfl
    · rename_i packet hparse
      exact absurd hparse (h p sessionId packet hp hsid)
  · rfl

/-- The end of a connection flushes its pipeline, if it has one.
SOURCE: gateway/core.py:477-552 -/
theorem onBye_pipelines :
    ((core.onBye factory now world).2.2.pipelines = world.pipelines ∨
        ∃ p, (core.onBye factory now world).2.2.pipelines =
          (factory.flush world.pipelines p).2.1) ∧
      ∀ p', (core.onBye factory now world).2.1.pipeline = some p' → ∃ p,
        core.pipeline = some p ∧ (p' = p ∨ p' = (factory.flush world.pipelines p).2.2) := by
  unfold GatewayCore.onBye
  split
  · rename_i p sessionId hp hsid
    split
    · rename_i heq
      refine ⟨Or.inr ⟨p, by rw [heq]⟩, fun p' hp' => ⟨p, hp, Or.inr ?_⟩⟩
      rw [heq]
      exact (Option.some.inj hp').symm
    · rename_i heq
      refine ⟨Or.inr ⟨p, ?_⟩, nofun⟩
      rw [heq]
      exact (emit_pipelines _ _ _ _ _).1
  · exact ⟨Or.inl rfl, fun p' hp' => ⟨p', hp', Or.inl rfl⟩⟩

/-- A dropped connection flushes its pipeline, if it has one.
SOURCE: gateway/core.py:516-552 -/
theorem onDisconnect_pipelines :
    ((core.onDisconnect factory now world).2.2.pipelines = world.pipelines ∨
        ∃ p, (core.onDisconnect factory now world).2.2.pipelines =
          (factory.flush world.pipelines p).2.1) ∧
      ∀ p', (core.onDisconnect factory now world).2.1.pipeline = some p' → ∃ p,
        core.pipeline = some p ∧ (p' = p ∨ p' = (factory.flush world.pipelines p).2.2) := by
  have hclose : (core.onDisconnect factory now world).2.2.pipelines =
      (core.finalFlush factory now world).2.2.pipelines := by
    unfold GatewayCore.onDisconnect GatewayCore.finalizePendingSession GatewayCore.closeSession
    dsimp only
    cases (core.finalFlush factory now world).2.1.sessionId <;> rfl
  rw [hclose]
  show _ ∧ ∀ p', (core.finalFlush factory now world).2.1.pipeline = some p' → _
  unfold GatewayCore.finalFlush
  split
  · rename_i p sessionId hp hsid
    split
    · rename_i heq
      refine ⟨Or.inr ⟨p, by rw [heq]⟩, fun p' hp' => ⟨p, hp, Or.inr ?_⟩⟩
      rw [heq]
      exact (Option.some.inj hp').symm
    · rename_i heq
      refine ⟨Or.inr ⟨p, ?_⟩, fun p' hp' => ⟨p, hp, Or.inr ?_⟩⟩
      · rw [heq]
        exact (emit_pipelines _ _ _ _ _).1
      · rw [heq]
        rw [(emit_pipelines _ _ _ _ _).2] at hp'
        exact (Option.some.inj hp').symm
  · exact ⟨Or.inl rfl, fun p' hp' => ⟨p', hp', Or.inl rfl⟩⟩

end

end

/-! ## What the streamer is fed -/

/-- A stretch of the PCM: filled-in silence, or a decoded frame with its time on the device's
clock and its Opus bytes. -/
inductive Piece where
  | silence (ms : ℕ) (pcm : Bytes)
  | frame (relTs : ℕ) (opus pcm : Bytes)
  deriving DecidableEq

def Piece.pcm : Piece → Bytes
  | .silence _ pcm | .frame _ _ pcm => pcm

def Piece.ms : Piece → ℕ
  | .silence ms _ => ms
  | .frame _ _ _ => frameMs

/-- Decoded frames, from a device time on. -/
def framePieces : ℕ → List Bytes → List Bytes → List Piece
  | relTs, opus :: frames, pcm :: pcms =>
    .frame relTs opus pcm :: framePieces (relTs + frameMs) frames pcms
  | _, _, _ => []

section

variable {β : Type} (cfg : IngestConfig) (backend : IngestBackend β)

/-- What a packet adds to the PCM. -/
def packetPieces (pkt : AudioPacket) (p : AudioIngestPipeline β) : List Piece :=
  (if p.insertMs cfg pkt = 0 then []
    else [.silence (p.insertMs cfg pkt) (p.gapSilenceFor cfg pkt)]) ++
    framePieces pkt.relTsMs pkt.frames
      (AudioIngestPipeline.decodeFrames backend pkt.frames p.backend).1

/-- What packets add to the PCM, until decoding fails. -/
def piecesOf : List AudioPacket → AudioIngestPipeline β → List Piece
  | [], _ => []
  | pkt :: pkts, p =>
    packetPieces cfg backend pkt p ++
      match p.bufferPacket cfg backend pkt with
      | (some _, _) => []
      | (none, p) => piecesOf pkts p

variable {cfg backend}

theorem pcm_framePieces (relTs : ℕ) (frames : List Bytes) (b : β) :
    (framePieces relTs frames (AudioIngestPipeline.decodeFrames backend frames b).1).flatMap
      Piece.pcm = (AudioIngestPipeline.decodeFrames backend frames b).1.flatten := by
  induction frames generalizing relTs b with
  | nil => rfl
  | cons frame frames ih =>
    rw [AudioIngestPipeline.decodeFrames]
    split
    · rfl
    · exact congrArg (_ ++ ·) (ih _ _)

/-- **The pieces are what is fed**: the buffer grows by their PCM.
SOURCE: ingest/pipeline.py:434-456 -/
theorem pcmBuffer_bufferPackets (pkts : List AudioPacket) (p : AudioIngestPipeline β) :
    (p.bufferPackets cfg backend pkts).2.pcmBuffer =
      p.pcmBuffer ++ (piecesOf cfg backend pkts p).flatMap Piece.pcm := by
  induction pkts generalizing p with
  | nil => simp [AudioIngestPipeline.bufferPackets, piecesOf]
  | cons pkt pkts ih =>
    have hsilence : (if p.insertMs cfg pkt = 0 then []
        else [Piece.silence (p.insertMs cfg pkt) (p.gapSilenceFor cfg pkt)]).flatMap Piece.pcm =
        p.gapSilenceFor cfg pkt := by
      split_ifs with hzero
      · simp [AudioIngestPipeline.gapSilenceFor, hzero]
      · simp [Piece.pcm]
    have hfirst : (p.bufferPacket cfg backend pkt).2.pcmBuffer =
        p.pcmBuffer ++ (packetPieces cfg backend pkt p).flatMap Piece.pcm := by
      rw [packetPieces, List.flatMap_append, hsilence, pcm_framePieces, ← List.append_assoc]
      unfold AudioIngestPipeline.bufferPacket
      dsimp only
      split <;> rfl
    rw [AudioIngestPipeline.bufferPackets, piecesOf, List.flatMap_append, ← List.append_assoc,
      ← hfirst]
    cases p.bufferPacket cfg backend pkt with
    | mk fault p' =>
      cases fault with
      | some e => simp
      | none => exact ih p'

theorem piecesOf_singleton (pkt : AudioPacket) (p : AudioIngestPipeline β) :
    piecesOf cfg backend [pkt] p = packetPieces cfg backend pkt p := by
  rw [piecesOf]
  split <;> exact List.append_nil _

/-- A piece of a packet that is a frame is one of its frames, at its time. -/
theorem mem_framePieces {relTs relTs' : ℕ} {frames pcms : List Bytes} {opus pcm : Bytes}
    (h : Piece.frame relTs' opus pcm ∈ framePieces relTs frames pcms) :
    ∃ i, frames[i]? = some opus ∧ relTs' = relTs + i * frameMs := by
  induction frames generalizing relTs pcms with
  | nil => cases h
  | cons frame frames ih =>
    cases pcms with
    | nil => cases h
    | cons first pcms =>
      rw [framePieces] at h
      rcases List.mem_cons.mp h with heq | hrest
      · cases heq
        exact ⟨0, rfl, by omega⟩
      · obtain ⟨i, hi, htime⟩ := ih hrest
        exact ⟨i + 1, hi, by rw [htime, Nat.succ_mul]; omega⟩

theorem mem_packetPieces {pkt : AudioPacket} {p : AudioIngestPipeline β} {relTs : ℕ}
    {opus pcm : Bytes} (h : Piece.frame relTs opus pcm ∈ packetPieces cfg backend pkt p) :
    ∃ i, pkt.frames[i]? = some opus ∧ relTs = pkt.relTsMs + i * frameMs := by
  rcases List.mem_append.mp h with h | h
  · split_ifs at h
    · cases h
    · cases List.mem_singleton.mp h
  · exact mem_framePieces h

end

/-! ## A session -/

/-- A gateway with the packets it took in, the PCM its streamer is fed, and the segments that
went out as transcripts. -/
structure TimelineRun (β : Type) where
  gateway : GatewayRun AudioStore (AudioIngestPipeline β)
  heard : List AudioPacket := []
  layout : List Piece := []
  segments : List Attributed := []

section

variable {β : Type} (cfg : IngestConfig) (backend : IngestBackend β)

/-- The packet that a step takes in, with the pipeline it goes to. -/
def takes (s : GatewayRun AudioStore (AudioIngestPipeline β)) (st : ConnStep) :
    Option (IngestEnv × AudioPacket × AudioIngestPipeline β) :=
  match st.event, (s.cores st.conn).pipeline, (s.cores st.conn).sessionId with
  | .audio env data, some p, some _ =>
    match AudioPacket.parse data with
    | .ok packet => some (env, packet, p)
    | .error _ => none
  | _, _, _ => none

/-- What a step adds to the PCM. -/
def fedNow (s : GatewayRun AudioStore (AudioIngestPipeline β)) (st : ConnStep) : List Piece :=
  match takes s st with
  | some (env, packet, p) =>
    if env.audioEnabled then
      piecesOf cfg backend (p.received cfg backend env packet s.world.pipelines).1
        (p.received cfg backend env packet s.world.pipelines).2.2
    else []
  | none => []

/-- The segments that a step hands over. -/
def handedNow (s : GatewayRun AudioStore (AudioIngestPipeline β)) (st : ConnStep) :
    List Attributed :=
  match st.event, (s.cores st.conn).pipeline, (s.cores st.conn).sessionId with
  | .audio _ _, _, _ =>
    match takes s st with
    | some (env, packet, p) =>
      ((p.ingestSegments cfg backend env packet s.world.pipelines).1.toOption).getD []
    | none => []
  | .bye, some p, some _ | .disconnect, some p, some _ =>
    ((p.flushSegments cfg backend).1.toOption).getD []
  | _, _, _ => []

def step (s : TimelineRun β) (st : ConnStep) : TimelineRun β where
  gateway := s.gateway.step (AudioIngestPipeline.factory cfg backend) st
  heard := s.heard ++ ((takes s.gateway st).map fun taken => taken.2.1).toList
  layout := s.layout ++ fedNow cfg backend s.gateway st
  segments := s.segments ++ handedNow cfg backend s.gateway st

/-- The packet is the next one of the stream: it follows the last one, or it is the first and
the one the stream starts at. -/
def Follows (startSeq : ℤ) (heard : List AudioPacket) (packet : AudioPacket) : Prop :=
  match heard.getLast? with
  | some last => packet.chunkSeq = last.chunkSeq + 1
  | none => startSeq = 0 ∨ startSeq = packet.chunkSeq

instance (startSeq : ℤ) (heard : List AudioPacket) (packet : AudioPacket) :
    Decidable (Follows startSeq heard packet) := by
  unfold Follows
  split <;> infer_instance

/-- A step of the session's only connection: the next packet of the stream, with capture on,
or the end. -/
def InOrder (conn : ℕ) (startSeq : ℤ) (s : TimelineRun β) (st : ConnStep) : Prop :=
  st.conn = conn ∧
    match st.event with
    | .hello _ _ => False
    | .audio env data =>
      env.audioEnabled = true ∧
        match AudioPacket.parse data with
        | .ok packet => Follows startSeq s.heard packet
        | .error _ => False
    | .bye | .disconnect => True

instance (conn : ℕ) (startSeq : ℤ) (s : TimelineRun β) (st : ConnStep) :
    Decidable (InOrder conn startSeq s st) := by
  obtain ⟨c, now, event⟩ := st
  cases event <;> dsimp only [InOrder]
  case audio env data => cases AudioPacket.parse data <;> infer_instance
  all_goals infer_instance

/-- A packet does not start before the frames of the packet before it end. -/
def Apart (s : TimelineRun β) (st : ConnStep) : Prop :=
  ∀ packet ∈ (takes s.gateway st).map fun taken => taken.2.1, ∀ last ∈ s.heard.getLast?,
    last.relTsMs + last.frames.length * frameMs ≤ packet.relTsMs

instance (s : TimelineRun β) (st : ConnStep) : Decidable (Apart s st) := by
  unfold Apart
  infer_instance

/-- The device time of the session's first packet. -/
def TimelineRun.anchor (s : TimelineRun β) : ℕ :=
  (s.heard.head?.map AudioPacket.relTsMs).getD 0

/-- Consecutive frames that were spoken, with the device time of the first. -/
structure Span where
  relTs : ℕ
  frames : List Bytes
  spoken : frames ≠ []

/-- The span as the device's clock has it, from the session's first packet on. -/
def Span.startMs (anchor : ℕ) (span : Span) : ℤ := span.relTs - anchor

def Span.durationMs (span : Span) : ℤ := span.frames.length * frameMs

/-- The pieces are the frames from a device time on, with nothing between them. -/
def Spoken : ℕ → List Bytes → List Piece → Prop
  | _, [], [] => True
  | relTs, opus :: frames, .frame relTs' opus' _ :: pieces =>
    relTs' = relTs ∧ opus' = opus ∧ Spoken (relTs + frameMs) frames pieces
  | _, _, _ => False

/-- The segment covers exactly the span: its times are where the span's frames stand in the
PCM. -/
def Covers (layout : List Piece) (a : Attributed) (span : Span) : Prop :=
  ∃ before run after, layout = before ++ run ++ after ∧ Spoken span.relTs span.frames run ∧
    a.segment.startMs = (before.map Piece.ms).sum ∧
    a.segment.endMs = a.segment.startMs + span.durationMs

end

/-! ## What a step does -/

section

variable {β : Type} {cfg : IngestConfig} {backend : IngestBackend β} {conn : ℕ} {startSeq : ℤ}
  {sid : String}

theorem InOrder.no_hello {s : TimelineRun β} {st : ConnStep} (h : InOrder conn startSeq s st) :
    ∀ sessionId startSeq, st.event ≠ .hello sessionId startSeq := by
  intro sessionId startSeq hevent
  have hcase := h.2
  rw [hevent] at hcase
  exact hcase

/-- The transcripts of a step are those of the segments it hands over. -/
theorem transcripts_eq (s : GatewayRun AudioStore (AudioIngestPipeline β)) (st : ConnStep) :
    s.transcripts (AudioIngestPipeline.factory cfg backend) st =
      (handedNow cfg backend s st).map Attributed.transcript := by
  unfold GatewayRun.transcripts handedNow takes GatewayCore.ingested GatewayCore.flushed
  cases st.event with
  | hello sessionId startSeq =>
    cases (s.cores st.conn).pipeline <;> cases (s.cores st.conn).sessionId <;> rfl
  | audio env data =>
    cases (s.cores st.conn).pipeline with
    | none => rfl
    | some p =>
      cases (s.cores st.conn).sessionId with
      | none => rfl
      | some sessionId =>
        dsimp only
        cases AudioPacket.parse data with
        | error e => rfl
        | ok packet =>
          dsimp only [AudioIngestPipeline.factory]
          cases (p.ingestSegments cfg backend env packet s.world.pipelines).1 <;> rfl
  | bye | disconnect =>
    cases (s.cores st.conn).pipeline with
    | none => rfl
    | some p =>
      cases (s.cores st.conn).sessionId with
      | none => rfl
      | some sessionId =>
        dsimp only [AudioIngestPipeline.factory]
        cases (p.flushSegments cfg backend).1 <;> rfl

variable (cfg backend) in
/-- A step that takes a packet in leaves the store and the pipeline as `ingestSegments` does,
but for a gap that the pipeline may be asked about afterwards. -/
theorem handle_takes {s : GatewayRun AudioStore (AudioIngestPipeline β)} {st : ConnStep}
    {env : IngestEnv} {packet : AudioPacket} {p : AudioIngestPipeline β}
    (htakes : takes s st = some (env, packet, p)) :
    (s.cores st.conn).pipeline = some p ∧
      (s.handle (AudioIngestPipeline.factory cfg backend) st).2.2.pipelines =
        (p.ingestSegments cfg backend env packet s.world.pipelines).2.1 ∧
      ∀ p', (s.handle (AudioIngestPipeline.factory cfg backend) st).2.1.pipeline = some p' →
        p' = (p.ingestSegments cfg backend env packet s.world.pipelines).2.2 ∨
        p' = ((AudioIngestPipeline.factory cfg backend).missingRange env.gapCheckedAt
          (p.ingestSegments cfg backend env packet s.world.pipelines).2.2).2 := by
  unfold takes at htakes
  split at htakes
  · rename_i env₀ data p₀ sessionId hevent hp hsid
    split at htakes
    · rename_i packet₀ hparse
      have heq := Option.some.inj htakes
      rw [Prod.mk.injEq, Prod.mk.injEq] at heq
      obtain ⟨rfl, rfl, rfl⟩ := heq
      unfold GatewayRun.handle
      rw [hevent]
      exact ⟨hp, onAudio_pipelines _ st.now _ _ hp hsid hparse⟩
    · cases htakes
  · cases htakes

variable (cfg backend) in
/-- A step that takes no packet in leaves the audio store, and the pipeline steady. -/
theorem handle_takes_none {s : GatewayRun AudioStore (AudioIngestPipeline β)} {st : ConnStep}
    (hno : ∀ sessionId startSeq, st.event ≠ .hello sessionId startSeq)
    (htakes : takes s st = none) :
    (s.handle (AudioIngestPipeline.factory cfg backend) st).2.2.pipelines = s.world.pipelines ∧
      ∀ p', (s.handle (AudioIngestPipeline.factory cfg backend) st).2.1.pipeline = some p' →
        ∃ p, (s.cores st.conn).pipeline = some p ∧ AudioIngestPipeline.Steady p p' := by
  have hflush : ∀ p p' : AudioIngestPipeline β, p' = p ∨ p' =
      ((AudioIngestPipeline.factory cfg backend).flush s.world.pipelines p).2.2 →
      AudioIngestPipeline.Steady p p' := by
    rintro p p' (rfl | rfl)
    · exact .refl _
    · exact AudioIngestPipeline.steady_flushSegments p
  unfold takes at htakes
  unfold GatewayRun.handle
  cases hevent : st.event with
  | hello sessionId startSeq => exact absurd hevent (hno sessionId startSeq)
  | audio env data =>
    have hignored : ((s.cores st.conn).onAudio (AudioIngestPipeline.factory cfg backend) env
        st.now data s.world).2 = (s.cores st.conn, s.world) := by
      apply onAudio_ignored
      intro p sessionId packet hp hsid hparse
      rw [hevent, hp, hsid] at htakes
      dsimp only at htakes
      rw [hparse] at htakes
      cases htakes
    dsimp only
    rw [hignored]
    exact ⟨rfl, fun p' hp' => ⟨p', hp', .refl p'⟩⟩
  | bye =>
    obtain ⟨hstore, hpipeline⟩ := onBye_pipelines (AudioIngestPipeline.factory cfg backend) st.now
      (s.cores st.conn) s.world
    refine ⟨hstore.elim id fun ⟨_, h⟩ => h, fun p' hp' => ?_⟩
    obtain ⟨p, hp, hsteady⟩ := hpipeline p' hp'
    exact ⟨p, hp, hflush p p' hsteady⟩
  | disconnect =>
    obtain ⟨hstore, hpipeline⟩ := onDisconnect_pipelines
      (AudioIngestPipeline.factory cfg backend) st.now (s.cores st.conn) s.world
    refine ⟨hstore.elim id fun ⟨_, h⟩ => h, fun p' hp' => ?_⟩
    obtain ⟨p, hp, hsteady⟩ := hpipeline p' hp'
    exact ⟨p, hp, hflush p p' hsteady⟩

/-! ## The clock -/

/-- The transcripts so far are laid end to end from 0, with the durations of their segments. -/
structure Clock (conn : ℕ) (s : TimelineRun β) : Prop where
  clocked : Clocked 0 s.gateway.emitted (s.gateway.cores conn).cumMs
  durations : durations s.gateway.emitted = s.segments.map fun a => a.transcript.durationMs

theorem Clock.step {s : TimelineRun β} {st : ConnStep} (h : Clock conn s)
    (horder : InOrder conn startSeq s st) : Clock conn (step cfg backend s st) := by
  obtain ⟨hclocked, hdurations⟩ := clocked_handle (AudioIngestPipeline.factory cfg backend)
    s.gateway horder.no_hello
  obtain rfl := horder.1
  constructor
  · rw [Timeline.step, GatewayRun.step]
    dsimp only
    rw [Function.update_self]
    exact h.clocked.append hclocked
  · rw [transcripts_eq, List.map_map] at hdurations
    rw [Timeline.step, GatewayRun.step, Timeline.durations, List.map_append, List.map_append]
    exact congrArg₂ (· ++ ·) h.durations hdurations

/-! ## The log -/

/-- The pipeline writes to the session, anchored at its first packet, and waits for the next
packet of the stream. -/
structure Ready (sid : String) (startSeq : ℤ) (heard : List AudioPacket)
    (p : AudioIngestPipeline β) : Prop where
  session : p.audioSession = some sid
  anchor : p.audioAnchorMs = heard.head?.map fun packet => (packet.relTsMs : ℤ)
  waits : ∀ packet, Follows startSeq heard packet → p.reassembler.Idle packet.chunkSeq

theorem Ready.steady {heard : List AudioPacket} {p p' : AudioIngestPipeline β}
    (h : Ready sid startSeq heard p) (hsteady : AudioIngestPipeline.Steady p p') :
    Ready sid startSeq heard p' := by
  refine ⟨hsteady.session.trans h.session, hsteady.anchor.trans h.anchor, ?_⟩
  rw [hsteady.reassembler]
  exact h.waits

theorem Ready.missingRange {heard : List AudioPacket} {p : AudioIngestPipeline β}
    (h : Ready sid startSeq heard p) (now : ℚ) :
    Ready sid startSeq heard ((AudioIngestPipeline.factory cfg backend).missingRange now p).2 :=
  ⟨h.session, h.anchor, fun packet hnext => (h.waits packet hnext).missingRange _ _⟩

/-- What the slots of the session hold. -/
def slots (cfg : IngestConfig) (sid : String) (s : TimelineRun β) : List Bytes :=
  s.gateway.world.pipelines.slotsOf cfg.isAlnum sid

/-- Every frame that was fed stands in the log at the slot of its time, and the log ends where
the last packet does. -/
structure Logged (cfg : IngestConfig) (sid : String) (conn : ℕ) (startSeq : ℤ)
    (s : TimelineRun β) : Prop where
  sound : s.gateway.world.pipelines.Sound cfg.isAlnum sid
  ready : ∀ p, (s.gateway.cores conn).pipeline = some p → Ready sid startSeq s.heard p
  fresh : s.heard = [] → slots cfg sid s = [] ∧ s.layout = []
  ends : ∀ last ∈ s.heard.getLast?,
    (slots cfg sid s).length * frameMs + s.anchor ≤ last.relTsMs + last.frames.length * frameMs
  held : ∀ relTs opus pcm, Piece.frame relTs opus pcm ∈ s.layout →
    s.anchor ≤ relTs ∧ Slots.HoldsAt (slots cfg sid s) ((relTs - s.anchor) / frameMs) [opus]

theorem head?_append_singleton {α : Type} (xs : List α) (x : α) :
    (xs ++ [x]).head? = some (xs.head?.getD x) := by
  cases xs <;> rfl

variable (cfg backend) in
/-- A ready pipeline that receives the next packet delivers it at once, writes it to the slot of
its time, and is ready for the one after it. -/
theorem Ready.received {heard : List AudioPacket} {p : AudioIngestPipeline β}
    (h : Ready sid startSeq heard p) (hpersist : cfg.persistAudio = true) (env : IngestEnv)
    {packet : AudioPacket} (hnext : Follows startSeq heard packet)
    (hframes : ∀ frame ∈ packet.frames, frame.length ≤ 255) (htime : packet.relTsMs < 2 ^ 32)
    {store : AudioStore} (hsound : store.Sound cfg.isAlnum sid)
    (hfresh : heard = [] → store.slotsOf cfg.isAlnum sid = []) {anchor : ℕ}
    (hanchor : (heard.head?.getD packet).relTsMs = anchor) :
    (p.received cfg backend env packet store).1 = [packet] ∧
      (p.received cfg backend env packet store).2.1.Sound cfg.isAlnum sid ∧
      (p.received cfg backend env packet store).2.1.slotsOf cfg.isAlnum sid =
        Slots.place [] ((packet.relTsMs - anchor) / frameMs) packet.frames
          (store.slotsOf cfg.isAlnum sid) ∧
      Ready sid startSeq (heard ++ [packet]) (p.received cfg backend env packet store).2.2 := by
  obtain ⟨hdelivered, hidle⟩ :=
    (h.waits packet hnext).acceptPackets cfg.gapTimeoutMs env.now
  have hkept : packet.frames.map AudioStore.kept = packet.frames := by
    rw [List.map_congr_left (g := id), List.map_id]
    intro frame hframe
    exact AudioStore.kept_eq ((hframes frame hframe).trans (by decide))
  have hdevice : p.audioAnchorMs.getD (packet.relTsMs -
      (store.slotsOf cfg.isAlnum sid).length * frameMs) = (anchor : ℤ) := by
    rw [h.anchor, ← hanchor]
    cases heard with
    | nil =>
      rw [hfresh rfl]
      simp
    | cons first rest => rfl
  have hslot : (((packet.relTsMs : ℤ) - anchor) / frameMs).toNat =
      (packet.relTsMs - anchor) / frameMs := by
    unfold frameMs
    omega
  obtain ⟨⟨hsound', hslots⟩, hreassembler, hsession, hanchor'⟩ :=
    AudioIngestPipeline.persist_places backend (p := { p with reassembler :=
      (p.reassembler.acceptPackets cfg.gapTimeoutMs env.now packet).2 }) hpersist h.session
      hsound hdevice (by rw [hslot]; unfold frameMs; omega)
  unfold AudioIngestPipeline.received
  dsimp only
  refine ⟨hdelivered, hsound', ?_, hsession, ?_, fun next hfollows => ?_⟩
  · rw [← hslot, ← hkept]
    exact hslots
  · rw [head?_append_singleton, Option.map_some, hanchor]
    exact hanchor'
  · have hseq : next.chunkSeq = packet.chunkSeq + 1 := by
      rw [Follows, List.getLast?_concat] at hfollows
      exact hfollows
    rw [hseq, hreassembler]
    exact hidle

theorem takes_audio {s : GatewayRun AudioStore (AudioIngestPipeline β)} {st : ConnStep}
    {env : IngestEnv} {packet : AudioPacket} {p : AudioIngestPipeline β}
    (h : takes s st = some (env, packet, p)) :
    ∃ data, st.event = .audio env data ∧ AudioPacket.parse data = .ok packet := by
  unfold takes at h
  split at h
  · rename_i env₀ data p₀ sessionId hevent _ _
    split at h
    · rename_i packet₀ hparse
      have heq := Option.some.inj h
      rw [Prod.mk.injEq, Prod.mk.injEq] at heq
      obtain ⟨rfl, rfl, -⟩ := heq
      exact ⟨data, hevent, hparse⟩
    · cases h
  · cases h

/-- A packet taken in by an ordered step comes with capture on and is the next of the stream. -/
theorem InOrder.follows {s : TimelineRun β} {st : ConnStep} (h : InOrder conn startSeq s st)
    {env : IngestEnv} {packet : AudioPacket} {p : AudioIngestPipeline β}
    (htakes : takes s.gateway st = some (env, packet, p)) :
    env.audioEnabled = true ∧ Follows startSeq s.heard packet ∧ packet.relTsMs < 2 ^ 32 ∧
      ∀ frame ∈ packet.frames, frame.length ≤ 255 := by
  obtain ⟨data, hevent, hparse⟩ := takes_audio htakes
  have hcase := h.2
  rw [hevent] at hcase
  dsimp only at hcase
  rw [hparse] at hcase
  exact ⟨hcase.1, hcase.2, AudioPacket.bounds_of_parse hparse⟩

variable (cfg backend) in
theorem anchor_step {s : TimelineRun β} {st : ConnStep} {env : IngestEnv} {packet : AudioPacket}
    {p : AudioIngestPipeline β} (htakes : takes s.gateway st = some (env, packet, p)) :
    (step cfg backend s st).anchor = (s.heard.head?.getD packet).relTsMs := by
  rw [TimelineRun.anchor, step, htakes, Option.map_some, Option.toList_some,
    head?_append_singleton]
  rfl

/-- A packet that is apart from the one before starts where the log ends or later. -/
theorem Logged.fits {s : TimelineRun β} (h : Logged cfg sid conn startSeq s)
    {packet : AudioPacket} (hapart : ∀ last ∈ s.heard.getLast?,
      last.relTsMs + last.frames.length * frameMs ≤ packet.relTsMs) :
    (slots cfg sid s).length * frameMs + (s.heard.head?.getD packet).relTsMs ≤
      packet.relTsMs := by
  cases hheard : s.heard with
  | nil =>
    rw [(h.fresh hheard).1]
    simp
  | cons first rest =>
    have hlast : s.heard.getLast? = some ((first :: rest).getLast (List.cons_ne_nil _ _)) := by
      rw [hheard]
      exact List.getLast?_eq_some_getLast _
    have hends := h.ends _ hlast
    have hle := hapart _ hlast
    have hanchor : s.anchor = first.relTsMs := by
      rw [TimelineRun.anchor, hheard]
      rfl
    rw [hanchor] at hends
    exact hends.trans hle

/-- The log over a step that takes no packet in. -/
theorem Logged.step_none {s : TimelineRun β} {st : ConnStep}
    (h : Logged cfg sid conn startSeq s) (horder : InOrder conn startSeq s st)
    (htakes : takes s.gateway st = none) :
    Logged cfg sid conn startSeq (step cfg backend s st) := by
  obtain ⟨hstore, hpipeline⟩ :=
    handle_takes_none cfg backend horder.no_hello htakes
  obtain rfl := horder.1
  have hheard : (step cfg backend s st).heard = s.heard := by
    rw [step, htakes]
    exact List.append_nil _
  have hlayout : (step cfg backend s st).layout = s.layout := by
    rw [step, fedNow, htakes]
    exact List.append_nil _
  have hslots : slots cfg sid (step cfg backend s st) = slots cfg sid s :=
    congrArg (AudioStore.slotsOf cfg.isAlnum sid) hstore
  have hanchor : (step cfg backend s st).anchor = s.anchor := by
    rw [TimelineRun.anchor, hheard, TimelineRun.anchor]
  constructor
  · show AudioStore.Sound _ _ (s.gateway.handle _ st).2.2.pipelines
    rw [hstore]
    exact h.sound
  · intro p' hp'
    rw [step, GatewayRun.step] at hp'
    dsimp only at hp'
    rw [Function.update_self] at hp'
    obtain ⟨p, hp, hsteady⟩ := hpipeline p' hp'
    rw [hheard]
    exact (h.ready p hp).steady hsteady
  · rw [hheard, hslots, hlayout]
    exact h.fresh
  · rw [hheard, hslots, hanchor]
    exact h.ends
  · rw [hlayout, hslots, hanchor]
    exact h.held

/-- **The log over a packet**: its frames are placed at the slots of their times.
SOURCE: ingest/pipeline.py:246-313, ingest/pipeline.py:422-493 -/
theorem Logged.step_packet {s : TimelineRun β} {st : ConnStep}
    (h : Logged cfg sid conn startSeq s) (hpersist : cfg.persistAudio = true)
    (horder : InOrder conn startSeq s st) {env : IngestEnv} {packet : AudioPacket}
    {p : AudioIngestPipeline β} (htakes : takes s.gateway st = some (env, packet, p))
    (hapart : ∀ last ∈ s.heard.getLast?,
      last.relTsMs + last.frames.length * frameMs ≤ packet.relTsMs) :
    Logged cfg sid conn startSeq (step cfg backend s st) := by
  obtain ⟨henabled, hnext, htime, hframes⟩ := horder.follows htakes
  obtain ⟨hp, hstore, hpipeline⟩ := handle_takes cfg backend htakes
  obtain rfl := horder.1
  have hfits := h.fits hapart
  have hanchor := anchor_step cfg backend htakes
  obtain ⟨hdelivered, hsound, hplaced, hready⟩ := (h.ready p hp).received cfg backend
    hpersist env hnext hframes htime h.sound (fun hnil => (h.fresh hnil).1) hanchor.symm
  obtain ⟨hleaves, hsteady⟩ := AudioIngestPipeline.ingestSegments_leaves cfg
    backend henabled packet s.gateway.world.pipelines p
  have hheard : (step cfg backend s st).heard = s.heard ++ [packet] := by
    rw [step, htakes]
    rfl
  have hlayout : (step cfg backend s st).layout = s.layout ++ packetPieces cfg backend packet
      (p.received cfg backend env packet s.gateway.world.pipelines).2.2 := by
    rw [step, fedNow, htakes]
    dsimp only
    rw [if_pos henabled, hdelivered, piecesOf_singleton]
  have hslots : slots cfg sid (step cfg backend s st) =
      Slots.place [] ((packet.relTsMs - (step cfg backend s st).anchor) / frameMs) packet.frames
        (slots cfg sid s) := by
    rw [slots, slots, ← hplaced, ← hleaves, ← hstore]
    rfl
  rw [← hanchor] at hfits
  have hle : (slots cfg sid s).length ≤
      (packet.relTsMs - (step cfg backend s st).anchor) / frameMs := by
    unfold frameMs at hfits ⊢
    omega
  constructor
  · show AudioStore.Sound _ _ (s.gateway.handle _ st).2.2.pipelines
    rw [hstore, hleaves]
    exact hsound
  · intro p' hp'
    rw [step, GatewayRun.step] at hp'
    dsimp only at hp'
    rw [Function.update_self] at hp'
    rw [hheard]
    have hafter := hready.steady hsteady
    rcases hpipeline p' hp' with rfl | rfl
    · exact hafter
    · exact hafter.missingRange env.gapCheckedAt
  · rw [hheard]
    intro hnil
    exact absurd hnil (by simp)
  · rw [hheard, List.getLast?_concat]
    rintro last ⟨⟩
    rw [hslots, Slots.length_place_of_le hle]
    unfold frameMs at hfits ⊢
    omega
  · intro relTs opus pcm hpiece
    rw [hlayout] at hpiece
    rw [hslots]
    rcases List.mem_append.mp hpiece with hold | hnew
    · have hsome : s.heard ≠ [] := by
        intro hnil
        rw [(h.fresh hnil).2] at hold
        cases hold
      have hsame : (step cfg backend s st).anchor = s.anchor := by
        rw [hanchor, TimelineRun.anchor]
        cases hheads : s.heard with
        | nil => exact absurd hheads hsome
        | cons first rest => rfl
      obtain ⟨hge, hheld⟩ := h.held relTs opus pcm hold
      rw [hsame]
      exact ⟨hge, hheld.mono (Slots.isPrefix_place _ _ _ _)⟩
    · obtain ⟨i, hi, rfl⟩ := mem_packetPieces hnew
      have hheld := (Slots.holdsAt_place [] hle).getElem? hi
      refine ⟨by omega, ?_⟩
      have hslot : (packet.relTsMs + i * frameMs - (step cfg backend s st).anchor) / frameMs =
          (packet.relTsMs - (step cfg backend s st).anchor) / frameMs + i := by
        unfold frameMs
        omega
      rw [hslot]
      exact hheld

theorem Logged.step {s : TimelineRun β} {st : ConnStep} (h : Logged cfg sid conn startSeq s)
    (hpersist : cfg.persistAudio = true) (horder : InOrder conn startSeq s st)
    (hapart : Apart s st) : Logged cfg sid conn startSeq (step cfg backend s st) := by
  cases htakes : takes s.gateway st with
  | none => exact h.step_none horder htakes
  | some taken =>
    obtain ⟨env, packet, p⟩ := taken
    refine h.step_packet hpersist horder htakes (hapart packet ?_)
    rw [htakes]
    rfl

/-! ## Spans -/

/-- The frames of a span stand in the log one after the other, from the slot of its time on. -/
theorem Logged.held_span {s : TimelineRun β} (h : Logged cfg sid conn startSeq s) {relTs : ℕ}
    {frames : List Bytes} {run : List Piece} (hrun : ∀ piece ∈ run, piece ∈ s.layout)
    (hspoken : Spoken relTs frames run) (hne : frames ≠ []) :
    s.anchor ≤ relTs ∧
      Slots.HoldsAt (slots cfg sid s) ((relTs - s.anchor) / frameMs) frames := by
  induction frames generalizing relTs run with
  | nil => exact absurd rfl hne
  | cons opus frames ih =>
    match run, hspoken with
    | .frame relTs' opus' pcm :: run, hspoken =>
      obtain ⟨rfl, rfl, hrest⟩ := hspoken
      obtain ⟨hge, hfirst⟩ := h.held relTs' opus' pcm (hrun _ List.mem_cons_self)
      refine ⟨hge, ?_⟩
      by_cases hnil : frames = []
      · rw [hnil]
        exact hfirst
      · obtain ⟨-, hmore⟩ := ih (fun piece hin => hrun piece (List.mem_cons_of_mem _ hin))
          hrest hnil
        have hslot : (relTs' + frameMs - s.anchor) / frameMs =
            (relTs' - s.anchor) / frameMs + [opus'].length := by
          rw [List.length_singleton]
          unfold frameMs
          omega
        rw [hslot] at hmore
        exact hfirst.append hmore

/-- A segment that covers a span lasts as long as it. -/
theorem Covers.duration {layout : List Piece} {a : Attributed} {span : Span}
    (h : Covers layout a span) : a.transcript.durationMs = span.durationMs := by
  obtain ⟨_, _, _, _, _, _, hend⟩ := h
  have hpos : 0 < span.durationMs := by
    have hlength := List.length_pos_iff.mpr span.spoken
    unfold Span.durationMs frameMs
    omega
  rw [Attributed.transcript, if_neg (by omega)]
  dsimp only
  omega

theorem durations_of_covers {layout : List Piece} {segments : List Attributed}
    {spans : List Span} (h : List.Forall₂ (Covers layout) segments spans) :
    (segments.map fun a => a.transcript.durationMs) = spans.map Span.durationMs := by
  induction h with
  | nil => rfl
  | cons hcover _ ih => exact congrArg₂ List.cons hcover.duration ih

/-- Each span is covered by the segment at its place. -/
theorem covers_getElem? {layout : List Piece} {segments : List Attributed} {spans : List Span}
    (h : List.Forall₂ (Covers layout) segments spans) {k : ℕ} {span : Span}
    (hspan : spans[k]? = some span) : ∃ a, Covers layout a span := by
  induction h generalizing k with
  | nil => simp at hspan
  | cons hcover _ ih =>
    cases k with
    | zero =>
      obtain rfl := Option.some.inj hspan
      exact ⟨_, hcover⟩
    | succ k => exact ih hspan

/-- The log read over a span gives its frames. -/
theorem Logged.readRange {s : TimelineRun β} (h : Logged cfg sid conn startSeq s)
    {a : Attributed} {span : Span} (hcovers : Covers s.layout a span) :
    s.gateway.world.pipelines.readRange cfg.isAlnum sid (span.startMs s.anchor)
      (span.startMs s.anchor + span.durationMs) = span.frames := by
  obtain ⟨before, run, after, hlayout, hspoken, -, -⟩ := hcovers
  obtain ⟨hge, hheld⟩ := h.held_span (fun piece hin => by
    rw [hlayout]
    exact List.mem_append_left _ (List.mem_append_right _ hin)) hspoken span.spoken
  rw [AudioStore.readRange_eq]
  have hfirst : msToSlot (span.startMs s.anchor) = (span.relTs - s.anchor) / frameMs := by
    unfold msToSlot Span.startMs frameMs
    omega
  have hlast : msToSlot (span.startMs s.anchor + span.durationMs) =
      (span.relTs - s.anchor) / frameMs + span.frames.length := by
    unfold msToSlot Span.startMs Span.durationMs frameMs
    omega
  rw [hfirst, hlast]
  exact Slots.slice_of_holdsAt hheld

/-! ## The session as a whole -/

/-- Nothing of the session is stored yet. -/
structure NewSession (cfg : IngestConfig) (sid : String) (world : GatewayWorld AudioStore) :
    Prop where
  noEvents : world.store.rows sid = []
  noLog : world.pipelines.log? cfg.isAlnum sid = none
  uncounted : world.pipelines.slots.get? sid = none

/-- The session after its `hello`. -/
def greeted (cfg : IngestConfig) (backend : IngestBackend β) (conn : ℕ) (sid : String)
    (startSeq : ℤ) (world : GatewayWorld AudioStore) : TimelineRun β :=
  step cfg backend { gateway := { world := world } } ⟨conn, 0, .hello sid startSeq⟩

theorem clock_greeted {world : GatewayWorld AudioStore} (h : NewSession cfg sid world) :
    Clock conn (greeted cfg backend conn sid startSeq world) := by
  have hlast : world.store.lastEvent sid = none :=
    (InMemoryEventStore.lastEvent_eq_none_iff _ _).mpr h.noEvents
  have hcum : ((greeted cfg backend conn sid startSeq world).gateway.cores conn).cumMs = 0 := by
    rw [greeted, step, GatewayRun.step]
    dsimp only
    rw [Function.update_self]
    show (GatewayCore.resume sid world.store).2 = 0
    rw [GatewayCore.resume, hlast]
  constructor
  · rw [hcum]
    exact .nil 0
  · rfl

theorem logged_greeted {world : GatewayWorld AudioStore} (h : NewSession cfg sid world) :
    Logged cfg sid conn startSeq (greeted cfg backend conn sid startSeq world) := by
  have hslots : world.pipelines.slotsOf cfg.isAlnum sid = [] := by
    rw [AudioStore.slotsOf, h.noLog]
    rfl
  refine ⟨⟨?_, ?_⟩, ?_, fun _ => ⟨hslots, rfl⟩, ?_, ?_⟩
  · show AudioStore.Recorded ((world.pipelines.log? cfg.isAlnum sid).getD [])
      (world.pipelines.slotsOf cfg.isAlnum sid)
    rw [hslots, h.noLog]
    exact AudioStore.recorded_nil
  · intro count hcount
    rw [show (greeted cfg backend conn sid startSeq world).gateway.world.pipelines.slots.get? sid =
      none from h.uncounted] at hcount
    cases hcount
  · intro p hp
    rw [greeted, step, GatewayRun.step] at hp
    dsimp only at hp
    rw [Function.update_self] at hp
    obtain rfl := Option.some.inj hp
    exact ⟨rfl, rfl, fun packet hfollows => SessionReassembler.idle_create hfollows⟩
  · intro last hlast
    cases hlast
  · intro relTs opus pcm hpiece
    cases hpiece

/-- The session after its `hello` and further steps. -/
def session (cfg : IngestConfig) (backend : IngestBackend β) (conn : ℕ) (sid : String)
    (startSeq : ℤ) (world : GatewayWorld AudioStore) (steps : List ConnStep) : TimelineRun β :=
  run (step cfg backend) (greeted cfg backend conn sid startSeq world) steps

/-- What the pauses on the device's clock add up to, from the session's first packet to a span:
silence, and frames that are in no earlier span. -/
def pausesBefore (anchor : ℕ) (spans : List Span) (k : ℕ) : ℤ :=
  ((pausesFrom (Span.startMs anchor) Span.durationMs 0 spans).take (k + 1)).sum

/-- A transcript starts within a hop of its span, and the log read over the transcript's own
times gives the span's frames.
SOURCE: media/audio.py:16-36 -/
def OnTimeline (cfg : IngestConfig) (sid : String) (s : TimelineRun β) (e : CaptureEvent)
    (span : Span) : Prop :=
  (e.startMs - span.startMs s.anchor).natAbs ≤ cfg.hopMs ∧
    s.gateway.world.pipelines.readRange cfg.isAlnum sid e.startMs (e.startMs + e.durationMs) =
      span.frames

/-- **A transcript starts within a hop of its span exactly when the pauses up to the span add up
to at most a hop**, in every session of one connection whose packets arrive in order, and
whatever the decoder, the denoiser and the streamer do. When packets do not overlap, the log
holds the span at its own time; with no pauses before the span, the transcript is on the
timeline.
SOURCE: gateway/core.py:616-698, ingest/pipeline.py:246-313, ingest/pipeline.py:405-493,
media/audio.py:16-36 -/
theorem onTimeline_of_no_pauses {world : GatewayWorld AudioStore} (hnew : NewSession cfg sid world)
    (hpersist : cfg.persistAudio = true) (steps : List ConnStep)
    (horder : EveryStep (step cfg backend) (InOrder conn startSeq)
      (greeted cfg backend conn sid startSeq world) steps)
    (s : TimelineRun β) (hs : session cfg backend conn sid startSeq world steps = s)
    (spans : List Span) (hcovers : List.Forall₂ (Covers s.layout) s.segments spans) (k : ℕ)
    (em : Emission) (hem : s.gateway.emitted[k]? = some em) :
    ∃ span, spans[k]? = some span ∧
      ((em.event.startMs - span.startMs s.anchor).natAbs ≤ cfg.hopMs ↔
        (pausesBefore s.anchor spans k).natAbs ≤ cfg.hopMs) ∧
      (EveryStep (step cfg backend) Apart (greeted cfg backend conn sid startSeq world) steps →
        s.gateway.world.pipelines.readRange cfg.isAlnum sid (span.startMs s.anchor)
            (span.startMs s.anchor + em.event.durationMs) = span.frames ∧
          (pausesBefore s.anchor spans k = 0 → OnTimeline cfg sid s em.event span)) := by
  have hclock : Clock conn s := by
    rw [← hs]
    exact EveryStep.invariant (I := Clock conn) (fun _ _ hs hst => hs.step hst)
      (clock_greeted hnew) horder
  have hsame := hclock.durations.trans (durations_of_covers hcovers)
  have hlength : k < spans.length := by
    have hk := (List.getElem?_eq_some_iff.mp hem).1
    have hlengths := congrArg List.length hsame
    rw [durations, List.length_map, List.length_map] at hlengths
    omega
  have hspan : spans[k]? = some spans[k] := List.getElem?_eq_getElem hlength
  have hstart : em.event.startMs + pausesBefore s.anchor spans k = spans[k].startMs s.anchor :=
    hclock.clocked.start_add_pauses hsame hem hspan
  refine ⟨spans[k], hspan, ?_, fun happart => ?_⟩
  · rw [← hstart, sub_add_cancel_left, Int.natAbs_neg]
  · have hlogged : Logged cfg sid conn startSeq s := by
      rw [← hs]
      exact EveryStep.invariant (I := Logged cfg sid conn startSeq)
        (fun _ _ hs hst => hs.step hpersist hst.1 hst.2) (logged_greeted hnew)
        (horder.and happart)
    obtain ⟨a, hcover⟩ := covers_getElem? hcovers hspan
    have hduration : em.event.durationMs = spans[k].durationMs := by
      have hk := congrArg (·[k]?) hsame
      simp only [durations, List.getElem?_map, hem, hspan, Option.map_some] at hk
      exact Option.some.inj hk
    have hread := hlogged.readRange hcover
    rw [hduration]
    refine ⟨hread, fun hzero => ?_⟩
    rw [hzero, add_zero] at hstart
    refine ⟨?_, ?_⟩
    · rw [hstart, sub_self]
      exact Nat.zero_le _
    · rw [hduration, hstart]
      exact hread

end

/-! ## A pause -/

theorem demo_hop_le_window : 20 ≤ 100 := by decide

theorem demo_hop_pos : 0 < 20 := by decide

theorem demo_frame_samples : 0 < 1000 * frameMs / 1000 := by decide

/-- Hops of one frame, and at most a tenth of a second of silence filled in. -/
def demoConfig : IngestConfig where
  hopMs := 20
  windowMs := 100
  sampleRate := 1000
  gapSilenceCapMs := some 100
  isAlnum := Char.isAlphanum
  window_frames := by decide
  hop_frames := by decide
  hop_le_window := demo_hop_le_window
  hop_pos := demo_hop_pos
  frame_samples := demo_frame_samples

/-- A streamer that hears a word in every hop that is not silent; its state is how much it was
fed. -/
def wordPerHop : IngestBackend ℕ where
  initial := 0
  decode _ fed := (.ok (List.replicate 40 1), fed)
  denoise pcm fed := (.ok pcm, fed)
  identify _ fed := (none, fed)
  feed pcm fed := (.ok (if pcm.all (· = 0) then [] else [⟨"word", fed, fed + 20, 0⟩]), fed + 20)
  flush fed := (.ok [], fed)

/-- Two frames with a second between them. -/
def paused : List ConnStep :=
  [⟨0, 0, .audio {} [0, 0, 0, 0, 0, 0, 0, 0, 0, 1, 1, 0, 1, 7]⟩,
    ⟨0, 0, .audio {} [0, 1, 0, 0, 0, 0xE8, 3, 0, 0, 1, 1, 0, 1, 8]⟩]

def pausedSpans : List Span := [⟨0, [[7]], by decide⟩, ⟨1000, [[8]], by decide⟩]

def pausedSession : TimelineRun ℕ :=
  session demoConfig wordPerHop 0 "s" 0 { pipelines := {} } paused

theorem newSession_empty (cfg : IngestConfig) (sid : String) :
    NewSession cfg sid { pipelines := {} } :=
  ⟨rfl, rfl, rfl⟩

theorem covers_paused :
    List.Forall₂ (Covers pausedSession.layout) pausedSession.segments pausedSpans := by
  have hlayout : pausedSession.layout =
      [.frame 0 [7] (List.replicate 40 1), .silence 100 (List.replicate 200 0),
        .frame 1000 [8] (List.replicate 40 1)] := by decide +kernel
  have hsegments : pausedSession.segments =
      [⟨⟨"word", 0, 20, 0⟩, 20, none⟩, ⟨⟨"word", 120, 140, 0⟩, 20, none⟩] := by decide +kernel
  rw [hlayout, hsegments]
  refine .cons ⟨[], [.frame 0 [7] (List.replicate 40 1)], _, rfl, ⟨rfl, rfl, trivial⟩, rfl, rfl⟩
    (.cons ⟨[.frame 0 [7] (List.replicate 40 1), .silence 100 (List.replicate 200 0)],
      [.frame 1000 [8] (List.replicate 40 1)], [], rfl, ⟨rfl, rfl, trivial⟩, rfl, rfl⟩ .nil)

/-- The second word. -/
def pausedEmission : Emission where
  event :=
    { eventId := "s:1"
      sessionId := "s"
      seq := 1
      kind := .transcript
      createdAt := 0
      text := "word"
      durationMs := 20
      startMs := 20 }
  stored := true

theorem onTimeline_of_no_pauses_paused :
    ∃ span, pausedSpans[1]? = some span ∧
      ((pausedEmission.event.startMs - span.startMs pausedSession.anchor).natAbs ≤
          demoConfig.hopMs ↔
        (pausesBefore pausedSession.anchor pausedSpans 1).natAbs ≤ demoConfig.hopMs) ∧
      (EveryStep (step demoConfig wordPerHop) Apart
          (greeted demoConfig wordPerHop 0 "s" 0 { pipelines := {} }) paused →
        pausedSession.gateway.world.pipelines.readRange demoConfig.isAlnum "s"
            (span.startMs pausedSession.anchor)
            (span.startMs pausedSession.anchor + pausedEmission.event.durationMs) =
            span.frames ∧
          (pausesBefore pausedSession.anchor pausedSpans 1 = 0 →
            OnTimeline demoConfig "s" pausedSession pausedEmission.event span)) :=
  onTimeline_of_no_pauses (newSession_empty demoConfig "s") rfl paused (by decide +kernel)
    pausedSession rfl pausedSpans covers_paused 1 pausedEmission (by decide +kernel)

/-- **After a second of silence a word is stored a second too early.** -/
theorem not_always_onTimeline :
    ¬ ∀ (β : Type) (cfg : IngestConfig) (backend : IngestBackend β) (conn : ℕ) (sid : String)
      (startSeq : ℤ) (world : GatewayWorld AudioStore), NewSession cfg sid world →
      cfg.persistAudio = true → ∀ steps : List ConnStep,
      EveryStep (step cfg backend) (InOrder conn startSeq)
        (greeted cfg backend conn sid startSeq world) steps →
      EveryStep (step cfg backend) Apart (greeted cfg backend conn sid startSeq world) steps →
      ∀ s, session cfg backend conn sid startSeq world steps = s →
      (∀ packet ∈ s.heard, frameMs ∣ packet.relTsMs) →
      ∀ spans : List Span, List.Forall₂ (Covers s.layout) s.segments spans →
      ∀ (k : ℕ) (em : Emission) (span : Span), s.gateway.emitted[k]? = some em →
      spans[k]? = some span → OnTimeline cfg sid s em.event span := by
  intro h
  have hon := h ℕ demoConfig wordPerHop 0 "s" 0 { pipelines := {} }
    (newSession_empty demoConfig "s") rfl paused (by decide +kernel) (by decide +kernel)
    pausedSession rfl (by decide +kernel) pausedSpans covers_paused 1 pausedEmission
    ⟨1000, [[8]], by decide⟩ (by decide +kernel) rfl
  have hlate : ¬ (pausedEmission.event.startMs - Span.startMs pausedSession.anchor
      ⟨1000, [[8]], by decide⟩).natAbs ≤ demoConfig.hopMs := by decide +kernel
  exact hlate hon.1

end OpenRecall.Analysis.Timeline
