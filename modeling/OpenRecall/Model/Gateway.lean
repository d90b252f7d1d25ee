import OpenRecall.Model.AudioPacket
import OpenRecall.Model.EventStore

/-!
# The gateway

One `GatewayCore` serves one connection. It turns the transcripts of its pipeline into
capture events of the session it was told by `hello`, numbering them with a counter of its
own that `hello` seeds from the store's last event. All connections share the world: the
event store, the set of active sessions, the extraction queue and what the pipelines share.

The pipeline behind a connection is given by its operations. The gateway is the one with an
event store, a lifecycle registry and an extraction queue; its other collaborators are
absent.
-/

set_option autoImplicit false

namespace OpenRecall.Model

open Foundation

/-- SOURCE: ingest/transcriber.py:17-25 -/
structure Transcript where
  text : String
  durationMs : ℤ
  speaker : Option String := none
  speakerConfidence : Option ℚ := none
  speakerAssignment : Option String := none
  deriving DecidableEq

/-- What taking a packet in reads from outside: the clock, again when the gap is looked at
afterwards, and whether capture is switched on. -/
structure IngestEnv where
  now : ℚ := 0
  gapCheckedAt : ℚ := now
  audioEnabled : Bool := true

/-- An exception that comes out of a pipeline. -/
structure PipelineFault where
  message : String
  deriving DecidableEq

/-- The operations of the pipelines: `π` is the state of one, `ω` what they share. A call that
raises leaves what it did before.
SOURCE: ingest/pipeline.py:238-244, ingest/pipeline.py:363-371, ingest/pipeline.py:405-493 -/
structure PipelineFactory (ω π : Type) where
  create : ℤ → π
  setAudioTarget : String → π → π
  ingest : IngestEnv → AudioPacket → ω → π → Except PipelineFault (List Transcript) × ω × π
  flush : ω → π → Except PipelineFault (List Transcript) × ω × π
  missingRange : ℚ → π → Option (ℤ × ℤ) × π
  nextExpectedSeq : π → ℤ

/-- The messages the gateway sends. -/
inductive Outbound where
  | ack (sessionId : String) (nextSeq : ℤ)
  | requestChunks (sessionId : String) (start stop : ℤ)
  | transcript (sessionId text : String) (durationMs : ℤ) (speaker : Option String)
      (speakerConfidence : Option ℚ) (speakerAssignment : Option String)
  deriving DecidableEq

inductive GatewayError where
  | protocol (message : String)
  | packet (e : AudioPacketError)
  | pipeline (e : PipelineFault)
  deriving DecidableEq

/-- SOURCE: gateway/core.py:154-190 -/
structure GatewayCore (π : Type) where
  sessionId : Option String := none
  pipeline : Option π := none
  eventSeq : ℤ := 0
  cumMs : ℤ := 0
  lastRequestedGap : Option (ℤ × ℤ) := none

/-- What the connections share. -/
structure GatewayWorld (ω : Type) where
  store : InMemoryEventStore := {}
  active : Finset String := ∅
  enqueued : List (String × Bool) := []
  pipelines : ω

/-- An event the gateway made of a transcript, and whether the store took it. -/
structure Emission where
  event : CaptureEvent
  stored : Bool
  deriving DecidableEq

/-- SOURCE: gateway/core.py:631 -/
def eventId (sessionId : String) (seq : ℤ) : String := sessionId ++ ":" ++ toString seq

namespace GatewayCore

section

variable {ω π : Type}

/-- The event of the next transcript.
SOURCE: gateway/core.py:630-642 -/
def transcriptEvent (sessionId : String) (now : Time) (t : Transcript) (core : GatewayCore π) :
    CaptureEvent where
  eventId := eventId sessionId core.eventSeq
  sessionId := sessionId
  seq := core.eventSeq
  kind := .transcript
  createdAt := now
  text := t.text
  durationMs := t.durationMs
  startMs := core.cumMs
  speaker := t.speaker
  speakerConfidence := t.speakerConfidence
  speakerAssignment := t.speakerAssignment

/-- Persist the transcripts one by one. An event the store took is queued for extraction; the
counters move on in any case.
SOURCE: gateway/core.py:616-698 -/
def emit (sessionId : String) (now : Time) : List Transcript → GatewayCore π → GatewayWorld ω →
    List Emission × GatewayCore π × GatewayWorld ω
  | [], core, world => ([], core, world)
  | t :: ts, core, world =>
    let event := core.transcriptEvent sessionId now t
    let (stored, store) := world.store.append event
    let world := { world with
      store := store
      enqueued := if stored then world.enqueued ++ [(sessionId, false)] else world.enqueued }
    let core := { core with
      eventSeq := core.eventSeq + 1
      cumMs := core.cumMs + t.durationMs }
    let (emissions, core, world) := emit sessionId now ts core world
    (⟨event, stored⟩ :: emissions, core, world)

/-- The message of an emitted transcript. -/
def transcriptMsg (e : Emission) : Outbound :=
  .transcript e.event.sessionId e.event.text e.event.durationMs e.event.speaker
    e.event.speakerConfidence e.event.speakerAssignment

/-- SOURCE: gateway/core.py:577 -/
def momentText : String := "📍 Moment marked — the last minute was saved"

/-- The event of a button press. -/
def momentEvent (sessionId : String) (now : Time) (core : GatewayCore π) : CaptureEvent where
  eventId := eventId sessionId core.eventSeq
  sessionId := sessionId
  seq := core.eventSeq
  kind := .moment
  createdAt := now
  text := momentText
  durationMs := 0
  startMs := core.cumMs

/-- SOURCE: gateway/core.py:579-614 -/
def emitMoment (sessionId : String) (now : Time) (core : GatewayCore π)
    (world : GatewayWorld ω) : List Outbound × GatewayCore π × GatewayWorld ω :=
  let event := core.momentEvent sessionId now
  ([.transcript sessionId momentText 0 none none none],
    { core with eventSeq := core.eventSeq + 1 },
    { world with store := (world.store.append event).2 })

/-- What a handler does: the reply or what it raised, and the transcripts it emitted. -/
structure Handled where
  reply : Except GatewayError (List Outbound)
  emissions : List Emission := []

/-- Where `hello` resumes: the next number and the end of the last event.
SOURCE: gateway/core.py:388-399 -/
def resume (sessionId : String) (store : InMemoryEventStore) : ℤ × ℤ :=
  match store.lastEvent sessionId with
  | some prior => (prior.seq + 1, prior.startMs + prior.durationMs)
  | none => (0, 0)

/-- SOURCE: gateway/core.py:369-416 -/
def onHello (factory : PipelineFactory ω π) (sessionId : String) (startSeq : ℤ)
    (world : GatewayWorld ω) : Handled × GatewayCore π × GatewayWorld ω :=
  let pipeline := factory.setAudioTarget sessionId (factory.create startSeq)
  (⟨.ok [.ack sessionId startSeq], []⟩,
    { sessionId := some sessionId
      pipeline := some pipeline
      eventSeq := (resume sessionId world.store).1
      cumMs := (resume sessionId world.store).2
      lastRequestedGap := none },
    { world with active := insert sessionId world.active })

/-- Ask for the chunks of a gap at the head of the stream, once for each distinct gap.
SOURCE: gateway/core.py:313-329 -/
def requestGap (sessionId : String) (gap : Option (ℤ × ℤ)) (core : GatewayCore π) :
    List Outbound × GatewayCore π :=
  match gap with
  | none => ([], { core with lastRequestedGap := none })
  | some (start, stop) =>
    if core.lastRequestedGap = some (start, stop) then ([], core)
    else ([.requestChunks sessionId start stop],
      { core with lastRequestedGap := some (start, stop) })

/-- SOURCE: gateway/core.py:279-331 -/
def onAudio (factory : PipelineFactory ω π) (env : IngestEnv) (now : Time) (data : Bytes)
    (core : GatewayCore π) (world : GatewayWorld ω) :
    Handled × GatewayCore π × GatewayWorld ω :=
  match core.pipeline, core.sessionId with
  | some pipeline, some sessionId =>
    match AudioPacket.parse data with
    | .error e => (⟨.error (.packet e), []⟩, core, world)
    | .ok packet =>
      match factory.ingest env packet world.pipelines pipeline with
      | (.error e, shared, pipeline) =>
        (⟨.error (.pipeline e), []⟩, { core with pipeline := some pipeline },
          { world with pipelines := shared })
      | (.ok transcripts, shared, pipeline) =>
        let (emissions, core, world) :=
          emit sessionId now transcripts core { world with pipelines := shared }
        let (moment, core, world) :=
          if packet.ptype = .memoryChunk ∧ packet.isLastOfRequest then
            emitMoment sessionId now core world
          else ([], core, world)
        let (gap, pipeline) := factory.missingRange env.gapCheckedAt pipeline
        let (request, core) := requestGap sessionId gap core
        (⟨.ok (emissions.map transcriptMsg ++ moment ++ request ++
            [.ack sessionId (factory.nextExpectedSeq pipeline)]), emissions⟩,
          { core with pipeline := some pipeline }, world)
  | _, _ => (⟨.ok [], []⟩, core, world)

/-- SOURCE: gateway/core.py:497-514 -/
def closeSession (sessionId : String) (world : GatewayWorld ω) : GatewayWorld ω :=
  { world with active := world.active.erase sessionId }

/-- SOURCE: gateway/core.py:477-495 -/
def onBye (factory : PipelineFactory ω π) (now : Time) (core : GatewayCore π)
    (world : GatewayWorld ω) : Handled × GatewayCore π × GatewayWorld ω :=
  match core.pipeline, core.sessionId with
  | some pipeline, some sessionId =>
    match factory.flush world.pipelines pipeline with
    | (.error e, shared, pipeline) =>
      (⟨.error (.pipeline e), []⟩, { core with pipeline := some pipeline },
        { world with pipelines := shared })
    | (.ok transcripts, shared, _) =>
      let (emissions, core, world) :=
        emit sessionId now transcripts core { world with pipelines := shared }
      let world := closeSession sessionId world
      (⟨.ok (emissions.map transcriptMsg), emissions⟩,
        { core with sessionId := none, pipeline := none },
        { world with enqueued := world.enqueued ++ [(sessionId, true)] })
  | _, _ => (⟨.error (.protocol "bye received before hello"), []⟩, core, world)

/-- SOURCE: gateway/core.py:554-573 -/
def finalizePendingSession (core : GatewayCore π) (world : GatewayWorld ω) : GatewayWorld ω :=
  match core.sessionId with
  | none => world
  | some sessionId => { world with enqueued := world.enqueued ++ [(sessionId, true)] }

/-- The flush of a dropped connection; what it raises is swallowed.
SOURCE: gateway/core.py:537-549 -/
def finalFlush (factory : PipelineFactory ω π) (now : Time) (core : GatewayCore π)
    (world : GatewayWorld ω) : List Emission × GatewayCore π × GatewayWorld ω :=
  match core.pipeline, core.sessionId with
  | some pipeline, some sessionId =>
    match factory.flush world.pipelines pipeline with
    | (.error _, shared, pipeline) =>
      ([], { core with pipeline := some pipeline }, { world with pipelines := shared })
    | (.ok transcripts, shared, pipeline) =>
      emit sessionId now transcripts { core with pipeline := some pipeline }
        { world with pipelines := shared }
  | _, _ => ([], core, world)

/-- SOURCE: gateway/core.py:516-552 -/
def onDisconnect (factory : PipelineFactory ω π) (now : Time) (core : GatewayCore π)
    (world : GatewayWorld ω) : Handled × GatewayCore π × GatewayWorld ω :=
  let (emissions, core, world) := finalFlush factory now core world
  let world := finalizePendingSession core world
  let world := match core.sessionId with
    | none => world
    | some sessionId => closeSession sessionId world
  (⟨.ok [], emissions⟩, core, world)

/-! ## What the handlers do to the store -/

/-- The counter goes from `c` to `c'` and the store from `st` to `st'` by numbering events one
after the other: those of transcripts, which the emissions list, and perhaps a moment. -/
inductive Emits (sid : String) : ℤ → InMemoryEventStore → List Emission → ℤ →
    InMemoryEventStore → Prop where
  | nil (c : ℤ) (st : InMemoryEventStore) : Emits sid c st [] c st
  | transcript {c c' : ℤ} {st st' : InMemoryEventStore} {emissions : List Emission}
      (e : CaptureEvent) (hid : e.eventId = eventId sid c) (hsid : e.sessionId = sid)
      (hseq : e.seq = c) (hkind : e.kind = .transcript)
      (rest : Emits sid (c + 1) (st.append e).2 emissions c' st') :
      Emits sid c st (⟨e, (st.append e).1⟩ :: emissions) c' st'
  | moment {c : ℤ} {st : InMemoryEventStore} (e : CaptureEvent) (hid : e.eventId = eventId sid c)
      (hsid : e.sessionId = sid) (hseq : e.seq = c) (hkind : e.kind = .moment) :
      Emits sid c st [] (c + 1) (st.append e).2

/-- What a handler of a bound connection leaves: events of its session, numbered from its
counter on. A connection without a session leaves the store as it is. -/
def Leaves (core : GatewayCore π) (world : GatewayWorld ω)
    (result : Handled × GatewayCore π × GatewayWorld ω) : Prop :=
  match core.sessionId with
  | none => result.1.emissions = [] ∧ result.2.2.store = world.store
  | some sid => Emits sid core.eventSeq world.store result.1.emissions result.2.1.eventSeq
      result.2.2.store

theorem leaves_of_same {core core' : GatewayCore π} {world world' : GatewayWorld ω}
    {reply : Except GatewayError (List Outbound)} (hseq : core'.eventSeq = core.eventSeq)
    (hstore : world'.store = world.store) : Leaves core world (⟨reply, []⟩, core', world') := by
  unfold Leaves
  cases core.sessionId with
  | none => exact ⟨rfl, hstore⟩
  | some sid =>
    dsimp only
    rw [hseq, hstore]
    exact .nil _ _

theorem leaves_of_emits {core : GatewayCore π} {world : GatewayWorld ω} {sid : String}
    {result : Handled × GatewayCore π × GatewayWorld ω} (hsid : core.sessionId = some sid)
    (h : Emits sid core.eventSeq world.store result.1.emissions result.2.1.eventSeq
      result.2.2.store) : Leaves core world result := by
  unfold Leaves
  rw [hsid]
  exact h

/-- `emit` numbers its transcripts, in front of what is numbered after it. -/
theorem emits_emit_then (sid : String) (now : Time) (ts : List Transcript) (core : GatewayCore π)
    (world : GatewayWorld ω) {c' : ℤ} {st' : InMemoryEventStore}
    (h : Emits sid (emit sid now ts core world).2.1.eventSeq
      (emit sid now ts core world).2.2.store [] c' st') :
    Emits sid core.eventSeq world.store (emit sid now ts core world).1 c' st' := by
  induction ts generalizing core world with
  | nil => exact h
  | cons t ts ih => exact .transcript (core.transcriptEvent sid now t) rfl rfl rfl rfl (ih _ _ h)

theorem emits_emit (sid : String) (now : Time) (ts : List Transcript) (core : GatewayCore π)
    (world : GatewayWorld ω) :
    Emits sid core.eventSeq world.store (emit sid now ts core world).1
      (emit sid now ts core world).2.1.eventSeq (emit sid now ts core world).2.2.store :=
  emits_emit_then sid now ts core world (.nil _ _)

@[simp] theorem emit_sessionId (sid : String) (now : Time) (ts : List Transcript)
    (core : GatewayCore π) (world : GatewayWorld ω) :
    (emit sid now ts core world).2.1.sessionId = core.sessionId := by
  induction ts generalizing core world with
  | nil => rfl
  | cons t ts ih => exact ih _ _

@[simp] theorem length_emit (sid : String) (now : Time) (ts : List Transcript)
    (core : GatewayCore π) (world : GatewayWorld ω) :
    (emit sid now ts core world).1.length = ts.length := by
  induction ts generalizing core world with
  | nil => rfl
  | cons t ts ih => exact congrArg (· + 1) (ih _ _)

/-- The transcripts the pipeline hands over for a packet. -/
def ingested (factory : PipelineFactory ω π) (env : IngestEnv) (data : Bytes)
    (core : GatewayCore π) (world : GatewayWorld ω) : List Transcript :=
  match core.pipeline, core.sessionId, AudioPacket.parse data with
  | some pipeline, some _, .ok packet =>
    match (factory.ingest env packet world.pipelines pipeline).1 with
    | .ok transcripts => transcripts
    | .error _ => []
  | _, _, _ => []

/-- The transcripts the pipeline hands over at the end of the connection. -/
def flushed (factory : PipelineFactory ω π) (core : GatewayCore π) (world : GatewayWorld ω) :
    List Transcript :=
  match core.pipeline, core.sessionId with
  | some pipeline, some _ =>
    match (factory.flush world.pipelines pipeline).1 with
    | .ok transcripts => transcripts
    | .error _ => []
  | _, _ => []

/-- Audio leaves numbered events and the connection bound as it was. -/
theorem onAudio_leaves (factory : PipelineFactory ω π) (env : IngestEnv) (now : Time)
    (data : Bytes) (core : GatewayCore π) (world : GatewayWorld ω) :
    Leaves core world (onAudio factory env now data core world) ∧
      (onAudio factory env now data core world).2.1.sessionId = core.sessionId := by
  unfold onAudio
  split
  · rename_i pipeline sid _ hsid
    split
    · exact ⟨leaves_of_same rfl rfl, rfl⟩
    · rename_i packet _
      split
      · exact ⟨leaves_of_same rfl rfl, rfl⟩
      · rename_i transcripts shared pipeline' _
        have hgap : ∀ (gap : Option (ℤ × ℤ)) (c : GatewayCore π),
            (requestGap sid gap c).2.eventSeq = c.eventSeq ∧
              (requestGap sid gap c).2.sessionId = c.sessionId := by
          intro gap c
          unfold requestGap
          split
          · exact ⟨rfl, rfl⟩
          · split_ifs <;> exact ⟨rfl, rfl⟩
        by_cases hmoment : packet.ptype = .memoryChunk ∧ packet.isLastOfRequest = true
        · simp only [hmoment, and_self, if_true]
          refine ⟨leaves_of_emits hsid ?_, (hgap _ _).2.trans (emit_sessionId _ _ _ _ _)⟩
          dsimp only
          rw [(hgap _ _).1]
          exact emits_emit_then sid now transcripts core { world with pipelines := shared }
            (.moment _ rfl rfl rfl rfl)
        · simp only [hmoment, if_false]
          refine ⟨leaves_of_emits hsid ?_, (hgap _ _).2.trans (emit_sessionId _ _ _ _ _)⟩
          dsimp only
          rw [(hgap _ _).1]
          exact emits_emit sid now transcripts core { world with pipelines := shared }
  · exact ⟨leaves_of_same rfl rfl, rfl⟩

/-- `bye` leaves numbered events, and the connection as it was or unbound. -/
theorem onBye_leaves (factory : PipelineFactory ω π) (now : Time) (core : GatewayCore π)
    (world : GatewayWorld ω) :
    Leaves core world (onBye factory now core world) ∧
      ((onBye factory now core world).2.1.sessionId = core.sessionId ∨
        (onBye factory now core world).2.1.sessionId = none) := by
  unfold onBye
  split
  · rename_i pipeline sid _ hsid
    split
    · exact ⟨leaves_of_same rfl rfl, Or.inl rfl⟩
    · rename_i transcripts shared _ _
      exact ⟨leaves_of_emits hsid (emits_emit sid now transcripts core
        { world with pipelines := shared }), Or.inr rfl⟩
  · exact ⟨leaves_of_same rfl rfl, Or.inl rfl⟩

/-- A dropped connection leaves numbered events and stays bound. -/
theorem onDisconnect_leaves (factory : PipelineFactory ω π) (now : Time) (core : GatewayCore π)
    (world : GatewayWorld ω) :
    Leaves core world (onDisconnect factory now core world) ∧
      (onDisconnect factory now core world).2.1.sessionId = core.sessionId := by
  have hclose : ∀ (core : GatewayCore π) (world : GatewayWorld ω),
      (match core.sessionId with
        | none => finalizePendingSession core world
        | some sessionId =>
          closeSession sessionId (finalizePendingSession core world)).store = world.store := by
    intro core world
    unfold finalizePendingSession closeSession
    cases core.sessionId <;> rfl
  have hflush : Leaves core world (⟨.ok [], (finalFlush factory now core world).1⟩,
        (finalFlush factory now core world).2) ∧
      (finalFlush factory now core world).2.1.sessionId = core.sessionId := by
    unfold finalFlush
    split
    · rename_i pipeline sid _ hsid
      split
      · exact ⟨leaves_of_same rfl rfl, rfl⟩
      · rename_i transcripts shared pipeline' _
        exact ⟨leaves_of_emits hsid (emits_emit sid now transcripts
          { core with pipeline := some pipeline' } { world with pipelines := shared }),
          emit_sessionId _ _ _ _ _⟩
    · exact ⟨leaves_of_same rfl rfl, rfl⟩
  refine ⟨?_, hflush.2⟩
  have hleaves := hflush.1
  unfold Leaves at hleaves ⊢
  have hstore := hclose (finalFlush factory now core world).2.1
    (finalFlush factory now core world).2.2
  unfold onDisconnect
  dsimp only
  cases hsid : core.sessionId with
  | none =>
    rw [hsid] at hleaves
    exact ⟨hleaves.1, hstore.trans hleaves.2⟩
  | some sid =>
    rw [hsid] at hleaves
    dsimp only at hleaves ⊢
    rw [hstore]
    exact hleaves

/-! ## Every transcript of the pipeline is emitted -/

theorem length_emissions_onAudio (factory : PipelineFactory ω π) (env : IngestEnv) (now : Time)
    (data : Bytes) (core : GatewayCore π) (world : GatewayWorld ω) :
    (onAudio factory env now data core world).1.emissions.length =
      (ingested factory env data core world).length := by
  unfold onAudio ingested
  cases core.pipeline with
  | none => rfl
  | some pipeline =>
    cases core.sessionId with
    | none => rfl
    | some sid =>
      cases AudioPacket.parse data with
      | error e => rfl
      | ok packet =>
        dsimp only
        split
        · rename_i heq
          rw [heq]
          rfl
        · rename_i heq
          rw [heq]
          exact length_emit _ _ _ _ _

theorem length_emissions_onBye (factory : PipelineFactory ω π) (now : Time)
    (core : GatewayCore π) (world : GatewayWorld ω) :
    (onBye factory now core world).1.emissions.length =
      (flushed factory core world).length := by
  unfold onBye flushed
  cases core.pipeline with
  | none => rfl
  | some pipeline =>
    cases core.sessionId with
    | none => rfl
    | some sid =>
      dsimp only
      split
      · rename_i heq
        rw [heq]
        rfl
      · rename_i heq
        rw [heq]
        exact length_emit _ _ _ _ _

theorem length_emissions_onDisconnect (factory : PipelineFactory ω π) (now : Time)
    (core : GatewayCore π) (world : GatewayWorld ω) :
    (onDisconnect factory now core world).1.emissions.length =
      (flushed factory core world).length := by
  unfold onDisconnect finalFlush flushed
  cases core.pipeline with
  | none => rfl
  | some pipeline =>
    cases core.sessionId with
    | none => rfl
    | some sid =>
      dsimp only
      split
      · rename_i heq
        rw [heq]
        rfl
      · rename_i heq
        rw [heq]
        exact length_emit _ _ _ _ _

end

end GatewayCore

end OpenRecall.Model
