import OpenRecall.Analysis.Reassembly
import OpenRecall.Analysis.Timeline

/-!
# The end of a session

A packet that the reassembler accepts is delivered, parked or held. What is delivered goes to
the PCM buffer, and the final flush feeds what is left in there. But the flush does not look
into the reassembler: a packet that is held behind a gap, or parked after one, waits for a
packet that does not come any more. So the session loses nothing just when the reassembler is
empty of frames at its end.
-/

set_option autoImplicit false

namespace OpenRecall.Analysis.SessionEnd

open Foundation OpenRecall.Model OpenRecall.Analysis.Timeline OpenRecall.Analysis.Reassembly

/-- A packet that went to the PCM buffer: the silence before it, and the PCM of its frames, up to
one that fails. -/
structure Decoded where
  packet : AudioPacket
  silence : Bytes
  pcms : List Bytes

def Decoded.pcm (d : Decoded) : Bytes := d.silence ++ d.pcms.flatten

/-! ## What the streamer is fed -/

section

variable {β : Type} (cfg : IngestConfig) (backend : IngestBackend β)

/-- The packets that go to the PCM buffer, until decoding fails.
SOURCE: ingest/pipeline.py:434-456 -/
def decodedOf : List AudioPacket → AudioIngestPipeline β → List Decoded
  | [], _ => []
  | pkt :: pkts, p =>
    ⟨pkt, p.gapSilenceFor cfg pkt, (AudioIngestPipeline.decodeFrames backend pkt.frames
        p.backend).1⟩ ::
      match p.bufferPacket cfg backend pkt with
      | (some _, _) => []
      | (none, p) => decodedOf pkts p

/-- The PCM that the streamer gets for a slice of the buffer: none if the denoiser raises. -/
def fedPcm (pcm : Bytes) (b : β) : Bytes :=
  match AudioIngestPipeline.denoiseHop backend pcm b with
  | (.error _, _) => []
  | (.ok _, _) => pcm

/-- What the buffer feeds hop by hop.
SOURCE: ingest/pipeline.py:467-492 -/
def fedHops : ℕ → AudioIngestPipeline β → Bytes
  | 0, _ => []
  | fuel + 1, p =>
    if p.pcmBuffer.length < cfg.hopBytes then []
    else
      fedPcm backend (p.pcmBuffer.take cfg.hopBytes) p.backend ++
        match p.feedPcm cfg backend (fun _ => cfg.streamerHopMs) (p.pcmBuffer.take cfg.hopBytes)
          (p.pcmBuffer.drop cfg.hopBytes) with
        | (.error _, _) => []
        | (.ok _, p) => fedHops fuel p

/-- What the delivered packets feed.
SOURCE: ingest/pipeline.py:434-492 -/
def fedIngest (pkts : List AudioPacket) (p : AudioIngestPipeline β) : Bytes :=
  match p.bufferPackets cfg backend pkts with
  | (some _, _) => []
  | (none, p) => fedHops cfg backend p.pcmBuffer.length p

/-- What the final flush feeds.
SOURCE: ingest/pipeline.py:505-527 -/
def fedRest (p : AudioIngestPipeline β) : Bytes :=
  if p.pcmBuffer = [] then [] else fedPcm backend p.pcmBuffer p.backend

variable {cfg backend}

variable (cfg backend) in
theorem pcmBuffer_bufferPacket (pkt : AudioPacket) (p : AudioIngestPipeline β) :
    (p.bufferPacket cfg backend pkt).2.pcmBuffer = p.pcmBuffer ++ p.gapSilenceFor cfg pkt ++
      (AudioIngestPipeline.decodeFrames backend pkt.frames p.backend).1.flatten := by
  unfold AudioIngestPipeline.bufferPacket
  dsimp only
  split <;> rfl

variable (cfg backend) in
theorem bufferPacket_fault (pkt : AudioPacket) (p : AudioIngestPipeline β) :
    (p.bufferPacket cfg backend pkt).1 =
        (AudioIngestPipeline.decodeFrames backend pkt.frames p.backend).2.1 ∧
      (p.bufferPacket cfg backend pkt).2.backend =
        (AudioIngestPipeline.decodeFrames backend pkt.frames p.backend).2.2 := by
  unfold AudioIngestPipeline.bufferPacket
  dsimp only
  split
  · rename_i e heq
    exact ⟨heq.symm, rfl⟩
  · rename_i heq
    exact ⟨heq.symm, rfl⟩

/-- The buffer grows by the PCM of the packets. -/
theorem pcmBuffer_bufferPackets (pkts : List AudioPacket) (p : AudioIngestPipeline β) :
    (p.bufferPackets cfg backend pkts).2.pcmBuffer =
      p.pcmBuffer ++ (decodedOf cfg backend pkts p).flatMap Decoded.pcm := by
  induction pkts generalizing p with
  | nil => simp [AudioIngestPipeline.bufferPackets, decodedOf]
  | cons pkt pkts ih =>
    have hfirst := pcmBuffer_bufferPacket cfg backend pkt p
    rw [AudioIngestPipeline.bufferPackets, decodedOf, List.flatMap_cons, Decoded.pcm,
      ← List.append_assoc, ← List.append_assoc, ← hfirst]
    cases p.bufferPacket cfg backend pkt with
    | mk fault p' =>
      cases fault with
      | some e => simp
      | none => exact ih p'

variable (cfg backend) in
/-- A slice at the front of the buffer leaves it by being fed. -/
theorem pcmBuffer_feedPcm {p : AudioIngestPipeline β} {pcm rest : Bytes}
    (hbuffer : p.pcmBuffer = pcm ++ rest) (fedMs : Bytes → ℕ) :
    p.pcmBuffer = fedPcm backend pcm p.backend ++
      (p.feedPcm cfg backend fedMs pcm rest).2.pcmBuffer := by
  unfold fedPcm AudioIngestPipeline.feedPcm
  cases AudioIngestPipeline.denoiseHop backend pcm p.backend with
  | mk denoised state =>
    cases denoised with
    | error e => rfl
    | ok denoised =>
      dsimp only
      cases backend.feed denoised state with
      | mk segments state =>
        cases segments with
        | error e => exact hbuffer
        | ok segments => exact hbuffer

/-- What leaves the buffer hop by hop is fed. -/
theorem pcmBuffer_feedHops (fuel : ℕ) (p : AudioIngestPipeline β) :
    p.pcmBuffer = fedHops cfg backend fuel p ++ (p.feedHops cfg backend fuel).2.pcmBuffer := by
  induction fuel generalizing p with
  | zero => rfl
  | succ fuel ih =>
    rw [fedHops, AudioIngestPipeline.feedHops]
    split_ifs
    · rfl
    · have hfirst := pcmBuffer_feedPcm cfg backend
        (List.take_append_drop cfg.hopBytes p.pcmBuffer).symm (fun _ => cfg.streamerHopMs)
      cases hfeed : p.feedPcm cfg backend (fun _ => cfg.streamerHopMs)
          (p.pcmBuffer.take cfg.hopBytes) (p.pcmBuffer.drop cfg.hopBytes) with
      | mk out p' =>
        rw [hfeed] at hfirst
        cases out with
        | error e =>
          rw [List.append_nil]
          exact hfirst
        | ok out =>
          refine hfirst.trans ?_
          dsimp only
          rw [List.append_assoc]
          apply congrArg
          have hrest := ih p'
          cases hmore : p'.feedHops cfg backend fuel with
          | mk more p'' =>
            rw [hmore] at hrest
            cases more with
            | error e => exact hrest
            | ok more => exact hrest

variable (cfg backend) in
/-- Receiving a packet is writing it to the log, but for the reassembler. -/
theorem received_keeps (env : IngestEnv) (packet : AudioPacket) (store : AudioStore)
    (p : AudioIngestPipeline β) :
    (p.received cfg backend env packet store).2.2.reassembler =
        (p.reassembler.acceptPackets cfg.gapTimeoutMs env.now packet).2 ∧
      (p.received cfg backend env packet store).2.2.pcmBuffer = p.pcmBuffer := by
  unfold AudioIngestPipeline.received AudioIngestPipeline.persist
  dsimp only
  cases p.audioSession with
  | none => exact ⟨rfl, rfl⟩
  | some sessionId =>
    dsimp only
    split_ifs <;> exact ⟨rfl, rfl⟩

variable (cfg backend) in
/-- The reassembler takes a packet in whether capture is on or not. -/
theorem reassembler_ingestSegments (env : IngestEnv) (packet : AudioPacket) (store : AudioStore)
    (p : AudioIngestPipeline β) :
    (p.ingestSegments cfg backend env packet store).2.2.reassembler =
      (p.reassembler.acceptPackets cfg.gapTimeoutMs env.now packet).2 := by
  by_cases henabled : env.audioEnabled = true
  · rw [(AudioIngestPipeline.ingestSegments_leaves cfg backend henabled packet store
      p).2.reassembler, (received_keeps cfg backend env packet store p).1]
  · unfold AudioIngestPipeline.ingestSegments
    dsimp only
    rw [if_neg henabled]

/-- With capture on, what was in the buffer and what the delivered packets add to it is fed or
stays.
SOURCE: ingest/pipeline.py:422-493 -/
theorem pcmBuffer_ingestSegments {env : IngestEnv} (henabled : env.audioEnabled = true)
    (packet : AudioPacket) (store : AudioStore) (p : AudioIngestPipeline β) :
    p.pcmBuffer ++ (decodedOf cfg backend (p.received cfg backend env packet store).1
        (p.received cfg backend env packet store).2.2).flatMap Decoded.pcm =
      fedIngest cfg backend (p.received cfg backend env packet store).1
          (p.received cfg backend env packet store).2.2 ++
        (p.ingestSegments cfg backend env packet store).2.2.pcmBuffer := by
  rw [← (received_keeps cfg backend env packet store p).2, ← pcmBuffer_bufferPackets]
  unfold AudioIngestPipeline.ingestSegments fedIngest AudioIngestPipeline.received
  dsimp only
  rw [if_pos henabled]
  generalize (p.reassembler.acceptPackets cfg.gapTimeoutMs env.now packet).1 = pkts
  generalize (AudioIngestPipeline.persist cfg backend packet store _).2 = q
  cases q.bufferPackets cfg backend pkts with
  | mk fault q' =>
    cases fault with
    | some e => rfl
    | none => exact pcmBuffer_feedHops q'.pcmBuffer.length q'

/-- A flush that returns has fed the whole buffer.
SOURCE: ingest/pipeline.py:495-553 -/
theorem fedRest_of_flushSegments {p : AudioIngestPipeline β} {out : List Attributed}
    (h : (p.flushSegments cfg backend).1 = .ok out) : fedRest backend p = p.pcmBuffer := by
  unfold fedRest
  split_ifs with hnil
  · exact hnil.symm
  · unfold AudioIngestPipeline.flushSegments AudioIngestPipeline.feedRest at h
    rw [if_neg hnil] at h
    unfold AudioIngestPipeline.feedPcm at h
    unfold fedPcm
    cases hdenoise : AudioIngestPipeline.denoiseHop backend p.pcmBuffer p.backend with
    | mk denoised state =>
      cases denoised with
      | error e => simp [hdenoise] at h
      | ok denoised => rfl

end

/-! ## What is decoded -/

section

variable {β : Type} {cfg : IngestConfig} {backend : IngestBackend β}

theorem decodeFrames_append (frames frames' : List Bytes) (b : β) :
    (AudioIngestPipeline.decodeFrames backend (frames ++ frames') b).2.1 = none ↔
      (AudioIngestPipeline.decodeFrames backend frames b).2.1 = none ∧
        (AudioIngestPipeline.decodeFrames backend frames'
          (AudioIngestPipeline.decodeFrames backend frames b).2.2).2.1 = none := by
  induction frames generalizing b with
  | nil => simp [AudioIngestPipeline.decodeFrames]
  | cons frame frames ih =>
    rw [List.cons_append, AudioIngestPipeline.decodeFrames, AudioIngestPipeline.decodeFrames]
    cases backend.decode frame b with
    | mk pcm b' =>
      cases pcm with
      | error e => simp
      | ok pcm => exact ih b'

/-- All frames are decoded unless one fails. -/
theorem length_decodeFrames (frames : List Bytes) (b : β) :
    (AudioIngestPipeline.decodeFrames backend frames b).1.length = frames.length ↔
      (AudioIngestPipeline.decodeFrames backend frames b).2.1 = none := by
  induction frames generalizing b with
  | nil => simp [AudioIngestPipeline.decodeFrames]
  | cons frame frames ih =>
    rw [AudioIngestPipeline.decodeFrames]
    cases backend.decode frame b with
    | mk pcm b' =>
      cases pcm with
      | error e => simp
      | ok pcm =>
        dsimp only
        rw [List.length_cons, List.length_cons, Nat.add_right_cancel_iff]
        exact ih b'

/-- Every frame of the packet was decoded. -/
def Whole (decoded : List Decoded) (packet : AudioPacket) : Prop :=
  ∃ d ∈ decoded, d.packet = packet ∧ d.pcms.length = packet.frames.length

theorem packet_mem_of_mem_decodedOf {pkts : List AudioPacket} {p : AudioIngestPipeline β}
    {d : Decoded} (h : d ∈ decodedOf cfg backend pkts p) : d.packet ∈ pkts := by
  induction pkts generalizing p with
  | nil => cases h
  | cons pkt pkts ih =>
    rw [decodedOf] at h
    rcases List.mem_cons.mp h with rfl | h
    · exact List.mem_cons_self
    · split at h
      · cases h
      · exact List.mem_cons_of_mem _ (ih h)

theorem whole_append (decoded decoded' : List Decoded) (packet : AudioPacket) :
    Whole (decoded ++ decoded') packet ↔ Whole decoded packet ∨ Whole decoded' packet := by
  simp [Whole, or_and_right, exists_or]

/-- What has a packet's frames has the packet. -/
theorem Whole.mem {decoded : List Decoded} {packet : AudioPacket} {packets : List AudioPacket}
    (h : Whole decoded packet) (hdecoded : ∀ d ∈ decoded, d.packet ∈ packets) :
    packet ∈ packets := by
  obtain ⟨d, hd, rfl, -⟩ := h
  exact hdecoded d hd

/-- Two lists of packets without a common one, each with what is decoded of it. -/
theorem forall_whole_append {decoded decoded' : List Decoded} (packets packets' : List AudioPacket)
    (hdecoded : ∀ d ∈ decoded, d.packet ∈ packets)
    (hdecoded' : ∀ d ∈ decoded', d.packet ∈ packets') (hdisjoint : packets.Disjoint packets') :
    (∀ packet ∈ packets ++ packets', packet.frames ≠ [] → Whole (decoded ++ decoded') packet) ↔
      (∀ packet ∈ packets, packet.frames ≠ [] → Whole decoded packet) ∧
        ∀ packet ∈ packets', packet.frames ≠ [] → Whole decoded' packet := by
  rw [List.forall_mem_append]
  apply and_congr
  · refine forall₂_congr fun packet hmem => imp_congr_right fun _ => ?_
    rw [whole_append]
    exact or_iff_left fun h => hdisjoint hmem (h.mem hdecoded')
  · refine forall₂_congr fun packet hmem => imp_congr_right fun _ => ?_
    rw [whole_append]
    exact or_iff_right fun h => hdisjoint (h.mem hdecoded) hmem

variable (backend) in
theorem forall_whole_singleton (pkt : AudioPacket) (silence : Bytes) (b : β) :
    (∀ packet ∈ [pkt], packet.frames ≠ [] →
        Whole [⟨pkt, silence, (AudioIngestPipeline.decodeFrames backend pkt.frames b).1⟩] packet) ↔
      (AudioIngestPipeline.decodeFrames backend pkt.frames b).2.1 = none := by
  rw [← length_decodeFrames]
  simp only [List.mem_singleton, forall_eq, Whole, exists_eq_left, true_and]
  constructor
  · intro h
    by_cases hframes : pkt.frames = []
    · rw [hframes]
      rfl
    · exact h hframes
  · exact fun h _ => h

/-- **What is delivered is decoded as a whole just when no frame fails.** -/
theorem forall_whole_decodedOf {pkts : List AudioPacket} (hnodup : pkts.Nodup)
    (p : AudioIngestPipeline β) :
    (∀ packet ∈ pkts, packet.frames ≠ [] → Whole (decodedOf cfg backend pkts p) packet) ↔
      (AudioIngestPipeline.decodeFrames backend (pkts.flatMap AudioPacket.frames)
        p.backend).2.1 = none := by
  induction pkts generalizing p with
  | nil => simp [AudioIngestPipeline.decodeFrames]
  | cons pkt pkts ih =>
    obtain ⟨hnotin, hnodup⟩ := List.nodup_cons.mp hnodup
    obtain ⟨hfault, hstate⟩ := bufferPacket_fault cfg backend pkt p
    rw [List.flatMap_cons, decodeFrames_append, ← forall_whole_singleton backend pkt
      (p.gapSilenceFor cfg pkt), ← hstate]
    rw [decodedOf]
    cases hbuffer : p.bufferPacket cfg backend pkt with
    | mk fault p' =>
      cases fault with
      | none =>
        dsimp only
        rw [← ih hnodup]
        have hfirst : ∀ d ∈ [Decoded.mk pkt (p.gapSilenceFor cfg pkt)
            (AudioIngestPipeline.decodeFrames backend pkt.frames p.backend).1],
            d.packet ∈ [pkt] := by
          simp
        exact forall_whole_append [pkt] pkts hfirst (fun d => packet_mem_of_mem_decodedOf)
          (by simpa using hnotin)
      | some e =>
        rw [hbuffer] at hfault
        rw [forall_whole_singleton, ← hfault]
        simp only [reduceCtorEq, false_and, iff_false]
        intro h
        have hwhole := (forall_whole_singleton backend pkt (p.gapSilenceFor cfg pkt)
          p.backend).mp ?_
        · rw [← hfault] at hwhole
          cases hwhole
        · intro packet hmem
          obtain rfl := List.mem_singleton.mp hmem
          exact h packet List.mem_cons_self

end

/-! ## A session -/

/-- A gateway with what became of the audio of one connection: the packets the reassembler has
delivered, those that went to the PCM buffer, and the PCM the streamer was fed. -/
structure Session (β : Type) where
  gateway : GatewayRun AudioStore (AudioIngestPipeline β)
  delivered : List AudioPacket := []
  decoded : List Decoded := []
  fed : Bytes := []

section

variable {β : Type} (cfg : IngestConfig) (backend : IngestBackend β) (conn : ℕ)

/-- The pipeline that a step flushes. -/
def flushes (s : GatewayRun AudioStore (AudioIngestPipeline β)) (st : ConnStep) :
    Option (AudioIngestPipeline β) :=
  match st.event, (s.cores st.conn).pipeline, (s.cores st.conn).sessionId with
  | .bye, some p, some _ | .disconnect, some p, some _ => some p
  | _, _, _ => none

/-- A packet that a pipeline takes in. -/
def receive (env : IngestEnv) (packet : AudioPacket) (p : AudioIngestPipeline β) (s : Session β) :
    Session β :=
  let (pkts, _, q) := p.received cfg backend env packet s.gateway.world.pipelines
  { s with
    delivered := s.delivered ++ pkts
    decoded := s.decoded ++ if env.audioEnabled then decodedOf cfg backend pkts q else []
    fed := s.fed ++ if env.audioEnabled then fedIngest cfg backend pkts q else [] }

def step (s : Session β) (st : ConnStep) : Session β :=
  let gateway := s.gateway.step (AudioIngestPipeline.factory cfg backend) st
  if st.conn = conn then
    match takes s.gateway st, flushes s.gateway st with
    | some (env, packet, p), _ => { receive cfg backend env packet p s with gateway := gateway }
    | none, some p => { s with gateway := gateway, fed := s.fed ++ fedRest backend p }
    | none, none => { s with gateway := gateway }
  else { s with gateway := gateway }

/-- What the reassembler of the connection still has, parked or behind a gap. -/
def heldBack (s : Session β) : List AudioPacket :=
  match (s.gateway.cores conn).pipeline with
  | some p => p.reassembler.pending ++ p.reassembler.buffer.values
  | none => []

/-- The packets that the reassembler of the connection has accepted. -/
def accepted (s : Session β) : List AudioPacket := s.delivered ++ heldBack conn s

/-- The frames of the packet were decoded, and the streamer was fed the PCM up to their end. -/
def Fed (s : Session β) (packet : AudioPacket) : Prop :=
  ∃ earlier d later, s.decoded = earlier ++ d :: later ∧ d.packet = packet ∧
    d.pcms.length = packet.frames.length ∧ (earlier ++ [d]).flatMap Decoded.pcm <+: s.fed

/-- What the packets deliver is decoded: capture is on, and no frame fails; or there are no
frames. -/
def Audible (s : Session β) (st : ConnStep) : Prop :=
  st.conn = conn → ∀ env packet p, takes s.gateway st = some (env, packet, p) →
    let (pkts, _, q) := p.received cfg backend env packet s.gateway.world.pipelines
    (env.audioEnabled = true ∧ (AudioIngestPipeline.decodeFrames backend
        (pkts.flatMap AudioPacket.frames) q.backend).2.1 = none) ∨
      ∀ pkt ∈ pkts, pkt.frames = []

/-- The connection only has audio in the step. -/
def Listening (st : ConnStep) : Prop := st.conn = conn → ∃ env data, st.event = .audio env data

end

/-- A session of one connection, among any others: from its `hello`, at any time of the gateway,
over any audio, to its end. -/
structure EndedSession (cfg : IngestConfig) {β : Type} (backend : IngestBackend β) where
  conn : ℕ
  opened : GatewayRun AudioStore (AudioIngestPipeline β)
  now : Time
  sessionId : String
  startSeq : ℤ
  steps : List ConnStep
  listening : ∀ st ∈ steps, Listening conn st
  last : ConnStep
  last_conn : last.conn = conn
  last_event : last.event = .bye ∨ last.event = .disconnect

namespace EndedSession

variable {β : Type} {cfg : IngestConfig} {backend : IngestBackend β}
  (session : EndedSession cfg backend)

/-- After the `hello`. -/
def greeted : Session β where
  gateway := session.opened.step (AudioIngestPipeline.factory cfg backend)
    ⟨session.conn, session.now, .hello session.sessionId session.startSeq⟩

/-- Before the end. -/
def heard : Session β := run (step cfg backend session.conn) session.greeted session.steps

/-- After the end. -/
def ended : Session β := step cfg backend session.conn session.heard session.last

/-- The final flush returns. -/
def FlushReturns : Prop :=
  ∃ p out, flushes session.heard.gateway session.last = some p ∧
    (p.flushSegments cfg backend).1 = .ok out

/-- **Nothing is dropped**: every frame of every accepted packet was fed. -/
def NothingDropped : Prop :=
  ∀ packet ∈ accepted session.conn session.heard, packet.frames ≠ [] → Fed session.ended packet

end EndedSession

/-! ## The invariant -/

section

variable {β : Type} {cfg : IngestConfig} {backend : IngestBackend β} {conn : ℕ}

/-- The pipeline of the connection: its packets are lined up, and what was decoded is fed or in
the buffer. -/
structure Tracked (s : Session β) (p : AudioIngestPipeline β) : Prop where
  lined : Lined (s.delivered ++ p.reassembler.pending) p.reassembler
  fed : s.decoded.flatMap Decoded.pcm = s.fed ++ p.pcmBuffer
  decoded : ∀ d ∈ s.decoded, d.packet ∈ s.delivered

/-- The connection has a session and a tracked pipeline. -/
def Tracks (conn : ℕ) (s : Session β) : Prop :=
  ∃ p sid, (s.gateway.cores conn).pipeline = some p ∧
    (s.gateway.cores conn).sessionId = some sid ∧ Tracked s p

theorem Tracked.missingRange {s : Session β} {p : AudioIngestPipeline β} (h : Tracked s p)
    (now : ℚ) : Tracked s ((AudioIngestPipeline.factory cfg backend).missingRange now p).2 :=
  ⟨(Lined.missingRange (s := ⟨p.reassembler, s.delivered⟩) cfg.gapTimeoutMs h.lined now).1,
    h.fed, h.decoded⟩

/-- A connection that has a pipeline keeps one when audio comes. -/
theorem onAudio_bound {ω π : Type} (factory : PipelineFactory ω π) (env : IngestEnv) (now : Time)
    (data : Bytes) {core : GatewayCore π} (world : GatewayWorld ω) {p : π}
    (hp : core.pipeline = some p) :
    ∃ p', (core.onAudio factory env now data world).2.1.pipeline = some p' := by
  unfold GatewayCore.onAudio
  rw [hp]
  split
  · split
    · exact ⟨p, hp⟩
    · split
      · exact ⟨_, rfl⟩
      · exact ⟨_, rfl⟩
  · exact ⟨p, hp⟩

variable (cfg backend) in
/-- **A packet**: the pipeline stays tracked, and what is delivered is decoded as a whole just
when it is audible.
SOURCE: ingest/pipeline.py:422-493 -/
theorem Tracked.received {s : Session β} {p : AudioIngestPipeline β} (h : Tracked s p)
    (env : IngestEnv) (packet : AudioPacket) :
    Tracked (receive cfg backend env packet p s)
        (p.ingestSegments cfg backend env packet s.gateway.world.pipelines).2.2 ∧
      (p.received cfg backend env packet s.gateway.world.pipelines).1.Nodup ∧
      s.delivered.Disjoint (p.received cfg backend env packet s.gateway.world.pipelines).1 := by
  have hlined := (Lined.acceptPackets (s := ⟨p.reassembler, s.delivered⟩) cfg.gapTimeoutMs h.lined
    env.now packet).1
  have hnodup : (s.delivered ++ (p.received cfg backend env packet
      s.gateway.world.pipelines).1).Nodup :=
    (List.nodup_append.mp (List.nodup_append.mp hlined.nodup).1).1
  refine ⟨⟨?_, ?_, fun d hd => ?_⟩, (List.nodup_append.mp hnodup).2.1,
    List.disjoint_of_nodup_append hnodup⟩
  · rw [reassembler_ingestSegments]
    exact hlined
  · by_cases henabled : env.audioEnabled = true
    · unfold receive
      dsimp only
      rw [if_pos henabled, if_pos henabled, List.flatMap_append, h.fed, List.append_assoc,
        pcmBuffer_ingestSegments henabled, List.append_assoc]
    · unfold receive AudioIngestPipeline.ingestSegments
      dsimp only
      rw [if_neg henabled, if_neg henabled, if_neg henabled, List.append_nil, List.append_nil]
      exact h.fed
  · unfold receive at hd
    dsimp only at hd
    rcases List.mem_append.mp hd with hd | hd
    · exact List.mem_append_left _ (h.decoded d hd)
    · split_ifs at hd
      · exact List.mem_append_right _ (packet_mem_of_mem_decodedOf hd)
      · cases hd

/-- Everything that was delivered was decoded. -/
def AllWhole (s : Session β) : Prop :=
  ∀ packet ∈ s.delivered, packet.frames ≠ [] → Whole s.decoded packet

/-- What is delivered with a packet is decoded as a whole just when it is audible. -/
theorem Tracked.allWhole_receive {s : Session β} {p : AudioIngestPipeline β} (h : Tracked s p)
    (env : IngestEnv) (packet : AudioPacket) :
    AllWhole (receive cfg backend env packet p s) ↔ AllWhole s ∧
      ((env.audioEnabled = true ∧ (AudioIngestPipeline.decodeFrames backend
          ((p.received cfg backend env packet s.gateway.world.pipelines).1.flatMap
            AudioPacket.frames)
          (p.received cfg backend env packet s.gateway.world.pipelines).2.2.backend).2.1 =
            none) ∨
        ∀ pkt ∈ (p.received cfg backend env packet s.gateway.world.pipelines).1,
          pkt.frames = []) := by
  obtain ⟨-, hnodup, hdisjoint⟩ := h.received cfg backend env packet
  unfold AllWhole receive
  dsimp only
  generalize (p.received cfg backend env packet s.gateway.world.pipelines).1 = pkts at *
  generalize (p.received cfg backend env packet s.gateway.world.pipelines).2.2 = q
  rw [forall_whole_append _ _ h.decoded _ hdisjoint]
  · apply and_congr_right
    intro _
    by_cases henabled : env.audioEnabled = true
    · rw [if_pos henabled, forall_whole_decodedOf hnodup]
      refine ⟨fun hnone => .inl ⟨henabled, hnone⟩, fun hcase => ?_⟩
      rcases hcase with ⟨-, hnone⟩ | hempty
      · exact hnone
      · rw [List.flatMap_eq_nil_iff.mpr hempty]
        rfl
    · rw [if_neg henabled]
      simp [henabled, Whole]
  · intro d hd
    split_ifs at hd
    · exact packet_mem_of_mem_decodedOf hd
    · cases hd

variable (cfg backend) in
/-- The pipeline of the connection after a step: as it was, or as a packet leaves it.
SOURCE: gateway/core.py:279-331 -/
theorem listening_step {s : Session β} {st : ConnStep} (hlistening : Listening conn st)
    {p : AudioIngestPipeline β} {sid : String}
    (hp : (s.gateway.cores conn).pipeline = some p)
    (hsid : (s.gateway.cores conn).sessionId = some sid) :
    ∃ p', ((s.gateway.step (AudioIngestPipeline.factory cfg backend) st).cores conn).pipeline =
        some p' ∧
      ((s.gateway.step (AudioIngestPipeline.factory cfg backend) st).cores conn).sessionId =
        some sid ∧
      ((st.conn = conn → takes s.gateway st = none ∧ flushes s.gateway st = none) ∧ p' = p ∨
        ∃ env packet, st.conn = conn ∧ takes s.gateway st = some (env, packet, p) ∧
          (p' = (p.ingestSegments cfg backend env packet s.gateway.world.pipelines).2.2 ∨
            p' = ((AudioIngestPipeline.factory cfg backend).missingRange env.gapCheckedAt
              (p.ingestSegments cfg backend env packet s.gateway.world.pipelines).2.2).2)) := by
  by_cases hconn : st.conn = conn
  swap
  · refine ⟨p, ?_, ?_, .inl ⟨fun hsame => absurd hsame hconn, rfl⟩⟩
    · rw [GatewayRun.step]
      dsimp only
      rw [Function.update_of_ne (Ne.symm hconn)]
      exact hp
    · rw [GatewayRun.step]
      dsimp only
      rw [Function.update_of_ne (Ne.symm hconn)]
      exact hsid
  obtain ⟨env, data, hevent⟩ := hlistening hconn
  have hflushes : flushes s.gateway st = none := by
    unfold flushes
    rw [hevent]
  have hhandle : s.gateway.handle (AudioIngestPipeline.factory cfg backend) st =
      (s.gateway.cores conn).onAudio (AudioIngestPipeline.factory cfg backend) env st.now data
        s.gateway.world := by
    unfold GatewayRun.handle
    rw [hevent, hconn]
  have hcores : (s.gateway.step (AudioIngestPipeline.factory cfg backend) st).cores conn =
      ((s.gateway.cores conn).onAudio (AudioIngestPipeline.factory cfg backend) env st.now data
        s.gateway.world).2.1 := by
    rw [GatewayRun.step, hhandle, hconn]
    dsimp only
    rw [Function.update_self]
  have hsession := (GatewayCore.onAudio_leaves (AudioIngestPipeline.factory cfg backend) env
    st.now data (s.gateway.cores conn) s.gateway.world).2
  rw [hcores]
  cases htakes : takes s.gateway st with
  | none =>
    have hignored : ((s.gateway.cores conn).onAudio (AudioIngestPipeline.factory cfg backend) env
        st.now data s.gateway.world).2 = (s.gateway.cores conn, s.gateway.world) := by
      apply onAudio_ignored
      intro p sid packet hp hsid hparse
      unfold takes at htakes
      rw [hevent, hconn, hp, hsid] at htakes
      dsimp only at htakes
      rw [hparse] at htakes
      cases htakes
    rw [hignored]
    exact ⟨p, hp, hsid, .inl ⟨fun _ => ⟨rfl, hflushes⟩, rfl⟩⟩
  | some taken =>
    obtain ⟨env', packet, p'⟩ := taken
    obtain ⟨hp', -, hpipeline⟩ := handle_takes cfg backend htakes
    rw [hconn, hp] at hp'
    obtain rfl := Option.some.inj hp'
    rw [hhandle] at hpipeline
    obtain ⟨p', hp'⟩ := onAudio_bound (AudioIngestPipeline.factory cfg backend) env st.now data
      s.gateway.world hp
    exact ⟨p', hp', hsession.trans hsid, .inr ⟨env', packet, hconn, rfl, hpipeline p' hp'⟩⟩

/-- A step that takes nothing in for the connection only moves the gateway. -/
theorem step_eq_of_idle {s : Session β} {st : ConnStep}
    (hidle : st.conn = conn → takes s.gateway st = none ∧ flushes s.gateway st = none) :
    step cfg backend conn s st =
      { s with gateway := s.gateway.step (AudioIngestPipeline.factory cfg backend) st } := by
  unfold step
  split_ifs with hconn
  · rw [(hidle hconn).1, (hidle hconn).2]
  · rfl

/-- A packet for the connection. -/
theorem step_eq_of_takes {s : Session β} {st : ConnStep} (hconn : st.conn = conn) {env : IngestEnv}
    {packet : AudioPacket} {p : AudioIngestPipeline β}
    (htakes : takes s.gateway st = some (env, packet, p)) :
    step cfg backend conn s st =
      { receive cfg backend env packet p s with
        gateway := s.gateway.step (AudioIngestPipeline.factory cfg backend) st } := by
  unfold step
  rw [if_pos hconn, htakes]

/-- **The step lemma**: audio keeps the connection's pipeline tracked, and everything decoded just
when it is audible. -/
theorem Tracks.step {s : Session β} {st : ConnStep} (h : Tracks conn s)
    (hlistening : Listening conn st) :
    Tracks conn (SessionEnd.step cfg backend conn s st) ∧
      (AllWhole (SessionEnd.step cfg backend conn s st) ↔
        AllWhole s ∧ Audible cfg backend conn s st) := by
  obtain ⟨p, sid, hp, hsid, htracked⟩ := h
  obtain ⟨p', hp', hsid', hcase⟩ :=
    listening_step cfg backend hlistening hp hsid
  rcases hcase with ⟨hidle, rfl⟩ | ⟨env, packet, hconn, htakes, hpipeline⟩
  · rw [step_eq_of_idle hidle]
    refine ⟨⟨p', sid, hp', hsid', htracked.lined, htracked.fed, htracked.decoded⟩,
      (and_iff_left fun hconn env packet p htaken => ?_).symm⟩
    rw [(hidle hconn).1] at htaken
    cases htaken
  · rw [step_eq_of_takes hconn htakes]
    have hreceived := (htracked.received cfg backend env packet).1
    have hafter : Tracked (receive cfg backend env packet p s) p' := by
      rcases hpipeline with rfl | rfl
      · exact hreceived
      · exact hreceived.missingRange _
    refine ⟨⟨p', sid, hp', hsid', hafter.lined, hafter.fed, hafter.decoded⟩, ?_⟩
    refine (htracked.allWhole_receive env packet).trans (and_congr_right fun _ => ?_)
    constructor
    · intro haudible _ env packet p htaken
      rw [htakes] at htaken
      obtain ⟨⟩ := htaken
      exact haudible
    · exact fun haudible => haudible hconn env packet p htakes

end

/-! ## The end -/

namespace EndedSession

variable {β : Type} {cfg : IngestConfig} {backend : IngestBackend β}

theorem pipeline_greeted (session : EndedSession cfg backend) :
    (session.greeted.gateway.cores session.conn).pipeline =
        some ((AudioIngestPipeline.factory cfg backend).setAudioTarget session.sessionId
          ((AudioIngestPipeline.factory cfg backend).create session.startSeq)) ∧
      (session.greeted.gateway.cores session.conn).sessionId = some session.sessionId := by
  have hcore : session.greeted.gateway.cores session.conn =
      (GatewayCore.onHello (AudioIngestPipeline.factory cfg backend) session.sessionId
        session.startSeq session.opened.world).2.1 :=
    Function.update_self session.conn _ _
  rw [hcore]
  exact ⟨rfl, rfl⟩

theorem tracks_greeted (session : EndedSession cfg backend) :
    Tracks session.conn session.greeted := by
  obtain ⟨hpipeline, hsession⟩ := session.pipeline_greeted
  refine ⟨_, session.sessionId, hpipeline, hsession, lined_create session.startSeq, rfl,
    fun d hd => ?_⟩
  cases hd

/-- **The run lemma**: before the end the pipeline is tracked, and everything that was delivered
was decoded just when every step was audible. -/
theorem tracks_heard (session : EndedSession cfg backend) :
    Tracks session.conn session.heard ∧ (AllWhole session.heard ↔
      EveryStep (step cfg backend session.conn) (Audible cfg backend session.conn)
        session.greeted session.steps) := by
  have hlistening : EveryStep (step cfg backend session.conn)
      (fun _ st => Listening session.conn st) session.greeted session.steps :=
    everyStep_of_forall session.greeted session.listening
  constructor
  · exact EveryStep.invariant (fun _ _ h hst => (h.step hst).1) session.tracks_greeted hlistening
  · have hrun := run_iff_everyStep (I := Tracks session.conn) (G := AllWhole)
      (fun _ _ h hst => (h.step hst).1) (fun _ _ h hst => (h.step hst).2) session.tracks_greeted
      hlistening
    refine hrun.trans (and_iff_right ?_)
    intro packet hmem
    cases hmem

/-- A step that flushes takes no packet in. -/
theorem takes_of_flushes {s : GatewayRun AudioStore (AudioIngestPipeline β)} {st : ConnStep}
    {p : AudioIngestPipeline β} (h : flushes s st = some p) :
    takes s st = none ∧ (s.cores st.conn).pipeline = some p := by
  unfold flushes at h
  unfold takes
  split at h
  · rename_i p' sid hevent hp _
    obtain rfl := Option.some.inj h
    rw [hevent]
    exact ⟨rfl, hp⟩
  · rename_i p' sid hevent hp _
    obtain rfl := Option.some.inj h
    rw [hevent]
    exact ⟨rfl, hp⟩
  · cases h

/-- When the flush returns, all the PCM of what was decoded has been fed. -/
theorem ended_eq (session : EndedSession cfg backend) (hreturns : session.FlushReturns) :
    session.ended.decoded = session.heard.decoded ∧
      session.ended.fed = session.heard.decoded.flatMap Decoded.pcm := by
  obtain ⟨p, out, hflushes, hflush⟩ := hreturns
  obtain ⟨⟨p', -, hp', -, htracked⟩, -⟩ := session.tracks_heard
  obtain ⟨htakes, hp⟩ := takes_of_flushes hflushes
  rw [session.last_conn, hp'] at hp
  obtain rfl := Option.some.inj hp
  unfold ended step
  rw [if_pos session.last_conn, htakes, hflushes]
  refine ⟨rfl, ?_⟩
  dsimp only
  rw [fedRest_of_flushSegments hflush, htracked.fed]

/-- When the flush returns, a packet has been fed if all its frames were decoded. -/
theorem fed_ended_iff (session : EndedSession cfg backend) (hreturns : session.FlushReturns)
    (packet : AudioPacket) :
    Fed session.ended packet ↔ Whole session.heard.decoded packet := by
  obtain ⟨hdecoded, hfed⟩ := session.ended_eq hreturns
  unfold Fed
  rw [hdecoded, hfed]
  constructor
  · rintro ⟨earlier, d, later, hsplit, hpacket, hlength, -⟩
    exact ⟨d, by rw [hsplit]; simp, hpacket, hlength⟩
  · rintro ⟨d, hd, hpacket, hlength⟩
    obtain ⟨earlier, later, hsplit⟩ := List.append_of_mem hd
    refine ⟨earlier, d, later, hsplit, hpacket, hlength, later.flatMap Decoded.pcm, ?_⟩
    rw [hsplit]
    simp

/-- **Nothing is dropped at the end of a session exactly when every step was audible and the
reassembler holds no frames then.**
SOURCE: ingest/reassembler.py:60-145, ingest/pipeline.py:422-553, gateway/core.py:477-552 -/
theorem nothingDropped_iff (session : EndedSession cfg backend)
    (hreturns : session.FlushReturns) :
    session.NothingDropped ↔
      EveryStep (step cfg backend session.conn) (Audible cfg backend session.conn)
        session.greeted session.steps ∧
      ∀ packet ∈ heldBack session.conn session.heard, packet.frames = [] := by
  obtain ⟨⟨p, -, hp, -, htracked⟩, hwhole⟩ := session.tracks_heard
  rw [← hwhole]
  unfold NothingDropped accepted
  rw [List.forall_mem_append]
  simp only [session.fed_ended_iff hreturns]
  apply and_congr_right
  intro _
  refine forall₂_congr fun packet hheld => ?_
  have hnever : ¬ Whole session.heard.decoded packet := by
    intro hpacket
    have hdelivered := hpacket.mem htracked.decoded
    have hnodup := htracked.lined.nodup
    rw [List.append_assoc] at hnodup
    unfold heldBack at hheld
    rw [hp] at hheld
    exact List.disjoint_of_nodup_append hnodup hdelivered hheld
  constructor
  · exact fun h => by_contra fun hframes => hnever (h hframes)
  · exact fun h hframes => absurd h hframes

theorem flushReturns_of_isOk {session : EndedSession cfg backend}
    (h : (flushes session.heard.gateway session.last).map
      (fun p => (p.flushSegments cfg backend).1.isOk) = some true) : session.FlushReturns := by
  obtain ⟨p, hflushes, hok⟩ := Option.map_eq_some_iff.mp h
  cases hflush : (p.flushSegments cfg backend).1 with
  | error e =>
    rw [hflush] at hok
    cases hok
  | ok out => exact ⟨p, out, hflushes, hflush⟩

end EndedSession

/-! ## A gap that is given up when it is asked about -/

def timeoutConfig : IngestConfig := { demoConfig with gapTimeoutMs := some 1000 }

/-- The third packet is the first one again; while it is taken in, the gap between the other two
becomes too old. -/
def parkedSession : EndedSession timeoutConfig wordPerHop where
  conn := 0
  opened := { world := { pipelines := {} } }
  now := 0
  sessionId := "s"
  startSeq := 0
  steps :=
    [⟨0, 0, .audio {} [0, 0, 0, 0, 0, 0, 0, 0, 0, 1, 1, 0, 1, 7]⟩,
      ⟨0, 0, .audio {} [0, 2, 0, 0, 0, 40, 0, 0, 0, 1, 1, 0, 1, 8]⟩,
      ⟨0, 0, .audio { gapCheckedAt := 1000 } [0, 0, 0, 0, 0, 0, 0, 0, 0, 1, 1, 0, 1, 7]⟩]
  listening st hst _ := by
    simp only [List.mem_cons, List.not_mem_nil, or_false] at hst
    rcases hst with rfl | rfl | rfl
    · exact ⟨_, _, rfl⟩
    · exact ⟨_, _, rfl⟩
    · exact ⟨_, _, rfl⟩
  last := ⟨0, 0, .bye⟩
  last_conn := rfl
  last_event := .inl rfl

/-- The packet that is parked. -/
def parkedPacket : AudioPacket := ⟨0, .live, 2, 40, .speech, 0, [[8]]⟩

example : heldBack 0 parkedSession.heard = [parkedPacket] := by decide +kernel

theorem flushReturns_parkedSession : parkedSession.FlushReturns :=
  EndedSession.flushReturns_of_isOk (by decide +kernel)

theorem nothingDropped_iff_parkedSession :
    parkedSession.NothingDropped ↔
      EveryStep (step timeoutConfig wordPerHop 0) (Audible timeoutConfig wordPerHop 0)
        parkedSession.greeted parkedSession.steps ∧
      ∀ packet ∈ heldBack 0 parkedSession.heard, packet.frames = [] :=
  parkedSession.nothingDropped_iff flushReturns_parkedSession

/-- **The reassembler accepted a packet whose frame is never fed.** -/
theorem not_always_nothingDropped :
    ¬ ∀ (β : Type) (cfg : IngestConfig) (backend : IngestBackend β)
      (session : EndedSession cfg backend), session.FlushReturns → session.NothingDropped := by
  intro hall
  have haccepted : parkedPacket ∈ accepted 0 parkedSession.heard := by decide +kernel
  obtain ⟨earlier, d, later, hsplit, hpacket, -⟩ :=
    hall ℕ timeoutConfig wordPerHop parkedSession flushReturns_parkedSession parkedPacket
      haccepted (by decide)
  have hmem : d.packet ∈ parkedSession.ended.decoded.map Decoded.packet := by
    rw [hsplit]
    simp
  rw [hpacket] at hmem
  revert hmem
  decide +kernel

end OpenRecall.Analysis.SessionEnd
