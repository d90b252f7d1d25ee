import OpenRecall.Analysis.DrainReads
import OpenRecall.Analysis.SessionEnd

/-!
# How often a frame is decoded

The server knows a packet again by its number only, and everything the device sends has a new
number: what the drain reads again after a preroll, and what a replay reads, is decoded again.
The link and the reassembler add nothing to that. A packet that was sent goes to the decoder at
most once, so that a captured frame is decoded at most once, and once more each time that the
drain has read it again.
-/

set_option autoImplicit false

namespace OpenRecall.Analysis.DecodedOnce

open Foundation OpenRecall.Model OpenRecall.Analysis.Timeline OpenRecall.Analysis.Reassembly
open OpenRecall.Analysis.SessionEnd OpenRecall.Analysis.DrainReads

/-- The audio that a connection has in some steps. -/
def arrivals (conn : ℕ) (steps : List ConnStep) : List Bytes :=
  steps.filterMap fun st =>
    match st.event with
    | .audio _ data => if st.conn = conn then some data else none
    | _ => none

/-- The server's reading of a packet. -/
def parsed (p : DrainPacket) : Option AudioPacket :=
  p.bytes.bind fun data => (AudioPacket.parse data).toOption

/-- A device, and a session that has what the device sends, all of it and in order, with capture
on. -/
structure LosslessLink (cfg : IngestConfig) {β : Type} (backend : IngestBackend β) where
  deviceSteps : List DrainReads.DeviceStep
  session : EndedSession cfg backend
  lossless : arrivals session.conn session.steps =
    (run Device.step {} deviceSteps).sent.filterMap DrainPacket.bytes
  enabled : ∀ st ∈ session.steps, st.conn = session.conn →
    ∀ env data, st.event = .audio env data → env.audioEnabled = true

namespace LosslessLink

variable {β : Type} {cfg : IngestConfig} {backend : IngestBackend β}
  (link : LosslessLink cfg backend)

def device : Device := run Device.step {} link.deviceSteps

/-- The packet of the device that the server has read. -/
def sentAs (packet : AudioPacket) : Option DrainPacket :=
  link.device.sent.find? fun p => parsed p = some packet

/-- The frames of the device that were decoded into the PCM, as often as they were. -/
def decodedFrames : List RingFrame :=
  link.session.heard.decoded.flatMap fun d =>
    ((link.sentAs d.packet).map fun p => p.frames.take d.pcms.length).getD []

/-- How often frames with a time are decoded. -/
def timesDecoded (relTsMs : UInt32) : ℕ := link.decodedFrames.countP (·.relTsMs = relTsMs)

end LosslessLink

/-! ## The server -/

section

variable {β : Type} {cfg : IngestConfig} {backend : IngestBackend β} {conn : ℕ}

/-- What goes to the decoder is delivered, in the same order. -/
theorem decodedOf_sublist (pkts : List AudioPacket) (p : AudioIngestPipeline β) :
    ((decodedOf cfg backend pkts p).map Decoded.packet).Sublist pkts := by
  induction pkts generalizing p with
  | nil => exact .slnil
  | cons pkt pkts ih =>
    rw [decodedOf, List.map_cons]
    apply List.Sublist.cons_cons
    split
    · exact List.nil_sublist _
    · exact ih _

/-- What the connection has accepted came as audio, and what was decoded was delivered. -/
structure Genuine (conn : ℕ) (audio : List Bytes) (s : Session β) : Prop where
  tracks : Tracks conn s
  arrived : ∀ packet ∈ accepted conn s, ∃ data ∈ audio, AudioPacket.parse data = .ok packet
  decoded : (s.decoded.map Decoded.packet).Sublist s.delivered

/-- The audio of the connection is some of the audio. -/
def Among (conn : ℕ) (audio : List Bytes) (st : ConnStep) : Prop :=
  Listening conn st ∧
    ∀ env data, st.conn = conn → st.event = .audio env data → data ∈ audio

variable (cfg backend) in
theorem Genuine.step {audio : List Bytes} {s : Session β} {st : ConnStep}
    (h : Genuine conn audio s) (hst : Among conn audio st) :
    Genuine conn audio (SessionEnd.step cfg backend conn s st) := by
  have htracks : Tracks conn (SessionEnd.step cfg backend conn s st) := (h.tracks.step hst.1).1
  obtain ⟨p, sid, hp, hsid, htracked⟩ := h.tracks
  obtain ⟨p', hp', -, hcase⟩ := listening_step cfg backend hst.1 hp hsid
  refine ⟨htracks, ?_, ?_⟩
  · intro packet hpacket
    rcases hcase with ⟨hidle, rfl⟩ | ⟨env, taken, hconn, htakes, hpipeline⟩
    · rw [step_eq_of_idle hidle] at hpacket
      apply h.arrived
      unfold accepted heldBack at hpacket ⊢
      rw [hp]
      dsimp only at hpacket
      rwa [hp'] at hpacket
    · obtain ⟨data, hevent, hparse⟩ := takes_audio htakes
      rw [step_eq_of_takes hconn htakes] at hpacket
      have hheld : packet ∈ held (Reassembly.step cfg.gapTimeoutMs ⟨p.reassembler, s.delivered⟩
          (.acceptPackets env.now taken)) := by
        unfold accepted heldBack at hpacket
        dsimp only at hpacket
        rw [hp'] at hpacket
        dsimp only at hpacket
        rcases hpipeline with rfl | rfl
        · rw [reassembler_ingestSegments] at hpacket
          rwa [← List.append_assoc] at hpacket
        · have hlined := (Lined.acceptPackets cfg.gapTimeoutMs (s := ⟨p.reassembler, s.delivered⟩)
            htracked.lined env.now taken).1
          rw [← List.append_assoc] at hpacket
          apply ((hlined.missingRange cfg.gapTimeoutMs env.gapCheckedAt).2 packet).mp
          unfold held Reassembly.step
          dsimp only
          rw [← reassembler_ingestSegments cfg backend env taken s.gateway.world.pipelines p]
          exact hpacket
      rcases Lined.mem_held cfg.gapTimeoutMs htracked.lined hheld with hheld | rfl
      · apply h.arrived
        unfold accepted heldBack
        rw [hp]
        unfold held at hheld
        rwa [List.append_assoc] at hheld
      · exact ⟨data, hst.2 env data hconn hevent, hparse⟩
  · rcases hcase with ⟨hidle, -⟩ | ⟨env, taken, hconn, htakes, -⟩
    · rw [step_eq_of_idle hidle]
      exact h.decoded
    · rw [step_eq_of_takes hconn htakes]
      unfold receive
      dsimp only
      rw [List.map_append]
      apply h.decoded.append
      split_ifs
      · exact decodedOf_sublist _ _
      · exact List.nil_sublist _

end

/-! ## The device and the server -/

namespace LosslessLink

variable {β : Type} {cfg : IngestConfig} {backend : IngestBackend β}
  (link : LosslessLink cfg backend)

theorem among {st : ConnStep} (hst : st ∈ link.session.steps) :
    Among link.session.conn (arrivals link.session.conn link.session.steps) st := by
  refine ⟨link.session.listening st hst, fun env data hconn hevent => ?_⟩
  apply List.mem_filterMap.mpr
  refine ⟨st, hst, ?_⟩
  rw [hevent]
  exact if_pos hconn

theorem genuine_heard :
    Genuine link.session.conn (arrivals link.session.conn link.session.steps)
      link.session.heard := by
  have hamong : EveryStep (SessionEnd.step cfg backend link.session.conn)
      (fun _ st => Among link.session.conn (arrivals link.session.conn link.session.steps) st)
      link.session.greeted link.session.steps :=
    everyStep_of_forall link.session.greeted fun st hst => link.among hst
  apply EveryStep.invariant (fun s st h hst => h.step cfg backend hst) _ hamong
  refine ⟨link.session.tracks_greeted, fun packet hpacket => ?_, List.Sublist.slnil⟩
  unfold accepted heldBack at hpacket
  rw [link.session.pipeline_greeted.1] at hpacket
  cases hpacket

theorem parsed_of_sentAs {packet : AudioPacket} {p : DrainPacket}
    (h : link.sentAs packet = some p) : parsed p = some packet ∧ p ∈ link.device.sent :=
  ⟨by simpa using List.find?_some h, List.mem_of_find?_eq_some h⟩

/-- **A packet that was sent goes to the decoder at most once.** -/
theorem nodup_sentAs :
    (link.session.heard.decoded.filterMap fun d => link.sentAs d.packet).Nodup := by
  obtain ⟨⟨p, sid, -, -, htracked⟩, -, hdecoded⟩ := link.genuine_heard
  have hdelivered : link.session.heard.delivered.Nodup :=
    (List.nodup_append.mp (List.nodup_append.mp htracked.lined.nodup).1).1
  have hnodup := hdecoded.nodup hdelivered
  rw [show (fun d : Decoded => link.sentAs d.packet) = link.sentAs ∘ Decoded.packet from rfl,
    ← List.filterMap_map]
  refine hnodup.filterMap fun packet packet' q hq hq' => ?_
  have h := (link.parsed_of_sentAs hq).1
  rw [(link.parsed_of_sentAs hq').1] at h
  exact (Option.some.inj h).symm

/-- What is decoded of some frames is not more than what was sent of them. -/
theorem countP_decodedFrames (p : RingFrame → Bool) :
    link.decodedFrames.countP p ≤
      (link.device.sent.flatMap DrainPacket.frames).countP p := by
  have hsubset : (link.session.heard.decoded.filterMap fun d => link.sentAs d.packet) ⊆
      link.device.sent := by
    intro q hq
    obtain ⟨d, -, hd⟩ := List.mem_filterMap.mp hq
    exact (link.parsed_of_sentAs hd).2
  obtain ⟨sent, hperm, hsublist⟩ := List.subperm_of_subset link.nodup_sentAs hsubset
  have hsent : (sent.flatMap DrainPacket.frames).countP p ≤
      (link.device.sent.flatMap DrainPacket.frames).countP p :=
    (hsublist.flatMap DrainPacket.frames).countP_le
  rw [(hperm.flatMap_right DrainPacket.frames).countP_eq] at hsent
  refine le_trans ?_ hsent
  unfold decodedFrames
  generalize link.session.heard.decoded = decoded
  induction decoded with
  | nil => exact le_rfl
  | cons d decoded ih =>
    rw [List.flatMap_cons, List.countP_append, List.filterMap_cons]
    cases link.sentAs d.packet with
    | none =>
      rw [Option.map_none, Option.getD_none, List.countP_nil, Nat.zero_add]
      exact ih
    | some q =>
      rw [Option.map_some, Option.getD_some, List.flatMap_cons, List.countP_append]
      exact Nat.add_le_add (List.take_sublist _ _).countP_le ih

/-- **A frame is decoded at most once, and once more for each time it is read again**; without a
preroll and without a replay it is not read again.
SOURCE: ble_drain.c:39-157, ble_drain.c:177-381, ingest/reassembler.py:156-201,
ingest/pipeline.py:422-452 -/
theorem timesDecoded_le (relTsMs : UInt32) :
    link.timesDecoded relTsMs ≤
        link.device.recorded.countP (·.relTsMs = relTsMs) +
          link.device.again.countP (·.relTsMs = relTsMs) ∧
      (EveryStep Device.step Device.Forward {} link.deviceSteps → link.device.again = []) := by
  constructor
  · have hbounded := Device.bounded_run (fun f => f.relTsMs = relTsMs) link.deviceSteps
    have hdecoded := link.countP_decodedFrames (fun f => f.relTsMs = relTsMs)
    have hrecorded := (List.take_sublist link.device.reach link.device.recorded).countP_le
      (p := fun f => f.relTsMs = relTsMs)
    unfold Device.Bounded at hbounded
    exact hdecoded.trans (hbounded.trans (Nat.add_le_add_right hrecorded _))
  · intro hforward
    exact (Device.fresh_run hforward).again

end LosslessLink

/-! ## A replay of what was sent -/

/-- Ten frames of speech, a pass of the drain, and a replay of the last second. -/
def replayed : List DrainReads.DeviceStep :=
  List.replicate 10 (.hear (.voiced false [7])) ++ [.drain 247, .replay 247 1]

/-- The two packets arrive. -/
def replayedSteps : List ConnStep :=
  ((run Device.step {} replayed).sent.filterMap DrainPacket.bytes).map fun data =>
    ⟨0, 0, .audio {} data⟩

theorem replayedSteps_audio {st : ConnStep} (h : st ∈ replayedSteps) :
    ∃ data, st = ⟨0, 0, .audio {} data⟩ := by
  obtain ⟨data, -, rfl⟩ := List.mem_map.mp h
  exact ⟨data, rfl⟩

theorem arrivals_audio (datas : List Bytes) :
    arrivals 0 (datas.map fun data => ⟨0, 0, .audio {} data⟩) = datas := by
  unfold arrivals
  rw [List.filterMap_map]
  exact List.filterMap_some

theorem replayed_last_conn : (⟨0, 0, .bye⟩ : ConnStep).conn = 0 := rfl

theorem replayed_last_event : (⟨0, 0, .bye⟩ : ConnStep).event = .bye ∨
    (⟨0, 0, .bye⟩ : ConnStep).event = .disconnect := .inl rfl

def replayedLink : LosslessLink demoConfig wordPerHop where
  deviceSteps := replayed
  session :=
    { conn := 0
      opened := { world := { pipelines := {} } }
      now := 0
      sessionId := "s"
      startSeq := 0
      steps := replayedSteps
      listening := fun st hst _ => by
        obtain ⟨data, rfl⟩ := replayedSteps_audio hst
        exact ⟨_, _, rfl⟩
      last := ⟨0, 0, .bye⟩
      last_conn := replayed_last_conn
      last_event := replayed_last_event }
  lossless := arrivals_audio _
  enabled st hst _ env data hevent := by
    obtain ⟨data', rfl⟩ := replayedSteps_audio hst
    obtain ⟨rfl, -⟩ := ConnEvent.audio.inj hevent
    rfl

/-- **The first frame is decoded twice.** -/
theorem not_always_once :
    ¬ ∀ (β : Type) (cfg : IngestConfig) (backend : IngestBackend β)
      (link : LosslessLink cfg backend) (relTsMs : UInt32), link.timesDecoded relTsMs ≤ 1 := by
  intro hall
  have htwice : replayedLink.timesDecoded 0 = 2 := by decide +kernel
  exact absurd (hall ℕ demoConfig wordPerHop replayedLink 0) (by rw [htwice]; decide)

end OpenRecall.Analysis.DecodedOnce
