import OpenRecall.Analysis.ArrivalOrder
import OpenRecall.Analysis.RelayOrder

/-!
# Audio from the relay to the server

The relay and the server's stream as one system, for as long as one connection lasts. What the network
does with the relay's frames is left open: each may get lost, be late or come again. Whatever it does,
the stream has only audio of the sensor, in its order and each packet once (`audio_in_order`). A gap
that the relay still has the packets of closes when its answer to the request has come
(`gap_closes`).
-/

set_option autoImplicit false

namespace OpenRecall.Analysis.AudioBackfill

open Foundation OpenRecall.Model
open Reassembly (Stream Lined held compared acceptPackets_eq setDefault values_setDefault)
open ArrivalOrder (compared_of_anchored consecutive_drain)
open RelayOrder (audio received)

variable (py : RelayReaders) (gapTimeoutMs : Option ℤ)

/-! ## The system -/

/-- The two ends, and the audio frames that the relay has sent since it said hello. -/
structure AudioLink where
  relay : RelaySession
  sent : List Bytes := []
  stream : Stream

/-- The service calls the relay's session, a frame comes to the server, or the server looks for a
gap. -/
inductive LinkStep where
  | relay (call : RelayCall)
  | arrives (now : ℚ) (data : Bytes)
  | gapCheck (now : ℚ)

/-- SOURCE: RelaySession.kt:68-133, gateway/core.py:279-331, ingest/reassembler.py:81-201 -/
def step (s : AudioLink) : LinkStep → AudioLink
  | .relay call =>
    { s with
      relay := (s.relay.call py call).2
      sent := s.sent ++ audio (s.relay.call py call).1 }
  | .arrives now data =>
    match AudioPacket.parse data with
    | .ok packet => { s with stream := Reassembly.step gapTimeoutMs s.stream (.acceptPackets now packet) }
    | .error _ => s
  | .gapCheck now => { s with stream := Reassembly.step gapTimeoutMs s.stream (.missingRange now) }

/-- A session that has not been called says hello after some calls, and the server opens a stream. -/
def connect (new : RelaySession) (calls : List RelayCall) : AudioLink where
  relay := RelayOrder.after py new (calls ++ [.start])
  sent := audio ((RelayOrder.after py new calls).call py .start).1
  stream := ⟨.create new.startSeq, []⟩

/-- The connection lasts: the session is not started or stopped, and what comes is some frame that was
sent. One that does not parse would close the connection. -/
def Lasts (s : AudioLink) : LinkStep → Prop
  | .relay .start | .relay .stop => False
  | .relay _ => True
  | .arrives _ data => data ∈ s.sent ∧ ∃ packet, AudioPacket.parse data = .ok packet
  | .gapCheck _ => True

instance (data : Bytes) : Decidable (∃ packet, AudioPacket.parse data = .ok packet) :=
  match h : AudioPacket.parse data with
  | .ok packet => isTrue ⟨packet, rfl⟩
  | .error e => isFalse fun ⟨_, hparse⟩ => by cases hparse

instance (s : AudioLink) : ∀ st, Decidable (Lasts s st)
  | .relay .start | .relay .stop => inferInstanceAs (Decidable False)
  | .relay (.onDeviceAudio _) | .relay (.onDeviceCommandAck _) | .relay (.onServerMessage _) =>
    inferInstanceAs (Decidable True)
  | .arrives _ data => inferInstanceAs
      (Decidable (data ∈ s.sent ∧ ∃ packet, AudioPacket.parse data = .ok packet))
  | .gapCheck _ => inferInstanceAs (Decidable True)

theorem Lasts.ne_stop {s : AudioLink} {call : RelayCall} (h : Lasts s (.relay call)) :
    call ≠ .stop := by
  rintro rfl
  exact h

/-- The calls of the session in a run. -/
def callsOf (steps : List LinkStep) : List RelayCall :=
  steps.filterMap fun
    | .relay call => some call
    | _ => none

theorem relay_run (s : AudioLink) (steps : List LinkStep) :
    (run (step py gapTimeoutMs) s steps).relay = RelayOrder.after py s.relay (callsOf steps) := by
  induction steps generalizing s with
  | nil => rfl
  | cons st steps ih =>
    rw [run_cons, ih]
    cases st with
    | relay call => rfl
    | arrives now data =>
      rw [step]
      split <;> rfl
    | gapCheck now => rfl

/-! ## Only audio of the sensor -/

/-- What the session holds is what it was given. -/
structure Given (packets : List Bytes) (s : RelaySession) : Prop where
  pending : ∀ data ∈ s.pendingAudio, data ∈ packets
  ring : ∀ data ∈ s.sentRing, data ∈ packets

theorem mem_receive {packets : List Bytes} {call : RelayCall} (h : call ≠ .stop) {data : Bytes}
    (hdata : data ∈ packets) : data ∈ RelayOrder.receive packets call := by
  cases call with
  | stop => exact absurd rfl h
  | onDeviceAudio packet => exact List.mem_append_left _ hdata
  | start => exact hdata
  | onDeviceCommandAck ackPayload => exact hdata
  | onServerMessage text => exact hdata

theorem mem_of_mem_pushRing {packet data : Bytes} {ring : List Bytes}
    (h : data ∈ RelaySession.pushRing packet ring) : data ∈ ring ++ [packet] :=
  (List.drop_sublist _ _).subset h

/-- A message of the server makes the relay send nothing but packets that it holds. -/
theorem audio_onServerMessage {s : RelaySession} {text : String} {data : Bytes}
    (h : data ∈ audio (s.onServerMessage py text).1) : data ∈ s.sentRing := by
  unfold RelaySession.onServerMessage at h
  cases hmessage : ServerMessage.parse py text with
  | none => simp [hmessage, audio] at h
  | some message =>
    rw [hmessage] at h
    cases message with
    | requestChunks start stop =>
      dsimp only [RelaySession.backfill] at h
      split_ifs at h
      · simp [audio] at h
      · rw [RelayOrder.audio_map_binary] at h
        exact List.mem_of_mem_filter h
    | command payload sig =>
      cases hcommand : RelaySession.forwardCommand py payload sig with
      | none => simp [hcommand, audio] at h
      | some action =>
        obtain ⟨signature, -, rfl⟩ := Option.map_eq_some_iff.mp hcommand
        simp [hcommand, audio, RelayOrder.audioOf] at h
    | proactive requestId text atoms propose =>
      cases propose <;> simp [audio, RelayOrder.audioOf, RelaySession.forwardProactive] at h
    | transcript text durationMs speaker speakerName isWearer =>
      simp [audio, RelayOrder.audioOf] at h
    | ack nextSeq => simp [audio] at h
    | unknown type => simp [audio] at h

/-- A call sends nothing but what the session was given. -/
theorem Given.call {packets : List Bytes} {s : RelaySession} (h : Given packets s) (c : RelayCall) :
    Given (RelayOrder.receive packets c) (s.call py c).2 ∧
      ∀ data ∈ audio (s.call py c).1, data ∈ RelayOrder.receive packets c := by
  cases c with
  | start =>
    refine ⟨⟨by simp [RelaySession.call, RelaySession.start], h.ring⟩, fun data hdata => ?_⟩
    rw [RelaySession.call, RelaySession.start, RelayOrder.audio_cons_text,
      RelayOrder.audio_map_binary] at hdata
    exact h.pending data hdata
  | stop =>
    refine ⟨⟨?_, ?_⟩, fun data hdata => ?_⟩
    · simp [RelaySession.call, RelaySession.stop]
    · simp [RelaySession.call, RelaySession.stop]
    · simp [RelaySession.call, RelaySession.stop, audio, RelayOrder.audioOf] at hdata
  | onDeviceAudio packet =>
    have hring : ∀ data ∈ RelaySession.pushRing packet s.sentRing, data ∈ packets ++ [packet] := by
      intro data hdata
      exact (List.mem_append.mp (mem_of_mem_pushRing hdata)).elim
        (fun hdata => List.mem_append_left _ (h.ring data hdata)) (List.mem_append_right _)
    simp only [RelaySession.call, RelaySession.onDeviceAudio, RelayOrder.receive]
    split_ifs
    · refine ⟨⟨fun data hdata => List.mem_append_left _ (h.pending data hdata), hring⟩, fun data hdata => ?_⟩
      exact List.mem_append_right _ (by simpa [audio, RelayOrder.audioOf] using hdata)
    · refine ⟨⟨fun data hdata => ?_, hring⟩, by simp [audio]⟩
      exact (List.mem_append.mp hdata).elim
        (fun hdata => List.mem_append_left _ (h.pending data hdata)) (List.mem_append_right _)
  | onDeviceCommandAck ackPayload =>
    refine ⟨h, fun data hdata => ?_⟩
    rw [RelaySession.call, RelayOrder.audio_onDeviceCommandAck] at hdata
    cases hdata
  | onServerMessage text =>
    obtain ⟨-, hpending, hring⟩ := RelayOrder.onServerMessage_keeps py text s
    exact ⟨⟨hpending.symm ▸ h.pending, hring.symm ▸ h.ring⟩,
      fun data hdata => h.ring data (audio_onServerMessage py hdata)⟩

theorem given_after {new : RelaySession} (hpending : new.pendingAudio = []) (hring : new.sentRing = [])
    (calls : List RelayCall) : Given (received calls) (RelayOrder.after py new calls) := by
  induction calls using List.reverseRecOn with
  | nil => exact ⟨by simp [RelayOrder.after, hpending], by simp [RelayOrder.after, hring]⟩
  | append_singleton calls c ih =>
    rw [RelayOrder.after_concat, RelayOrder.received_concat]
    exact (ih.call py c).1

/-- All audio on its way, and all that the stream has, is of the packets that the session was given. -/
structure FromSensor (packets : List Bytes) (s : AudioLink) : Prop where
  given : Given packets s.relay
  sent : ∀ data ∈ s.sent, data ∈ packets
  lined : Lined (s.stream.delivered ++ s.stream.reassembler.pending) s.stream.reassembler
  held : ∀ p ∈ held s.stream, ∃ data ∈ packets, AudioPacket.parse data = .ok p

theorem FromSensor.step {packets : List Bytes} {s : AudioLink} (h : FromSensor packets s)
    {st : LinkStep} (hst : Lasts s st) :
    FromSensor ((callsOf [st]).foldl RelayOrder.receive packets) (step py gapTimeoutMs s st) := by
  cases st with
  | relay call =>
    obtain ⟨hgiven, haudio⟩ := h.given.call py call
    have hmem : ∀ data ∈ packets, data ∈ RelayOrder.receive packets call :=
      fun data hdata => mem_receive hst.ne_stop hdata
    refine ⟨hgiven, fun data hdata => ?_, h.lined, fun p hp => ?_⟩
    · exact (List.mem_append.mp hdata).elim (fun hdata => hmem data (h.sent data hdata)) (haudio data)
    · obtain ⟨data, hdata, hparse⟩ := h.held p hp
      exact ⟨data, hmem data hdata, hparse⟩
  | arrives now data =>
    obtain ⟨hsent, packet, hparse⟩ := hst
    have hstep : AudioBackfill.step py gapTimeoutMs s (.arrives now data) =
        { s with stream := Reassembly.step gapTimeoutMs s.stream (.acceptPackets now packet) } := by
      rw [AudioBackfill.step, hparse]
    rw [hstep]
    refine ⟨h.given, h.sent, (h.lined.call gapTimeoutMs _).1, fun p hp => ?_⟩
    rcases h.lined.mem_held gapTimeoutMs hp with hp | rfl
    · exact h.held p hp
    · exact ⟨data, h.sent data hsent, hparse⟩
  | gapCheck now =>
    obtain ⟨hlined, hheld⟩ := h.lined.missingRange gapTimeoutMs now
    exact ⟨h.given, h.sent, hlined, fun p hp => h.held p ((hheld p).mp hp)⟩

theorem FromSensor.run {packets : List Bytes} {s : AudioLink} (h : FromSensor packets s)
    {steps : List LinkStep} (hsteps : EveryStep (AudioBackfill.step py gapTimeoutMs) Lasts s steps) :
    FromSensor ((callsOf steps).foldl RelayOrder.receive packets)
      (Foundation.run (AudioBackfill.step py gapTimeoutMs) s steps) := by
  induction steps generalizing packets s with
  | nil => exact h
  | cons st steps ih =>
    have hfold : (callsOf (st :: steps)).foldl RelayOrder.receive packets =
        (callsOf steps).foldl RelayOrder.receive ((callsOf [st]).foldl RelayOrder.receive packets) := by
      rw [← List.foldl_append]
      cases st <;> rfl
    rw [hfold]
    exact ih (h.step py gapTimeoutMs hsteps.1) hsteps.2

/-! ## A gap that closes -/

/-- The number is behind, or a packet with it is held. -/
def Past (n : ℤ) (r : SessionReassembler) : Prop := n < r.next ∨ n ∈ r.buffer.keys

section

variable {s : Stream} (h : Lined (s.delivered ++ s.reassembler.pending) s.reassembler)

include h

theorem past_of_mem_held {p : AudioPacket} (hp : p ∈ held s) : Past p.chunkSeq s.reassembler := by
  rw [held] at hp
  rcases List.mem_append.mp hp with hp | hp
  · exact .inl (h.behind p hp)
  · obtain ⟨key, hget⟩ := (Dict.mem_values_iff _ _).mp hp
    rw [Past, h.keyed key p hget, ← Dict.get?_isSome_iff, hget]
    exact .inr rfl

theorem exists_of_mem_keys {n : ℤ} (hn : n ∈ s.reassembler.buffer.keys) :
    ∃ p ∈ s.reassembler.buffer.values, (p.chunkSeq : ℤ) = n := by
  obtain ⟨p, hget⟩ := Option.isSome_iff_exists.mp ((Dict.get?_isSome_iff _ _).mpr hn)
  exact ⟨p, (Dict.mem_values_iff _ _).mpr ⟨n, hget⟩, h.keyed n p hget⟩

/-- What is expected goes up from when a packet is compared. -/
theorem compared_le (now : ℚ) (packet : AudioPacket) :
    (compared gapTimeoutMs now packet s.reassembler).next ≤
        (Reassembly.step gapTimeoutMs s (.acceptPackets now packet)).reassembler.next ∧
      (Reassembly.step gapTimeoutMs s (.acceptPackets now packet)).reassembler.anchored = true := by
  obtain ⟨packets, hlined, -, -, hanchored⟩ := h.compared gapTimeoutMs now packet
  rw [Reassembly.step, acceptPackets_eq]
  generalize compared gapTimeoutMs now packet s.reassembler = r at *
  dsimp only
  split_ifs
  · exact ⟨le_rfl, hanchored⟩
  · exact ⟨le_rfl, hanchored⟩
  · have hdrained : SessionReassembler.Drained
        { r with pending := [], gapOpenedAt := none, next := r.next + 1 } _ _ :=
      SessionReassembler.drained_drain le_rfl hlined.keyed
        fun key hkey => Int.add_one_le_iff.mpr (hlined.ahead key hkey)
    have hle := hdrained.le
    dsimp only at hle
    exact ⟨(Int.le_add_one le_rfl).trans hle, hdrained.anchored.trans hanchored⟩

/-- What an anchored stream expects goes up. -/
theorem next_le (hanchored : s.reassembler.anchored = true) (c : Reassembly.ReassemblerCall) :
    s.reassembler.next ≤ (Reassembly.step gapTimeoutMs s c).reassembler.next ∧
      (Reassembly.step gapTimeoutMs s c).reassembler.anchored = true := by
  have hskip (now : ℚ) : s.reassembler.next ≤
        (s.reassembler.maybeSkipStaleGap gapTimeoutMs now).next ∧
      (s.reassembler.maybeSkipStaleGap gapTimeoutMs now).anchored = true := by
    obtain ⟨packets, hdrained, -⟩ :=
      SessionReassembler.drained_maybeSkipStaleGap h.keyed h.ahead gapTimeoutMs now
    exact ⟨hdrained.le, hdrained.anchored.trans hanchored⟩
  cases c with
  | acceptPackets now packet =>
    obtain ⟨hle, hanchored'⟩ := compared_le gapTimeoutMs h now packet
    refine ⟨le_trans ?_ hle, hanchored'⟩
    rw [compared, if_pos hanchored]
    exact (hskip now).1
  | missingRange now => exact hskip now

/-- What is past stays past. -/
theorem Past.step {n : ℤ} (hn : Past n s.reassembler) (hanchored : s.reassembler.anchored = true)
    (c : Reassembly.ReassemblerCall) : Past n (Reassembly.step gapTimeoutMs s c).reassembler := by
  rcases hn with hn | hn
  · exact .inl (hn.trans_le (next_le gapTimeoutMs h hanchored c).1)
  · obtain ⟨p, hp, rfl⟩ := exists_of_mem_keys h hn
    obtain ⟨hlined, hheld⟩ := h.call gapTimeoutMs c
    exact past_of_mem_held hlined (hheld p (List.mem_append_right _ hp))

/-- A packet that came is past.
SOURCE: ingest/reassembler.py:156-201 -/
theorem past_of_arrived (now : ℚ) (packet : AudioPacket) : Past packet.chunkSeq
    (Reassembly.step gapTimeoutMs s (.acceptPackets now packet)).reassembler := by
  obtain ⟨hlined, hheld, htakes⟩ := h.acceptPackets gapTimeoutMs now packet
  obtain ⟨packets, hcompared, hvalues, -, -⟩ := h.compared gapTimeoutMs now packet
  by_cases htake : Reassembly.Takes gapTimeoutMs now packet s.reassembler
  · exact past_of_mem_held hlined (htakes htake)
  · rw [Reassembly.Takes, not_and_or, not_le, not_not] at htake
    rcases htake with hbehind | hkey
    · exact .inl (hbehind.trans_le (compared_le gapTimeoutMs h now packet).1)
    · obtain ⟨p, hget⟩ := Option.isSome_iff_exists.mp ((Dict.get?_isSome_iff _ _).mpr hkey)
      have hp : p ∈ held s := List.mem_append_right _ (hvalues.mem_iff.mpr
        (List.mem_append_right _ ((Dict.mem_values_iff _ _).mpr ⟨_, hget⟩)))
      rw [← hcompared.keyed _ p hget]
      exact past_of_mem_held hlined (hheld p hp)

end

/-- Every number from the first on that is behind is that of a delivered packet, and none is parked. -/
structure Reaches (first : ℤ) (s : Stream) : Prop where
  pending : s.reassembler.pending = []
  delivered : ∀ n, first ≤ n → n < s.reassembler.next → ∃ p ∈ s.delivered, (p.chunkSeq : ℤ) = n

/-- Without a timeout nothing is skipped.
SOURCE: ingest/reassembler.py:156-201 -/
theorem Reaches.step {first : ℤ} {s : Stream} (h : Reaches first s)
    (hlined : Lined (s.delivered ++ s.reassembler.pending) s.reassembler)
    (hanchored : s.reassembler.anchored = true) (c : Reassembly.ReassemblerCall) :
    Reaches first (Reassembly.step none s c) := by
  cases c with
  | missingRange now =>
    show Reaches first { s with reassembler := s.reassembler.maybeSkipStaleGap none now }
    unfold SessionReassembler.maybeSkipStaleGap
    split <;> exact ⟨h.pending, h.delivered⟩
  | acceptPackets now packet =>
    obtain ⟨hnext, hbuffer, hpending, -⟩ := compared_of_anchored hanchored now packet
    rw [Reassembly.step, acceptPackets_eq]
    generalize compared none now packet s.reassembler = r at hnext hbuffer hpending
    rw [h.pending] at hpending
    dsimp only
    rw [hpending]
    split_ifs
    · exact ⟨rfl, by simpa [hnext] using h.delivered⟩
    · exact ⟨rfl, by simpa [hnext] using h.delivered⟩
    · have hkeyed : SessionReassembler.Keyed
          { r with pending := [], gapOpenedAt := none, next := r.next + 1 } := by
        have hheld := hlined.keyed
        rw [SessionReassembler.Keyed, ← hbuffer] at hheld
        exact hheld
      obtain ⟨hconsecutive, hlength⟩ := consecutive_drain r.buffer.keys.length hkeyed
      refine ⟨SessionReassembler.pending_drain _ _, fun n hfirst hn => ?_⟩
      dsimp only at hlength hn ⊢
      rcases lt_trichotomy n r.next with hlt | rfl | hlt
      · obtain ⟨p, hp, hseq⟩ := h.delivered n hfirst (hnext ▸ hlt)
        exact ⟨p, List.mem_append_left _ hp, hseq⟩
      · exact ⟨packet, by simp, by omega⟩
      · obtain ⟨p, hp, hseq⟩ := hconsecutive.exists_mem hlt (hlength ▸ hn)
        exact ⟨p, by simp [hp], hseq⟩

/-- A stream that waits for the first number or a later one. -/
structure Waiting (first : ℤ) (s : AudioLink) : Prop where
  lined : Lined (s.stream.delivered ++ s.stream.reassembler.pending) s.stream.reassembler
  anchored : s.stream.reassembler.anchored = true
  first_le : first ≤ s.stream.reassembler.next
  reaches : gapTimeoutMs = none → Reaches first s.stream

variable {gapTimeoutMs}

theorem Waiting.stream {first : ℤ} {s : AudioLink} (h : Waiting gapTimeoutMs first s)
    (c : Reassembly.ReassemblerCall) :
    Waiting gapTimeoutMs first { s with stream := Reassembly.step gapTimeoutMs s.stream c } := by
  obtain ⟨hle, hanchored⟩ := next_le gapTimeoutMs h.lined h.anchored c
  refine ⟨(h.lined.call gapTimeoutMs c).1, hanchored, h.first_le.trans hle, ?_⟩
  rintro rfl
  exact (h.reaches rfl).step h.lined h.anchored c

/-- The step lemma: the stream goes on, and what is past stays past. -/
theorem Waiting.step {first : ℤ} {s : AudioLink} (h : Waiting gapTimeoutMs first s) (st : LinkStep) :
    Waiting gapTimeoutMs first (step py gapTimeoutMs s st) ∧
      ∀ n, Past n s.stream.reassembler →
        Past n (step py gapTimeoutMs s st).stream.reassembler := by
  cases st with
  | relay call => exact ⟨⟨h.lined, h.anchored, h.first_le, h.reaches⟩, fun n hn => hn⟩
  | arrives now data =>
    rw [AudioBackfill.step]
    split
    · exact ⟨h.stream _, fun n hn => hn.step gapTimeoutMs h.lined h.anchored _⟩
    · exact ⟨h, fun n hn => hn⟩
  | gapCheck now => exact ⟨h.stream _, fun n hn => hn.step gapTimeoutMs h.lined h.anchored _⟩

/-- The run lemma. -/
theorem Waiting.run {first : ℤ} {s : AudioLink} (h : Waiting gapTimeoutMs first s)
    (steps : List LinkStep) :
    Waiting gapTimeoutMs first (Foundation.run (AudioBackfill.step py gapTimeoutMs) s steps) ∧
      ∀ n, Past n s.stream.reassembler →
        Past n (Foundation.run (AudioBackfill.step py gapTimeoutMs) s steps).stream.reassembler := by
  induction steps generalizing s with
  | nil => exact ⟨h, fun n hn => hn⟩
  | cons st steps ih =>
    obtain ⟨hstep, hpast⟩ := h.step py st
    obtain ⟨hrun, hpast'⟩ := ih hstep
    exact ⟨hrun, fun n hn => hpast' n (hpast n hn)⟩

/-- A packet that comes in a run is past at its end. -/
theorem Waiting.past_of_arrives {first : ℤ} {s : AudioLink} (h : Waiting gapTimeoutMs first s)
    {steps : List LinkStep} {now : ℚ} {data : Bytes} {packet : AudioPacket}
    (harrives : .arrives now data ∈ steps) (hparse : AudioPacket.parse data = .ok packet) :
    Past packet.chunkSeq
      (Foundation.run (AudioBackfill.step py gapTimeoutMs) s steps).stream.reassembler := by
  obtain ⟨before, later, rfl⟩ := List.append_of_mem harrives
  rw [run_append, run_cons]
  obtain ⟨hbefore, -⟩ := h.run py before
  refine ((hbefore.step py (.arrives now data)).1.run py later).2 _ ?_
  rw [AudioBackfill.step, hparse]
  exact past_of_arrived gapTimeoutMs hbefore.lined now packet

/-! ## Runs of a connection -/

/-- A session before its first call. -/
structure New (s : RelaySession) : Prop where
  started : s.started = false
  pending : s.pendingAudio = []
  ring : s.sentRing = []

variable {new : RelaySession} {calls : List RelayCall} {steps : List LinkStep}

theorem received_start (calls : List RelayCall) (steps : List LinkStep) :
    received (calls ++ .start :: callsOf steps) =
      (callsOf steps).foldl RelayOrder.receive (received calls) := by
  rw [received, List.foldl_append]
  rfl

theorem fromSensor_connect (hnew : New new) (calls : List RelayCall) :
    FromSensor (received calls) (connect py new calls) := by
  obtain ⟨hgiven, haudio⟩ := (given_after py hnew.pending hnew.ring calls).call py .start
  refine ⟨?_, haudio, Reassembly.lined_create _, fun p hp => ?_⟩
  · rw [connect, RelayOrder.after_concat]
    exact hgiven
  · simp [connect, held, SessionReassembler.create, Dict.values, Dict.empty] at hp

/-- **Whatever the network does with the frames, the server's stream is the sensor's audio.** What the
stream delivers goes up in its numbers, and each packet is one that the session was given since its
last stop. -/
theorem audio_in_order (hnew : New new)
    (h : EveryStep (step py gapTimeoutMs) Lasts (connect py new calls) steps) :
    ((run (step py gapTimeoutMs) (connect py new calls) steps).stream.delivered.map
        AudioPacket.chunkSeq).Pairwise (· < ·) ∧
      ∀ p ∈ (run (step py gapTimeoutMs) (connect py new calls) steps).stream.delivered,
        ∃ data ∈ received (calls ++ .start :: callsOf steps), AudioPacket.parse data = .ok p := by
  have hrun := (fromSensor_connect py hnew calls).run py gapTimeoutMs h
  rw [received_start]
  refine ⟨?_, fun p hp => hrun.held p (by simp [held, hp])⟩
  have hsorted := hrun.lined.sorted
  rw [List.map_append] at hsorted
  exact (List.pairwise_append.mp hsorted).1

/-- Readers that know one request, for the packet with the number one. -/
def requestReaders : RelayReaders where
  parseToJsonElement _ := some (.object [("type", .primitive "request_chunks"),
    ("start", .primitive "1"), ("end", .primitive "2")])
  toIntOrNull content := if content = "1" then some 1 else some 2
  decodeUtf8 _ := ""
  encodeUtf8 _ := []
  decodeBase64 _ := none

def emptyPacket (seq : UInt8) : Bytes := [16, seq, 0, 0, 0, 0, 0, 0, 0, 1, 0, 0]

/-- Of three packets the second does not arrive, and the first does twice. -/
def secondLost : List LinkStep :=
  List.flatten [[0, 1, 2].map fun seq => .relay (.onDeviceAudio (emptyPacket seq)),
    [0, 2, 0].map fun seq => .arrives 0 (emptyPacket seq)]

def newSession : RelaySession := { sessionId := "s", startSeq := 0 }

theorem audio_in_order_secondLost :
    ((run (step requestReaders none) (connect requestReaders newSession []) secondLost).stream.delivered.map
        AudioPacket.chunkSeq).Pairwise (· < ·) ∧
      ∀ p ∈ (run (step requestReaders none) (connect requestReaders newSession [])
        secondLost).stream.delivered,
        ∃ data ∈ received ([] ++ .start :: callsOf secondLost), AudioPacket.parse data = .ok p :=
  audio_in_order requestReaders ⟨rfl, rfl, rfl⟩ (by decide +kernel)

/-- The calls before a connection and in it. -/
theorem relay_eq (calls : List RelayCall) (steps : List LinkStep) :
    (run (step py gapTimeoutMs) (connect py new calls) steps).relay =
      RelayOrder.after py new (calls ++ .start :: callsOf steps) := by
  rw [relay_run, connect, RelayOrder.after, RelayOrder.after, ← run_append, List.append_assoc]
  rfl

/-- The gate stays open for as long as a connection lasts. -/
theorem opened_of_lasts (calls : List RelayCall) {s : AudioLink}
    (h : EveryStep (step py gapTimeoutMs) Lasts s steps) :
    RelayOrder.opened (calls ++ .start :: callsOf steps) = true := by
  rw [RelayOrder.opened, List.foldl_append, List.foldl_cons]
  have hopen : ∀ steps (s : AudioLink), EveryStep (step py gapTimeoutMs) Lasts s steps →
      (callsOf steps).foldl RelayOrder.gate true = true := by
    intro steps
    induction steps with
    | nil => exact fun _ _ => rfl
    | cons st steps ih =>
      intro s h
      cases st with
      | relay call =>
        have hgate : RelayOrder.gate true call = true := by
          cases call with
          | stop => exact absurd rfl h.1.ne_stop
          | start => rfl
          | onDeviceAudio packet => rfl
          | onDeviceCommandAck ackPayload => rfl
          | onServerMessage text => rfl
        rw [callsOf, List.filterMap_cons, List.foldl_cons, hgate]
        exact ih _ h.2
      | arrives now data => exact ih _ h.2
      | gapCheck now => exact ih _ h.2
  exact hopen steps s h

/-- Without a timeout nothing is parked. -/
theorem pending_run {s : AudioLink} (h : s.stream.reassembler.pending = []) (steps : List LinkStep) :
    (run (step py none) s steps).stream.reassembler.pending = [] := by
  refine run_invariant (I := fun s : AudioLink => s.stream.reassembler.pending = []) (fun s st hs => ?_) h steps
  have hskip (r : SessionReassembler) (now : ℚ) : (r.maybeSkipStaleGap none now).pending = r.pending := by
    unfold SessionReassembler.maybeSkipStaleGap
    split <;> rfl
  cases st with
  | relay call => exact hs
  | gapCheck now => exact (hskip _ now).trans hs
  | arrives now data =>
    rw [step]
    split
    · rename_i packet _
      dsimp only [Reassembly.step]
      rw [acceptPackets_eq]
      dsimp only
      split_ifs
      · rfl
      · rfl
      · exact SessionReassembler.pending_drain _ _
    · exact hs

/-- The relay reads a packet's number as the server does, below `2 ^ 31`. -/
theorem chunkSeqOf_of_parse {data : Bytes} {packet : AudioPacket}
    (h : AudioPacket.parse data = .ok packet) (hlt : packet.chunkSeq < 2 ^ 31) :
    RelaySession.chunkSeqOf data = some (packet.chunkSeq : ℤ) := by
  have hwire : RelaySession.wireSeq data = some packet.chunkSeq := by
    unfold AudioPacket.parse at h
    split at h
    · rename_i verPtype s₀ s₁ s₂ s₃ t₀ t₁ t₂ t₃ vad frameCount flags body
      cases htype : AudioPacket.packetType (verPtype.toNat % 16) with
      | error e =>
        rw [htype] at h
        cases h
      | ok ptype =>
        cases hvad : AudioPacket.vadStateOf vad.toNat with
        | error e =>
          rw [htype, hvad] at h
          cases h
        | ok vadState =>
          cases hframes : AudioPacket.parseFrames frameCount.toNat 0 frameCount.toNat body with
          | error e =>
            rw [htype, hvad, hframes] at h
            cases h
          | ok frames =>
            rw [htype, hvad, hframes] at h
            obtain rfl := Except.ok.inj h
            rfl
    · cases h
  norm_num at hlt
  simp [RelaySession.chunkSeqOf, hwire, hlt]

/-- **A gap closes.** The server finds that it misses the numbers from `first` up to `last` and asks
for them, and the session reads so. When a packet with each of these numbers is among the last 25 that
the session was given, and what it answers comes to the server, in whatever order and whatever comes
in between, then the stream has gone on to `last` at least. Without a timeout it has delivered each
number of the gap. -/
theorem gap_closes (hnew : New new)
    (h : EveryStep (step py gapTimeoutMs) Lasts (connect py new calls) steps)
    {s : AudioLink} (hs : s = run (step py gapTimeoutMs) (connect py new calls) steps)
    {now : ℚ} {first last : ℤ} {text : String}
    (hgap : (s.stream.reassembler.missingRange gapTimeoutMs now).1 = some (first, last))
    (hread : ServerMessage.parse py text = some (.requestChunks first last)) (hlast : last ≤ 2 ^ 31)
    (hkept : ∀ n, first ≤ n → n < last →
      ∃ data ∈ (received (calls ++ .start :: callsOf steps)).rtake RelaySession.ringMaxChunks,
        ∃ packet, AudioPacket.parse data = .ok packet ∧ (packet.chunkSeq : ℤ) = n)
    {more : List LinkStep}
    (hanswer : ∀ data ∈ audio (s.relay.call py (.onServerMessage text)).1,
      ∃ now, .arrives now data ∈ more)
    {s' : AudioLink} (hs' : s' = run (step py gapTimeoutMs) s
      (.gapCheck now :: .relay (.onServerMessage text) :: more)) :
    last ≤ s'.stream.reassembler.next ∧ (gapTimeoutMs = none →
      ∀ n, first ≤ n → n < last → ∃ p ∈ s'.stream.delivered, (p.chunkSeq : ℤ) = n) := by
  have hlined : Lined (s.stream.delivered ++ s.stream.reassembler.pending) s.stream.reassembler := by
    rw [hs]
    exact ((fromSensor_connect py hnew calls).run py gapTimeoutMs h).lined
  obtain ⟨checked, hchecked⟩ : ∃ checked, checked = step py gapTimeoutMs s (.gapCheck now) := ⟨_, rfl⟩
  obtain ⟨lowest, hlowest, hpair⟩ := Option.map_eq_some_iff.mp hgap
  have hfirst : checked.stream.reassembler.next = first := by
    rw [hchecked]
    exact (Prod.mk.inj hpair).1
  have hwaiting : Waiting gapTimeoutMs first checked := by
    have hlined' := (hlined.call gapTimeoutMs (.missingRange now)).1
    rw [hchecked] at hfirst ⊢
    refine ⟨hlined', ?_, hfirst.ge, ?_⟩
    · by_contra hfresh
      have hvalues : (s.stream.reassembler.maybeSkipStaleGap gapTimeoutMs now).buffer.values = [] :=
        (hlined'.fresh (eq_false_of_ne_true hfresh)).2
      have hkeys : (s.stream.reassembler.maybeSkipStaleGap gapTimeoutMs now).buffer.keys = [] := by
        apply List.eq_nil_of_length_eq_zero
        rw [Dict.length_keys, hvalues, List.length_nil]
      rw [hkeys] at hlowest
      cases hlowest
    · rintro rfl
      have hpending : s.stream.reassembler.pending = [] := by
        rw [hs]
        exact pending_run py rfl steps
      exact ⟨pending_run py hpending [.gapCheck now], fun n hn hn' => absurd hn' (by omega)⟩
  obtain ⟨asked, hasked⟩ : ∃ asked, asked = step py gapTimeoutMs checked (.relay (.onServerMessage text)) :=
    ⟨_, rfl⟩
  have hasking : Waiting gapTimeoutMs first asked := by
    rw [hasked]
    exact (hwaiting.step py _).1
  have hfinal : s' = run (step py gapTimeoutMs) asked more := by
    rw [hs', run_cons, run_cons, hasked, hchecked]
  have hpast : ∀ n, first ≤ n → n < last → Past n s'.stream.reassembler := by
    intro n hn hn'
    obtain ⟨data, hdata, packet, hparse, rfl⟩ := hkept n hn hn'
    have hsent : data ∈ audio (s.relay.call py (.onServerMessage text)).1 := by
      rw [hs, relay_eq, RelayOrder.backfill_after py new hnew.started hnew.ring
        (opened_of_lasts py calls h) hread, RelayOrder.audio_map_binary, List.mem_filter]
      have hseq := chunkSeqOf_of_parse hparse (by omega)
      exact ⟨hdata, by simp [RelaySession.isIn, hseq, hn, hn']⟩
    obtain ⟨now, harrives⟩ := hanswer data hsent
    rw [hfinal]
    exact hasking.past_of_arrives py harrives hparse
  have hrun := (hasking.run py more).1
  rw [← hfinal] at hrun
  have hnext : last ≤ s'.stream.reassembler.next := by
    by_contra hlt
    rcases hpast _ hrun.first_le (not_le.mp hlt) with hbehind | hkey
    · exact lt_irrefl _ hbehind
    · exact lt_irrefl _ (hrun.lined.ahead _ hkey)
  exact ⟨hnext, fun hnone n hn hn' => (hrun.reaches hnone).delivered n hn (hn'.trans_le hnext)⟩

theorem gap_closes_secondLost :
    2 ≤ (run (step requestReaders none) (run (step requestReaders none)
        (connect requestReaders newSession []) secondLost)
      [.gapCheck 0, .relay (.onServerMessage "request"), .arrives 0 (emptyPacket 1)]).stream.reassembler.next ∧
      ((none : Option ℤ) = none → ∀ n : ℤ, 1 ≤ n → n < 2 →
        ∃ p ∈ (run (step requestReaders none) (run (step requestReaders none)
            (connect requestReaders newSession []) secondLost)
          [.gapCheck 0, .relay (.onServerMessage "request"),
            .arrives 0 (emptyPacket 1)]).stream.delivered, (p.chunkSeq : ℤ) = n) :=
  gap_closes requestReaders ⟨rfl, rfl, rfl⟩ (by decide +kernel) rfl (by decide +kernel)
    (by decide +kernel) (by decide)
    (fun n hfirst hlast => by
      obtain rfl : n = 1 := by omega
      exact ⟨emptyPacket 1, by decide +kernel, ⟨1, .live, 1, 0, .speech, 0, []⟩, rfl, rfl⟩)
    (by
      intro data hdata
      have haudio : audio ((run (step requestReaders none) (connect requestReaders newSession [])
          secondLost).relay.call requestReaders (.onServerMessage "request")).1 = [emptyPacket 1] := by
        decide +kernel
      rw [haudio, List.mem_singleton] at hdata
      exact ⟨0, by simp [hdata]⟩) rfl

end OpenRecall.Analysis.AudioBackfill
