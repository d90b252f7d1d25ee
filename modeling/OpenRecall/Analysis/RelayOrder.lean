import OpenRecall.Model.RelaySession
import OpenRecall.Foundation.Run
import OpenRecall.Foundation.SlidingWindow

/-!
# What the relay sends, and when

Three facts of every run of the session's calls. While the last start or stop was a stop, or there
was none, no audio and no telemetry goes to the server (`quiet_of_not_opened`). Apart from backfill,
the audio that goes there is the audio that came, in its order, less what a stop finds held back
(`direct_trace`). And a request for chunks is answered from the last packets since the last stop
(`backfill_after`).
-/

set_option autoImplicit false

namespace OpenRecall.Analysis.RelayOrder

open Foundation Model

variable (py : RelayReaders)

/-! ## Runs -/

/-- The session after some calls. -/
def after (s : RelaySession) (calls : List RelayCall) : RelaySession :=
  run (fun s c => (s.call py c).2) s calls

/-- The calls with what each returned, or none for one that threw. -/
def trace : RelaySession → List RelayCall → List (RelayCall × Option (List RelayAction))
  | _, [] => []
  | s, c :: calls => (c, (s.call py c).1) :: trace (s.call py c).2 calls

/-- The gate after a call, which opens it, closes it or leaves it. -/
def gate (open_ : Bool) : RelayCall → Bool
  | .start => true
  | .stop => false
  | _ => open_

/-- The last start or stop was a start. -/
def opened (calls : List RelayCall) : Bool := calls.foldl gate false

/-- The packets since the last stop, after one more call. -/
def receive (packets : List Bytes) : RelayCall → List Bytes
  | .stop => []
  | .onDeviceAudio packet => packets ++ [packet]
  | _ => packets

/-- The packets since the last stop. -/
def received (calls : List RelayCall) : List Bytes := calls.foldl receive []

theorem opened_concat (calls : List RelayCall) (c : RelayCall) :
    opened (calls ++ [c]) = gate (opened calls) c := by
  rw [opened, List.foldl_append]
  rfl

theorem received_concat (calls : List RelayCall) (c : RelayCall) :
    received (calls ++ [c]) = receive (received calls) c := by
  rw [received, List.foldl_append]
  rfl

theorem after_concat (s : RelaySession) (calls : List RelayCall) (c : RelayCall) :
    after py s (calls ++ [c]) = ((after py s calls).call py c).2 := by
  rw [after, run_append]
  rfl

/-! ## Audio and telemetry -/

def audioOf : RelayAction → Option Bytes
  | .sendServerBinary data => some data
  | _ => none

/-- The audio a call sends. -/
def audio (out : Option (List RelayAction)) : List Bytes := (out.getD []).filterMap audioOf

/-- Neither audio nor telemetry for the server. -/
def Quiet : RelayAction → Prop
  | .sendServerBinary _ => False
  | .sendServerText (.telemetry _) => False
  | _ => True

@[simp] theorem audio_map_binary (packets : List Bytes) :
    audio (some (packets.map .sendServerBinary)) = packets := by
  simp [audio, List.filterMap_map, Function.comp_def, audioOf]

@[simp] theorem audio_cons_text (frame : RelayFrame) (actions : List RelayAction) :
    audio (some (.sendServerText frame :: actions)) = audio (some actions) := by
  simp [audio, List.filterMap_cons, audioOf]

/-- A server message leaves the gate, the held audio and the ring. -/
theorem onServerMessage_keeps (text : String) (s : RelaySession) :
    (s.onServerMessage py text).2.started = s.started ∧
    (s.onServerMessage py text).2.pendingAudio = s.pendingAudio ∧
    (s.onServerMessage py text).2.sentRing = s.sentRing := by
  unfold RelaySession.onServerMessage
  cases ServerMessage.parse py text with
  | none => exact ⟨rfl, rfl, rfl⟩
  | some msg => cases msg <;> exact ⟨rfl, rfl, rfl⟩

/-- An ack sends no audio. -/
theorem audio_onDeviceCommandAck (ackPayload : Bytes) (s : RelaySession) :
    audio (some [s.onDeviceCommandAck py ackPayload]) = [] := by
  simp only [RelaySession.onDeviceCommandAck]
  split_ifs
  · cases (py.parseToJsonElement (py.decodeUtf8 ackPayload)).bind JsonElement.asObject with
    | none => rfl
    | some obj =>
      dsimp only
      split_ifs <;> rfl
  · rfl

/-- **The session after a run**: the gate is open when the last start or stop was a start, and the
ring has the last packets since the last stop. -/
theorem after_spec (s : RelaySession) (hstarted : s.started = false) (hring : s.sentRing = [])
    (calls : List RelayCall) :
    (after py s calls).started = opened calls ∧
    (after py s calls).sentRing = (received calls).rtake RelaySession.ringMaxChunks := by
  induction calls using List.reverseRecOn with
  | nil => simp [after, opened, received, hstarted, hring]
  | append_singleton calls c ih =>
    obtain ⟨ihstarted, ihring⟩ := ih
    rw [after_concat, opened_concat, received_concat]
    cases c with
    | start => exact ⟨rfl, ihring⟩
    | stop => exact ⟨rfl, by simp [RelaySession.call, RelaySession.stop, receive]⟩
    | onDeviceAudio packet =>
      have hpush : RelaySession.pushRing packet (after py s calls).sentRing =
          (received calls ++ [packet]).rtake RelaySession.ringMaxChunks := by
        rw [RelaySession.pushRing, ihring]
        exact SlidingWindow.rtake_rtake_append 25 (received calls) [packet]
      simp only [RelaySession.call, RelaySession.onDeviceAudio]
      split_ifs with hs
      · exact ⟨ihstarted, hpush⟩
      · exact ⟨ihstarted, hpush⟩
    | onDeviceCommandAck ackPayload => exact ⟨ihstarted, ihring⟩
    | onServerMessage text =>
      obtain ⟨hs, -, hr⟩ := onServerMessage_keeps py text (after py s calls)
      exact ⟨hs.trans ihstarted, hr.trans ihring⟩

/-! ## While the gate is closed -/

/-- **Before the first start, and between a stop and the next one**, no call but a start sends audio
or telemetry. -/
theorem quiet_of_not_opened {s : RelaySession} (hs : s.started = false) {c : RelayCall}
    (hc : c ≠ .start) : ∀ a ∈ ((s.call py c).1).getD [], Quiet a := by
  intro a ha
  cases c with
  | start => exact absurd rfl hc
  | stop =>
    obtain rfl : a = .sendServerText (.bye s.sessionId) := by
      simpa [RelaySession.call, RelaySession.stop] using ha
    exact trivial
  | onDeviceAudio packet => simp [RelaySession.call, RelaySession.onDeviceAudio, hs] at ha
  | onDeviceCommandAck ackPayload =>
    obtain rfl : a = s.onDeviceCommandAck py ackPayload := by simpa [RelaySession.call] using ha
    simp only [RelaySession.onDeviceCommandAck]
    split_ifs
    · cases (py.parseToJsonElement (py.decodeUtf8 ackPayload)).bind JsonElement.asObject with
      | none => exact trivial
      | some obj =>
        simp only [hs, Bool.false_eq_true, and_false, if_false]
        exact trivial
    · exact trivial
  | onServerMessage text =>
    simp only [RelaySession.call, RelaySession.onServerMessage] at ha
    cases hmsg : ServerMessage.parse py text with
    | none => simp [hmsg] at ha
    | some msg =>
      rw [hmsg] at ha
      cases msg with
      | ack nextSeq => simp at ha
      | requestChunks start end_ => simp [RelaySession.backfill, hs] at ha
      | transcript text' durationMs speaker speakerName isWearer =>
        obtain rfl : a = .note ("transcript: " ++ text') := by simpa using ha
        exact trivial
      | command payload sig =>
        cases hcommand : RelaySession.forwardCommand py payload sig with
        | none => simp [hcommand] at ha
        | some action =>
          obtain rfl : a = action := by simpa [hcommand] using ha
          obtain ⟨signature, -, rfl⟩ := Option.map_eq_some_iff.mp hcommand
          exact trivial
      | proactive requestId text' atoms propose =>
        obtain rfl : a = s.forwardProactive requestId text' atoms propose := by simpa using ha
        cases propose <;> exact trivial
      | unknown type => simp at ha

/-! ## Audio in the order of its arrival -/

/-- The first start or stop of some calls; a start is true. -/
def firstGate : List RelayCall → Option Bool
  | [] => none
  | .start :: _ => some true
  | .stop :: _ => some false
  | .onDeviceAudio _ :: calls => firstGate calls
  | .onDeviceCommandAck _ :: calls => firstGate calls
  | .onServerMessage _ :: calls => firstGate calls

/-- The packets that go to the server, in the order of their arrival: those that come while the
gate is open, and those after which a start comes before a stop. -/
def forwarded : Bool → List RelayCall → List Bytes
  | _, [] => []
  | _, .start :: calls => forwarded true calls
  | _, .stop :: calls => forwarded false calls
  | open_, .onDeviceAudio packet :: calls =>
    if open_ = true ∨ firstGate calls = some true then packet :: forwarded open_ calls
    else forwarded open_ calls
  | open_, .onDeviceCommandAck _ :: calls => forwarded open_ calls
  | open_, .onServerMessage _ :: calls => forwarded open_ calls

/-- The audio of one call and what it returned, when it is not backfill. -/
def directOf : RelayCall × Option (List RelayAction) → List Bytes
  | (.onServerMessage _, _) => []
  | (_, out) => audio out

/-- The audio that goes to the server, apart from backfill. -/
def direct (calls : List (RelayCall × Option (List RelayAction))) : List Bytes :=
  calls.flatMap directOf

/-- The held audio that a start will send. -/
def released (s : RelaySession) (calls : List RelayCall) : List Bytes :=
  if firstGate calls = some true then s.pendingAudio else []

/-- **Apart from backfill, each packet goes to the server once, in the order of arrival**: what is
held when the run begins, if a start comes first, and then what is forwarded. While the gate is open
nothing is held. -/
theorem direct_trace (s : RelaySession) (hs : s.started = true → s.pendingAudio = [])
    (calls : List RelayCall) :
    direct (trace py s calls) = released s calls ++ forwarded s.started calls := by
  induction calls generalizing s with
  | nil => simp [direct, trace, released, firstGate, forwarded]
  | cons c calls ih =>
    have hcons : direct (trace py s (c :: calls)) =
        directOf (c, (s.call py c).1) ++ direct (trace py (s.call py c).2 calls) := by
      rw [trace, direct, List.flatMap_cons]
      rfl
    rw [hcons]
    cases c with
    | start =>
      rw [ih _ (fun _ => rfl)]
      have haudio : directOf (.start, (s.call py .start).1) = s.pendingAudio := by
        simp [directOf, RelaySession.call, RelaySession.start]
      have hreleased : released (s.call py .start).2 calls = [] := by
        simp [released, RelaySession.call, RelaySession.start]
      rw [haudio, hreleased]
      simp [released, firstGate, forwarded, RelaySession.call, RelaySession.start]
    | stop =>
      rw [ih _ (fun _ => rfl)]
      simp [released, firstGate, forwarded, directOf, audio, audioOf, RelaySession.call,
        RelaySession.stop]
    | onDeviceAudio packet =>
      by_cases hstarted : s.started = true
      · have hheld := hs hstarted
        rw [ih _ (by simp [RelaySession.call, RelaySession.onDeviceAudio, hstarted, hheld])]
        simp [released, firstGate, forwarded, directOf, audio, audioOf, RelaySession.call,
          RelaySession.onDeviceAudio, hstarted, hheld]
      · rw [ih _ (by simp [RelaySession.call, RelaySession.onDeviceAudio, hstarted])]
        by_cases hgate : firstGate calls = some true
        · simp [released, firstGate, forwarded, directOf, audio, RelaySession.call,
            RelaySession.onDeviceAudio, hstarted, hgate]
        · simp [released, firstGate, forwarded, directOf, audio, RelaySession.call,
            RelaySession.onDeviceAudio, hstarted, hgate]
    | onDeviceCommandAck ackPayload =>
      have hnone : directOf (.onDeviceCommandAck ackPayload,
          (s.call py (.onDeviceCommandAck ackPayload)).1) = [] :=
        audio_onDeviceCommandAck py ackPayload s
      rw [hnone, List.nil_append]
      exact ih s hs
    | onServerMessage text =>
      obtain ⟨hstarted, hheld, -⟩ := onServerMessage_keeps py text s
      have hcall : (s.call py (.onServerMessage text)).2 = (s.onServerMessage py text).2 := rfl
      have hreleased : released (s.onServerMessage py text).2 calls =
          released s (.onServerMessage text :: calls) := by
        rw [released, released, hheld, firstGate]
      rw [hcall, ih _ (by rw [hstarted, hheld]; exact hs), hstarted, hreleased]
      rfl

/-! ## Backfill -/

/-- The sequence number of a packet is a non-negative 31-bit value in a range. -/
def inRange31 (start end_ : ℤ) (packet : Bytes) : Bool :=
  match RelaySession.wireSeq packet with
  | none => false
  | some n => n < 2 ^ 31 ∧ start ≤ n ∧ n < end_

theorem wireSeq_lt {packet : Bytes} {n : ℕ} (h : RelaySession.wireSeq packet = some n) :
    n < 2 ^ 32 := by
  unfold RelaySession.wireSeq at h
  split at h
  · obtain rfl := Option.some.inj h
    unfold AudioPacket.u32
    rename_i b₀ b₁ b₂ b₃ _
    have h₀ := b₀.toNat_lt
    have h₁ := b₁.toNat_lt
    have h₂ := b₂.toNat_lt
    have h₃ := b₃.toNat_lt
    omega
  · exact absurd h (Option.some_ne_none n).symm

/-- The signed comparison is that of 31-bit values, for a request that begins at zero or later, and
for packets with such a number. -/
theorem isIn_eq_inRange31 {start end_ : ℤ} {packet : Bytes}
    (h : 0 ≤ start ∨ ∀ n, RelaySession.wireSeq packet = some n → n < 2 ^ 31) :
    RelaySession.isIn start end_ packet = inRange31 start end_ packet := by
  unfold RelaySession.isIn inRange31 RelaySession.chunkSeqOf
  cases hseq : RelaySession.wireSeq packet with
  | none => rfl
  | some n =>
    have hlt := wireSeq_lt hseq
    by_cases hn : n < 2147483648
    · simp [hn]
    · have hstart : 0 ≤ start := h.resolve_right fun hall => hn (by simpa using hall n hseq)
      have hneg : ¬ start ≤ (n : ℤ) - 4294967296 := by omega
      simp [hn, hneg]

/-- **A request for chunks after a start is answered from the last packets since the last stop.** -/
theorem backfill_after (s : RelaySession) (hstarted : s.started = false) (hring : s.sentRing = [])
    {calls : List RelayCall} (hopen : opened calls = true) {text : String} {start end_ : ℤ}
    (hparse : ServerMessage.parse py text = some (.requestChunks start end_)) :
    ((after py s calls).call py (.onServerMessage text)).1 =
      some ((((received calls).rtake RelaySession.ringMaxChunks).filter
        (RelaySession.isIn start end_)).map .sendServerBinary) := by
  obtain ⟨hgate, hkept⟩ := after_spec py s hstarted hring calls
  simp only [RelaySession.call, RelaySession.onServerMessage, hparse, RelaySession.backfill, hgate,
    hopen, hkept]
  by_cases hrange : end_ ≤ start
  · have hnone : ∀ packet, RelaySession.isIn start end_ packet = false := by
      intro packet
      unfold RelaySession.isIn
      cases RelaySession.chunkSeqOf packet with
      | none => rfl
      | some seq =>
        have hout : ¬ (start ≤ seq ∧ seq < end_) := by omega
        simp [hout]
    simp [hrange, hnone]
  · simp [hrange]

/-! ## The session -/

/-- **The relay's session, over every run of its calls.** First, while the gate is closed no call but
a start sends audio or telemetry. Second, apart from backfill the audio it sends is the audio that
came, each packet once and in its order, less what was held when a stop came or is still held. Third,
a request for chunks after a start is answered with those of the last 25 packets since the last stop
that are in the range, in their order, and with nothing else; the signed comparison is that of
non-negative 31-bit values.
SOURCE: RelaySession.kt:54-133, 183-244 -/
theorem relaySession_laws (sessionId : String) (startSeq : ℤ)
    (cache : Option (Dict String SpeakerEntry)) :
    (∀ calls c, opened calls = false → c ≠ .start →
      ∀ a ∈ (((after py ⟨sessionId, startSeq, cache, false, [], []⟩ calls).call py c).1).getD [],
        Quiet a) ∧
    (∀ calls, direct (trace py ⟨sessionId, startSeq, cache, false, [], []⟩ calls) =
      forwarded false calls) ∧
    ∀ calls text start end_, opened calls = true →
      ServerMessage.parse py text = some (.requestChunks start end_) →
      ((after py ⟨sessionId, startSeq, cache, false, [], []⟩ calls).call py
          (.onServerMessage text)).1 =
        some ((((received calls).rtake 25).filter (RelaySession.isIn start end_)).map
          .sendServerBinary) ∧
      ((0 ≤ start ∨ ∀ packet ∈ received calls, ∀ n, RelaySession.wireSeq packet = some n →
          n < 2 ^ 31) →
        ((received calls).rtake 25).filter (RelaySession.isIn start end_) =
          ((received calls).rtake 25).filter (inRange31 start end_)) := by
  refine ⟨fun calls c hopen hc => ?_, fun calls => ?_, fun calls text start end_ hopen hparse => ?_⟩
  · obtain ⟨hgate, -⟩ := after_spec py ⟨sessionId, startSeq, cache, false, [], []⟩ rfl rfl calls
    exact quiet_of_not_opened py (hgate.trans hopen) hc
  · have h := direct_trace py ⟨sessionId, startSeq, cache, false, [], []⟩ (fun _ => rfl) calls
    simpa [released] using h
  · refine ⟨backfill_after py _ rfl rfl hopen hparse, fun hseq => ?_⟩
    apply List.filter_congr
    intro packet hpacket
    have hmem : packet ∈ received calls := List.mem_of_mem_drop hpacket
    exact isIn_eq_inRange31 (hseq.imp_right fun hall => hall packet hmem)

end OpenRecall.Analysis.RelayOrder
