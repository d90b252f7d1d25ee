import OpenRecall.Foundation.RateWindow
import OpenRecall.Model.Segments
import OpenRecall.Model.SpeakerRegistry

/-!
# Nudges to name a speaker

After an extraction a listener goes through the known speakers. It asks the wearer whether the main
voice is theirs, or who a voice is that was heard often: once for each speaker, and no more often in
a minute than it is allowed. A call that has sent a nudge awaits the phone, and other calls go on
meanwhile. Readings of the clock are the doubles that the code compares, whose differences are exact.
-/

set_option autoImplicit false

namespace OpenRecall.Model.SpeakerNudges

open Foundation

/-- What the listener reads of its configuration.
SOURCE: ingest/speaker_config.py:41-58, agent/speaker_nudge.py:34-54 -/
structure NudgeConfig where
  enabled : Bool := false
  confirmTurns : ℤ := 10
  nameNudgeTurns : ℤ := 8
  rateLimitPerMin : ℕ

/-- What is sent to the phone, which may be asked to name a speaker. -/
structure Nudge where
  sessionId : String
  requestId : String
  text : String
  propose : Option String
  deriving DecidableEq

def confirmText : String := "I've been hearing one main voice — is that you?"

def nameText (lines : List String) : String :=
  strip ("I noticed you've spoken with the same person a few times — want to name them? " ++
    String.intercalate "  " lines)

/-- The first lines of a session that are the speaker's.
SOURCE: agent/speaker_nudge.py:106-109 -/
def sampleLines (events : List CaptureEvent) (speakerId : String) : List String :=
  ((events.filter fun e => e.speaker = some speakerId ∧ e.text ≠ "").map CaptureEvent.text).take 3

/-! ## One speaker -/

/-- SOURCE: agent/speaker_nudge.py:51-54 -/
structure SpeakerNudgeListener where
  nudged : Finset String := ∅
  sendTimes : List ℚ := []
  deriving DecidableEq

/-- What is read for one speaker: the clock, once for the limit and once when something is sent, a
new id, and the session's events, when they can be read. -/
structure NudgeEnv where
  now : ℚ
  sentAt : ℚ
  requestId : String
  events : Option (List CaptureEvent)

namespace SpeakerNudgeListener

/-- SOURCE: agent/speaker_nudge.py:122-125 -/
def allow (cfg : NudgeConfig) (now : ℚ) (l : SpeakerNudgeListener) : Bool × SpeakerNudgeListener :=
  let sendTimes := RateWindow.recent 60 now l.sendTimes
  (sendTimes.length < cfg.rateLimitPerMin, { l with sendTimes := sendTimes })

/-- SOURCE: agent/speaker_nudge.py:112-113 -/
def mark (speakerId : String) (sentAt : ℚ) (l : SpeakerNudgeListener) : SpeakerNudgeListener :=
  { nudged := insert speakerId l.nudged, sendTimes := l.sendTimes ++ [sentAt] }

/-- The cold-start wearer was heard often enough to be asked.
SOURCE: agent/speaker_nudge.py:71-76 -/
def Confirms (cfg : NudgeConfig) (s : Speaker) : Prop :=
  s.isWearer ∧ s.enrollmentStatus = "implicit" ∧ cfg.confirmTurns ≤ s.turnCount

/-- Somebody without a name was heard often enough.
SOURCE: agent/speaker_nudge.py:85-90 -/
def Names (cfg : NudgeConfig) (s : Speaker) : Prop :=
  s.displayName = none ∧ ¬ s.isWearer ∧ cfg.nameNudgeTurns ≤ s.turnCount

instance (cfg : NudgeConfig) (s : Speaker) : Decidable (Confirms cfg s) :=
  inferInstanceAs (Decidable (_ ∧ _ ∧ _))

instance (cfg : NudgeConfig) (s : Speaker) : Decidable (Names cfg s) :=
  inferInstanceAs (Decidable (_ ∧ _ ∧ _))

/-- What comes of one speaker: the call ends, passes on, or sends a nudge. -/
inductive Considered where
  | ended
  | passed
  | sent (nudge : Nudge)

/-- The loop's body for one speaker.
SOURCE: agent/speaker_nudge.py:66-103 -/
def consider (cfg : NudgeConfig) (env : NudgeEnv) (sessionId : String) (s : Speaker)
    (l : SpeakerNudgeListener) : Considered × SpeakerNudgeListener :=
  let pruned := (l.allow cfg env.now).2
  if (l.allow cfg env.now).1 = false then (.ended, pruned)
  else if Confirms cfg s ∧ s.speakerId ∉ l.nudged then
    (.sent ⟨sessionId, env.requestId, confirmText, none⟩, pruned.mark s.speakerId env.sentAt)
  else if Names cfg s ∧ s.speakerId ∉ l.nudged then
    match env.events with
    | none => (.ended, pruned)
    | some events =>
      (.sent ⟨sessionId, env.requestId, nameText (sampleLines events s.speakerId),
        some s.speakerId⟩, pruned.mark s.speakerId env.sentAt)
  else (.passed, pruned)

end SpeakerNudgeListener

/-! ## Calls of the listener -/

/-- A call of `on_session_completion` that is under way: the speakers it has still to look at. -/
structure Call where
  sessionId : String
  todo : List Speaker

/-- A nudge with the speaker it is about, and when it was sent. -/
structure Asked where
  speaker : Speaker
  sentAt : ℚ
  nudge : Nudge

/-- The listener, its calls, what was sent, and the latest reading of the clock. -/
structure Listening where
  listener : SpeakerNudgeListener := {}
  calls : List Call := []
  asked : List Asked := []
  latest : ℚ

/-- A session was extracted, and the speakers can be listed or not; a call looks at its next
speaker; the send that a call awaits fails. -/
inductive NudgeStep where
  | complete (sessionId : String) (speakers : Option (List Speaker))
  | next (call : ℕ) (env : NudgeEnv)
  | sendFailed (call : ℕ)

/-- The call has nothing more to do. -/
def endCall (call : ℕ) (s : Listening) : List Call := s.calls.modify call fun c => { c with todo := [] }

/-- A call looks at its next speaker.
SOURCE: agent/speaker_nudge.py:66-103 -/
def turn (cfg : NudgeConfig) (call : ℕ) (env : NudgeEnv) (s : Listening) : Listening :=
  match s.calls[call]? with
  | some ⟨sessionId, speaker :: rest⟩ =>
    let passed := s.calls.set call ⟨sessionId, rest⟩
    match s.listener.consider cfg env sessionId speaker with
    | (.ended, l) => { s with listener := l, calls := endCall call s, latest := env.now }
    | (.passed, l) => { s with listener := l, calls := passed, latest := env.now }
    | (.sent nudge, l) =>
      { listener := l
        calls := passed
        asked := s.asked ++ [⟨speaker, env.sentAt, nudge⟩]
        latest := env.sentAt }
  | _ => s

/-- SOURCE: agent/speaker_nudge.py:61-104 -/
def step (cfg : NudgeConfig) (s : Listening) : NudgeStep → Listening
  | .complete sessionId speakers =>
    if cfg.enabled then
      { s with calls := s.calls ++ (speakers.map fun speakers => ⟨sessionId, speakers⟩).toList }
    else s
  | .next call env => turn cfg call env s
  | .sendFailed call => { s with calls := endCall call s }

end OpenRecall.Model.SpeakerNudges
