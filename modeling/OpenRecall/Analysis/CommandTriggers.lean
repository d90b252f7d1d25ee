import OpenRecall.Foundation.Run
import OpenRecall.Model.CommandDetector

/-!
# How often a spoken command triggers

The segments stay in the buffer when a phrase is found in them, and the cooldown alone keeps the
same phrase from being found again. So a command is triggered again by the first segment that comes
after the cooldown, whatever is said in it, while the phrase is still among the last ten.
-/

set_option autoImplicit false

namespace OpenRecall.Analysis.CommandTriggers

open Foundation Model

/-- The event completes a phrase of a command: the phrase ends, in the joined segments, at a letter
that the text of the event brings. -/
def Completes (py : LowerCase) (phrases : Dict String String) (buf : List Text) (text : Text)
    (ctype : String) : Prop :=
  ∃ p ∈ phrases.entries, p.2 = ctype ∧ ∃ n < (py.lower text).length,
    p.1.toList <:+ (py.lower (CommandDetector.joined buf)).take
      ((py.lower (CommandDetector.joined buf)).length - n)

instance (py : LowerCase) (phrases : Dict String String) (buf : List Text) (text : Text)
    (ctype : String) : Decidable (Completes py phrases buf text ctype) :=
  inferInstanceAs (Decidable (∃ p ∈ phrases.entries, _ ∧ ∃ n < (py.lower text).length, _))

/-- The phrases of a type that are completed in a session are numbered, from one on. -/
structure Utterance where
  sessionId : String
  ctype : String
  number : ℕ
  deriving DecidableEq

/-- The detector, how many utterances of each type there have been in each session, and the
utterances that were the last ones of their type when stage 2 was scheduled for it. -/
structure Watched where
  detector : CommandDetector := {}
  spoken : String → String → ℕ := fun _ _ => 0
  ledToRun : List Utterance := []

/-- A transcript event, with the registry and the time at which it comes, or the end of a
check. -/
inductive Step where
  | said (speakerRegistry : Option SpeakerRegistry) (now : ℚ) (sessionId : String)
      (event : CaptureEvent)
  | finished (sessionId : String)

section

variable (cfg : CommandDetectorConfig) (py : LowerCase)

/-- The detector listens to the event, and it completes a phrase of the type. -/
def Utters (s : CommandDetector) (speakerRegistry : Option SpeakerRegistry) (sessionId : String)
    (event : CaptureEvent) (ctype : String) : Prop :=
  cfg.enabled = true ∧ CommandDetector.passesGate cfg speakerRegistry event = true ∧
    Completes py cfg.phrases (s.buffered sessionId event.text.toList) event.text.toList ctype

instance (s : CommandDetector) (speakerRegistry : Option SpeakerRegistry) (sessionId : String)
    (event : CaptureEvent) (ctype : String) :
    Decidable (Utters cfg py s speakerRegistry sessionId event ctype) :=
  inferInstanceAs (Decidable (_ ∧ _ ∧ Completes py cfg.phrases _ _ ctype))

/-- The number of utterances of a type in a session, with the event. -/
def spokenAfter (w : Watched) (speakerRegistry : Option SpeakerRegistry) (sessionId : String)
    (event : CaptureEvent) (sid ctype : String) : ℕ :=
  if sid = sessionId ∧ Utters cfg py w.detector speakerRegistry sessionId event ctype then
    w.spoken sid ctype + 1
  else w.spoken sid ctype

def step (w : Watched) : Step → Watched
  | .said speakerRegistry now sessionId event =>
    let (detector, launch) := w.detector.feed cfg py speakerRegistry now sessionId event
    let spoken := spokenAfter cfg py w speakerRegistry sessionId event
    { detector, spoken
      ledToRun := w.ledToRun ++
        (launch.map fun l => ⟨sessionId, l.ctype, spoken sessionId l.ctype⟩).toList }
  | .finished sessionId => { w with detector := w.detector.finished sessionId }

/-- **Each utterance leads to one scheduled check at most.** -/
def AtMostOnce (w : Watched) : Prop := ∀ u, 0 < u.number → w.ledToRun.count u ≤ 1

end

variable {cfg : CommandDetectorConfig} {py : LowerCase}

/-- What led to a check has been spoken. -/
def Numbered (w : Watched) : Prop := ∀ u ∈ w.ledToRun, u.number ≤ w.spoken u.sessionId u.ctype

theorem spoken_le_spokenAfter (w : Watched) (speakerRegistry : Option SpeakerRegistry)
    (sessionId : String) (event : CaptureEvent) (sid ctype : String) :
    w.spoken sid ctype ≤ spokenAfter cfg py w speakerRegistry sessionId event sid ctype := by
  unfold spokenAfter
  split_ifs <;> omega

/-- The numbers stay below what has been spoken. -/
theorem Numbered.step {w : Watched} (h : Numbered w) (a : Step) : Numbered (step cfg py w a) := by
  cases a with
  | finished sessionId => exact h
  | said speakerRegistry now sessionId event =>
    intro u hu
    simp only [CommandTriggers.step, List.mem_append, Option.mem_toList,
      Option.map_eq_some_iff] at hu ⊢
    rcases hu with hu | ⟨launch, -, rfl⟩
    · exact (h u hu).trans (spoken_le_spokenAfter w speakerRegistry sessionId event _ _)
    · exact le_rfl

/-- What anybody says in the room. -/
def roomEvent (seq : ℤ) (text : String) : CaptureEvent where
  eventId := "event"
  sessionId := "desk"
  seq := seq
  kind := .transcript
  createdAt := 0
  text := text
  durationMs := 1000
  startMs := 0

end OpenRecall.Analysis.CommandTriggers
