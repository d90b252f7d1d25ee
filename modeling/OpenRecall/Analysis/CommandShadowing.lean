import OpenRecall.Analysis.CommandTriggers

/-!
# Whether a new command is heard over older ones

One type is matched in all ten segments, that of the longest phrase, and the cooldown is then
looked up for it. So an older and longer phrase of another type hides a new command for as long as
it is in the buffer: it is triggered instead, or nothing is while it cools down.
-/

set_option autoImplicit false

namespace OpenRecall.Analysis.CommandShadowing

open Foundation Model OpenRecall.Analysis.CommandTriggers

section

variable (cfg : CommandDetectorConfig) (py : LowerCase)

/-- The detector through a transcript event or the end of a check. -/
def step (s : CommandDetector) : Step → CommandDetector
  | .said speakerRegistry now sessionId event =>
    (s.feed cfg py speakerRegistry now sessionId event).1
  | .finished sessionId => s.finished sessionId

/-- The text has a phrase of the type, and no longer phrase of another type. -/
def Says (phrases : Dict String String) (text : Text) (ctype : String) : Prop :=
  ∃ p, Heard py phrases text p ∧ p.2 = ctype ∧
    ∀ q, Heard py phrases text q → q.2 ≠ ctype → q.1.length ≤ p.1.length

/-- The type was a candidate within the cooldown. -/
def CandidateWithin (s : CommandDetector) (now : ℚ) (sessionId ctype : String) : Prop :=
  ∃ t, s.candidateAt sessionId ctype = some t ∧ now - t < cfg.cooldownS

/-- A detector that is on gets a command from the confirmed wearer. -/
def IsCommand (speakerRegistry : Option SpeakerRegistry) (event : CaptureEvent) (ctype : String) :
    Prop :=
  cfg.enabled = true ∧ CommandDetector.confirmedWearer speakerRegistry event = true ∧
    Says py cfg.phrases event.text.toList ctype

/-- **A new command is not shadowed**: stage 2 is scheduled for its type, unless that type was a
candidate within the cooldown or too many checks run. -/
def NotShadowed (s : CommandDetector) : Step → Prop
  | .said speakerRegistry now sessionId event => ∀ ctype,
    IsCommand cfg py speakerRegistry event ctype →
      CandidateWithin cfg s now sessionId ctype ∨ s.atCap cfg sessionId = true ∨
        ∃ launch, (s.feed cfg py speakerRegistry now sessionId event).2 = some launch ∧
          launch.ctype = ctype
  | .finished _ => True

/-- Among the segments there is a phrase of the type that is longer than every phrase of another
type in them, or as long and earlier in the settings. -/
def Foremost (phrases : Dict String String) (buf : List Text) (ctype : String) : Prop :=
  ∃ p, Heard py phrases (CommandDetector.joined buf) p ∧ p.2 = ctype ∧
    ∀ q, Heard py phrases (CommandDetector.joined buf) q → q.2 ≠ ctype → Outranks phrases p q

/-- **The segments hold no phrase that outranks the new command's**: unless its type was a candidate
within the cooldown or too many checks run, a phrase of it is foremost among the segments, and if it
never was a candidate the clock does not run below zero. -/
def Unrivalled (s : CommandDetector) : Step → Prop
  | .said speakerRegistry now sessionId event => ∀ ctype,
    IsCommand cfg py speakerRegistry event ctype →
      CandidateWithin cfg s now sessionId ctype ∨ s.atCap cfg sessionId = true ∨
        Foremost py cfg.phrases (s.buffered sessionId event.text.toList) ctype ∧
          (s.candidateAt sessionId ctype = none → 0 ≤ now)
  | .finished _ => True

end

variable {cfg : CommandDetectorConfig} {py : LowerCase}

/-- A type that was no candidate within the cooldown is ready, as long as the clock does not run
below zero before it was one at all. -/
theorem coolingDown_eq_false_iff {s : CommandDetector} {now : ℚ} {sessionId ctype : String}
    (h : ¬ CandidateWithin cfg s now sessionId ctype) :
    s.coolingDown cfg now sessionId ctype = false ↔
      (s.candidateAt sessionId ctype = none → 0 ≤ now) := by
  rw [CommandDetector.coolingDown, decide_eq_false_iff_not, not_lt]
  cases hlast : s.candidateAt sessionId ctype with
  | none =>
    rw [Option.getD_none, sub_neg_eq_add, le_add_iff_nonneg_left]
    simp
  | some t =>
    refine iff_of_true (not_lt.mp fun hlt => h ⟨t, hlast, hlt⟩) fun hnone => ?_
    cases hnone

/-- The confirmed wearer passes the gate, whoever else does. -/
theorem passesGate_of_confirmedWearer {speakerRegistry : Option SpeakerRegistry}
    {event : CaptureEvent} (h : CommandDetector.confirmedWearer speakerRegistry event = true) :
    CommandDetector.passesGate cfg speakerRegistry event = true := by
  rw [CommandDetector.passesGate, h, Bool.or_true]

/-- One event: the new commands are not shadowed exactly when the segments hold no phrase that
outranks theirs. -/
theorem notShadowed_iff (s : CommandDetector) (a : Step) :
    NotShadowed cfg py s a ↔ Unrivalled cfg py s a := by
  cases a with
  | finished sessionId => exact Iff.rfl
  | said speakerRegistry now sessionId event =>
    refine forall_congr' fun ctype => forall_congr' fun hcommand => ?_
    by_cases hrecent : CandidateWithin cfg s now sessionId ctype
    · exact iff_of_true (.inl hrecent) (.inl hrecent)
    · cases hcap : s.atCap cfg sessionId with
      | true => exact iff_of_true (.inr (.inl rfl)) (.inr (.inl rfl))
      | false =>
        have hready := coolingDown_eq_false_iff hrecent
        have hgate : CommandDetector.passesGate cfg speakerRegistry event = true :=
          passesGate_of_confirmedWearer hcommand.2.1
        have hlaunch : (∃ launch,
            (s.feed cfg py speakerRegistry now sessionId event).2 = some launch ∧
              launch.ctype = ctype) ↔
            s.Triggers cfg py speakerRegistry now sessionId event ctype := by
          constructor
          · rintro ⟨launch, hfeed, rfl⟩
            exact ((CommandDetector.feed_launch_eq_some_iff launch).mp hfeed).1
          · intro ht
            exact ⟨_, (CommandDetector.feed_launch_eq_some_iff
              ⟨sessionId, event, ctype, _⟩).mpr ⟨ht, rfl⟩, rfl⟩
        rw [hlaunch, CommandDetector.Triggers, matchCommandPhrase_eq_some_iff, hready,
          ← Foremost]
        simp [hrecent, hcommand.1, hgate, hcap]

/-- **A new command of the confirmed wearer is never shadowed in exactly the runs in which no phrase
among the segments outranks it.**
SOURCE: agent/command_detector.py:49-60, agent/command_detector.py:102-133 -/
theorem notShadowed_run_iff (cfg : CommandDetectorConfig) (py : LowerCase) (steps : List Step) :
    EveryStep (step cfg py) (NotShadowed cfg py) {} steps ↔
      EveryStep (step cfg py) (Unrivalled cfg py) {} steps :=
  everyStep_iff_of_invariant (I := fun _ => True) (fun _ _ _ _ _ => trivial)
    (fun s a _ _ => notShadowed_iff s a) trivial (everyStep_true _ steps)

/-! ## A longer phrase before -/

/-- What the registry has about the wearer. -/
def wearer : Speaker where
  speakerId := "me"
  displayName := none
  isWearer := true
  enrollmentStatus := "enrolled"
  centroid := none
  embeddingModel := "ecapa-tdnn"
  dim := 192
  turnCount := 5
  firstSeen := ""
  updatedAt := ""

/-- The wearer says something. -/
def wearerEvent (seq : ℤ) (text : String) : CaptureEvent :=
  { roomEvent seq text with speaker := some "me", speakerAssignment := some "confirmed" }

/-- A registry that has the wearer. -/
def wearerRegistry : SpeakerRegistry :=
  .inMemory (InMemorySpeakerRegistry.addSpeaker wearer {})

/-- A detector that is on, with the default phrases and cooldown. -/
def detectorOn : CommandDetectorConfig := { enabled := true }

/-- The wearer starts a recording; the check for it ends. -/
def recording : List Step :=
  [.said (some wearerRegistry) 0 "desk" (wearerEvent 0 "start recording audio"), .finished "desk"]

/-- Two seconds later the wearer asks for a photo. -/
def photo : Step := .said (some wearerRegistry) 2 "desk" (wearerEvent 1 "take a photo")

/-- The second sentence is a command to take a photo. -/
theorem says_takeAPhoto :
    Says asciiLower defaultCommandPhrases "take a photo".toList "capture_photo" := by
  have hall : ∀ q ∈ defaultCommandPhrases.entries,
      contains q.1.toList (asciiLower.lower "take a photo".toList) = true → q.1.length ≤ 12 := by
    decide +kernel
  refine ⟨("take a photo", "capture_photo"), ⟨by decide +kernel, by decide +kernel⟩, rfl, ?_⟩
  rintro q ⟨hq, hin⟩ -
  exact hall q hq hin

/-- **The photo is not taken**: the recording's phrase is the longer one, and is cooling down.
SOURCE: agent/command_detector.py:113-124 -/
theorem not_always_notShadowed :
    ¬ ∀ (cfg : CommandDetectorConfig) (steps : List Step),
      EveryStep (step cfg asciiLower) (NotShadowed cfg asciiLower) {} steps := by
  intro h
  have hstep := EveryStep.at_split (h detectorOn (recording ++ photo :: []))
  have hnever : (run (step detectorOn asciiLower) {} recording).candidateAt "desk"
      "capture_photo" = none := by decide +kernel
  have hfree : (run (step detectorOn asciiLower) {} recording).atCap detectorOn "desk" = false := by
    decide +kernel
  have hnone : ((run (step detectorOn asciiLower) {} recording).feed detectorOn asciiLower
      (some wearerRegistry) 2 "desk" (wearerEvent 1 "take a photo")).2 = none := by decide +kernel
  rcases hstep "capture_photo" ⟨rfl, by decide +kernel, says_takeAPhoto⟩ with
    ⟨t, ht, -⟩ | hcap | ⟨launch, hlaunch, -⟩
  · cases hnever.symm.trans ht
  · cases hfree.symm.trans hcap
  · cases hnone.symm.trans hlaunch

end OpenRecall.Analysis.CommandShadowing
