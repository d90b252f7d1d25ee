import OpenRecall.Foundation.StableSort
import OpenRecall.Model.SpeakerRegistry
import OpenRecall.Model.EventStore
import OpenRecall.Model.StreamingTranscriber

/-!
# Spoken commands

The detector keeps the last segments that the wearer spoke and looks for the phrases of commands in
them. When it finds one, and the command was not a candidate just before, and not too many checks
are running for the session, it has a model look at the segments: stage 2. What stage 2 makes of
them comes with the dispatcher; here it only ends.
-/

set_option autoImplicit false

namespace OpenRecall.Model

open Foundation

/-- SOURCE: agent/command_detector.py:26 -/
def rollingBufferSegs : ℕ := 10

/-- SOURCE: agent/config.py:120-135 -/
def defaultCommandPhrases : Dict String String :=
  [("take a photo", "capture_photo"), ("take a picture", "capture_photo"),
    ("snap a photo", "capture_photo"), ("snap a pic", "capture_photo"),
    ("capture a photo", "capture_photo"), ("record a video", "record_video"),
    ("start a video", "start_video"), ("start video", "start_video"),
    ("stop video", "stop_video"), ("stop the video", "stop_video"),
    ("start audio", "start_audio"), ("start recording audio", "start_audio"),
    ("stop audio", "stop_audio"), ("flush snapshots", "flush_snapshots")].foldl
    (fun phrases p => phrases.set p.1 p.2) .empty

/-- The settings that the first stage uses; the phrases have the type of their command.
SOURCE: agent/config.py:379-407 -/
structure CommandDetectorConfig where
  enabled : Bool := false
  requireWearer : Bool := true
  cooldownS : ℚ := 3
  maxInflight : ℕ := 1
  phrases : Dict String String := defaultCommandPhrases
  cooldownS_nonneg : 0 ≤ cooldownS := by norm_num
  maxInflight_pos : 0 < maxInflight := by norm_num

/-- A candidate that goes on to stage 2. -/
structure Stage2Launch where
  sessionId : String
  event : CaptureEvent
  ctype : String
  context : Text
  deriving DecidableEq

/-- By session: the last segments, when each type of command was a candidate last, and the number
of checks that run.
SOURCE: agent/command_detector.py:95-99 -/
structure CommandDetector where
  buffers : Dict String (List Text) := .empty
  lastCandidate : Dict String (Dict String ℚ) := .empty
  inflight : Dict String ℕ := .empty

/-- The phrase is in the text. -/
def contains (phrase text : Text) : Bool := phrase <:+: text

/-- The command of the longest phrase that is in the buffer; of two that are as long the first one
of the settings counts.
SOURCE: agent/command_detector.py:49-60 -/
def matchCommandPhrase (py : LowerCase) (buffer : Text) (phrases : Dict String String) :
    Option String :=
  let longestFirst := phrases.entries.insertionSort fun p q => q.1.length ≤ p.1.length
  (longestFirst.find? fun p => contains p.1.toList (py.lower buffer)).map Prod.snd

/-- The phrase is one of the settings', and in the text. -/
def Heard (py : LowerCase) (phrases : Dict String String) (text : Text) (p : String × String) :
    Prop :=
  p ∈ phrases.entries ∧ contains p.1.toList (py.lower text) = true

/-- The one phrase is longer, or as long and earlier in the settings. -/
def Outranks (phrases : Dict String String) (p q : String × String) : Prop :=
  q.1.length < p.1.length ∨ q.1.length = p.1.length ∧ List.Sublist [p, q] phrases.entries

/-- The phrase that comes before another, longest first, is the one that outranks it. -/
theorem pair_sublist_longestFirst_iff {phrases : Dict String String} {p q : String × String}
    (hp : p ∈ phrases.entries) (hq : q ∈ phrases.entries) (hne : p ≠ q) :
    List.Sublist [p, q]
      (phrases.entries.insertionSort fun p q => q.1.length ≤ p.1.length) ↔
      Outranks phrases p q := by
  have : Std.Total fun p q : String × String => q.1.length ≤ p.1.length :=
    ⟨fun p q => le_total q.1.length p.1.length⟩
  have : IsTrans (String × String) fun p q => q.1.length ≤ p.1.length :=
    ⟨fun p q s hpq hqs => hqs.trans hpq⟩
  rw [pair_sublist_insertionSort_iff (List.Nodup.of_map _ phrases.nodup) hp hq hne, Outranks]
  constructor
  · rintro ⟨hle, hlt | hbefore⟩
    · exact .inl (not_le.mp hlt)
    · exact hle.lt_or_eq.imp_right fun heq => ⟨heq, hbefore⟩
  · rintro (hlt | ⟨heq, hbefore⟩)
    · exact ⟨hlt.le, .inl hlt.not_ge⟩
    · exact ⟨heq.le, .inr hbefore⟩

/-- **What the longest phrase says**: the match is the type of a phrase in the buffer that outranks
every phrase of another type in it. -/
theorem matchCommandPhrase_eq_some_iff {py : LowerCase} {buffer : Text}
    {phrases : Dict String String} {ctype : String} :
    matchCommandPhrase py buffer phrases = some ctype ↔
      ∃ p, Heard py phrases buffer p ∧ p.2 = ctype ∧
        ∀ q, Heard py phrases buffer q → q.2 ≠ ctype → Outranks phrases p q := by
  have hsame := @List.mem_insertionSort _ (fun p q : String × String => q.1.length ≤ p.1.length)
    _ phrases.entries
  rw [matchCommandPhrase, Option.map_eq_some_iff]
  constructor
  · rintro ⟨p, hfind, rfl⟩
    have hp := hsame.mp (List.mem_of_find?_eq_some hfind)
    have hin := List.find?_some (p := fun p : String × String => contains p.1.toList
      (py.lower buffer)) hfind
    refine ⟨p, ⟨hp, hin⟩, rfl, fun q hq hne => ?_⟩
    have hqp : q ≠ p := fun h => hne (congrArg Prod.snd h)
    exact (pair_sublist_longestFirst_iff hp hq.1 hqp.symm).mp
      (pair_sublist_of_find? hfind (hsame.mpr hq.1) hq.2 hqp)
  · rintro ⟨p, hp, rfl, hall⟩
    cases hfind : (phrases.entries.insertionSort fun p q => q.1.length ≤ p.1.length).find?
        fun p => contains p.1.toList (py.lower buffer) with
    | none => exact absurd hp.2 (List.find?_eq_none.mp hfind p (hsame.mpr hp.1))
    | some q =>
      refine ⟨q, rfl, ?_⟩
      by_contra hne
      have hin := List.find?_some (p := fun p : String × String => contains p.1.toList
        (py.lower buffer)) hfind
      have hq : Heard py phrases buffer q :=
        ⟨hsame.mp (List.mem_of_find?_eq_some hfind), hin⟩
      have hpq : p ≠ q := fun h => hne (congrArg Prod.snd h.symm)
      have hfirst := pair_sublist_of_find? hfind (hsame.mpr hp.1) hp.2 hpq
      have hother := (pair_sublist_longestFirst_iff hp.1 hq.1 hpq).mpr (hall q hq hne)
      have hnodup := (List.perm_insertionSort (fun p q : String × String => q.1.length ≤ p.1.length)
        phrases.entries).nodup_iff.mpr (List.Nodup.of_map _ phrases.nodup)
      exact not_pair_sublist hnodup hfirst hother

namespace CommandDetector

section

variable (cfg : CommandDetectorConfig)

/-- The speaker of the event is confirmed, and is the wearer.
SOURCE: agent/command_detector.py:107-110 -/
def confirmedWearer (speakerRegistry : Option SpeakerRegistry) (event : CaptureEvent) : Bool :=
  match event.speaker, speakerRegistry with
  | some speaker, some registry =>
    speaker ≠ "" && event.speakerAssignment = some "confirmed" &&
      ((registry.get speaker).map fun t => t.isWearer).getD false
  | _, _ => false

/-- The event is one to listen to: of a confirmed wearer, unless anybody will do.
SOURCE: agent/command_detector.py:106-111 -/
def passesGate (speakerRegistry : Option SpeakerRegistry) (event : CaptureEvent) : Bool :=
  !cfg.requireWearer || confirmedWearer speakerRegistry event

/-- The segments of a session with one more, the last ten of them.
SOURCE: agent/command_detector.py:113-114 -/
def buffered (s : CommandDetector) (sessionId : String) (text : Text) : List Text :=
  ((s.buffers.get? sessionId).getD [] ++ [text]).rtake rollingBufferSegs

/-- SOURCE: agent/command_detector.py:115 -/
def joined (buf : List Text) : Text := List.intercalate [' '] buf

/-- When a type of command was a candidate last. -/
def candidateAt (s : CommandDetector) (sessionId ctype : String) : Option ℚ :=
  (s.lastCandidate.get? sessionId).bind fun last => last.get? ctype

/-- SOURCE: agent/command_detector.py:120-124 -/
def coolingDown (s : CommandDetector) (now : ℚ) (sessionId ctype : String) : Bool :=
  now - (s.candidateAt sessionId ctype).getD (-cfg.cooldownS) < cfg.cooldownS

/-- SOURCE: agent/command_detector.py:126-128 -/
def atCap (s : CommandDetector) (sessionId : String) : Bool :=
  cfg.maxInflight ≤ (s.inflight.get? sessionId).getD 0

variable (py : LowerCase)

/-- A transcript event: what is left, and the candidate for stage 2, if there is one.
SOURCE: agent/command_detector.py:102-133 -/
def feed (s : CommandDetector) (speakerRegistry : Option SpeakerRegistry) (now : ℚ)
    (sessionId : String) (event : CaptureEvent) : CommandDetector × Option Stage2Launch :=
  if !cfg.enabled then (s, none)
  else if !passesGate cfg speakerRegistry event then (s, none)
  else
    let buf := s.buffered sessionId event.text.toList
    let heard := { s with buffers := s.buffers.set sessionId buf }
    match matchCommandPhrase py (joined buf) cfg.phrases with
    | none => (heard, none)
    | some ctype =>
      if s.coolingDown cfg now sessionId ctype then (heard, none)
      else if s.atCap cfg sessionId then (heard, none)
      else
        ({ heard with
            lastCandidate := s.lastCandidate.set sessionId
              (((s.lastCandidate.get? sessionId).getD .empty).set ctype now)
            inflight := s.inflight.set sessionId ((s.inflight.get? sessionId).getD 0 + 1) },
          some ⟨sessionId, event, ctype, joined buf⟩)

/-- The event is heard as a command of the type, and stage 2 may begin: none is cooling down, and
not too many run. -/
def Triggers (s : CommandDetector) (speakerRegistry : Option SpeakerRegistry) (now : ℚ)
    (sessionId : String) (event : CaptureEvent) (ctype : String) : Prop :=
  cfg.enabled = true ∧ passesGate cfg speakerRegistry event = true ∧
    matchCommandPhrase py (joined (s.buffered sessionId event.text.toList)) cfg.phrases =
      some ctype ∧
    s.coolingDown cfg now sessionId ctype = false ∧ s.atCap cfg sessionId = false

/-- Stage 2 ends, whatever came of it.
SOURCE: agent/command_detector.py:158 -/
def finished (s : CommandDetector) (sessionId : String) : CommandDetector :=
  { s with inflight := s.inflight.set sessionId ((s.inflight.get? sessionId).getD 0 - 1) }

variable {cfg py} {s : CommandDetector} {speakerRegistry : Option SpeakerRegistry} {now : ℚ}
  {sessionId : String} {event : CaptureEvent}

/-- What the detector launches is what the event triggers. -/
theorem feed_launch_eq_some_iff (launch : Stage2Launch) :
    (s.feed cfg py speakerRegistry now sessionId event).2 = some launch ↔
      s.Triggers cfg py speakerRegistry now sessionId event launch.ctype ∧
        launch = ⟨sessionId, event, launch.ctype,
          joined (s.buffered sessionId event.text.toList)⟩ := by
  unfold feed Triggers
  dsimp only
  cases hon : cfg.enabled with
  | false => simp
  | true =>
    cases hgate : passesGate cfg speakerRegistry event with
    | false => simp
    | true =>
      simp only [Bool.not_true, Bool.false_eq_true, if_false, true_and]
      cases hmatch : matchCommandPhrase py (joined (s.buffered sessionId event.text.toList))
          cfg.phrases with
      | none => simp
      | some ctype =>
        dsimp only
        split_ifs with hcool hcap
        · refine iff_of_false (by simp) ?_
          rintro ⟨⟨hctype, hready, -⟩, -⟩
          rw [← Option.some.inj hctype, hcool] at hready
          cases hready
        · refine iff_of_false (by simp) ?_
          rintro ⟨⟨-, -, hfree⟩, -⟩
          rw [hcap] at hfree
          cases hfree
        · constructor
          · intro h
            cases h
            exact ⟨⟨rfl, eq_false_of_ne_true hcool, eq_false_of_ne_true hcap⟩, rfl⟩
          · rintro ⟨⟨hctype, -, -⟩, hlaunch⟩
            rw [hlaunch, Option.some.inj hctype]

/-- An event triggers commands of one type at most. -/
theorem Triggers.unique {ctype ctype' : String}
    (h : s.Triggers cfg py speakerRegistry now sessionId event ctype)
    (h' : s.Triggers cfg py speakerRegistry now sessionId event ctype') : ctype = ctype' :=
  Option.some.inj (h.2.2.1.symm.trans h'.2.2.1)

end

end CommandDetector

end OpenRecall.Model
