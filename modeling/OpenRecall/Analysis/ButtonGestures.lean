import OpenRecall.Foundation.Run
import OpenRecall.Model.Button

/-!
# Which presses make which gestures

A press begins with a poll that finds the button down after one that found it up, and lasts to the
next that finds it up. The run of the classifier carries a record of its presses, numbered from 1,
and of the presses that each gesture is made of. After a very long hold the classifier is idle
while the button is still down, and the next poll takes the rest of the hold for a new press.
`oneToOne_of_notRearmed` says that nothing else goes wrong.
-/

set_option autoImplicit false

namespace OpenRecall.Analysis.ButtonGestures

open Foundation OpenRecall.Model

/-- A gesture, the presses that it is made of, and whether the button was down when it came. -/
structure Emission where
  gesture : ButtonGesture
  presses : List ℕ
  down : Bool
  deriving DecidableEq, Repr

/-- The classifier with the record of the presses: how many there were, when the last began, which
gestures came, and which presses a poll found held through the very long threshold. -/
structure ButtonRun where
  classifier : ButtonClassifier
  level : Bool
  presses : ℕ
  pressedAt : UInt32
  emitted : List Emission
  held : List ℕ
  deriving DecidableEq, Repr

/-- A level and the clock. -/
abbrev Poll := Bool × UInt32

def start (nowMs : UInt32) : ButtonRun where
  classifier := .init nowMs
  level := false
  presses := 0
  pressedAt := 0
  emitted := []
  held := []

/-- The presses that a gesture is made of, when the last press is the given one: a long hold is the
last press, a double tap the last two, a short tap the last that has ended.
SOURCE: button.h:23-33 -/
def madeOf (g : ButtonGesture) (last : ℕ) (down : Bool) : List ℕ :=
  match g with
  | .none => []
  | .short => [if down then last - 1 else last]
  | .double => [last - 1, last]
  | .long => [last]
  | .veryLong => [last]

/-- One poll. -/
def step (r : ButtonRun) (poll : Poll) : ButtonRun :=
  let (classifier, g) := r.classifier.event poll.1 poll.2
  let onset := poll.1 && !r.level
  let presses := if onset then r.presses + 1 else r.presses
  let pressedAt := if onset then poll.2 else r.pressedAt
  { classifier := classifier
    level := poll.1
    presses := presses
    pressedAt := pressedAt
    emitted := if g = .none then r.emitted
      else r.emitted ++ [⟨g, madeOf g presses poll.1, poll.1⟩]
    held := if poll.1 && decide (buttonVeryLongMs ≤ poll.2 - pressedAt)
      then r.held ++ [presses] else r.held }

/-- The presses that a gesture was made of so far. -/
def ButtonRun.used (r : ButtonRun) : List ℕ := r.emitted.flatMap Emission.presses

/-- **One to one**: no press is in two gestures or twice in one, every gesture is made of presses
that there were, and a press held through the threshold is in a gesture, and in none that came on a
release. -/
structure OneToOne (r : ButtonRun) : Prop where
  once : r.used.Nodup
  ofPresses : ∀ e ∈ r.emitted, e.presses ≠ [] ∧ ∀ k ∈ e.presses, 1 ≤ k ∧ k ≤ r.presses
  heldUsed : ∀ k ∈ r.held, k ∈ r.used
  heldDown : ∀ k ∈ r.held, ∀ e ∈ r.emitted, k ∈ e.presses → e.down = true

/-- The poll does not find an idle classifier while the button stays down. -/
def NotRearmed (r : ButtonRun) (poll : Poll) : Prop :=
  ¬ (poll.1 = true ∧ r.level = true ∧ r.classifier.state = .idle)

/-! ## What a poll adds to the record -/

theorem used_concat {r r' : ButtonRun} {e : Emission} (h : r'.emitted = r.emitted ++ [e]) :
    r'.used = r.used ++ e.presses := by
  simp [ButtonRun.used, h]

theorem used_of_emitted {r r' : ButtonRun} (h : r'.emitted = r.emitted) : r'.used = r.used := by
  simp [ButtonRun.used, h]

theorem OneToOne.quiet {r r' : ButtonRun} (h : OneToOne r) (hemitted : r'.emitted = r.emitted)
    (hpresses : r.presses ≤ r'.presses) (hheld : r'.held = r.held) : OneToOne r' := by
  have hused := used_of_emitted hemitted
  constructor
  · rw [hused]
    exact h.once
  · rw [hemitted]
    intro e he
    obtain ⟨hne, hk⟩ := h.ofPresses e he
    exact ⟨hne, fun k hmem => ⟨(hk k hmem).1, (hk k hmem).2.trans hpresses⟩⟩
  · rw [hheld, hused]
    exact h.heldUsed
  · rw [hheld, hemitted]
    exact h.heldDown

/-- A poll with a gesture that is made of presses that none was made of before. -/
theorem OneToOne.emit {r r' : ButtonRun} (h : OneToOne r) {e : Emission}
    (hemitted : r'.emitted = r.emitted ++ [e]) (hpresses : r.presses ≤ r'.presses)
    (hne : e.presses ≠ []) (hnodup : e.presses.Nodup)
    (hnew : ∀ k ∈ e.presses, k ∉ r.used ∧ 1 ≤ k ∧ k ≤ r'.presses)
    (hheld : ∀ k ∈ r'.held, k ∈ r.held ∨ k ∈ e.presses ∧ e.down = true) : OneToOne r' := by
  have hused := used_concat hemitted
  constructor
  · rw [hused]
    exact List.Nodup.append h.once hnodup fun k hold hmem => (hnew k hmem).1 hold
  · rw [hemitted]
    intro f hf
    rcases List.mem_append.mp hf with hold | hlast
    · obtain ⟨hne', hk⟩ := h.ofPresses f hold
      exact ⟨hne', fun k hmem => ⟨(hk k hmem).1, (hk k hmem).2.trans hpresses⟩⟩
    · rw [List.mem_singleton.mp hlast]
      exact ⟨hne, fun k hmem => (hnew k hmem).2⟩
  · intro k hk
    rw [hused, List.mem_append]
    exact (hheld k hk).imp (h.heldUsed k) And.left
  · intro k hk f hf hkf
    rw [hemitted, List.mem_append, List.mem_singleton] at hf
    rcases hheld k hk, hf with ⟨hold | ⟨hmem, hdown⟩, hf | rfl⟩
    · exact h.heldDown k hold f hf hkf
    · exact absurd (h.heldUsed k hold) (hnew k hkf).1
    · have hkused : k ∈ r.used := List.mem_flatMap.mpr ⟨f, hf, hkf⟩
      exact absurd hkused (hnew k hmem).1
    · exact hdown

/-! ## The polls of a run -/

/-- What holds between two polls: the press that goes on, and a short tap that waits for a second
one, are in no gesture yet, and the same for the first tap while the second goes on. -/
structure Sound (r : ButtonRun) : Prop where
  oneToOne : OneToOne r
  pressed : r.classifier.state = .pressed →
    r.level = true ∧ r.classifier.anchorMs = r.pressedAt ∧ 1 ≤ r.presses ∧ r.presses ∉ r.used ∧
      (r.classifier.secondTap = true → 2 ≤ r.presses ∧ r.presses - 1 ∉ r.used)
  waiting : r.classifier.state = .waitDouble →
    r.level = false ∧ 1 ≤ r.presses ∧ r.presses ∉ r.used

theorem sound_start (nowMs : UInt32) : Sound (start nowMs) := by
  constructor
  · constructor <;> simp [start, ButtonRun.used]
  · simp [start, ButtonClassifier.init]
  · simp [start, ButtonClassifier.init]

theorem Sound.of_idle {r : ButtonRun} (h : OneToOne r) (hidle : r.classifier.state = .idle) :
    Sound r := by
  refine ⟨h, fun hpressed => ?_, fun hwaiting => ?_⟩
  · simp [hidle] at hpressed
  · simp [hidle] at hwaiting

theorem OneToOne.not_mem_used {r : ButtonRun} (h : OneToOne r) {k : ℕ} (hk : r.presses < k) :
    k ∉ r.used := by
  intro hmem
  obtain ⟨e, he, hke⟩ := List.mem_flatMap.mp hmem
  have hle := ((h.ofPresses e he).2 k hke).2
  omega

/-- A press that has only begun is not held through the threshold. -/
theorem veryLong_ne_zero : ¬ buttonVeryLongMs = 0 := by decide

/-- A poll of an idle classifier begins a press or changes nothing. -/
theorem Sound.step_idle {r : ButtonRun} (h : Sound r) (hidle : r.classifier.state = .idle)
    {poll : Poll} (hpoll : NotRearmed r poll) : Sound (step r poll) := by
  obtain ⟨down, nowMs⟩ := poll
  cases down with
  | false =>
    apply Sound.of_idle
    · apply h.oneToOne.quiet <;> simp [step, ButtonClassifier.event, hidle]
    · simp [step, ButtonClassifier.event, hidle]
  | true =>
    have hup : r.level = false := by simpa [NotRearmed, hidle] using hpoll
    have hnew := h.oneToOne.not_mem_used (Nat.lt_succ_self r.presses)
    refine ⟨?_, fun _ => ?_, fun hwaiting => ?_⟩
    · apply h.oneToOne.quiet <;> simp [step, ButtonClassifier.event, hidle, hup, veryLong_ne_zero]
    · simpa [step, ButtonClassifier.event, hidle, hup, ButtonRun.used] using hnew
    · simp [step, ButtonClassifier.event, hidle] at hwaiting

/-- A poll that finds a press going on, or its end. -/
theorem Sound.step_pressed {r : ButtonRun} (h : Sound r) (hstate : r.classifier.state = .pressed)
    (poll : Poll) : Sound (step r poll) := by
  obtain ⟨hlevel, hanchor, hpos, hfresh, hsecond⟩ := h.pressed hstate
  obtain ⟨down, nowMs⟩ := poll
  by_cases hvery : buttonVeryLongMs ≤ nowMs - r.pressedAt
  · apply Sound.of_idle
    · apply h.oneToOne.emit (e := ⟨.veryLong, [r.presses], down⟩)
      · cases down <;> simp [step, ButtonClassifier.event, hstate, hlevel, hanchor, hvery, madeOf]
      · simp [step, hlevel]
      · simp
      · simp
      · simpa [step, hlevel, hpos] using hfresh
      · intro k hk
        cases down with
        | false => exact .inl (by simpa [step, hlevel] using hk)
        | true => simpa [step, hlevel, hvery] using hk
    · cases down <;> simp [step, ButtonClassifier.event, hstate, hanchor, hvery]
  cases down with
  | true =>
    -- the press goes on
    have hsame : step r (true, nowMs) = r := by
      simp [step, ButtonClassifier.event, hstate, hlevel, hanchor, hvery]
      rw [← hlevel]
    rwa [hsame]
  | false =>
    by_cases hlong : buttonLongMs ≤ nowMs - r.pressedAt
    · apply Sound.of_idle
      · apply h.oneToOne.emit (e := ⟨.long, [r.presses], false⟩)
        · simp [step, ButtonClassifier.event, hstate, hanchor, hvery, hlong, madeOf]
        · simp [step]
        · simp
        · simp
        · simpa [step, hpos] using hfresh
        · intro k hk
          exact .inl (by simpa [step] using hk)
      · simp [step, ButtonClassifier.event, hstate, hanchor, hvery, hlong]
    cases hdouble : r.classifier.secondTap with
    | true =>
      obtain ⟨htwo, hfirst⟩ := hsecond hdouble
      apply Sound.of_idle
      · apply h.oneToOne.emit (e := ⟨.double, [r.presses - 1, r.presses], false⟩)
        · simp [step, ButtonClassifier.event, hstate, hanchor, hvery, hlong, hdouble, madeOf]
        · simp [step]
        · simp
        · simp
          omega
        · intro k hk
          rcases List.mem_pair.mp hk with rfl | rfl
          · exact ⟨hfirst, by omega, by simp [step]⟩
          · exact ⟨hfresh, hpos, by simp [step]⟩
        · intro k hk
          exact .inl (by simpa [step] using hk)
      · simp [step, ButtonClassifier.event, hstate, hanchor, hvery, hlong, hdouble]
    | false =>
      refine ⟨?_, fun hpressed => ?_, fun _ => ?_⟩
      · apply h.oneToOne.quiet <;>
          simp [step, ButtonClassifier.event, hstate, hanchor, hvery, hlong, hdouble]
      · simp [step, ButtonClassifier.event, hstate, hanchor, hvery, hlong, hdouble] at hpressed
      · simpa [step, ButtonClassifier.event, hstate, hanchor, hvery, hlong, hdouble,
          ButtonRun.used, hpos] using hfresh

/-- A poll after a short tap. -/
theorem Sound.step_waiting {r : ButtonRun} (h : Sound r)
    (hstate : r.classifier.state = .waitDouble) (poll : Poll) : Sound (step r poll) := by
  obtain ⟨hup, hpos, hfresh⟩ := h.waiting hstate
  obtain ⟨down, nowMs⟩ := poll
  have hnext := h.oneToOne.not_mem_used (Nat.lt_succ_self r.presses)
  by_cases hgap : nowMs - r.classifier.anchorMs ≤ buttonDoubleGapMs
  · have hnot := UInt32.not_lt.mpr hgap
    cases down with
    | false =>
      have hsame : step r (false, nowMs) = r := by
        simp [step, ButtonClassifier.event, hstate, hup, hnot]
        rw [← hup]
      rwa [hsame]
    | true =>
      -- the second tap begins
      have hemitted : (step r (true, nowMs)).emitted = r.emitted := by
        simp [step, ButtonClassifier.event, hstate, hgap]
      have hpresses : (step r (true, nowMs)).presses = r.presses + 1 := by simp [step, hup]
      refine ⟨h.oneToOne.quiet hemitted (by omega) ?_, fun _ => ?_, fun hwaiting => ?_⟩
      · simp [step, hup, veryLong_ne_zero]
      · rw [used_of_emitted hemitted, hpresses]
        simpa [step, ButtonClassifier.event, hstate, hup, hgap, hpos] using ⟨hnext, hfresh⟩
      · simp [step, ButtonClassifier.event, hstate, hgap] at hwaiting
  · have hexpired := UInt32.not_le.mp hgap
    have hemitted : (step r (down, nowMs)).emitted = r.emitted ++ [⟨.short, [r.presses], down⟩] := by
      cases down <;> simp [step, ButtonClassifier.event, hstate, hup, hgap, hexpired, madeOf]
    have hone : OneToOne (step r (down, nowMs)) := by
      apply h.oneToOne.emit hemitted
      · cases down <;> simp [step, hup]
      · simp
      · simp
      · cases down
        · simpa [step, hup, hpos] using hfresh
        · simp [step, hup, hpos, hfresh]
      · intro k hk
        left
        cases down <;> simpa [step, hup, veryLong_ne_zero] using hk
    cases down with
    | false => exact .of_idle hone (by simp [step, ButtonClassifier.event, hstate, hexpired])
    | true =>
      -- a fresh press begins
      have hpresses : (step r (true, nowMs)).presses = r.presses + 1 := by simp [step, hup]
      refine ⟨hone, fun _ => ?_, fun hwaiting => ?_⟩
      · rw [used_concat hemitted, hpresses]
        simpa [step, ButtonClassifier.event, hstate, hup, hgap] using hnext
      · simp [step, ButtonClassifier.event, hstate, hgap] at hwaiting

/-- **A poll keeps what holds between two polls** unless it takes up a hold again. -/
theorem Sound.step {r : ButtonRun} (h : Sound r) {poll : Poll} (hpoll : NotRearmed r poll) :
    Sound (step r poll) := by
  cases hstate : r.classifier.state with
  | idle => exact h.step_idle hstate hpoll
  | pressed => exact h.step_pressed hstate poll
  | waitDouble => exact h.step_waiting hstate poll

/-- **Presses and gestures are one to one** at every point of a run in which no poll finds the
classifier idle while the button stays down.
SOURCE: button.c:15-86, button.h:17-34 -/
theorem oneToOne_of_notRearmed (nowMs : UInt32) (polls : List Poll)
    (hpolls : EveryStep step NotRearmed (start nowMs) polls) :
    ∀ before, before <+: polls → OneToOne (run step (start nowMs) before) := by
  rintro before ⟨rest, rfl⟩
  have hbefore := EveryStep.prefix_of hpolls
  exact (hbefore.invariant (fun r poll h => h.step) (sound_start nowMs)).oneToOne

instance (r : ButtonRun) (poll : Poll) : Decidable (NotRearmed r poll) :=
  inferInstanceAs (Decidable (¬ (_ ∧ _ ∧ _)))

/-- A short tap, a hold through the threshold, and a double tap around the end of the clock. -/
def threeGestures : List Poll :=
  [(true, 4294960000), (false, 4294960200), (false, 4294960700), (true, 4294961000),
    (true, 4294967000), (false, 4294967100), (true, 4294967200), (false, 4), (true, 200),
    (false, 400)]

theorem oneToOne_threeGestures : OneToOne (run step (start 0) threeGestures) :=
  oneToOne_of_notRearmed 0 threeGestures (by decide) threeGestures List.prefix_rfl

/-- A button held for 7.1 seconds. -/
def sevenSeconds : List Poll := [(true, 0), (true, 6000), (true, 6020), (false, 7100)]

/-- **The presses are not one to one with the gestures**: a hold of 7.1 seconds is very long when
it passes the threshold, and long when it ends. -/
theorem not_always_oneToOne : ¬ OneToOne (run step (start 0) sevenSeconds) := by
  intro h
  have honce := h.once
  revert honce
  decide

end OpenRecall.Analysis.ButtonGestures
