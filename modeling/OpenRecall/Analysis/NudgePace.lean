import OpenRecall.Foundation.Run
import OpenRecall.Model.SpeakerNudges

/-!
# How often the wearer is nudged

A turn of a call either only forgets old times, or it sends one nudge for which there is room, about
a speaker nobody was asked about. So over any calls, in any order of their turns, every speaker is
asked about once, and no minute has more nudges than its limit.
-/

set_option autoImplicit false

namespace OpenRecall.Analysis.NudgePace

open Foundation
open OpenRecall.Model
open OpenRecall.Model.SpeakerNudges
open OpenRecall.Model.SpeakerNudges.SpeakerNudgeListener

variable {cfg : NudgeConfig}

/-- The clock does not go back. -/
def Forward (s : Listening) : NudgeStep → Prop
  | .next _ env => s.latest ≤ env.now ∧ env.now ≤ env.sentAt
  | .complete _ _ | .sendFailed _ => True

instance (s : Listening) : ∀ st, Decidable (Forward s st)
  | .next _ _ => inferInstanceAs (Decidable (_ ∧ _))
  | .complete _ _ | .sendFailed _ => inferInstanceAs (Decidable True)

/-- The nudge is one that the configuration asks for, about this speaker. -/
def Meant (cfg : NudgeConfig) (a : Asked) : Prop :=
  (Confirms cfg a.speaker ∧ a.nudge.propose = none) ∨
    (Names cfg a.speaker ∧ a.nudge.propose = some a.speaker.speakerId)

/-- What a listener keeps. -/
structure Kept (cfg : NudgeConfig) (s : Listening) : Prop where
  paced : RateWindow.Paced cfg.rateLimitPerMin 60 s.latest (s.asked.map Asked.sentAt)
    s.listener.sendTimes
  once : (s.asked.map fun a => a.speaker.speakerId).Nodup
  nudged : ∀ a ∈ s.asked, a.speaker.speakerId ∈ s.listener.nudged
  meant : ∀ a ∈ s.asked, Meant cfg a
  off : cfg.enabled = false → s.calls = [] ∧ s.asked = []

/-- **What one speaker comes to**: old times are forgotten, and a nudge is sent only with room for
it, about somebody nobody was asked about. -/
theorem consider_cases (cfg : NudgeConfig) (env : NudgeEnv) (sessionId : String) (s : Speaker)
    (l : SpeakerNudgeListener) :
    ((l.consider cfg env sessionId s).2 = (l.allow cfg env.now).2 ∧
      ∀ nudge, (l.consider cfg env sessionId s).1 ≠ .sent nudge) ∨
    ∃ nudge, l.consider cfg env sessionId s =
        (.sent nudge, (l.allow cfg env.now).2.mark s.speakerId env.sentAt) ∧
      (RateWindow.recent 60 env.now l.sendTimes).length < cfg.rateLimitPerMin ∧
      s.speakerId ∉ l.nudged ∧ Meant cfg ⟨s, env.sentAt, nudge⟩ := by
  unfold consider
  dsimp only
  by_cases hfull : (l.allow cfg env.now).1 = false
  · rw [if_pos hfull]
    exact .inl ⟨rfl, fun _ hsent => by cases hsent⟩
  · have hroom : (RateWindow.recent 60 env.now l.sendTimes).length < cfg.rateLimitPerMin := by
      simpa [allow] using hfull
    rw [if_neg hfull]
    by_cases hconfirms : Confirms cfg s ∧ s.speakerId ∉ l.nudged
    · rw [if_pos hconfirms]
      exact .inr ⟨_, rfl, hroom, hconfirms.2, .inl ⟨hconfirms.1, rfl⟩⟩
    · rw [if_neg hconfirms]
      by_cases hnames : Names cfg s ∧ s.speakerId ∉ l.nudged
      · rw [if_pos hnames]
        cases env.events with
        | none => exact .inl ⟨rfl, fun _ hsent => by cases hsent⟩
        | some events => exact .inr ⟨_, rfl, hroom, hnames.2, .inr ⟨hnames.1, rfl⟩⟩
      · rw [if_neg hnames]
        exact .inl ⟨rfl, fun _ hsent => by cases hsent⟩

/-- Asking for room forgets old times only. -/
theorem Kept.allow {s : Listening} (h : Kept cfg s) {now : ℚ} (hnow : s.latest ≤ now) :
    RateWindow.Paced cfg.rateLimitPerMin 60 now (s.asked.map Asked.sentAt)
      (s.listener.allow cfg now).2.sendTimes :=
  (h.paced.later hnow).prune

/-- A turn that sends nothing. -/
theorem Kept.quiet {s : Listening} (h : Kept cfg s) {now : ℚ} (hnow : s.latest ≤ now)
    {calls : List Call} (hcalls : s.calls = [] → calls = []) :
    Kept cfg { s with listener := (s.listener.allow cfg now).2, calls := calls, latest := now } :=
  { paced := h.allow hnow
    once := h.once
    nudged := h.nudged
    meant := h.meant
    off := fun hoff => ⟨hcalls (h.off hoff).1, (h.off hoff).2⟩ }

/-- A turn that sends a nudge. -/
theorem Kept.send {s : Listening} (h : Kept cfg s) {env : NudgeEnv} (hnow : s.latest ≤ env.now)
    (hsent : env.now ≤ env.sentAt) {speaker : Speaker} {nudge : Nudge}
    (hroom : (RateWindow.recent 60 env.now s.listener.sendTimes).length < cfg.rateLimitPerMin)
    (hnew : speaker.speakerId ∉ s.listener.nudged) (hmeant : Meant cfg ⟨speaker, env.sentAt, nudge⟩)
    (hon : cfg.enabled = true) (calls : List Call) :
    Kept cfg
      { listener := (s.listener.allow cfg env.now).2.mark speaker.speakerId env.sentAt
        calls := calls
        asked := s.asked ++ [⟨speaker, env.sentAt, nudge⟩]
        latest := env.sentAt } where
  paced := by
    rw [List.map_append]
    exact ((h.allow hnow).later hsent).act hroom
  once := by
    rw [List.map_append]
    refine h.once.append (List.nodup_singleton _) fun id hold hid => ?_
    obtain ⟨a, ha, hasked⟩ := List.mem_map.mp hold
    have hsame : a.speaker.speakerId = speaker.speakerId :=
      hasked.trans (List.mem_singleton.mp hid)
    exact hnew (hsame ▸ h.nudged a ha)
  nudged := by
    intro a ha
    rcases List.mem_append.mp ha with hold | hlast
    · exact Finset.mem_insert_of_mem (h.nudged a hold)
    · rw [List.mem_singleton.mp hlast]
      exact Finset.mem_insert_self _ _
  meant := by
    intro a ha
    rcases List.mem_append.mp ha with hold | hlast
    · exact h.meant a hold
    · rw [List.mem_singleton.mp hlast]
      exact hmeant
  off := fun hoff => absurd hon (by simp [hoff])

theorem endCall_eq_nil {s : Listening} (h : s.calls = []) (call : ℕ) : endCall call s = [] := by
  simp [endCall, h]

/-- A turn of a call. -/
theorem Kept.turn {s : Listening} (h : Kept cfg s) {env : NudgeEnv} (hnow : s.latest ≤ env.now)
    (hsent : env.now ≤ env.sentAt) (call : ℕ) : Kept cfg (turn cfg call env s) := by
  unfold SpeakerNudges.turn
  split
  · next sessionId speaker rest hcall =>
    have hcalls : s.calls ≠ [] := by
      rintro hnil
      simp [hnil] at hcall
    have hon : cfg.enabled = true := by
      by_contra hoff
      exact hcalls (h.off (by simpa using hoff)).1
    rcases consider_cases cfg env sessionId speaker s.listener with
      ⟨hquiet, hnone⟩ | ⟨nudge, hnudge, hroom, hnew, hmeant⟩
    · split
      · next l hl =>
        obtain rfl : l = _ := (congrArg Prod.snd hl).symm.trans hquiet
        exact h.quiet hnow fun hnil => absurd hnil hcalls
      · next l hl =>
        obtain rfl : l = _ := (congrArg Prod.snd hl).symm.trans hquiet
        exact h.quiet hnow fun hnil => absurd hnil hcalls
      · next nudge l hl => exact absurd (congrArg Prod.fst hl) (hnone nudge)
    · rw [hnudge]
      exact h.send hnow hsent hroom hnew hmeant hon _
  · exact h

/-- **Every step** keeps the pace. -/
theorem Kept.step {s : Listening} (h : Kept cfg s) (st : NudgeStep) (hforward : Forward s st) :
    Kept cfg (step cfg s st) := by
  cases st with
  | complete sessionId speakers =>
    unfold SpeakerNudges.step
    split_ifs with hon
    · exact { h with off := fun hoff => absurd hon (by simp [hoff]) }
    · exact h
  | next call env => exact h.turn hforward.1 hforward.2 call
  | sendFailed call =>
    exact { h with off := fun hoff => ⟨endCall_eq_nil (h.off hoff).1 call, (h.off hoff).2⟩ }

/-- **The pace of nudges.** Over any calls, in any order of their turns, on a clock that does not go
back: nobody is asked about twice, each nudge is one that the configuration asks for, no span of a
minute has more of them than the limit, and there are none while speakers are not recognised.
SOURCE: agent/speaker_nudge.py:61-125 -/
theorem nudges_paced (cfg : NudgeConfig) (start : ℚ) (steps : List NudgeStep)
    (h : EveryStep (step cfg) Forward { latest := start } steps) :
    let asked := (run (step cfg) { latest := start } steps).asked
    (asked.map fun a => a.speaker.speakerId).Nodup ∧ (∀ a ∈ asked, Meant cfg a) ∧
      (∀ a, RateWindow.countBefore 60 a (asked.map Asked.sentAt) ≤ cfg.rateLimitPerMin) ∧
      (cfg.enabled = false → asked = []) := by
  have hnew : Kept cfg { latest := start } :=
    { paced := RateWindow.Paced.nil _ _ _
      once := List.nodup_nil
      nudged := by simp
      meant := by simp
      off := fun _ => ⟨rfl, rfl⟩ }
  have hkept := h.invariant (I := Kept cfg) (fun _ st hs hst => hs.step st hst) hnew
  exact ⟨hkept.once, hkept.meant, hkept.paced.rate, fun hoff => (hkept.off hoff).2⟩

/-- A voice that was heard eight times and has no name. -/
def unnamed : Speaker :=
  { displayName := none, isWearer := false, enrollmentStatus := "corroborated", centroid := none,
    embeddingModel := "", dim := 0, turnCount := 8, firstSeen := "", updatedAt := "",
    speakerId := "v1" }

/-- Two completions at once, each of which comes to the unnamed voice. -/
theorem nudges_paced_twoCalls :
    let cfg : NudgeConfig := { enabled := true, rateLimitPerMin := 1 }
    let steps : List NudgeStep := [.complete "s1" (some [unnamed]), .complete "s2" (some [unnamed]),
      .next 0 ⟨1, 2, "r1", some []⟩, .next 1 ⟨3, 3, "r2", some []⟩, .sendFailed 0]
    ((run (step cfg) { latest := 0 } steps).asked.map fun a => a.speaker.speakerId).Nodup :=
  (nudges_paced { enabled := true, rateLimitPerMin := 1 } 0
    [.complete "s1" (some [unnamed]), .complete "s2" (some [unnamed]),
      .next 0 ⟨1, 2, "r1", some []⟩, .next 1 ⟨3, 3, "r2", some []⟩, .sendFailed 0]
    (by decide +kernel)).1

end OpenRecall.Analysis.NudgePace
