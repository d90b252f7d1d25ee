import OpenRecall.Foundation.RateWindow
import OpenRecall.Analysis.PlannerSafety

/-!
# How often the planner acts

The guardrails keep the times of the actions they let pass in a window of one minute, and refuse
what is over the limit. The planner honours the refusal for answers, memories and reminders. A
command it dispatches whatever the guardrails said, so a command that finds no room is one over the
limit. While every command that is dispatched finds room, the limit holds for all outcomes together.
-/

set_option autoImplicit false

namespace OpenRecall.Analysis.ActionRate

open Foundation OpenRecall.Model OpenRecall.Analysis.Reconciliation
  OpenRecall.Analysis.PlannerSafety

/-! ## Runs of the planner -/

/-- The span of the limit, one minute. -/
def minute : Time := 60000000

/-- A planner in its world, with the times at which runs ended in something else than a refusal, and
the latest reading of the clock. -/
structure Watched where
  world : PlannerWorld
  acted : List Time := []
  latest : Option Time := none

/-- One run of the planner, or what the rest of the server does to what they share. The rate window
is the guardrails' own. -/
inductive PlannerStep where
  | plan (ctx : PlannerContext) (env : PlannerEnv)
  | elsewhere (plane : CommandPlane) (atoms : InMemoryAtomStore) (reminders : List Reminder)

/-- A run ended in something else than a refusal. -/
def Acts (run : PlannerRun) : Prop := ∃ r ∈ run.result, r.outcome ≠ .refuse

instance (run : PlannerRun) : Decidable (Acts run) :=
  inferInstanceAs (Decidable (∃ r ∈ run.result, r.outcome ≠ .refuse))

theorem acts_iff {run : PlannerRun} {r : PlannerResult} (h : run.result = some r) :
    Acts run ↔ r.outcome ≠ .refuse := by
  simp [Acts, h]

/-- SOURCE: agent/planner.py:138-316 -/
def step (p : Planner) (w : Watched) : PlannerStep → Watched
  | .plan ctx env =>
    { world := (p.plan ctx env w.world).world
      acted := w.acted ++ if Acts (p.plan ctx env w.world) then [env.monotonic] else []
      latest := some env.monotonic }
  | .elsewhere plane atoms reminders =>
    { w with
      world := { w.world with
        plane := plane
        atoms := atoms
        reminders := reminders } }

/-- No minute has had more actions than the limit. -/
def RateHolds (p : Planner) (w : Watched) : Prop :=
  ∀ a, (RateWindow.countIn minute a w.acted : ℤ) ≤ p.guardrails.rateLimitPerMin

/-- The clock does not go back. -/
def Forward (w : Watched) : PlannerStep → Prop
  | .plan _ env => ∀ t ∈ w.latest, t ≤ env.monotonic
  | .elsewhere _ _ _ => True

/-- The run is a user's request whose action carries a command that is dispatched. -/
def IssuesCommand (p : Planner) (ctx : PlannerContext) (env : PlannerEnv) : Prop :=
  let action := (StrictJSONValidator.validate env.retrieved.atomIds env.llmResult).action
  action.kind = .issueCommand ∧ ctx.trigger.isProactive = false ∧
    ∃ command autonomous checked, action.command = some command ∧
      p.commandPath = some autonomous ∧
      (Planner.commandRequest ctx autonomous command).vet env.surroundings = .ok checked

/-- A command that is dispatched finds room in the rate window. -/
def Roomy (p : Planner) (w : Watched) : PlannerStep → Prop
  | .plan ctx env => IssuesCommand p ctx env →
    (ConfidenceGateGuardrails.rateOk p.guardrails env.monotonic w.world.rateWindow).1 = true
  | .elsewhere _ _ _ => True

/-! ## What a run does to the window -/

variable {p : Planner} {ctx : PlannerContext} {env : PlannerEnv} {world : PlannerWorld}

/-- The guardrails' window is the sliding window.
SOURCE: agent/guardrails.py:132-145 -/
theorem rateOk_eq_grant (cfg : GuardrailsConfig) (now : Time) (window : List Time) :
    ConfidenceGateGuardrails.rateOk cfg now window =
      RateWindow.grant cfg.rateLimitPerMin minute now window := rfl

/-- The window after a decision: asked for room, or as before. -/
theorem decide_window (cfg : GuardrailsConfig) (now : Time) (window : List Time)
    (validated : ValidatedAction) :
    (ConfidenceGateGuardrails.decide cfg now window validated).2 =
      if validated.rejection = none ∧ validated.action.kind ≠ .noMemory then
        (ConfidenceGateGuardrails.rateOk cfg now window).2
      else window := by
  unfold ConfidenceGateGuardrails.decide
  cases hrejection : validated.rejection with
  | some rejection => simp
  | none =>
    by_cases hkind : validated.action.kind = .noMemory
    · simp [hkind]
    · dsimp only
      split_ifs <;> simp_all

/-- What the guardrails let pass found room.
SOURCE: agent/guardrails.py:65-106 -/
theorem room_of_not_refused {cfg : GuardrailsConfig} {now : Time} {window : List Time}
    {validated : ValidatedAction}
    (h : (ConfidenceGateGuardrails.decide cfg now window validated).1.outcome ≠ .refuse) :
    (ConfidenceGateGuardrails.rateOk cfg now window).1 = true := by
  unfold ConfidenceGateGuardrails.decide at h
  split at h
  · simp [ConfidenceGateGuardrails.onRejection] at h
  · dsimp only at h
    split_ifs at h with hkind hroom
    · simp at h
    · exact hroom
    · simp at h

/-- Minting leaves the window. -/
theorem rateWindow_mint (env : PlannerEnv) (atom : MemoryAtom) (r : PlannerResult)
    (world : PlannerWorld) : (Planner.mint env atom r world).world.rateWindow =
      world.rateWindow := by
  unfold Planner.mint
  split_ifs <;> simp

/-- What a run does with its vetted action leaves the window.
SOURCE: agent/planner.py:236-316 -/
theorem rateWindow_act (p : Planner) (ctx : PlannerContext) (env : PlannerEnv)
    (action : AgentAction) (guarded : GuardedAction) (world : PlannerWorld) :
    (p.act ctx env action guarded world).world.rateWindow = world.rateWindow := by
  unfold Planner.act
  cases action.kind with
  | answer => simp
  | noMemory => simp
  | issueCommand =>
    dsimp only
    split_ifs
    · simp
    · unfold Planner.dispatchCommand
      cases action.command with
      | none => simp
      | some command =>
        cases p.commandPath with
        | none => simp
        | some autonomous => simp
  | createMemory =>
    dsimp only
    unfold Planner.createMemory
    split_ifs
    · simp
    · exact rateWindow_mint _ _ _ _
    · simp
  | createReminder =>
    dsimp only
    unfold Planner.createReminder
    split_ifs
    · simp
    · cases env.reminderAddRaises with
      | some exc => simp
      | none => exact rateWindow_mint _ _ _ _
    · simp

/-- The window after a run is the one after its decision. -/
theorem rateWindow_plan (p : Planner) (ctx : PlannerContext) (env : PlannerEnv)
    (world : PlannerWorld) :
    (p.plan ctx env world).world.rateWindow = (p.vetted env world).2.2 :=
  rateWindow_act p ctx env _ _ _

/-- A run that dispatches a command had one that both checks accepted.
SOURCE: agent/planner.py:318-425 -/
theorem of_acts_dispatchCommand {action : AgentAction}
    (h : Acts (p.dispatchCommand ctx env action world)) :
    ∃ command autonomous checked, action.command = some command ∧
      p.commandPath = some autonomous ∧
      (Planner.commandRequest ctx autonomous command).vet env.surroundings = .ok checked := by
  unfold Planner.dispatchCommand at h
  cases hcommand : action.command with
  | none =>
    rw [hcommand, acts_iff rfl] at h
    simp [refuseWith, buildResult] at h
  | some command =>
    cases hpath : p.commandPath with
    | none =>
      rw [hcommand, hpath, acts_iff rfl] at h
      simp [refuseWith, buildResult] at h
    | some autonomous =>
      rw [hcommand, hpath, acts_iff rfl] at h
      rcases validateAndIssue_cases p.kit env.surroundings
          (Planner.commandRequest ctx autonomous command) world.plane with
        ⟨refusal, hvet, hissue⟩ | ⟨checked, hvet, -⟩
      · simp [hissue, refuseWith, buildResult] at h
      · exact ⟨command, autonomous, checked, rfl, rfl, hvet⟩

/-- **A run acts only when the guardrails let it pass, or when it dispatches a command.**
SOURCE: agent/planner.py:220-302 -/
theorem of_acts (h : Acts (p.plan ctx env world)) :
    (p.vetted env world).2.1.outcome ≠ .refuse ∨ IssuesCommand p ctx env := by
  by_cases hrefuse : (p.vetted env world).2.1.outcome = .refuse
  · right
    unfold Planner.plan Planner.act at h
    dsimp only at h
    cases hkind : (p.vetted env world).1.action.kind with
    | issueCommand =>
      simp only [hkind] at h
      split_ifs at h with hproactive
      · rw [acts_iff rfl] at h
        simp [refuseWith, buildResult] at h
      · exact ⟨hkind, by simpa using hproactive, of_acts_dispatchCommand h⟩
    | _ =>
      simp only [hkind, hrefuse, if_true] at h
      rw [acts_iff rfl] at h
      simp [buildResult, Planner.answerOutcome] at h
  · exact Or.inl hrefuse

/-- A command that is dispatched was accepted by the validator, so its decision asked for room. -/
theorem IssuesCommand.asked (h : IssuesCommand p ctx env) :
    (StrictJSONValidator.validate env.retrieved.atomIds env.llmResult).rejection = none ∧
      (StrictJSONValidator.validate env.retrieved.atomIds env.llmResult).action.kind ≠
        .noMemory := by
  obtain ⟨hkind, -, command, autonomous, checked, hcommand, -, -⟩ := h
  refine ⟨?_, by simp [hkind]⟩
  unfold StrictJSONValidator.validate at hkind hcommand ⊢
  cases hparsed : env.llmResult.parsed with
  | none => simp [hparsed, stubAction] at hkind
  | some action =>
    simp only [hparsed] at hkind hcommand ⊢
    simp [StrictJSONValidator.rejection, hkind, hcommand]

/-- A run that acts while its commands find room asked for room and found it. -/
theorem room_of_acts (hroomy : IssuesCommand p ctx env →
      (ConfidenceGateGuardrails.rateOk p.guardrails env.monotonic world.rateWindow).1 = true)
    (h : Acts (p.plan ctx env world)) :
    (ConfidenceGateGuardrails.rateOk p.guardrails env.monotonic world.rateWindow).1 = true ∧
      (p.plan ctx env world).world.rateWindow =
        (ConfidenceGateGuardrails.rateOk p.guardrails env.monotonic world.rateWindow).2 := by
  rw [rateWindow_plan, Planner.vetted, decide_window]
  rcases of_acts h with hpass | hissues
  · obtain ⟨hrejection, hkind, -⟩ := ConfidenceGateGuardrails.of_not_refused hpass
    exact ⟨room_of_not_refused hpass, if_pos ⟨hrejection, hkind⟩⟩
  · exact ⟨hroomy hissues, if_pos hissues.asked⟩

/-! ## The limit on a run of steps -/

/-- From the latest reading on, the guardrails' window remembers every action of the last minute,
and the limit has held. -/
def Remembers (p : Planner) (w : Watched) : Prop :=
  ∀ now, (∀ t ∈ w.latest, t ≤ now) →
    RateWindow.Within p.guardrails.rateLimitPerMin minute now w.acted w.world.rateWindow

theorem Remembers.rateHolds {w : Watched} (h : Remembers p w) : RateHolds p w := by
  intro a
  cases hlatest : w.latest with
  | none => exact (h 0 (by simp [hlatest])).rate a
  | some t => exact (h t (by simp [hlatest])).rate a

/-- One step keeps the invariant. -/
theorem Remembers.step {w : Watched} {s : PlannerStep} (h : Remembers p w)
    (hs : Forward w s ∧ Roomy p w s) : Remembers p (step p w s) := by
  cases s with
  | elsewhere plane atoms reminders => exact h
  | plan ctx env =>
    obtain ⟨hforward, hroomy⟩ := hs
    have hwithin := h env.monotonic hforward
    intro now hnow
    refine RateWindow.Within.later ?_ (hnow env.monotonic rfl)
    simp only [ActionRate.step]
    split_ifs with hacts
    · obtain ⟨hroom, hwindow⟩ := room_of_acts hroomy hacts
      rw [rateOk_eq_grant] at hroom hwindow
      rw [hwindow]
      exact hwithin.act (by norm_num [minute]) hroom
    · rw [List.append_nil, rateWindow_plan, Planner.vetted, decide_window, rateOk_eq_grant]
      split_ifs
      · exact hwithin.grant
      · exact hwithin

/-- **No minute has more actions than the limit, as long as every command that is dispatched finds
room in the guardrails' window.**
SOURCE: agent/guardrails.py:1-14, agent/guardrails.py:65-145, agent/planner.py:220-302 -/
theorem rateHolds_run (p : Planner) (world : PlannerWorld) (steps : List PlannerStep)
    (hforward : EveryStep (step p) Forward { world := world } steps)
    (hroomy : EveryStep (step p) (Roomy p) { world := world } steps) :
    RateHolds p (run (step p) { world := world } steps) := by
  have hstart : Remembers p { world := world } := fun now _ =>
    RateWindow.Within.nil p.guardrails.rate_pos.le minute now world.rateWindow
  exact (EveryStep.invariant (P := fun w s => Forward w s ∧ Roomy p w s)
    (fun w s hw hs => hw.step hs) hstart (hforward.and hroomy)).rateHolds

/-! ## Commands within a minute -/

/-- A planner that may act once a minute, with the command path wired. -/
def hourglass : Planner where
  guardrails :=
    { GuardrailsConfig.default with
      rateLimitPerMin := 1
      rate_pos := zero_lt_one }
  kit := plainKit
  commandPath := some OpenRecall.Model.confidenceAutonomous

theorem unit_one : UnitInterval (.finite 1) := by
  decide +kernel

/-- The model asks to start the audio. -/
def startAudioReply (key : String) : LLMResult where
  raw := ""
  parsed := some
    { kind := .issueCommand
      confidence := .finite 1
      confidence_range := unit_one
      command := some
        { commandType := .startAudio
          issuable := by simp [issuableTypes]
          params := []
          idempotencyKey := key
          confidence := .finite 1
          confidence_range := unit_one } }
  parseError := none

/-- A user's request to start the audio. -/
def startAudioStep (key : String) (time : Time) : PlannerStep :=
  .plan ⟨key, .userRequest key "start recording", none⟩
    { surroundings := { now := time }
      monotonic := time
      llmResult := startAudioReply key }

/-- One command, which finds room. -/
theorem rateHolds_run_startAudio :
    RateHolds hourglass (run (step hourglass) { world := {} } [startAudioStep "first" 0]) :=
  rateHolds_run hourglass {} [startAudioStep "first" 0]
    ⟨by simp [Forward, startAudioStep], trivial⟩
    ⟨fun _ => by decide +kernel, trivial⟩

/-- A second command within the minute is dispatched as well, though the guardrails refused it. -/
theorem not_always_rateHolds :
    ¬ ∀ (p : Planner) (world : PlannerWorld) (steps : List PlannerStep),
      EveryStep (step p) Forward { world := world } steps →
      RateHolds p (run (step p) { world := world } steps) := by
  intro h
  have hlimit := h hourglass {} [startAudioStep "first" 0, startAudioStep "second" 1]
    ⟨by simp [Forward, startAudioStep], by simp [Forward, step, startAudioStep], trivial⟩ 0
  revert hlimit
  decide +kernel

end OpenRecall.Analysis.ActionRate
