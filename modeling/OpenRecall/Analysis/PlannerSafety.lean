import OpenRecall.Model.Planner
import OpenRecall.Analysis.Reconciliation

/-!
# What one run of the planner may do

The model's reply is adversarial text. Whatever it says, a run answers only what cites retrieved
atoms with enough confidence, hands a command to the dispatcher only for a user's request and
after both checks of the command, and mints an atom only for a text that the answer guardrails let
pass. `plan_cases` splits a run once by the kind of its vetted action; the three facts are read off
the cases.
-/

set_option autoImplicit false

namespace OpenRecall.Model

/-! ## The stages -/

theorem Double.ge_of_ge {x : Double} {q r : ℚ} (h : x.ge q = true) (hle : r ≤ q) :
    x.ge r = true := by
  cases x with
  | finite x =>
    simp only [Double.ge, ge_iff_le, decide_eq_true_eq] at h ⊢
    exact hle.trans h
  | infinite negative => simpa [Double.ge] using h
  | nan => simp [Double.ge] at h

/-- What the validator accepts was parsed and breaks no rule of its kind.
SOURCE: agent/validator.py:73-150 -/
theorem StrictJSONValidator.of_accepted {atomIds : List String} {result : LLMResult}
    (h : (StrictJSONValidator.validate atomIds result).rejection = none) :
    ∃ action, result.parsed = some action ∧
      (StrictJSONValidator.validate atomIds result).action = action ∧
      StrictJSONValidator.rejection atomIds action = none := by
  unfold StrictJSONValidator.validate at h ⊢
  cases hparsed : result.parsed with
  | none => simp [hparsed] at h
  | some action =>
    simp only [hparsed] at h ⊢
    exact ⟨action, rfl, rfl, h⟩

namespace ConfidenceGateGuardrails

variable {cfg : GuardrailsConfig} {now : Time} {window : List Time} {validated : ValidatedAction}

/-- The guardrails decide about the action they are given. -/
theorem decide_action (cfg : GuardrailsConfig) (now : Time) (window : List Time)
    (validated : ValidatedAction) :
    (decide cfg now window validated).1.action = validated.action := by
  unfold decide
  split
  · simp [onRejection]
  · dsimp only
    split_ifs
    · simp
    · unfold gate
      split_ifs <;> simp
    · simp

/-- What the guardrails let pass was accepted, is no `no_memory`, and has the confidence to be
confirmed.
SOURCE: agent/guardrails.py:65-106 -/
theorem of_not_refused (h : (decide cfg now window validated).1.outcome ≠ .refuse) :
    validated.rejection = none ∧ validated.action.kind ≠ .noMemory ∧
      validated.action.confidence.ge cfg.confidenceConfirm = true := by
  unfold decide at h
  split at h
  · simp [onRejection] at h
  · rename_i hrejection
    dsimp only at h
    split_ifs at h with hkind hrate
    · simp at h
    · refine ⟨hrejection, hkind, ?_⟩
      unfold gate at h
      split_ifs at h with hautonomous hconfirm
      · exact Double.ge_of_ge hautonomous cfg.confirm_lt.le
      · exact hconfirm
      · simp at h
    · simp at h

end ConfidenceGateGuardrails

/-- A request is admitted when the payload can be built and both checks of the command accept.
SOURCE: commands/issue.py:94-135 -/
theorem IssueRequest.vet_eq_ok {req : IssueRequest} {env : Surroundings}
    {checked : ValidatedCommand} (h : req.vet env = .ok checked) :
    ∃ payload validated,
      IssueCommandPayload.ofRequest req.commandType req.params req.idempotencyKey req.confidence =
        .ok payload ∧
      StrictCommandValidator.validate payload = .ok validated ∧
      StrictCommandGuardrails.check (env.capabilities.getD {}) (env.resources.getD {})
        req.autonomous validated = .ok checked := by
  unfold IssueRequest.vet at h
  cases hpayload : IssueCommandPayload.ofRequest req.commandType req.params req.idempotencyKey
      req.confidence with
  | error refusal => simp [hpayload, bind, Except.bind] at h
  | ok payload =>
    cases hvalidated : StrictCommandValidator.validate payload with
    | error refusal => simp [hpayload, hvalidated, bind, Except.bind] at h
    | ok validated =>
      simp only [hpayload, hvalidated, bind, Except.bind] at h
      exact ⟨payload, validated, rfl, hvalidated, h⟩

end OpenRecall.Model

namespace OpenRecall.Analysis.PlannerSafety

open OpenRecall.Model OpenRecall.Analysis.Reconciliation

/-! ## What a run may do -/

variable (p : Planner) (ctx : PlannerContext) (env : PlannerEnv)

/-- The action may be answered: it cites atoms, all of them retrieved, with a confidence within
bounds and no less than the one to confirm. -/
structure Answerable (action : AgentAction) : Prop where
  cites : action.atomIds ≠ []
  retrieved : ∀ atomId ∈ action.atomIds, atomId ∈ env.retrieved.atomIds
  bounds : action.confidence.ge 0 = true ∧ action.confidence.le 1 = true
  confident : action.confidence.ge p.guardrails.confidenceConfirm = true

/-- The command is the one of the action, as the validator and the command guardrails accepted
it. -/
def Admitted (action : AgentAction) (commandId : String) (c : Command) : Prop :=
  ∃ command ∈ action.command, ∃ autonomous ∈ p.commandPath, ∃ payload validated checked,
    IssueCommandPayload.ofRequest command.commandType.name command.params command.idempotencyKey
      command.confidence = .ok payload ∧
    StrictCommandValidator.validate payload = .ok validated ∧
    StrictCommandGuardrails.check (env.surroundings.capabilities.getD {})
      (env.surroundings.resources.getD {}) autonomous validated = .ok checked ∧
    c = checked.toCommand commandId (ctx.sessionId.getD "") env.surroundings.now defaultTtl

/-- The action may be minted: it has a text and, for a reminder, a due time. -/
structure Mintable (action : AgentAction) : Prop where
  kind : action.kind = .createMemory ∨ action.kind = .createReminder
  text : action.text ≠ ""
  due : action.kind = .createReminder → action.dueAt.isSome

/-- What a run returned and did, from the world it started in. -/
structure Safe (world : PlannerWorld) (run : PlannerRun) : Prop where
  answered : ∀ r ∈ run.result, r.outcome = .ret ∨ r.outcome = .retWithUncertainty →
    ∃ action ∈ env.llmResult.parsed, Answerable p env action ∧ r.atomIds = action.atomIds ∧
      r.confidence = some action.confidence
  issued : ∀ c ∈ run.issued, ctx.trigger.isProactive = false ∧
    ∃ action ∈ env.llmResult.parsed,
      Admitted p ctx env action (p.kit.ids.new world.plane.minted) c
  dispatcher : run.world.plane.dispatcher = run.issued.foldl (fun d c =>
    (d.issue p.kit.signer env.surroundings.now c).2) world.plane.dispatcher
  minted : ∀ a ∈ run.minted, (p.vetted env world).2.1.outcome ≠ .refuse ∧
    ∃ action ∈ env.llmResult.parsed, Mintable action ∧ a.text = action.text
  atoms : run.world.atoms =
    run.minted.foldl (fun atoms a => (atoms.append a).2) world.atoms

variable {p ctx env} {world world' : PlannerWorld}

/-- A run that refuses and does nothing is safe. -/
theorem safe_of_refusal {r : PlannerResult} (hrefuse : r.outcome = .refuse)
    (hdispatcher : world'.plane.dispatcher = world.plane.dispatcher)
    (hatoms : world'.atoms = world.atoms) :
    Safe p ctx env world { result := some r, world := world' } where
  answered := by
    intro r' hr' houtcome
    obtain rfl := Option.some.inj hr'
    simp [hrefuse] at houtcome
  issued := by simp
  dispatcher := by simpa using hdispatcher
  minted := by simp
  atoms := by simpa using hatoms

/-- The run that dispatches the command of an action of a user's request. -/
theorem safe_dispatchCommand {action : AgentAction} (hparsed : action.command.isSome →
      action ∈ env.llmResult.parsed) (huser : ctx.trigger.isProactive = false)
    (hplane : world'.plane = world.plane) (hatoms : world'.atoms = world.atoms) :
    Safe p ctx env world (p.dispatchCommand ctx env action world') := by
  unfold Planner.dispatchCommand
  cases hcommand : action.command with
  | none =>
    dsimp only
    exact safe_of_refusal (by simp [refuseWith, buildResult]) (by rw [hplane]) hatoms
  | some command =>
    cases hpath : p.commandPath with
    | none =>
      dsimp only
      exact safe_of_refusal (by simp [refuseWith, buildResult]) (by rw [hplane]) hatoms
    | some autonomous =>
      dsimp only
      have hin : action ∈ env.llmResult.parsed := hparsed (by simp [hcommand])
      rcases validateAndIssue_cases p.kit env.surroundings
          (Planner.commandRequest ctx autonomous command) world'.plane with
        ⟨refusal, hvet, hissue⟩ | ⟨checked, hvet, signed, hissue⟩
      · have hnone : Planner.handedOver p.kit env.surroundings
            (Planner.commandRequest ctx autonomous command) world'.plane = [] := by
          simp [Planner.handedOver, hvet]
        rw [hissue, hnone]
        exact safe_of_refusal (by simp [refuseWith, buildResult]) (by rw [hplane]) hatoms
      · have hone : Planner.handedOver p.kit env.surroundings
            (Planner.commandRequest ctx autonomous command) world'.plane =
              [checked.toCommand (p.kit.ids.new world.plane.minted) (ctx.sessionId.getD "")
                env.surroundings.now defaultTtl] := by
          simp only [Planner.handedOver, hvet, hplane]
          simp [Planner.commandRequest]
        rw [hissue, hone]
        refine ⟨?_, ?_, ?_, by simp, by simpa using hatoms⟩
        · intro r hr houtcome
          obtain rfl := Option.some.inj hr
          simp [buildResult] at houtcome
        · intro c hc
          obtain rfl := List.mem_singleton.mp hc
          obtain ⟨payload, validated, hpayload, hvalidated, hchecked⟩ :=
            IssueRequest.vet_eq_ok hvet
          exact ⟨huser, action, hin, command, hcommand, autonomous, hpath, payload, validated,
            checked, hpayload, hvalidated, hchecked, rfl⟩
        · simp [hplane, Planner.commandRequest]

/-- The run that mints an atom, or whose store raises. -/
theorem safe_mint {atom : MemoryAtom} {r : PlannerResult} (hret : r.outcome ≠ .ret)
    (huncertain : r.outcome ≠ .retWithUncertainty)
    (hminted : (p.vetted env world).2.1.outcome ≠ .refuse ∧
      ∃ action ∈ env.llmResult.parsed, Mintable action ∧ atom.text = action.text)
    (hdispatcher : world'.plane.dispatcher = world.plane.dispatcher)
    (hatoms : world'.atoms = world.atoms) :
    Safe p ctx env world (Planner.mint env atom r world') := by
  unfold Planner.mint
  split_ifs
  · exact ⟨by simp, by simp, by simpa using hdispatcher, by simp, by simpa using hatoms⟩
  · refine ⟨?_, by simp, by simpa using hdispatcher, ?_, by simp [hatoms]⟩
    · intro r' hr' houtcome
      obtain rfl := Option.some.inj hr'
      simp [hret, huncertain] at houtcome
    · intro a ha
      obtain rfl := List.mem_singleton.mp ha
      exact hminted

/-- What is known of an action that the guardrails let pass. -/
structure Passed (p : Planner) (env : PlannerEnv) (action : AgentAction) : Prop where
  parsed : action ∈ env.llmResult.parsed
  memory : action.kind ≠ .noMemory
  confident : action.confidence.ge p.guardrails.confidenceConfirm = true
  accepted : StrictJSONValidator.rejection env.retrieved.atomIds action = none

theorem passed_of_not_refused (h : (p.vetted env world).2.1.outcome ≠ .refuse) :
    Passed p env (p.vetted env world).1.action := by
  obtain ⟨hrejection, hkind, hconfirm⟩ := ConfidenceGateGuardrails.of_not_refused h
  obtain ⟨action, hparsed, heq, hnone⟩ := StrictJSONValidator.of_accepted hrejection
  have hvetted : (p.vetted env world).1.action = action := heq
  rw [hvetted]
  rw [heq] at hkind hconfirm
  exact ⟨hparsed, hkind, hconfirm, hnone⟩

/-- The action that is vetted was parsed, or carries no command. -/
theorem parsed_of_command (h : (p.vetted env world).1.action.command.isSome) :
    (p.vetted env world).1.action ∈ env.llmResult.parsed := by
  simp only [Planner.vetted, StrictJSONValidator.validate] at h ⊢
  cases hparsed : env.llmResult.parsed with
  | none => simp [hparsed, stubAction] at h
  | some action => simp

theorem Passed.answerable {action : AgentAction} (h : Passed p env action)
    (hkind : action.kind = .answer) : Answerable p env action := by
  have haccepted := h.accepted
  simp only [StrictJSONValidator.rejection, hkind] at haccepted
  split_ifs at haccepted with hcites hretrieved hbounds
  exact ⟨hcites, hretrieved, hbounds, h.confident⟩

theorem Passed.mintable {action : AgentAction} (h : Passed p env action)
    (hkind : action.kind = .createMemory ∨ action.kind = .createReminder) :
    Mintable action := by
  have haccepted := h.accepted
  rcases hkind with hkind | hkind
  · simp only [StrictJSONValidator.rejection, hkind] at haccepted
    split_ifs at haccepted with htext
    exact ⟨Or.inl hkind, htext, by simp [hkind]⟩
  · simp only [StrictJSONValidator.rejection, hkind] at haccepted
    split_ifs at haccepted with hfields
    rw [not_or] at hfields
    exact ⟨Or.inr hkind, hfields.1, fun _ => Option.isSome_iff_ne_none.mpr hfields.2⟩

/-- The answer of a run: refused, or answerable. -/
theorem safe_answer {guarded : GuardedAction}
    (hpassed : guarded.outcome ≠ .refuse → Passed p env guarded.action)
    (hkind : guarded.action.kind = .answer ∨ guarded.action.kind = .noMemory)
    (hdispatcher : world'.plane.dispatcher = world.plane.dispatcher)
    (hatoms : world'.atoms = world.atoms) :
    Safe p ctx env world
      { result := some (buildResult ctx env.retrieved (Planner.answerOutcome guarded.outcome)
          guarded)
        world := world' } := by
  by_cases hrefuse : guarded.outcome = .refuse
  · apply safe_of_refusal _ hdispatcher hatoms
    simp [hrefuse, Planner.answerOutcome, buildResult]
  · have hpass := hpassed hrefuse
    have hanswer := hpass.answerable (hkind.resolve_right hpass.memory)
    refine ⟨?_, by simp, by simpa using hdispatcher, by simp, by simpa using hatoms⟩
    intro r hr _
    obtain rfl := Option.some.inj hr
    refine ⟨guarded.action, hpass.parsed, hanswer, by simp [buildResult], ?_⟩
    cases houtcome : guarded.outcome with
    | ret => simp [buildResult, Planner.answerOutcome]
    | retWithUncertainty => simp [buildResult, Planner.answerOutcome]
    | refuse => exact absurd houtcome hrefuse

/-- A run is safe for every parsed reply: a refused action does nothing, and one that is not refused
was accepted by the validator.
SOURCE: agent/planner.py:203-546 -/
theorem safe_plan (p : Planner) (ctx : PlannerContext) (env : PlannerEnv)
    (world : PlannerWorld) : Safe p ctx env world (p.plan ctx env world) := by
  have haction : (p.vetted env world).2.1.action = (p.vetted env world).1.action :=
    ConfidenceGateGuardrails.decide_action _ _ _ _
  have hpassed : (p.vetted env world).2.1.outcome ≠ .refuse →
      Passed p env (p.vetted env world).1.action := passed_of_not_refused
  unfold Planner.plan Planner.act
  dsimp only
  cases hkind : (p.vetted env world).1.action.kind with
  | answer =>
    apply safe_answer (haction ▸ hpassed) (Or.inl (haction ▸ hkind)) <;> simp
  | noMemory =>
    apply safe_answer (haction ▸ hpassed) (Or.inr (haction ▸ hkind)) <;> simp
  | issueCommand =>
    dsimp only
    split_ifs with hproactive
    · apply safe_of_refusal <;> simp [refuseWith, buildResult]
    · exact safe_dispatchCommand parsed_of_command (by simpa using hproactive) rfl rfl
  | createMemory =>
    dsimp only
    split_ifs with hrefuse
    · apply safe_of_refusal <;> simp [buildResult]
    · have hpass := hpassed hrefuse
      unfold Planner.createMemory
      split_ifs with hstore
      · refine safe_mint ?_ ?_ ?_ ?_ ?_
        · simp [buildResult]
        · simp [buildResult]
        · exact ⟨hrefuse, _, hpass.parsed, hpass.mintable (Or.inl hkind),
            by simp [Planner.mintedAtom]⟩
        · simp
        · simp
      · apply safe_of_refusal <;> simp [refuseWith, buildResult]
  | createReminder =>
    dsimp only
    split_ifs with hrefuse
    · apply safe_of_refusal <;> simp [buildResult]
    · have hpass := hpassed hrefuse
      unfold Planner.createReminder
      split_ifs with hstores
      · dsimp only
        cases hraises : env.reminderAddRaises with
        | some exc =>
          dsimp only
          apply safe_of_refusal <;> simp [refuseWith, buildResult]
        | none =>
          refine safe_mint ?_ ?_ ?_ ?_ ?_
          · simp [buildResult]
          · simp [buildResult]
          · exact ⟨hrefuse, _, hpass.parsed, hpass.mintable (Or.inr hkind),
              by simp [Planner.mintedAtom]⟩
          · simp
          · simp
      · apply safe_of_refusal <;> simp [refuseWith, buildResult]

/-- **Every run is safe, whatever text the model replies.**
SOURCE: agent/planner.py:203-546, agent/intent.py:70-192, agent/validator.py:73-150,
agent/guardrails.py:65-106, commands/issue.py:94-155 -/
theorem safe_planReply (p : Planner) (ctx : PlannerContext) (env : PlannerEnv)
    (world : PlannerWorld) {readers : TextReaders} {raw : String} {run : PlannerRun}
    (h : p.planReply ctx env readers raw world = some run) :
    ∃ reply, parseReply readers raw = some reply ∧
      Safe p ctx { env with llmResult := reply } world run := by
  obtain ⟨reply, hreply, rfl⟩ := Option.map_eq_some_iff.mp h
  exact ⟨reply, hreply, safe_plan p ctx { env with llmResult := reply } world⟩

/-- The readers for the one reply of `rememberTea`. -/
def teaReaders : TextReaders where
  isBlank := fun _ => false
  loads := fun _ => .value (.object ""
    [("kind", .str "create_memory"), ("text", .str "likes tea"),
      ("confidence", .number (.float (.finite (7 / 8))))])
  float := fun _ => none
  fromIsoFormat := fun _ => none

/-- The reply of a model that was asked to remember something. -/
def rememberTea : String :=
  "\x7b\"kind\": \"create_memory\", \"text\": \"likes tea\", \"confidence\": 0.875\x7d"

/-- A planner that can store memories. -/
def teaPlanner : Planner where
  guardrails := .default
  kit := plainKit
  atomStore := true

theorem unit_seven_eighths : UnitInterval (.finite (7 / 8)) := by
  decide +kernel

/-- What the planner takes the reply for. -/
def teaReply : LLMResult where
  raw := rememberTea
  parsed := some
    { kind := .createMemory
      text := "likes tea"
      confidence := .finite (7 / 8)
      confidence_range := unit_seven_eighths }
  parseError := none

theorem parseReply_rememberTea : parseReply teaReaders rememberTea = some teaReply := by
  have htext : rememberTea ≠ "" := by decide +kernel
  have hkind : AgentActionKind.ofValue? (some (.str "create_memory")) = some .createMemory := by
    decide +kernel
  simp [parseReply, htext, teaReaders, hkind, List.lookup, parseObject, Json.tuple, Json.float,
    parsePayload, buildAction, Json.asStr, Json.asOptionalStr, teaReply, unit_seven_eighths]

/-- The run of the reply is safe. -/
theorem safe_planReply_rememberTea :
    ∃ reply, parseReply teaReaders rememberTea = some reply ∧
      Safe teaPlanner ⟨"r1", .userRequest "r1" "remember that I like tea", none⟩
        { surroundings := { now := 0 }, llmResult := reply } {}
        (teaPlanner.plan ⟨"r1", .userRequest "r1" "remember that I like tea", none⟩
          { surroundings := { now := 0 }, llmResult := teaReply } {}) :=
  safe_planReply teaPlanner _ { surroundings := { now := 0 }, llmResult := teaReply } {}
    (by rw [Planner.planReply, parseReply_rememberTea, Option.map_some])

end OpenRecall.Analysis.PlannerSafety
