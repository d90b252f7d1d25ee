import OpenRecall.Model.AgentAction
import OpenRecall.Model.MemoryStores

/-!
# The planner

One run of `Planner.plan` retrieves, asks the model, validates and gates its reply, and then
answers, issues a command, or mints a memory or a reminder. What was retrieved and what the model
replied are up to the run; its effects are the commands it hands to the dispatcher and the atoms
it appends to the store. Metrics, latencies and the audit log, which read the result and decide
nothing, are left out, and so is the prompt.
-/

set_option autoImplicit false

namespace OpenRecall.Model

/-! ## What a run reads -/

/-- A retrieved atom.
SOURCE: contracts/types.py:220-238 -/
structure ScoredAtom where
  atomId : String
  sessionId : Option String
  kind : String
  text : String
  createdAt : Time
  startMs : ℤ
  score : Double
  sourceEventId : String := ""
  deriving DecidableEq

/-- SOURCE: contracts/types.py:241-260 -/
structure RetrievedContext where
  atoms : List ScoredAtom := []
  retrievalTraceId : String := ""
  deriving DecidableEq

def RetrievedContext.atomIds (retrieved : RetrievedContext) : List String :=
  retrieved.atoms.map ScoredAtom.atomId

/-- SOURCE: contracts/types.py:370-406 -/
inductive Trigger where
  | userRequest (requestId text : String)
  | proactive (requestId eventId transcript : String)
  deriving DecidableEq

def Trigger.isProactive : Trigger → Bool
  | .userRequest _ _ => false
  | .proactive _ _ _ => true

/-- SOURCE: contracts/types.py:409-428 -/
structure PlannerContext where
  requestId : String
  trigger : Trigger
  sessionId : Option String := none
  deriving DecidableEq

/-- How the planner is wired: its guardrails, the ids and the signer, the autonomy threshold of the
command guardrails if the command path is wired, and which stores are.
SOURCE: agent/planner.py:82-136 -/
structure Planner where
  guardrails : GuardrailsConfig
  kit : CommandKit
  commandPath : Option ℚ := none
  atomStore : Bool := false
  reminderStore : Bool := false

/-- A row of the reminder schedule.
SOURCE: reminders/store.py:25-33 -/
structure Reminder where
  atomId : String
  sessionId : String
  text : String
  dueAt : Time
  deriving DecidableEq

/-- Add a row to the schedule, unless its atom has one.
SOURCE: reminders/store.py:55-62 -/
def addReminder (reminder : Reminder) (schedule : List Reminder) : List Reminder :=
  if reminder.atomId ∈ schedule.map Reminder.atomId then schedule else schedule ++ [reminder]

/-- What the planner shares with the rest of the server. -/
structure PlannerWorld where
  plane : CommandPlane := {}
  atoms : InMemoryAtomStore := {}
  reminders : List Reminder := []
  rateWindow : List Time := []

/-- What one run meets: the clocks and the device, what was retrieved and replied, and which store
raises. -/
structure PlannerEnv where
  surroundings : Surroundings
  monotonic : Time := 0
  retrieved : RetrievedContext := {}
  llmResult : LLMResult
  reminderAddRaises : Option String := none
  appendRaises : Bool := false

/-! ## What a run returns -/

/-- SOURCE: contracts/types.py:350-367 -/
inductive PlannerOutcome where
  | ret
  | retWithUncertainty
  | refuse
  | issueCommand
  | createMemory
  | createReminder
  deriving DecidableEq

/-- The result of a run. A refused command comes with the refusal, whose message is the result's.
SOURCE: contracts/types.py:431-471 -/
structure PlannerResult where
  requestId : String
  retrievalTraceId : String
  outcome : PlannerOutcome
  answer : Option String
  confidence : Option Double
  confidenceBand : Option String
  atomIds : List String
  refusalReason : Option RejectionReason
  refusalMessage : Option String
  commandRefusal : Option Refusal := none
  commandId : Option String := none
  commandStatus : Option String := none
  memoryAtomId : Option String := none
  reminderId : Option String := none
  atoms : List ScoredAtom

/-- A run: its result, unless a store raised, what it leaves, and the commands it handed to the
dispatcher and the atoms it appended. -/
structure PlannerRun where
  result : Option PlannerResult
  world : PlannerWorld
  issued : List Command := []
  minted : List MemoryAtom := []

/-- The double `0.60`. -/
def bandMedium : ℚ := 5404319552844595 / 9007199254740992

/-- SOURCE: agent/planner.py:663-668 -/
def bandFor (confidence : Double) : String :=
  if confidence.ge confidenceAutonomous then "high"
  else if confidence.ge bandMedium then "medium"
  else "low"

/-- SOURCE: agent/planner.py:564-618 -/
def buildResult (ctx : PlannerContext) (retrieved : RetrievedContext) (outcome : PlannerOutcome)
    (guarded : GuardedAction) : PlannerResult where
  requestId := ctx.requestId
  retrievalTraceId := retrieved.retrievalTraceId
  outcome := outcome
  answer := if outcome ∈ [.refuse, .issueCommand] then none else some guarded.action.text
  confidence := if outcome = .refuse then none else some guarded.action.confidence
  confidenceBand :=
    if outcome ∈ [.ret, .retWithUncertainty] then some (bandFor guarded.action.confidence)
    else none
  atomIds := guarded.action.atomIds
  refusalReason := guarded.refusalReason
  refusalMessage := guarded.refusalMessage
  atoms := retrieved.atoms

/-- A refusal for a reason of the planner's own. -/
def refuseWith (ctx : PlannerContext) (retrieved : RetrievedContext) (action : AgentAction)
    (reason : RejectionReason) (message : Option String) : PlannerResult :=
  buildResult ctx retrieved .refuse
    { outcome := .refuse
      action := action
      refusalReason := some reason
      refusalMessage := message }

/-- The reason in a result for a refused command.
SOURCE: agent/planner.py:684-718 -/
def mapRejection (refusal : Refusal) : RejectionReason :=
  if refusal.reason ∈ ["unknown_command_type", "missing_required_param", "invalid_param_type",
      "param_out_of_range", "unknown_param", "invalid_idempotency_key"] then .schemaMismatch
  else if refusal.reason ∈ ["capability_unavailable", "resource_unavailable"] then .notAutonomous
  else if refusal.reason = "command_confidence_too_low" then .confidenceOutOfRange
  else .unknown

namespace Planner

/-- The commands that `validateAndIssue` hands to the dispatcher.
SOURCE: commands/issue.py:137-155 -/
def handedOver (kit : CommandKit) (env : Surroundings) (req : IssueRequest)
    (plane : CommandPlane) : List Command :=
  match req.vet env with
  | .error _ => []
  | .ok validated =>
    [validated.toCommand (kit.ids.new plane.minted) req.sessionId env.now req.ttl]

/-- The request for the command of an action.
SOURCE: agent/planner.py:370-383 -/
def commandRequest (ctx : PlannerContext) (autonomous : ℚ) (command : IssueCommandPayload) :
    IssueRequest where
  commandType := command.commandType.name
  params := command.params
  idempotencyKey := command.idempotencyKey
  sessionId := ctx.sessionId.getD ""
  confidence := command.confidence
  autonomous := autonomous

/-- Run the command of an action through validation, guardrails and dispatch.
SOURCE: agent/planner.py:318-425 -/
def dispatchCommand (p : Planner) (ctx : PlannerContext) (env : PlannerEnv)
    (action : AgentAction) (world : PlannerWorld) : PlannerRun :=
  match action.command with
  | none =>
    { result := some (refuseWith ctx env.retrieved action .schemaMismatch
        (some "LLM emitted issue_command with no payload."))
      world := world }
  | some command =>
    match p.commandPath with
    | none =>
      { result := some (refuseWith ctx env.retrieved action .unknown
          (some "command dispatch is not configured on this server"))
        world := world }
    | some autonomous =>
      let req := commandRequest ctx autonomous command
      let issued := validateAndIssue p.kit env.surroundings req world.plane
      { result := some (match issued.1 with
          | .error refusal =>
            { refuseWith ctx env.retrieved action (mapRejection refusal) none with
              commandRefusal := some refusal }
          | .ok signed =>
            { buildResult ctx env.retrieved .issueCommand { outcome := .ret, action := action } with
              commandId := some signed.command.commandId
              commandStatus := some "PENDING" })
        world := { world with plane := issued.2 }
        issued := handedOver p.kit env.surroundings req world.plane }

/-- `value or default` of an optional string. -/
def orElse (value : Option String) (default : String) : String :=
  match value with
  | none => default
  | some s => if s = "" then default else s

/-- The atom of an action that is minted directly.
SOURCE: agent/planner.py:452-462, agent/planner.py:526-537 -/
def mintedAtom (ctx : PlannerContext) (atomId kind text : String) (now occurredAt : Time) :
    MemoryAtom where
  atomId := atomId
  sessionId := some (ctx.sessionId.getD "")
  sourceEventId := ""
  kind := kind
  text := text
  createdAt := now
  startMs := 0
  occurredAt := some occurredAt

/-- Append a minted atom; the result is lost when the store raises. -/
def mint (env : PlannerEnv) (atom : MemoryAtom) (result : PlannerResult)
    (world : PlannerWorld) : PlannerRun :=
  if env.appendRaises then { result := none, world := world }
  else
    { result := some result
      world := { world with atoms := (world.atoms.append atom).2 }
      minted := [atom] }

/-- SOURCE: agent/planner.py:427-471 -/
def createMemory (p : Planner) (ctx : PlannerContext) (env : PlannerEnv) (guarded : GuardedAction)
    (action : AgentAction) (world : PlannerWorld) : PlannerRun :=
  if ¬ p.atomStore then
    { result := some (refuseWith ctx env.retrieved action .unknown
        (some "memory store is not configured on this server"))
      world := world }
  else
    let atom := mintedAtom ctx (p.kit.ids.new world.plane.minted)
      (orElse action.memoryKind "fact") action.text env.surroundings.now env.surroundings.now
    mint env atom
      { buildResult ctx env.retrieved .createMemory guarded with
        memoryAtomId := some atom.atomId }
      { world with plane := { world.plane with minted := world.plane.minted + 1 } }

/-- The schedule row is written before the atom.
SOURCE: agent/planner.py:473-546 -/
def createReminder (p : Planner) (ctx : PlannerContext) (env : PlannerEnv)
    (guarded : GuardedAction) (action : AgentAction) (world : PlannerWorld) : PlannerRun :=
  if ¬ (p.atomStore ∧ p.reminderStore) then
    { result := some (refuseWith ctx env.retrieved action .unknown
        (some "reminder store is not configured on this server"))
      world := world }
  else
    let dueAt := action.dueAt.getD env.surroundings.now
    let atomId := p.kit.ids.new world.plane.minted
    let world := { world with plane := { world.plane with minted := world.plane.minted + 1 } }
    match env.reminderAddRaises with
    | some exc =>
      { result := some (refuseWith ctx env.retrieved action .unknown
          (some ("failed to schedule reminder: " ++ exc)))
        world := world }
    | none =>
      mint env
        (mintedAtom ctx atomId "reminder" action.text env.surroundings.now dueAt)
        { buildResult ctx env.retrieved .createReminder guarded with reminderId := some atomId }
        { world with
          reminders := addReminder ⟨atomId, ctx.sessionId.getD "", action.text, dueAt⟩
            world.reminders }

/-- The outcome of an answer.
SOURCE: agent/planner.py:295-301 -/
def answerOutcome : GuardOutcome → PlannerOutcome
  | .ret => .ret
  | .retWithUncertainty => .retWithUncertainty
  | .refuse => .refuse

/-- The validated action of a run, the guardrails' decision and the rate window after.
SOURCE: agent/planner.py:203-224 -/
def vetted (p : Planner) (env : PlannerEnv) (world : PlannerWorld) :
    ValidatedAction × GuardedAction × List Time :=
  let validated := StrictJSONValidator.validate env.retrieved.atomIds env.llmResult
  (validated, ConfidenceGateGuardrails.decide p.guardrails env.monotonic world.rateWindow validated)

/-- What a run does with its vetted action.
SOURCE: agent/planner.py:236-316 -/
def act (p : Planner) (ctx : PlannerContext) (env : PlannerEnv) (action : AgentAction)
    (guarded : GuardedAction) (world : PlannerWorld) : PlannerRun :=
  match action.kind with
  | .issueCommand =>
    if ctx.trigger.isProactive then
      { result := some (refuseWith ctx env.retrieved action .proactiveTriggerCannotIssueCommand
          (some "proactive triggers cannot issue device commands"))
        world := world }
    else p.dispatchCommand ctx env action world
  | .createMemory =>
    if guarded.outcome = .refuse then
      { result := some (buildResult ctx env.retrieved .refuse guarded), world := world }
    else p.createMemory ctx env guarded action world
  | .createReminder =>
    if guarded.outcome = .refuse then
      { result := some (buildResult ctx env.retrieved .refuse guarded), world := world }
    else p.createReminder ctx env guarded action world
  | .answer | .noMemory =>
    { result := some (buildResult ctx env.retrieved (answerOutcome guarded.outcome) guarded)
      world := world }

/-- One run, from the model's reply on.
SOURCE: agent/planner.py:138-316 -/
def plan (p : Planner) (ctx : PlannerContext) (env : PlannerEnv) (world : PlannerWorld) :
    PlannerRun :=
  let vetted := p.vetted env world
  p.act ctx env vetted.1.action vetted.2.1 { world with rateWindow := vetted.2.2 }

/-- One run on the text of the model's reply; nothing when reading it raises.
SOURCE: agent/planner.py:138-316, agent/intent.py:70-192 -/
def planReply (p : Planner) (ctx : PlannerContext) (env : PlannerEnv) (readers : TextReaders)
    (raw : String) (world : PlannerWorld) : Option PlannerRun :=
  (parseReply readers raw).map fun reply => p.plan ctx { env with llmResult := reply } world

end Planner

end OpenRecall.Model
