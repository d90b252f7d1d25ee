import OpenRecall.Model.CommandIssue

/-!
# What the agent's model may do

The model's reply is text. `parseReply` reads it as an `AgentAction`, the validator checks the
action against what was retrieved, and the guardrails gate it by confidence and rate. A reply that
cannot be read still gives a result, without an action; some replies make the reading raise.

How text is read as JSON, as a float or as a date is the language's: `TextReaders` is what a run
uses for it.
-/

set_option autoImplicit false

namespace OpenRecall.Model

/-- `x ≥ q`, which no NaN satisfies. -/
def Double.ge : Double → ℚ → Bool
  | .finite x, q => x ≥ q
  | .infinite negative, _ => !negative
  | .nan, _ => false

/-- `x ≤ q`, which no NaN satisfies. -/
def Double.le : Double → ℚ → Bool
  | .finite x, q => x ≤ q
  | .infinite negative, _ => negative
  | .nan, _ => false

/-! ## The action -/

/-- SOURCE: contracts/types.py:60-76 -/
inductive AgentActionKind where
  | answer
  | noMemory
  | issueCommand
  | createMemory
  | createReminder
  deriving DecidableEq

def AgentActionKind.value : AgentActionKind → String
  | .answer => "answer"
  | .noMemory => "no_memory"
  | .issueCommand => "issue_command"
  | .createMemory => "create_memory"
  | .createReminder => "create_reminder"

/-- The parsed action, whose confidence is within bounds or it is not built.
SOURCE: contracts/types.py:107-127 -/
structure AgentAction where
  kind : AgentActionKind
  text : String := ""
  atomIds : List String := []
  confidence : Double
  confidence_range : UnitInterval confidence
  command : Option IssueCommandPayload := none
  memoryKind : Option String := none
  dueAt : Option Time := none

/-- Why a reply could not be read.
SOURCE: agent/intent.py:60-180 -/
inductive ParseError where
  | transport
  | emptyResponse
  | json
  | notAnObject
  | kind
  | confidence
  | dueAtMissing
  | dueAt
  | commandMissing
  | commandNotAnObject
  | commandPayload
  deriving DecidableEq

/-- SOURCE: contracts/types.py:130-141 -/
structure LLMResult where
  raw : String
  parsed : Option AgentAction
  parseError : Option ParseError

/-! ## Reading the reply -/

/-- A JSON value; an array or object comes with its text. The keys of an object differ. -/
inductive Json where
  | null
  | bool (b : Bool)
  | number (n : Number)
  | str (s : String)
  | array (text : String) (items : List Json)
  | object (text : String) (entries : List (String × Json))

/-- A value of a parameter object. -/
def Json.toValue : Json → Value
  | .null => .none
  | .bool b => .bool b
  | .number n => .number n
  | .str s => .str s
  | .array text _ | .object text _ => .other text

/-- How `json.loads` ends: with a value, with its own `JSONDecodeError`, or with another error (an
int of more digits than the interpreter converts, a nesting deeper than its stack). -/
inductive Loaded where
  | value (v : Json)
  | decodeError
  | raised

/-- Whether `str.strip` leaves nothing of a text; how `json.loads` ends; and `float` of a string and
`datetime.fromisoformat` in UTC, which give nothing for a text they reject. -/
structure TextReaders where
  isBlank : String → Bool
  loads : String → Loaded
  float : String → Option Double
  fromIsoFormat : String → Option Time

/-- `tuple(value)`, which raises on what cannot be iterated. -/
def Json.tuple : Json → Option (List Json)
  | .array _ items => some items
  | .str s => some (s.toList.map fun c => .str (String.singleton c))
  | .object _ entries => some (entries.map fun e => .str e.1)
  | .null | .bool _ | .number _ => none

def Json.asStr : Json → Option String
  | .str s => some s
  | _ => none

/-- An optional string: absent and null are none. The outer option is for a value of another
type. -/
def Json.asOptionalStr : Option Json → Option (Option String)
  | none | some .null => some none
  | some (.str s) => some (some s)
  | some _ => none

/-- How `float(value)` ends. -/
inductive FloatOf where
  | ok (x : Double)
  | rejected
  | overflow

/-- `float(value)`. An int that is too large for a double overflows; rounding an int moves none
across the bounds of a confidence.
SOURCE: agent/intent.py:101-104 -/
def Json.float (readers : TextReaders) : Json → FloatOf
  | .number (.int n) => if n.natAbs < 2 ^ 1024 - 2 ^ 970 then .ok (.finite n) else .overflow
  | .number (.float x) => .ok x
  | .bool b => .ok (.finite (if b then 1 else 0))
  | .str s =>
    match readers.float s with
    | some x => .ok x
    | none => .rejected
  | .null | .array _ _ | .object _ _ => .rejected

/-- A value that Python takes for false. -/
def Json.falsy : Json → Bool
  | .null => true
  | .bool b => !b
  | .number n => n.isZero
  | .str s => s = ""
  | .array _ items => items.isEmpty
  | .object _ entries => entries.isEmpty

/-- The due time of a reminder, an aware datetime.
SOURCE: agent/intent.py:117-130 -/
def parseDueAt (readers : TextReaders) (rawDue : Option Json) : Except ParseError Time :=
  match rawDue with
  | none => .error .dueAtMissing
  | some rawDue =>
    if rawDue.falsy then .error .dueAtMissing
    else match rawDue with
      | .str s => (readers.fromIsoFormat s).elim (.error .dueAt) .ok
      | _ => .error .dueAt

/-- The fields a command payload may have, besides its confidence. -/
def commandFields : List String := ["command_type", "params", "idempotency_key"]

/-- `IssueCommandPayload.model_validate` of the command object with the top-level confidence.
SOURCE: agent/intent.py:150-178, contracts/types.py:79-104 -/
def parseCommand (commandObj : Option Json) (confidence : Double) :
    Except ParseError IssueCommandPayload :=
  match commandObj with
  | none | some .null => .error .commandMissing
  | some (.object _ entries) =>
    let cleaned := entries.filter fun e => e.1 ≠ "confidence"
    if cleaned.any fun e => e.1 ∉ commandFields then .error .commandPayload
    else
      match cleaned.lookup "command_type", cleaned.lookup "params",
          cleaned.lookup "idempotency_key" with
      | some (.str commandType), params, some (.str idempotencyKey) =>
        match params with
        | none => (IssueCommandPayload.ofRequest commandType [] idempotencyKey
            confidence).mapError fun _ => .commandPayload
        | some (.object _ params) => (IssueCommandPayload.ofRequest commandType
            (params.map fun e => (e.1, e.2.toValue)) idempotencyKey
            confidence).mapError fun _ => .commandPayload
        | some _ => .error .commandPayload
      | _, _, _ => .error .commandPayload
  | some _ => .error .commandNotAnObject

/-- What a reply carries besides the action's text, ids and confidence. -/
structure ReplyPayload where
  command : Option IssueCommandPayload := none
  memoryKind : Option Json := none
  dueAt : Option Time := none

/-- SOURCE: agent/intent.py:112-178 -/
def parsePayload (readers : TextReaders) (kind : AgentActionKind)
    (data : List (String × Json)) (confidence : Double) : Except ParseError ReplyPayload :=
  match kind with
  | .createMemory => .ok { memoryKind := data.lookup "memory_kind" }
  | .createReminder =>
    (parseDueAt readers (data.lookup "due_at")).map fun dueAt =>
      { memoryKind := data.lookup "memory_kind", dueAt := some dueAt }
  | .issueCommand =>
    (parseCommand (data.lookup "command") confidence).map fun command =>
      { command := some command }
  | .answer | .noMemory => .ok {}

/-- Build the action, which raises when a field has the wrong type or the confidence is out of
bounds.
SOURCE: agent/intent.py:181-192 -/
def buildAction (kind : AgentActionKind) (text : Json) (atomIds : List Json)
    (confidence : Double) (payload : ReplyPayload) : Option AgentAction :=
  match text.asStr, atomIds.mapM Json.asStr, Json.asOptionalStr payload.memoryKind with
  | some text, some atomIds, some memoryKind =>
    if h : UnitInterval confidence then
      some
        { kind := kind, text := text, atomIds := atomIds, confidence := confidence
          confidence_range := h, command := payload.command, memoryKind := memoryKind
          dueAt := payload.dueAt }
    else none
  | _, _, _ => none

/-- `AgentActionKind(value)`, of a value that is there.
SOURCE: agent/intent.py:100-102 -/
def AgentActionKind.ofValue? (value : Option Json) : Option AgentActionKind :=
  [.answer, .noMemory, .issueCommand, .createMemory, .createReminder].find? fun kind =>
    value.bind Json.asStr = some kind.value

/-- A reply that is an object with a kind. Nothing is returned when the reading raises.
SOURCE: agent/intent.py:103-192 -/
def parseObject (readers : TextReaders) (raw : String) (kind : AgentActionKind)
    (data : List (String × Json)) : Option LLMResult :=
  match ((data.lookup "atom_ids").getD (.array "" [])).tuple with
  | none => none
  | some atomIds =>
    match ((data.lookup "confidence").getD (.number (.float (.finite 0)))).float readers with
    | .overflow => none
    | .rejected => some ⟨raw, none, some .confidence⟩
    | .ok confidence =>
      match parsePayload readers kind data confidence with
      | .error e => some ⟨raw, none, some e⟩
      | .ok payload =>
        (buildAction kind ((data.lookup "text").getD (.str "")) atomIds confidence payload).map
          fun action => ⟨raw, some action, none⟩

/-- Read the model's reply.
SOURCE: agent/intent.py:70-192 -/
def parseReply (readers : TextReaders) (raw : String) : Option LLMResult :=
  if raw = "" ∨ readers.isBlank raw then some ⟨raw, none, some .emptyResponse⟩
  else
    match readers.loads raw with
    | .decodeError => some ⟨raw, none, some .json⟩
    | .raised => none
    | .value (.object _ data) =>
      match AgentActionKind.ofValue? (data.lookup "kind") with
      | none => some ⟨raw, none, some .kind⟩
      | some kind => parseObject readers raw kind data
    | .value _ => some ⟨raw, none, some .notAnObject⟩

/-! ## Validation -/

/-- Why an action is refused.
SOURCE: contracts/types.py:144-175 -/
inductive RejectionReason where
  | invalidJson
  | schemaMismatch
  | noAtomCited
  | citedAtomNotRetrieved
  | confidenceOutOfRange
  | rateLimit
  | notAutonomous
  | noSupportingMemory
  | unknown
  | missingCommandPayload
  | proactiveTriggerCannotIssueCommand
  | provenanceMissing
  deriving DecidableEq

/-- SOURCE: contracts/types.py:192-203 -/
structure ValidatedAction where
  action : AgentAction
  rejection : Option RejectionReason := none

theorem unitInterval_zero : UnitInterval (.finite 0) := by decide +kernel

/-- SOURCE: agent/validator.py:52-63 -/
def stubAction : AgentAction where
  kind := .noMemory
  confidence := .finite 0
  confidence_range := unitInterval_zero

/-- Why the parsed action breaks the contract, if it does.
SOURCE: agent/validator.py:83-150 -/
def StrictJSONValidator.rejection (retrievedAtomIds : List String) (action : AgentAction) :
    Option RejectionReason :=
  match action.kind with
  | .noMemory => if action.atomIds ≠ [] then some .schemaMismatch else none
  | .createMemory => if action.text = "" then some .schemaMismatch else none
  | .createReminder =>
    if action.text = "" ∨ action.dueAt = none then some .schemaMismatch else none
  | .issueCommand => if action.command.isNone then some .missingCommandPayload else none
  | .answer =>
    if action.atomIds = [] then some .noAtomCited
    else if ¬ ∀ atomId ∈ action.atomIds, atomId ∈ retrievedAtomIds then
      some .citedAtomNotRetrieved
    else if ¬ (action.confidence.ge 0 ∧ action.confidence.le 1) then some .confidenceOutOfRange
    else none

/-- SOURCE: agent/validator.py:73-150 -/
def StrictJSONValidator.validate (retrievedAtomIds : List String) (result : LLMResult) :
    ValidatedAction :=
  match result.parsed with
  | none => ⟨stubAction, some .invalidJson⟩
  | some action => ⟨action, StrictJSONValidator.rejection retrievedAtomIds action⟩

/-! ## The answer guardrails -/

/-- SOURCE: contracts/types.py:278-283 -/
inductive GuardOutcome where
  | ret
  | retWithUncertainty
  | refuse
  deriving DecidableEq

/-- SOURCE: contracts/types.py:286-294 -/
structure GuardedAction where
  outcome : GuardOutcome
  action : AgentAction
  refusalReason : Option RejectionReason := none
  refusalMessage : Option String := none

/-- The policy numbers, which are checked when the server starts.
SOURCE: agent/config.py:138-170 -/
structure GuardrailsConfig where
  confidenceAutonomous : ℚ
  confidenceConfirm : ℚ
  rateLimitPerMin : ℤ
  autonomous_range : 0 ≤ confidenceAutonomous ∧ confidenceAutonomous ≤ 1
  confirm_range : 0 ≤ confidenceConfirm ∧ confidenceConfirm ≤ 1
  confirm_lt : confidenceConfirm < confidenceAutonomous
  rate_pos : 0 < rateLimitPerMin

/-- The double `0.60`. -/
def confidenceConfirm : ℚ := 5404319552844595 / 9007199254740992

/-- The default numbers pass the check. -/
theorem defaults_valid : (0 ≤ confidenceAutonomous ∧ confidenceAutonomous ≤ 1) ∧
    (0 ≤ confidenceConfirm ∧ confidenceConfirm ≤ 1) ∧ confidenceConfirm < confidenceAutonomous ∧
    (0 : ℤ) < 20 := by
  norm_num [confidenceAutonomous, confidenceConfirm]

/-- SOURCE: agent/config.py:21-23 -/
def GuardrailsConfig.default : GuardrailsConfig where
  confidenceAutonomous := OpenRecall.Model.confidenceAutonomous
  confidenceConfirm := OpenRecall.Model.confidenceConfirm
  rateLimitPerMin := 20
  autonomous_range := defaults_valid.1
  confirm_range := defaults_valid.2.1
  confirm_lt := defaults_valid.2.2.1
  rate_pos := defaults_valid.2.2.2

namespace ConfidenceGateGuardrails

/-- SOURCE: agent/guardrails.py:110-130 -/
def onRejection (action : AgentAction) (rejection : RejectionReason) : GuardedAction where
  outcome := .refuse
  action := action
  refusalReason := some rejection
  refusalMessage := some (match rejection with
    | .noAtomCited => "Could you rephrase? I couldn't find a memory to cite."
    | .citedAtomNotRetrieved => "I had trouble citing memory. Please try again."
    | _ => "I couldn't answer that.")

/-- The rate window of one minute: whether there is room for one more, and the window after.
SOURCE: agent/guardrails.py:132-145 -/
def rateOk (cfg : GuardrailsConfig) (now : Time) (window : List Time) : Bool × List Time :=
  let window := window.dropWhile fun t => now - t > 60000000
  if window.length ≥ cfg.rateLimitPerMin then (false, window) else (true, window ++ [now])

/-- SOURCE: agent/guardrails.py:86-106 -/
def gate (cfg : GuardrailsConfig) (action : AgentAction) : GuardedAction :=
  if action.confidence.ge cfg.confidenceAutonomous then { outcome := .ret, action := action }
  else if action.confidence.ge cfg.confidenceConfirm then
    { outcome := .retWithUncertainty, action := action }
  else
    { outcome := .refuse
      action := action
      refusalReason := some .notAutonomous
      refusalMessage := some "Confidence too low to answer." }

/-- What to do with a validated action, and the rate window after.
SOURCE: agent/guardrails.py:65-106 -/
def decide (cfg : GuardrailsConfig) (now : Time) (window : List Time)
    (validated : ValidatedAction) : GuardedAction × List Time :=
  match validated.rejection with
  | some rejection => (onRejection validated.action rejection, window)
  | none =>
    if validated.action.kind = .noMemory then
      ({ outcome := .refuse
         action := validated.action
         refusalReason := some .noSupportingMemory
         refusalMessage := some "No relevant memory found." }, window)
    else
      let rate := rateOk cfg now window
      if rate.1 then (gate cfg validated.action, rate.2)
      else
        ({ outcome := .refuse
           action := validated.action
           refusalReason := some .rateLimit
           refusalMessage := some "Too many requests. Please slow down." }, rate.2)

end ConfidenceGateGuardrails

end OpenRecall.Model
