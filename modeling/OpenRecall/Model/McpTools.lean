import OpenRecall.Model.RequestLedger

/-!
# The tools of an agent outside the process

A tool call begins with a look into the ledger and may go on to others: the retrieval tools record
the atoms they return, and the submit tool reads which atoms were returned before it records the
answer. `ToolStage` is where a call stands between two looks, so that calls, closes and the passing
of time interleave. A call that raises ends with a tool error, which the agent sees.
-/

set_option autoImplicit false

namespace OpenRecall.Model

/-- What a call meets: the retriever and the atom store if they are wired, and `int` of a
string. A retriever that raises gives nothing. -/
structure ToolEnv where
  retriever : Option (String → ℤ → Option String → Option (List ScoredAtom)) := none
  atomStore : Option (List MemoryAtom) := none
  int : String → Option ℤ := fun _ => none

/-- The arguments of a call, an object. -/
abbrev ToolArgs := List (String × Json)

/-- The tools. Those that read the session index, the speakers or the device leave the ledger
alone after the first look.
SOURCE: mcp/tools.py:74, mcp/tools.py:108, mcp/tools.py:134-191, mcp/tools.py:212 -/
inductive ToolCall where
  | memorySearch (args : ToolArgs)
  | memoryGet (args : ToolArgs)
  | agentRespond (args : ToolArgs)
  | other (args : ToolArgs)

def ToolCall.args : ToolCall → ToolArgs
  | .memorySearch args | .memoryGet args | .agentRespond args | .other args => args

/-- What a call raises. -/
inductive ToolError where
  | ledger (e : LedgerError)
  | notConfigured
  | unknownKind
  | confidenceRequired
  | confidenceOutOfRange
  | textNotAString
  | atomIdsNotStrings
  | uncitedAtoms (atomIds : List String)
  | noMemoryWithText
  | noMemoryWithAtoms
  | answerWithoutAtoms
  | raised
  deriving DecidableEq

/-- What a call returns. -/
inductive ToolReply where
  | atoms (atomIds : List String)
  | accepted (requestId : String)
  | read
  deriving DecidableEq

/-- What the agent submits, as far as it can be checked without the ledger. -/
structure Submission where
  kind : String
  confidence : Number
  text : String
  atomIds : List String
  commandId : Json
  memoryAtomId : Json
  reminderId : Json

/-- SOURCE: mcp/tools.py:291-299 -/
def Submission.toResponse (s : Submission) : AgentResponse where
  kind := s.kind
  text := s.text
  atomIds := s.atomIds
  confidence := some s.confidence
  commandId := s.commandId
  memoryAtomId := s.memoryAtomId
  reminderId := s.reminderId

/-- Where a call stands. -/
inductive ToolStage where
  | recordAtoms (requestId : String) (atomIds : List String)
  | checkCitations (requestId : String) (submission : Submission)
  | recordResponse (requestId : String) (response : AgentResponse)
  | done (result : Except ToolError ToolReply)

namespace McpTools

/-! ## The arguments -/

/-- SOURCE: mcp/tools.py:33 -/
def maxLimit : ℕ := 20

/-- SOURCE: mcp/tools.py:43 -/
def responseKinds : List String := ["answer", "no_memory"]

/-- `value or default` of an argument. -/
def orDefault (value : Option Json) (default : Json) : Json :=
  match value with
  | none => default
  | some value => if value.falsy then default else value

/-- The request that a call names. A value that is no string names none, and one that cannot be
hashed raises.
SOURCE: mcp/tools.py:52-54 -/
def requestIdOf (args : ToolArgs) : Except ToolError String :=
  match orDefault (args.lookup "request_id") (.str "") with
  | .str s => .ok s
  | .null | .bool _ | .number _ => .error (.ledger (.closed ""))
  | .array _ _ | .object _ _ => .error .raised

/-- `int(value)`. -/
def intOf (env : ToolEnv) : Json → Option ℤ
  | .number (.int n) => some n
  | .number (.float (.finite q)) => some (if 0 ≤ q then ⌊q⌋ else ⌈q⌉)
  | .number (.float _) => none
  | .bool b => some (if b then 1 else 0)
  | .str s => env.int s
  | .null | .array _ _ | .object _ _ => none

/-- The session of a search, where none is all of them. -/
def sessionOf : Json → Option (Option String)
  | .null => some none
  | .str s => some (some s)
  | .bool _ | .number _ | .array _ _ | .object _ _ => none

/-- What the retriever returns for a search, unless something raises.
SOURCE: mcp/tools.py:78-87 -/
def searched (env : ToolEnv) (retriever : String → ℤ → Option String → Option (List ScoredAtom))
    (args : ToolArgs) : Option (List String) := do
  let limit ← intOf env (orDefault (args.lookup "limit") (.number (.int 10)))
  let sessionId ← sessionOf (orDefault (args.lookup "session_id") .null)
  let query ← (args.lookup "query").bind Json.asStr
  let atoms ← retriever query (min limit maxLimit) sessionId
  return atoms.map fun a => a.atomId

/-- Whether a value can be in a set. -/
def hashable : Json → Bool
  | .array _ _ | .object _ _ => false
  | .null | .bool _ | .number _ | .str _ => true

/-- The ids that `memory.get` asks for, at most twenty: those of a list, or the characters of a
string.
SOURCE: mcp/tools.py:114 -/
def wantedIds : Option Json → Option (List String)
  | some (.array _ items) =>
    if (items.take maxLimit).all hashable then some ((items.take maxLimit).filterMap Json.asStr)
    else none
  | some (.str s) => some ((s.toList.take maxLimit).map String.singleton)
  | _ => none

/-- SOURCE: mcp/tools.py:214-217 -/
def kindOf : Option Json → Except ToolError String
  | some (.str kind) => if kind ∈ responseKinds then .ok kind else .error .unknownKind
  | some (.array _ _) | some (.object _ _) => .error .raised
  | _ => .error .unknownKind

/-- A confidence that is no number cannot be compared.
SOURCE: mcp/tools.py:218-241 -/
def confidenceOf : Option Json → Except ToolError Number
  | none | some .null => .error .confidenceRequired
  | some (.number n) =>
    if n.toDouble.ge 0 ∧ n.toDouble.le 1 then .ok n else .error .confidenceOutOfRange
  | some (.bool b) => .ok (.int (if b then 1 else 0))
  | some _ => .error .raised

/-- SOURCE: mcp/tools.py:249-252, mcp/tools.py:267 -/
def textOf (value : Option Json) : Except ToolError String :=
  match Json.asOptionalStr value with
  | none => .error .textNotAString
  | some text => .ok (text.getD "")

/-- SOURCE: mcp/tools.py:253-259 -/
def submittedIds : Option Json → Except ToolError (List String)
  | none | some .null => .ok []
  | some (.array _ items) => ((items.mapM Json.asStr).map .ok).getD (.error .atomIdsNotStrings)
  | some _ => .error .atomIdsNotStrings

/-- The checks of a submission that need no ledger.
SOURCE: mcp/tools.py:214-259 -/
def parseSubmission (args : ToolArgs) : Except ToolError Submission := do
  let kind ← kindOf (args.lookup "kind")
  let confidence ← confidenceOf (args.lookup "confidence")
  let text ← textOf (args.lookup "text")
  let atomIds ← submittedIds (args.lookup "atom_ids")
  return {
    kind := kind
    confidence := confidence
    text := text
    atomIds := atomIds
    commandId := (args.lookup "command_id").getD .null
    memoryAtomId := (args.lookup "memory_atom_id").getD .null
    reminderId := (args.lookup "reminder_id").getD .null }

/-! ## The calls -/

/-- Where a call whose request is open goes on to.
SOURCE: mcp/tools.py:76-88, mcp/tools.py:110-116, mcp/tools.py:214-259 -/
def afterOpen (env : ToolEnv) (requestId : String) : ToolCall → ToolStage
  | .memorySearch args =>
    match env.retriever with
    | none => .done (.error .notConfigured)
    | some retriever =>
      match searched env retriever args with
      | none => .done (.error .raised)
      | some atomIds => .recordAtoms requestId atomIds
  | .memoryGet args =>
    match env.atomStore with
    | none => .done (.error .notConfigured)
    | some atoms =>
      match wantedIds (args.lookup "atom_ids") with
      | none => .done (.error .raised)
      | some wanted =>
        .recordAtoms requestId ((atoms.map MemoryAtom.atomId).filter fun id => id ∈ wanted)
  | .agentRespond args =>
    match parseSubmission args with
    | .error e => .done (.error e)
    | .ok submission => .checkCitations requestId submission
  | .other _ => .done (.ok .read)

/-- A call begins: the request it names must be open.
SOURCE: mcp/tools.py:51-55 -/
def start (env : ToolEnv) (call : ToolCall) (now : Time) (l : RequestLedger) :
    ToolStage × RequestLedger :=
  match requestIdOf call.args with
  | .error e => (.done (.error e), l)
  | .ok requestId =>
    match (l.getLive requestId now).1 with
    | none => (.done (.error (.ledger (.closed requestId))), (l.getLive requestId now).2)
    | some _ => (afterOpen env requestId call, (l.getLive requestId now).2)

/-- The ids that a submission cites and that were not returned.
SOURCE: mcp/tools.py:263 -/
def uncited (submission : Submission) (cited : Finset String) : List String :=
  (submission.atomIds.dedup.filter fun id => id ∉ cited).mergeSort

/-- The checks of a submission against what was returned.
SOURCE: mcp/tools.py:263-290 -/
def checkCitations (requestId : String) (submission : Submission) (cited : Finset String) :
    ToolStage :=
  if uncited submission cited ≠ [] then
    .done (.error (.uncitedAtoms (uncited submission cited)))
  else if submission.kind = "no_memory" ∧ submission.text ≠ "" then
    .done (.error .noMemoryWithText)
  else if submission.kind = "no_memory" ∧ submission.atomIds ≠ [] then
    .done (.error .noMemoryWithAtoms)
  else if submission.kind = "answer" ∧ submission.atomIds = [] then
    .done (.error .answerWithoutAtoms)
  else .recordResponse requestId submission.toResponse

/-- How a call ends after its last look into the ledger. -/
def finish (outcome : Except LedgerError Unit) (reply : ToolReply) : ToolStage :=
  match outcome with
  | .error e => .done (.error (.ledger e))
  | .ok () => .done (.ok reply)

/-- A call looks into the ledger again.
SOURCE: mcp/tools.py:88-89, mcp/tools.py:116-117, mcp/tools.py:263-300 -/
def advance (now : Time) (stage : ToolStage) (l : RequestLedger) : ToolStage × RequestLedger :=
  match stage with
  | .recordAtoms requestId atomIds =>
    (finish (l.recordAtoms requestId atomIds now).1 (.atoms atomIds),
      (l.recordAtoms requestId atomIds now).2)
  | .checkCitations requestId submission =>
    (checkCitations requestId submission (l.cited requestId now).1, (l.cited requestId now).2)
  | .recordResponse requestId response =>
    (finish (l.recordResponse requestId response now).1 (.accepted requestId),
      (l.recordResponse requestId response now).2)
  | .done result => (.done result, l)

end McpTools

end OpenRecall.Model
