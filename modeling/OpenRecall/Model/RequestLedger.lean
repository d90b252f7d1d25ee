import OpenRecall.Model.Planner

/-!
# The request ledger

An agent outside the process reads memory through tools, each call under the id of a request that
the server opened. The ledger holds the open requests: their trigger, which atoms were returned to
them, and the one answer. Every operation runs under the ledger's lock and reads the clock once;
one that finds an entry past its deadline evicts it.
-/

set_option autoImplicit false

namespace OpenRecall.Model

open Foundation

/-- SOURCE: mcp/ledger.py:23 -/
inductive TriggerKind where
  | userRequest
  | proactive
  deriving DecidableEq

/-- The answer of an agent; the ids it may claim are what it sent.
SOURCE: mcp/ledger.py:40-54 -/
structure AgentResponse where
  kind : String
  text : String
  atomIds : List String
  confidence : Option Number
  commandId : Json := .null
  memoryAtomId : Json := .null
  reminderId : Json := .null

/-- SOURCE: mcp/ledger.py:57-65 -/
structure LedgerEntry where
  requestId : String
  sessionId : Option String
  triggerKind : TriggerKind
  openedAt : Time
  deadline : Time
  atoms : Finset String := ∅
  response : Option AgentResponse := none

/-- SOURCE: mcp/ledger.py:68-79 -/
structure RequestLedger where
  entries : Dict String LedgerEntry := .empty

/-- What an operation raises.
SOURCE: mcp/ledger.py:28-37 -/
inductive LedgerError where
  | closed (requestId : String)
  | alreadyAnswered (requestId : String)
  deriving DecidableEq

namespace RequestLedger

/-- Open a request for some seconds.
SOURCE: mcp/ledger.py:81-94 -/
def openRequest (requestId : String) (sessionId : Option String) (triggerKind : TriggerKind)
    (ttlS : ℤ) (now : Time) (l : RequestLedger) : RequestLedger where
  entries := l.entries.set requestId
    { requestId := requestId
      sessionId := sessionId
      triggerKind := triggerKind
      openedAt := now
      deadline := now + ttlS * 1000000 }

/-- SOURCE: mcp/ledger.py:100-102 -/
def close (requestId : String) (l : RequestLedger) : RequestLedger where
  entries := l.entries.erase requestId

/-- The entry of a request that is open, evicted if its deadline has passed.
SOURCE: mcp/ledger.py:144-154 -/
def getLive (requestId : String) (now : Time) (l : RequestLedger) :
    Option LedgerEntry × RequestLedger :=
  match l.entries.get? requestId with
  | none => (none, l)
  | some entry =>
    if now ≥ entry.deadline then (none, ⟨l.entries.erase requestId⟩) else (some entry, l)

/-- Record the atoms that a tool returns.
SOURCE: mcp/ledger.py:104-118 -/
def recordAtoms (requestId : String) (atomIds : List String) (now : Time) (l : RequestLedger) :
    Except LedgerError Unit × RequestLedger :=
  match (l.getLive requestId now).1 with
  | none => (.error (.closed requestId), (l.getLive requestId now).2)
  | some entry =>
    (.ok (), ⟨(l.getLive requestId now).2.entries.set requestId
      { entry with atoms := entry.atoms ∪ atomIds.toFinset }⟩)

/-- Record the answer, of which there is one.
SOURCE: mcp/ledger.py:120-129 -/
def recordResponse (requestId : String) (response : AgentResponse) (now : Time)
    (l : RequestLedger) : Except LedgerError Unit × RequestLedger :=
  match (l.getLive requestId now).1 with
  | none => (.error (.closed requestId), (l.getLive requestId now).2)
  | some entry =>
    match entry.response with
    | some _ => (.error (.alreadyAnswered requestId), (l.getLive requestId now).2)
    | none =>
      (.ok (), ⟨(l.getLive requestId now).2.entries.set requestId
        { entry with response := some response }⟩)

/-- SOURCE: mcp/ledger.py:131-134 -/
def response (requestId : String) (now : Time) (l : RequestLedger) :
    Option AgentResponse × RequestLedger :=
  ((l.getLive requestId now).1.bind LedgerEntry.response, (l.getLive requestId now).2)

/-- The atoms returned to a request.
SOURCE: mcp/ledger.py:136-138 -/
def cited (requestId : String) (now : Time) (l : RequestLedger) :
    Finset String × RequestLedger :=
  (((l.getLive requestId now).1.map LedgerEntry.atoms).getD ∅, (l.getLive requestId now).2)

/-- SOURCE: mcp/ledger.py:140-142 -/
def mayIssueCommand (requestId : String) (now : Time) (l : RequestLedger) :
    Bool × RequestLedger :=
  ((l.getLive requestId now).1.any fun entry => entry.triggerKind = .userRequest,
    (l.getLive requestId now).2)

end RequestLedger

/-! ## The planner of an agent outside the process -/

/-- Whether an answer without provenance is refused, and the confidence thresholds.
SOURCE: agent/hermes_planner.py:64-85 -/
structure HermesPlanner where
  strictProvenance : Bool := false
  confidenceAutonomous : ℚ := OpenRecall.Model.confidenceAutonomous
  confidenceConfirm : ℚ := OpenRecall.Model.confidenceConfirm

/-- A number as a float. -/
def Number.toDouble : Number → Double
  | .int n => .finite n
  | .float x => x

namespace HermesPlanner

/-- SOURCE: agent/hermes_planner.py:179-206 -/
def gateConfidence (p : HermesPlanner) (confidence : Option Number) : PlannerOutcome :=
  match confidence with
  | none => .refuse
  | some confidence =>
    if confidence.toDouble.ge p.confidenceAutonomous then .ret
    else if confidence.toDouble.ge p.confidenceConfirm then .retWithUncertainty
    else .refuse

/-- A result that refuses, or that answers nothing. -/
def emptyResult (requestId traceId : String) (outcome : PlannerOutcome)
    (refusalReason : Option RejectionReason) (refusalMessage : Option String) :
    PlannerResult where
  requestId := requestId
  retrievalTraceId := traceId
  outcome := outcome
  answer := none
  confidence := none
  confidenceBand := if outcome = .retWithUncertainty then some "unverified" else none
  atomIds := []
  refusalReason := refusalReason
  refusalMessage := refusalMessage
  atoms := []

/-- The result of a run whose agent has left this answer in the ledger.
SOURCE: agent/hermes_planner.py:92-177, agent/hermes_planner.py:208-233 -/
def result (p : HermesPlanner) (requestId traceId : String) (response : Option AgentResponse) :
    PlannerResult :=
  match response with
  | none =>
    if p.strictProvenance then
      emptyResult requestId traceId .refuse (some .provenanceMissing)
        (some "the agent returned no provenance-checked answer")
    else emptyResult requestId traceId .retWithUncertainty none none
  | some response =>
    if response.kind = "no_memory" then
      emptyResult requestId traceId .refuse (some .noSupportingMemory)
        (some "No relevant memory found.")
    else if response.kind = "answer" then
      if p.gateConfidence response.confidence = .refuse then
        emptyResult requestId traceId .refuse (some .notAutonomous)
          (some "Confidence too low to answer.")
      else
        { emptyResult requestId traceId (p.gateConfidence response.confidence) none none with
          answer := if response.text = "" then none else some response.text
          confidence := response.confidence.map Number.toDouble
          confidenceBand := none
          atomIds := response.atomIds }
    else emptyResult requestId traceId .retWithUncertainty none none

end HermesPlanner

end OpenRecall.Model
