import OpenRecall.Model.McpTools

/-!
# Where an answer's citations come from

Requests are opened and closed, planners read their answers, and agents call tools, in any order:
between any two looks of a call into the ledger every other operation may run, and each reads a
clock of its own. The log lists what the ledger let through. `Accounted` says what an event of the
log may rely on: only what the log holds before it. The invariant relates the ledger and the calls
in flight to the log; a request id is opened once, as the server mints it.
-/

set_option autoImplicit false

namespace OpenRecall.Model

open Foundation

/-! ## The ledger's operations -/

namespace RequestLedger

/-- Every entry of the first ledger is in the second. -/
def Within (l l' : RequestLedger) : Prop :=
  ∀ id e, l.entries.get? id = some e → l'.entries.get? id = some e

theorem Within.refl (l : RequestLedger) : l.Within l := fun _ _ h => h

theorem within_close (requestId : String) (l : RequestLedger) :
    (l.close requestId).Within l := by
  intro id e h
  rw [close, Dict.get?_erase] at h
  split_ifs at h
  exact h

/-- A look finds an entry that is there and whose deadline has not passed, or evicts it.
SOURCE: mcp/ledger.py:144-154 -/
theorem getLive_cases (requestId : String) (now : Time) (l : RequestLedger) :
    ((l.getLive requestId now).1 = none ∧ (l.getLive requestId now).2.Within l) ∨
      ∃ e, l.entries.get? requestId = some e ∧ now < e.deadline ∧
        l.getLive requestId now = (some e, l) := by
  unfold getLive
  cases h : l.entries.get? requestId with
  | none => exact .inl ⟨rfl, Within.refl l⟩
  | some e =>
    simp only
    split_ifs with hexpired
    · exact .inl ⟨rfl, within_close requestId l⟩
    · exact .inr ⟨e, rfl, not_le.mp hexpired, rfl⟩

theorem within_getLive (requestId : String) (now : Time) (l : RequestLedger) :
    (l.getLive requestId now).2.Within l := by
  obtain ⟨-, h⟩ | ⟨e, -, -, h⟩ := getLive_cases requestId now l
  · exact h
  · rw [h]
    exact Within.refl l

theorem recordAtoms_cases (requestId : String) (atomIds : List String) (now : Time)
    (l : RequestLedger) :
    ((∃ err, (l.recordAtoms requestId atomIds now).1 = .error err) ∧
        (l.recordAtoms requestId atomIds now).2.Within l) ∨
      ∃ e, l.entries.get? requestId = some e ∧ now < e.deadline ∧
        l.recordAtoms requestId atomIds now =
          (.ok (), ⟨l.entries.set requestId { e with atoms := e.atoms ∪ atomIds.toFinset }⟩) := by
  unfold recordAtoms
  obtain ⟨hnone, hwithin⟩ | ⟨e, hget, hlive, heq⟩ := getLive_cases requestId now l
  · rw [hnone]
    exact .inl ⟨⟨_, rfl⟩, hwithin⟩
  · rw [heq]
    exact .inr ⟨e, hget, hlive, rfl⟩

theorem recordResponse_cases (requestId : String) (response : AgentResponse) (now : Time)
    (l : RequestLedger) :
    ((∃ err, (l.recordResponse requestId response now).1 = .error err) ∧
        (l.recordResponse requestId response now).2.Within l) ∨
      ∃ e, l.entries.get? requestId = some e ∧ now < e.deadline ∧ e.response = none ∧
        l.recordResponse requestId response now =
          (.ok (), ⟨l.entries.set requestId { e with response := some response }⟩) := by
  unfold recordResponse
  obtain ⟨hnone, hwithin⟩ | ⟨e, hget, hlive, heq⟩ := getLive_cases requestId now l
  · rw [hnone]
    exact .inl ⟨⟨_, rfl⟩, hwithin⟩
  · rw [heq]
    cases hresponse : e.response with
    | some r =>
      simp only [hresponse]
      exact .inl ⟨⟨_, rfl⟩, Within.refl l⟩
    | none =>
      simp only [hresponse]
      exact .inr ⟨e, hget, hlive, hresponse, rfl⟩

/-- What is read as returned is what an entry holds.
SOURCE: mcp/ledger.py:136-138 -/
theorem of_mem_cited {requestId atomId : String} {now : Time} {l : RequestLedger}
    (h : atomId ∈ (l.cited requestId now).1) :
    ∃ e, l.entries.get? requestId = some e ∧ atomId ∈ e.atoms := by
  unfold cited at h
  obtain ⟨hnone, -⟩ | ⟨e, hget, -, heq⟩ := getLive_cases requestId now l
  · simp [hnone] at h
  · exact ⟨e, hget, by simpa [heq] using h⟩

/-- SOURCE: mcp/ledger.py:131-134 -/
theorem of_response_eq {requestId : String} {now : Time} {l : RequestLedger} {r : AgentResponse}
    (h : (l.response requestId now).1 = some r) :
    ∃ e, l.entries.get? requestId = some e ∧ e.response = some r := by
  unfold response at h
  obtain ⟨hnone, -⟩ | ⟨e, hget, -, heq⟩ := getLive_cases requestId now l
  · simp [hnone] at h
  · exact ⟨e, hget, by simpa [heq] using h⟩

/-- SOURCE: mcp/ledger.py:140-142 -/
theorem of_mayIssueCommand {requestId : String} {now : Time} {l : RequestLedger}
    (h : (l.mayIssueCommand requestId now).1 = true) :
    ∃ e, l.entries.get? requestId = some e ∧ e.triggerKind = .userRequest := by
  unfold mayIssueCommand at h
  obtain ⟨hnone, -⟩ | ⟨e, hget, -, heq⟩ := getLive_cases requestId now l
  · simp [hnone] at h
  · exact ⟨e, hget, by simpa [heq] using h⟩

end RequestLedger

/-! ## The tools -/

namespace McpTools

/-- A call that begins leaves the ledger's entries, but for one that has expired, and has nothing
to record yet but atoms.
SOURCE: mcp/tools.py:51-55 -/
theorem within_start (env : ToolEnv) (call : ToolCall) (now : Time) (l : RequestLedger) :
    (start env call now l).2.Within l := by
  unfold start
  cases requestIdOf call.args with
  | error e => exact RequestLedger.Within.refl l
  | ok requestId =>
    have h := RequestLedger.within_getLive requestId now l
    simp only
    split <;> exact h

/-- A call that begins has checked no answer.
SOURCE: mcp/tools.py:212-259 -/
theorem start_ne_recordResponse (env : ToolEnv) (call : ToolCall) (now : Time)
    (l : RequestLedger) (requestId : String) (response : AgentResponse) :
    (start env call now l).1 ≠ .recordResponse requestId response := by
  unfold start
  cases requestIdOf call.args with
  | error e => simp
  | ok id =>
    simp only
    split
    · simp
    · cases call with
      | other args => simp [afterOpen]
      | memorySearch args | memoryGet args | agentRespond args =>
        simp only [afterOpen]
        repeat' split
        all_goals simp

/-- **The citation gate**: an answer that passes it cites what was returned.
SOURCE: mcp/tools.py:260-290 -/
theorem cited_of_checkCitations {requestId id : String} {submission : Submission}
    {cited : Finset String} {response : AgentResponse}
    (h : checkCitations requestId submission cited = .recordResponse id response) :
    id = requestId ∧ ∀ atomId ∈ response.atomIds, atomId ∈ cited := by
  unfold checkCitations at h
  split_ifs at h with huncited
  obtain ⟨rfl, rfl⟩ := ToolStage.recordResponse.inj h
  refine ⟨rfl, fun atomId hatom => ?_⟩
  by_contra hnot
  refine huncited fun hnil => ?_
  have hmem : atomId ∈ uncited submission cited := by
    simpa [uncited, List.mem_mergeSort] using ⟨hatom, hnot⟩
  simp [hnil] at hmem

end McpTools

/-! ## The planner -/

namespace HermesPlanner

/-- SOURCE: agent/hermes_planner.py:179-206 -/
theorem gateConfidence_ne_issueCommand (p : HermesPlanner) (confidence : Option Number) :
    p.gateConfidence confidence ≠ .issueCommand := by
  unfold gateConfidence
  cases confidence with
  | none => simp
  | some confidence =>
    simp only
    split_ifs <;> simp

/-- A planner of an agent outside the process gives no command, and an answer only as the ledger
held it.
SOURCE: agent/hermes_planner.py:119-177 -/
theorem result_spec (p : HermesPlanner) (requestId traceId : String)
    (response : Option AgentResponse) :
    (p.result requestId traceId response).commandId = none ∧
      (p.result requestId traceId response).outcome ≠ .issueCommand ∧
      ∀ answer, (p.result requestId traceId response).answer = some answer →
        ∃ r, response = some r ∧ r.text = answer ∧
          (p.result requestId traceId response).atomIds = r.atomIds := by
  unfold result
  cases response with
  | none => by_cases hstrict : p.strictProvenance = true <;> simp [hstrict, emptyResult]
  | some r =>
    by_cases hmemory : r.kind = "no_memory"
    · simp [hmemory, emptyResult]
    by_cases hanswer : r.kind = "answer"
    · by_cases hrefused : p.gateConfidence r.confidence = .refuse
      · simp [hanswer, hrefused, emptyResult]
      · simp [hanswer, hrefused, emptyResult, gateConfidence_ne_issueCommand]
    · simp [hmemory, hanswer, emptyResult]

end HermesPlanner

/-! ## The log -/

/-- What the ledger lets through. -/
inductive LedgerEvent where
  | opened (requestId : String) (triggerKind : TriggerKind) (deadline : Time)
  | closed (requestId : String)
  | returned (requestId : String) (atomIds : List String) (now : Time)
  | recorded (requestId : String) (response : AgentResponse) (now : Time)
  | mayIssueCommand (requestId : String) (allowed : Bool)
  | planned (requestId : String) (result : PlannerResult)

/-- The request an event opens. -/
def LedgerEvent.openedId : LedgerEvent → Option String
  | .opened requestId _ _ => some requestId
  | .closed _ | .returned _ _ _ | .recorded _ _ _ | .mayIssueCommand _ _ | .planned _ _ => none

/-- The request has been opened, and not closed since. -/
def OpenIn (log : List LedgerEvent) (requestId : String) (triggerKind : TriggerKind)
    (deadline : Time) : Prop :=
  ∃ before after, log = before ++ .opened requestId triggerKind deadline :: after ∧
    .closed requestId ∉ after

/-- A retrieval tool has returned the atom to the request. -/
def ReturnedTo (log : List LedgerEvent) (requestId atomId : String) : Prop :=
  ∃ atomIds now, .returned requestId atomIds now ∈ log ∧ atomId ∈ atomIds

/-- At that time the request is open and has not expired. -/
def LiveIn (log : List LedgerEvent) (requestId : String) (now : Time) : Prop :=
  ∃ triggerKind deadline, OpenIn log requestId triggerKind deadline ∧ now < deadline

/-- **What an event relies on.** Atoms are returned to a request that is live; an answer is the
first of a request that is live, and cites what was returned to it; a proactive request may issue
no command; and a planner gives no command, and only an answer that was recorded. -/
def Accounted (log : List LedgerEvent) : LedgerEvent → Prop
  | .opened _ _ _ | .closed _ => True
  | .returned requestId _ now => LiveIn log requestId now
  | .recorded requestId response now =>
    LiveIn log requestId now ∧ (∀ atomId ∈ response.atomIds, ReturnedTo log requestId atomId) ∧
      ∀ response' now', .recorded requestId response' now' ∉ log
  | .mayIssueCommand requestId allowed =>
    (∀ deadline, .opened requestId .userRequest deadline ∉ log) → allowed = false
  | .planned requestId result =>
    result.commandId = none ∧ result.outcome ≠ .issueCommand ∧
      ∀ answer, result.answer = some answer →
        ∃ response now, .recorded requestId response now ∈ log ∧ response.text = answer ∧
          result.atomIds = response.atomIds

/-- Every event relies on what is before it. -/
def LogAccounted (log : List LedgerEvent) : Prop :=
  ∀ before e after, log = before ++ e :: after → Accounted before e

/-- What the log says about an entry of the ledger. -/
structure Explained (log : List LedgerEvent) (requestId : String) (entry : LedgerEntry) :
    Prop where
  opened : OpenIn log requestId entry.triggerKind entry.deadline
  returned : ∀ atomId ∈ entry.atoms, ReturnedTo log requestId atomId
  answered : ∀ r, entry.response = some r → ∃ now, .recorded requestId r now ∈ log
  unanswered : entry.response = none → ∀ r now, .recorded requestId r now ∉ log

section Log

variable {log : List LedgerEvent} {e : LedgerEvent} {requestId : String}

theorem OpenIn.mem {triggerKind : TriggerKind} {deadline : Time}
    (h : OpenIn log requestId triggerKind deadline) :
    .opened requestId triggerKind deadline ∈ log := by
  obtain ⟨before, after, rfl, -⟩ := h
  simp

/-- A request stays open until it is closed. -/
theorem OpenIn.concat {triggerKind : TriggerKind} {deadline : Time}
    (h : OpenIn log requestId triggerKind deadline) (he : e ≠ .closed requestId) :
    OpenIn (log ++ [e]) requestId triggerKind deadline := by
  obtain ⟨before, after, rfl, hclosed⟩ := h
  refine ⟨before, after ++ [e], by simp, ?_⟩
  simpa [hclosed] using he.symm

theorem ReturnedTo.concat {atomId : String} (h : ReturnedTo log requestId atomId)
    (e : LedgerEvent) : ReturnedTo (log ++ [e]) requestId atomId := by
  obtain ⟨atomIds, now, hmem, hatom⟩ := h
  exact ⟨atomIds, now, List.mem_append_left _ hmem, hatom⟩

/-- What the log says about an entry stands, unless the request is closed or answered. -/
theorem Explained.concat {entry : LedgerEntry} (h : Explained log requestId entry)
    (hclosed : e ≠ .closed requestId) (hrecorded : ∀ r now, e ≠ .recorded requestId r now) :
    Explained (log ++ [e]) requestId entry where
  opened := h.opened.concat hclosed
  returned atomId hatom := (h.returned atomId hatom).concat e
  answered r hr := by
    obtain ⟨now, hmem⟩ := h.answered r hr
    exact ⟨now, List.mem_append_left _ hmem⟩
  unanswered hnone r now hmem := by
    rw [List.mem_append, List.mem_singleton] at hmem
    obtain hmem | heq := hmem
    · exact h.unanswered hnone r now hmem
    · exact hrecorded r now heq.symm

theorem logAccounted_nil : LogAccounted [] := by
  intro before e after h
  simp at h

theorem LogAccounted.concat (h : LogAccounted log) (he : Accounted log e) :
    LogAccounted (log ++ [e]) := by
  intro before e' after heq
  obtain ⟨-, rfl, rfl⟩ | ⟨after', -, hlog⟩ := concat_split heq
  · exact he
  · exact h before e' after' hlog

/-- A request that was answered was opened. -/
theorem LogAccounted.opened_of_recorded (h : LogAccounted log) {r : AgentResponse} {now : Time}
    (hmem : .recorded requestId r now ∈ log) :
    ∃ triggerKind deadline, .opened requestId triggerKind deadline ∈ log := by
  obtain ⟨before, after, hlog⟩ := List.append_of_mem hmem
  obtain ⟨triggerKind, deadline, hopen, -⟩ := (h before _ after hlog).1
  refine ⟨triggerKind, deadline, ?_⟩
  rw [hlog]
  exact List.mem_append_left _ hopen.mem

end Log

/-! ## The runs -/

/-- The ledger, the calls that have begun, and the log. -/
structure McpWorld where
  ledger : RequestLedger := {}
  calls : List ToolStage := []
  log : List LedgerEvent := []

/-- The requests that have been opened. -/
def McpWorld.opened (w : McpWorld) : List String := w.log.filterMap LedgerEvent.openedId

/-- What may happen next. A call that has begun goes on by its index. -/
inductive McpStep where
  | openRequest (requestId : String) (sessionId : Option String) (triggerKind : TriggerKind)
      (ttlS : ℤ) (now : Time)
  | close (requestId : String)
  | mayIssueCommand (requestId : String) (now : Time)
  | plan (planner : HermesPlanner) (requestId traceId : String) (now : Time)
  | start (env : ToolEnv) (call : ToolCall) (now : Time)
  | advance (k : ℕ) (now : Time)

/-- What the ledger let through when a call went from one stage to another. -/
def letThrough (now : Time) : ToolStage → ToolStage → List LedgerEvent
  | .recordAtoms requestId atomIds, .done (.ok _) => [.returned requestId atomIds now]
  | .recordResponse requestId response, .done (.ok _) => [.recorded requestId response now]
  | _, _ => []

/-- SOURCE: mcp/ledger.py:81-142, mcp/tools.py:74-300, agent/hermes_planner.py:92-177 -/
def McpWorld.step (w : McpWorld) : McpStep → McpWorld
  | .openRequest requestId sessionId triggerKind ttlS now =>
    { w with
      ledger := w.ledger.openRequest requestId sessionId triggerKind ttlS now
      log := w.log ++ [.opened requestId triggerKind (now + ttlS * 1000000)] }
  | .close requestId =>
    { w with ledger := w.ledger.close requestId, log := w.log ++ [.closed requestId] }
  | .mayIssueCommand requestId now =>
    { w with
      ledger := (w.ledger.mayIssueCommand requestId now).2
      log := w.log ++ [.mayIssueCommand requestId (w.ledger.mayIssueCommand requestId now).1] }
  | .plan planner requestId traceId now =>
    { w with
      ledger := (w.ledger.response requestId now).2
      log := w.log ++ [.planned requestId
        (planner.result requestId traceId (w.ledger.response requestId now).1)] }
  | .start env call now =>
    { w with
      ledger := (McpTools.start env call now w.ledger).2
      calls := w.calls ++ [(McpTools.start env call now w.ledger).1] }
  | .advance k now =>
    match w.calls[k]? with
    | none => w
    | some stage =>
      { ledger := (McpTools.advance now stage w.ledger).2
        calls := w.calls.set k (McpTools.advance now stage w.ledger).1
        log := w.log ++ letThrough now stage (McpTools.advance now stage w.ledger).1 }

/-- A request is opened under an id of its own. -/
def McpWorld.Fresh (w : McpWorld) : McpStep → Prop
  | .openRequest requestId _ _ _ _ => requestId ∉ w.opened
  | .close _ | .mayIssueCommand _ _ | .plan _ _ _ _ | .start _ _ _ | .advance _ _ => True

instance (w : McpWorld) (s : McpStep) : Decidable (w.Fresh s) :=
  match s with
  | .openRequest requestId _ _ _ _ => inferInstanceAs (Decidable (requestId ∉ w.opened))
  | .close _ | .mayIssueCommand _ _ | .plan _ _ _ _ | .start _ _ _ | .advance _ _ =>
    inferInstanceAs (Decidable True)

/-- What a call in flight is about to record cites only what was returned. -/
def Cited (log : List LedgerEvent) : ToolStage → Prop
  | .recordResponse requestId response =>
    ∀ atomId ∈ response.atomIds, ReturnedTo log requestId atomId
  | .recordAtoms _ _ | .checkCitations _ _ | .done _ => True

/-- **The provenance invariant.** -/
structure Provenance (w : McpWorld) : Prop where
  log : LogAccounted w.log
  openedOnce : ∀ requestId kind deadline kind' deadline',
    .opened requestId kind deadline ∈ w.log → .opened requestId kind' deadline' ∈ w.log →
      kind = kind'
  entry : ∀ requestId e, w.ledger.entries.get? requestId = some e → Explained w.log requestId e
  call : ∀ stage ∈ w.calls, Cited w.log stage

theorem provenance_init : Provenance {} where
  log := logAccounted_nil
  openedOnce := by simp
  entry := by simp [Dict.get?, Dict.empty]
  call := by simp

theorem Cited.concat {log : List LedgerEvent} {stage : ToolStage} (h : Cited log stage)
    (e : LedgerEvent) : Cited (log ++ [e]) stage := by
  cases stage with
  | recordResponse requestId response => exact fun atomId hatom => (h atomId hatom).concat e
  | recordAtoms | checkCitations | done => trivial

namespace Provenance

variable {w : McpWorld}

/-- A step that lets nothing through keeps the invariant. -/
theorem quiet (h : Provenance w) {ledger : RequestLedger} {calls : List ToolStage}
    (hledger : ledger.Within w.ledger) (hcalls : ∀ stage ∈ calls, Cited w.log stage) :
    Provenance ⟨ledger, calls, w.log⟩ where
  log := h.log
  openedOnce := h.openedOnce
  entry requestId e hget := h.entry requestId e (hledger requestId e hget)
  call := hcalls

/-- A step that lets an event through keeps the invariant when the event is accounted for and
explains the entries of the ledger after it. -/
theorem event (h : Provenance w) {ledger : RequestLedger} {calls : List ToolStage}
    {e : LedgerEvent} (he : Accounted w.log e)
    (hopened : ∀ requestId, e.openedId = some requestId → requestId ∉ w.opened)
    (hentry : ∀ requestId entry, ledger.entries.get? requestId = some entry →
      Explained (w.log ++ [e]) requestId entry)
    (hcalls : ∀ stage ∈ calls, Cited w.log stage) :
    Provenance ⟨ledger, calls, w.log ++ [e]⟩ where
  log := h.log.concat he
  openedOnce requestId kind deadline kind' deadline' hmem hmem' := by
    rw [List.mem_append, List.mem_singleton] at hmem hmem'
    have hnew : ∀ {k d k' d'}, .opened requestId k d ∈ w.log →
        .opened requestId k' d' = e → False := by
      rintro k d k' d' hold rfl
      exact hopened requestId rfl (List.mem_filterMap.mpr ⟨_, hold, rfl⟩)
    obtain hmem | heq := hmem <;> obtain hmem' | heq' := hmem'
    · exact h.openedOnce requestId kind deadline kind' deadline' hmem hmem'
    · exact (hnew hmem heq').elim
    · exact (hnew hmem' heq).elim
    · exact (LedgerEvent.opened.inj (heq.trans heq'.symm)).2.1
  entry := hentry
  call stage hstage := (hcalls stage hstage).concat e

/-- An event that closes and answers nothing leaves the entries explained. -/
theorem explained_concat (h : Provenance w) {ledger : RequestLedger} {e : LedgerEvent}
    (hledger : ledger.Within w.ledger) (hclosed : ∀ id, e ≠ .closed id)
    (hrecorded : ∀ id r now, e ≠ .recorded id r now) :
    ∀ requestId entry, ledger.entries.get? requestId = some entry →
      Explained (w.log ++ [e]) requestId entry :=
  fun requestId entry hget => (h.entry requestId entry (hledger requestId entry hget)).concat
    (hclosed requestId) (hrecorded requestId)

end Provenance

section Steps

variable {w : McpWorld}

/-- The entry of a fresh request is explained, and the others still are.
SOURCE: mcp/ledger.py:81-94 -/
theorem Provenance.openRequest (h : Provenance w) {requestId : String}
    (hfresh : requestId ∉ w.opened) (sessionId : Option String) (triggerKind : TriggerKind)
    (ttlS : ℤ) (now : Time) :
    Provenance (w.step (.openRequest requestId sessionId triggerKind ttlS now)) := by
  apply h.event (e := .opened requestId triggerKind (now + ttlS * 1000000)) trivial
  · intro id hid
    rw [LedgerEvent.openedId, Option.some.injEq] at hid
    rwa [← hid]
  · intro id entry hget
    rw [RequestLedger.openRequest, Dict.get?_set] at hget
    split_ifs at hget with hid
    · subst hid
      rw [← Option.some.inj hget]
      refine ⟨⟨w.log, [], by simp, by simp⟩, by simp, by simp, ?_⟩
      intro _ r now' hmem
      rw [List.mem_append, List.mem_singleton] at hmem
      obtain hmem | heq := hmem
      · -- An answered request was opened, so its id is not fresh.
        obtain ⟨kind, deadline, hopened⟩ := h.log.opened_of_recorded hmem
        exact hfresh (List.mem_filterMap.mpr ⟨_, hopened, rfl⟩)
      · cases heq
    · exact (h.entry id entry hget).concat (by simp) (by simp)
  · exact h.call

/-- SOURCE: mcp/ledger.py:100-102 -/
theorem Provenance.close (h : Provenance w) (requestId : String) :
    Provenance (w.step (.close requestId)) := by
  apply h.event (e := .closed requestId) trivial
  · simp [LedgerEvent.openedId]
  · intro id entry hget
    have hne : id ≠ requestId := by
      rintro rfl
      simp [RequestLedger.close, Dict.get?_erase] at hget
    exact (h.entry id entry (RequestLedger.within_close requestId w.ledger id entry hget)).concat
      (by simpa using hne.symm) (by simp)
  · exact h.call

/-- A command may be issued only for an entry of a user's request, which was opened as one. -/
theorem Provenance.accounted_mayIssueCommand (h : Provenance w) (requestId : String)
    (now : Time) :
    Accounted w.log (.mayIssueCommand requestId (w.ledger.mayIssueCommand requestId now).1) := by
  intro hproactive
  by_contra hallowed
  rw [Bool.not_eq_false] at hallowed
  obtain ⟨e, hget, hkind⟩ := RequestLedger.of_mayIssueCommand hallowed
  apply hproactive e.deadline
  rw [← hkind]
  exact (h.entry requestId e hget).opened.mem

theorem Provenance.mayIssueCommand (h : Provenance w) (requestId : String) (now : Time) :
    Provenance (w.step (.mayIssueCommand requestId now)) :=
  h.event (h.accounted_mayIssueCommand requestId now) (by simp [LedgerEvent.openedId])
    (h.explained_concat (RequestLedger.within_getLive requestId now w.ledger) (by simp) (by simp))
    h.call

/-- What a planner answers was recorded. -/
theorem Provenance.accounted_planned (h : Provenance w) (planner : HermesPlanner)
    (requestId traceId : String) (now : Time) :
    Accounted w.log (.planned requestId
      (planner.result requestId traceId (w.ledger.response requestId now).1)) := by
  obtain ⟨hcommand, houtcome, hanswer⟩ :=
    planner.result_spec requestId traceId (w.ledger.response requestId now).1
  refine ⟨hcommand, houtcome, fun answer hget => ?_⟩
  obtain ⟨r, hr, htext, hids⟩ := hanswer answer hget
  obtain ⟨e, hentry, hresponse⟩ := RequestLedger.of_response_eq hr
  obtain ⟨now', hmem⟩ := (h.entry requestId e hentry).answered r hresponse
  exact ⟨r, now', hmem, htext, hids⟩

theorem Provenance.plan (h : Provenance w) (planner : HermesPlanner)
    (requestId traceId : String) (now : Time) :
    Provenance (w.step (.plan planner requestId traceId now)) :=
  h.event (h.accounted_planned planner requestId traceId now) (by simp [LedgerEvent.openedId])
    (h.explained_concat (RequestLedger.within_getLive requestId now w.ledger) (by simp) (by simp))
    h.call

/-- SOURCE: mcp/tools.py:51-55 -/
theorem Provenance.start (h : Provenance w) (env : ToolEnv) (call : ToolCall) (now : Time) :
    Provenance (w.step (.start env call now)) := by
  apply h.quiet (McpTools.within_start env call now w.ledger)
  intro stage hstage
  rw [List.mem_append, List.mem_singleton] at hstage
  obtain hstage | rfl := hstage
  · exact h.call stage hstage
  · have hne := McpTools.start_ne_recordResponse env call now w.ledger
    cases hstart : (McpTools.start env call now w.ledger).1 with
    | recordResponse requestId response => exact (hne requestId response hstart).elim
    | recordAtoms | checkCitations | done => trivial

/-- The calls after one has gone on. -/
theorem Provenance.calls_set (h : Provenance w) {k : ℕ} {stage' : ToolStage}
    (hstage' : Cited w.log stage') : ∀ stage ∈ w.calls.set k stage', Cited w.log stage := by
  intro stage hstage
  obtain hold | rfl := List.mem_or_eq_of_mem_set hstage
  · exact h.call stage hold
  · exact hstage'

/-- A retrieval tool returns atoms only as the ledger records them.
SOURCE: mcp/tools.py:88-89, mcp/tools.py:116-117 -/
theorem Provenance.recordAtoms (h : Provenance w) {k : ℕ} {requestId : String}
    {atomIds : List String} (hk : w.calls[k]? = some (.recordAtoms requestId atomIds))
    (now : Time) : Provenance (w.step (.advance k now)) := by
  simp only [McpWorld.step, hk, McpTools.advance]
  obtain ⟨⟨err, herr⟩, hwithin⟩ | ⟨e, hget, hlive, heq⟩ :=
    RequestLedger.recordAtoms_cases requestId atomIds now w.ledger
  · simp only [herr, McpTools.finish, letThrough, List.append_nil]
    exact h.quiet hwithin (h.calls_set trivial)
  · simp only [heq, McpTools.finish, letThrough]
    have hexplained := h.entry requestId e hget
    have hlive' : LiveIn w.log requestId now := ⟨_, _, hexplained.opened, hlive⟩
    apply h.event (e := .returned requestId atomIds now) hlive'
    · simp [LedgerEvent.openedId]
    · intro id entry hentry
      rw [Dict.get?_set] at hentry
      split_ifs at hentry with hid
      · subst hid
        rw [← Option.some.inj hentry]
        have hlater := hexplained.concat (e := .returned id atomIds now) (by simp) (by simp)
        refine ⟨hlater.opened, ?_, hlater.answered, hlater.unanswered⟩
        intro atomId hatom
        rw [Finset.mem_union, List.mem_toFinset] at hatom
        obtain hatom | hatom := hatom
        · exact hlater.returned atomId hatom
        · exact ⟨atomIds, now, by simp, hatom⟩
      · exact (h.entry id entry hentry).concat (by simp) (by simp)
    · exact h.calls_set trivial

/-- An answer goes on to be recorded when it cites what the entry holds.
SOURCE: mcp/tools.py:260-290 -/
theorem Provenance.checkCitations (h : Provenance w) {k : ℕ} {requestId : String}
    {submission : Submission}
    (hk : w.calls[k]? = some (.checkCitations requestId submission)) (now : Time) :
    Provenance (w.step (.advance k now)) := by
  simp only [McpWorld.step, hk, McpTools.advance, letThrough, List.append_nil]
  apply h.quiet (RequestLedger.within_getLive requestId now w.ledger)
  apply h.calls_set
  cases hnext : McpTools.checkCitations requestId submission
      (w.ledger.cited requestId now).1 with
  | recordAtoms | checkCitations | done => trivial
  | recordResponse id response =>
    obtain ⟨rfl, hcited⟩ := McpTools.cited_of_checkCitations hnext
    intro atomId hatom
    obtain ⟨e, hget, hmem⟩ := RequestLedger.of_mem_cited (hcited atomId hatom)
    exact (h.entry id e hget).returned atomId hmem

/-- An answer is recorded once.
SOURCE: mcp/tools.py:291-300, mcp/ledger.py:120-129 -/
theorem Provenance.recordResponse (h : Provenance w) {k : ℕ} {requestId : String}
    {response : AgentResponse}
    (hk : w.calls[k]? = some (.recordResponse requestId response)) (now : Time) :
    Provenance (w.step (.advance k now)) := by
  have hcited : Cited w.log (.recordResponse requestId response) :=
    h.call _ (List.mem_of_getElem? hk)
  simp only [McpWorld.step, hk, McpTools.advance]
  obtain ⟨⟨err, herr⟩, hwithin⟩ | ⟨e, hget, hlive, hnone, heq⟩ :=
    RequestLedger.recordResponse_cases requestId response now w.ledger
  · simp only [herr, McpTools.finish, letThrough, List.append_nil]
    exact h.quiet hwithin (h.calls_set trivial)
  · simp only [heq, McpTools.finish, letThrough]
    have hexplained := h.entry requestId e hget
    have hlive' : LiveIn w.log requestId now := ⟨_, _, hexplained.opened, hlive⟩
    apply h.event (e := .recorded requestId response now)
      ⟨hlive', hcited, hexplained.unanswered hnone⟩
    · simp [LedgerEvent.openedId]
    · intro id entry hentry
      rw [Dict.get?_set] at hentry
      split_ifs at hentry with hid
      · subst hid
        rw [← Option.some.inj hentry]
        refine ⟨hexplained.opened.concat (by simp), ?_, ?_, by simp⟩
        · exact fun atomId hatom => (hexplained.returned atomId hatom).concat _
        · intro r hr
          rw [Option.some.injEq] at hr
          exact ⟨now, by simp [hr]⟩
      · refine (h.entry id entry hentry).concat (by simp) fun r now' heq' => hid ?_
        exact (LedgerEvent.recorded.inj heq').1.symm
    · exact h.calls_set trivial

/-- Every step keeps the invariant, when requests are opened under fresh ids. -/
theorem Provenance.step (h : Provenance w) (s : McpStep) (hfresh : w.Fresh s) :
    Provenance (w.step s) := by
  cases s with
  | openRequest requestId sessionId triggerKind ttlS now =>
    exact h.openRequest hfresh sessionId triggerKind ttlS now
  | close requestId => exact h.close requestId
  | mayIssueCommand requestId now => exact h.mayIssueCommand requestId now
  | plan planner requestId traceId now => exact h.plan planner requestId traceId now
  | start env call now => exact h.start env call now
  | advance k now =>
    cases hk : w.calls[k]? with
    | none => simpa only [McpWorld.step, hk] using h
    | some stage =>
      cases stage with
      | recordAtoms requestId atomIds => exact h.recordAtoms hk now
      | checkCitations requestId submission => exact h.checkCitations hk now
      | recordResponse requestId response => exact h.recordResponse hk now
      | done result =>
        simp only [McpWorld.step, hk, McpTools.advance, letThrough, List.append_nil]
        exact h.quiet (RequestLedger.Within.refl w.ledger) (h.calls_set trivial)

end Steps

/-- **Answers cite what was returned.** Whatever the order of the operations and the clocks, with
requests opened under fresh ids: what is returned or recorded is so for a request that was opened,
was not closed and has not expired; an answer is the only one of its request and cites atoms
returned to that request; a request that was opened as proactive may never issue a command, and no
planner hands one on; and the ledger holds for a request only what was let through.
SOURCE: mcp/ledger.py:81-154, mcp/tools.py:74-117, mcp/tools.py:212-300 -/
theorem logAccounted_run {steps : List McpStep}
    (hfresh : EveryStep McpWorld.step McpWorld.Fresh {} steps) :
    LogAccounted (run McpWorld.step {} steps).log ∧
      (∀ requestId deadline allowed,
        .opened requestId .proactive deadline ∈ (run McpWorld.step {} steps).log →
        .mayIssueCommand requestId allowed ∈ (run McpWorld.step {} steps).log →
          allowed = false) ∧
      ∀ requestId e, (run McpWorld.step {} steps).ledger.entries.get? requestId = some e →
        Explained (run McpWorld.step {} steps).log requestId e := by
  have h : Provenance (run McpWorld.step {} steps) :=
    hfresh.invariant (fun _ s hw hs => hw.step s hs) provenance_init
  refine ⟨h.log, ?_, h.entry⟩
  intro requestId deadline allowed hopened hasked
  obtain ⟨before, after, hlog⟩ := List.append_of_mem hasked
  apply h.log before _ after hlog
  intro deadline' huser
  have hmem : .opened requestId .userRequest deadline' ∈ (run McpWorld.step {} steps).log := by
    rw [hlog]
    exact List.mem_append_left _ huser
  exact TriggerKind.noConfusion (h.openedOnce _ _ _ _ _ hopened hmem)

/-- A retriever that always finds one atom. -/
def keysEnv : ToolEnv where
  retriever := some fun _ _ _ =>
    some [⟨"a1", some "s1", "fact", "The keys are in the blue bowl.", 5, 0, .finite 1, "e1"⟩]

/-- A user's question and a proactive run side by side: the first is answered from what a search
returned, and the second asks whether it may issue a command. -/
def keysRun : List McpStep :=
  let request := ("request_id", Json.str "r1")
  [.openRequest "r1" none .userRequest 75 0, .openRequest "r2" none .proactive 120 1,
    .start keysEnv (.memorySearch [request, ("query", .str "keys")]) 2, .advance 0 3,
    .start keysEnv (.agentRespond [request, ("kind", .str "answer"), ("text", .str "The bowl."),
      ("confidence", .number (.int 1)), ("atom_ids", .array "" [.str "a1"])]) 4,
    .mayIssueCommand "r2" 5, .advance 1 6, .advance 1 7, .plan {} "r1" "t1" 8, .close "r1"]

theorem keysRun_fresh : EveryStep McpWorld.step McpWorld.Fresh {} keysRun := by decide +kernel

theorem logAccounted_keysRun :
    LogAccounted (run McpWorld.step {} keysRun).log ∧
      (run McpWorld.step {} keysRun).log.length = 7 :=
  ⟨(logAccounted_run keysRun_fresh).1, by decide +kernel⟩

end OpenRecall.Model
