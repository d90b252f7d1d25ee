import OpenRecall.Analysis.EventSequence
import OpenRecall.Analysis.Windowing

/-!
# The cursor and the counter

Extraction only looks at transcripts past the session's cursor, so a transcript that is
stored with a number the cursor has passed never forms a memory. The cursor only moves
forward; the counter is seeded from the last event that is still stored. After the last
recording of a session was extracted and deleted the counter is behind the cursor, and what
is said next is lost to extraction. Every transcript is extractable as long as no `hello`
finds the cursor past the last event that is left, and transcripts come from the connection
that said `hello` last.
-/

set_option autoImplicit false

namespace OpenRecall.Analysis.CursorSafety

open Foundation OpenRecall.Model OpenRecall.Analysis.Windowing
  OpenRecall.Analysis.EventSequence

/-- A session with its connections, its extraction, and deletions of its recordings. -/
structure SessionRun (ω π : Type) where
  gateway : GatewayRun ω π
  stores : MemoryStores := {}
  parseFailures : Dict String ℕ := .empty
  /-- The connection that said `hello` to the session last. -/
  latest : Option ℕ := none
  /-- The stored transcripts that were neither deleted nor passed by the cursor in a call
  that had them pending. -/
  awaiting : List CaptureEvent := []

/-- What happens to the session. A deletion takes a range of its events away; the atoms that
go with them bear on no cursor.
SOURCE: http/routes/segments.py:438-508 -/
inductive SessionStep where
  | conn (st : ConnStep)
  | extract (finalize : Bool) (env : PipelineEnv)
  | delete (firstSeq lastSeq : ℤ)

section

variable {ω π : Type}

/-- The extraction worker over the gateway's event store. -/
def SessionRun.worker (s : SessionRun ω π) : ExtractionWorker where
  events := s.gateway.world.store
  stores := s.stores
  parseFailures := s.parseFailures

/-- The worker after a call. -/
def extracted (cfg : WorkerConfig) (sid : String) (s : SessionRun ω π) (finalize : Bool)
    (env : PipelineEnv) : ExtractionWorker :=
  (s.worker.processSession cfg env sid finalize).2

/-- The transcripts of the session that a handler call stored. -/
def storedNow (factory : PipelineFactory ω π) (sid : String) (s : SessionRun ω π)
    (st : ConnStep) : List CaptureEvent :=
  ((s.gateway.handle factory st).1.emissions.filter fun em =>
    em.stored ∧ em.event.sessionId = sid).map Emission.event

/-- The event is not in a range. -/
def Outside (firstSeq lastSeq : ℤ) (e : CaptureEvent) : Prop :=
  ¬ (firstSeq ≤ e.seq ∧ e.seq ≤ lastSeq)

instance (firstSeq lastSeq : ℤ) : DecidablePred (Outside firstSeq lastSeq) := fun e =>
  inferInstanceAs (Decidable (¬ (firstSeq ≤ e.seq ∧ e.seq ≤ lastSeq)))

/-- The step is a `hello` to the session. -/
def SaysHello (sid : String) (st : ConnStep) : Prop :=
  match st.event with
  | .hello sessionId _ => sessionId = sid
  | .audio _ _ | .bye | .disconnect => False

instance (sid : String) (st : ConnStep) : Decidable (SaysHello sid st) := by
  unfold SaysHello
  split <;> infer_instance

def step (factory : PipelineFactory ω π) (cfg : WorkerConfig) (sid : String)
    (s : SessionRun ω π) : SessionStep → SessionRun ω π
  | .conn st =>
    { s with
      gateway := s.gateway.step factory st
      latest := if SaysHello sid st then some st.conn else s.latest
      awaiting := s.awaiting ++ storedNow factory sid s st }
  | .extract finalize env =>
    { s with
      stores := (extracted cfg sid s finalize env).stores
      parseFailures := (extracted cfg sid s finalize env).parseFailures
      awaiting := s.awaiting.filter fun e =>
        e.seq > (extracted cfg sid s finalize env).cursor cfg sid }
  | .delete firstSeq lastSeq =>
    { s with
      gateway := { s.gateway with
        world := { s.gateway.world with
          store := (s.gateway.world.store.deleteRange sid firstSeq lastSeq).2 } }
      awaiting := s.awaiting.filter fun e => Outside firstSeq lastSeq e }

/-- The cursor is not past the last event that is left. -/
def CursorCovered (cfg : WorkerConfig) (sid : String) (s : SessionRun ω π) : Prop :=
  match s.gateway.world.store.lastEvent sid with
  | some prior => s.worker.cursor cfg sid ≤ prior.seq
  | none => s.worker.cursor cfg sid < 0

instance (cfg : WorkerConfig) (sid : String) (s : SessionRun ω π) :
    Decidable (CursorCovered cfg sid s) := by
  unfold CursorCovered
  split <;> infer_instance

/-- A `hello` finds the cursor covered, and a connection of the session that hands over
transcripts is the one that said `hello` last. -/
def Covered (factory : PipelineFactory ω π) (cfg : WorkerConfig) (sid : String)
    (s : SessionRun ω π) : SessionStep → Prop
  | .conn st =>
    (SaysHello sid st → CursorCovered cfg sid s) ∧
      ((s.gateway.cores st.conn).sessionId = some sid →
        s.gateway.transcripts factory st ≠ [] → s.latest = some st.conn)
  | .extract _ _ | .delete _ _ => True

instance (factory : PipelineFactory ω π) (cfg : WorkerConfig) (sid : String)
    (s : SessionRun ω π) (st : SessionStep) : Decidable (Covered factory cfg sid s st) := by
  unfold Covered
  split <;> infer_instance

/-- A transcript is stored with a number past the cursor, and a call of `processSession` finds
pending every stored transcript that was not deleted or extracted before. -/
def Extractable (factory : PipelineFactory ω π) (cfg : WorkerConfig) (sid : String)
    (s : SessionRun ω π) : SessionStep → Prop
  | .conn st => ∀ e ∈ storedNow factory sid s st, e.seq > s.worker.cursor cfg sid
  | .extract _ _ => ∀ e ∈ s.awaiting, e ∈ s.worker.pending cfg sid
  | .delete _ _ => True

end

/-! ## The gateway's part -/

/-- What a stretch of numbering adds to its session, and that it leaves the others alone. -/
theorem rows_emits {sid : String} {c c' : ℤ} {st st' : InMemoryEventStore}
    {emissions : List Emission} (h : GatewayCore.Emits sid c st emissions c' st') :
    c ≤ c' ∧
      (∀ e ∈ st.rows sid, e ∈ st'.rows sid) ∧
      (∀ e ∈ st'.rows sid, e ∈ st.rows sid ∨
        (c ≤ e.seq ∧ e.seq < c' ∧ (e.kind = .transcript → emissions ≠ []))) ∧
      (∀ em ∈ emissions, em.event.kind = .transcript ∧ em.event.sessionId = sid ∧
        c ≤ em.event.seq ∧ (em.stored = true → em.event ∈ st'.rows sid)) ∧
      ∀ other, other ≠ sid → st'.rows other = st.rows other := by
  induction h with
  | nil c st => exact ⟨le_rfl, fun e he => he, fun e he => Or.inl he, by simp, fun _ _ => rfl⟩
  | moment e hid hsid hseq hkind =>
    refine ⟨by omega, ?_, ?_, by simp, ?_⟩
    · intro a ha
      rw [InMemoryEventStore.rows_append]
      split_ifs
      · exact List.mem_append_left _ ha
      · exact ha
    · intro a ha
      rw [InMemoryEventStore.rows_append] at ha
      split_ifs at ha
      · rcases List.mem_append.mp ha with ha | ha
        · exact Or.inl ha
        · rw [List.mem_singleton.mp ha]
          refine Or.inr ⟨by omega, by omega, fun htranscript => ?_⟩
          rw [hkind] at htranscript
          cases htranscript
      · exact Or.inl ha
    · intro other hother
      rw [InMemoryEventStore.rows_append, if_neg]
      rintro ⟨-, heq⟩
      exact hother (heq.symm.trans hsid)
  | @transcript c c' st st' emissions e hid hsid hseq hkind rest ih =>
    obtain ⟨hle, hkeep, hnew, hems, hothers⟩ := ih
    refine ⟨by omega, ?_, ?_, ?_, ?_⟩
    · intro a ha
      apply hkeep
      rw [InMemoryEventStore.rows_append]
      split_ifs
      · exact List.mem_append_left _ ha
      · exact ha
    · intro a ha
      rcases hnew a ha with ha | ⟨hge, hlt, -⟩
      · rw [InMemoryEventStore.rows_append] at ha
        split_ifs at ha
        · rcases List.mem_append.mp ha with ha | ha
          · exact Or.inl ha
          · rw [List.mem_singleton.mp ha]
            exact Or.inr ⟨by omega, by omega, fun _ => List.cons_ne_nil _ _⟩
        · exact Or.inl ha
      · exact Or.inr ⟨by omega, hlt, fun _ => List.cons_ne_nil _ _⟩
    · intro em hem
      rcases List.mem_cons.mp hem with rfl | hem
      · refine ⟨hkind, hsid, hseq.ge, fun hstored => hkeep e ?_⟩
        have hunseen : e.eventId ∉ st.seen := by
          intro hin
          simp [InMemoryEventStore.append, hin] at hstored
        rw [InMemoryEventStore.rows_append, if_pos ⟨hunseen, hsid⟩]
        simp
      · obtain ⟨hkind', hsid', hge, hin⟩ := hems em hem
        exact ⟨hkind', hsid', by omega, hin⟩
    · intro other hother
      rw [hothers other hother, InMemoryEventStore.rows_append, if_neg]
      rintro ⟨-, heq⟩
      exact hother (heq.symm.trans hsid)

/-- A `hello` takes a number past every event that is left. -/
theorem lt_resume (sid : String) (st : InMemoryEventStore) :
    ∀ e ∈ st.rows sid, e.seq < (GatewayCore.resume sid st).1 := by
  intro e he
  unfold GatewayCore.resume
  cases hlast : st.lastEvent sid with
  | none =>
    have hnil := (st.lastEvent_eq_none_iff sid).mp hlast
    rw [hnil] at he
    exact absurd he List.not_mem_nil
  | some prior =>
    have hle := InMemoryEventStore.le_lastEvent hlast he
    dsimp only
    omega

/-! ## The worker's part -/

/-- The cursor moves to a pending event. -/
theorem advanceTo_mem {cfg : WorkerConfig} {events : List CaptureEvent} {finalize : Bool}
    {seq : ℤ} (h : ExtractionWorker.advanceTo cfg events finalize = some seq) :
    ∃ e ∈ events, e.seq = seq := by
  cases finalize with
  | true =>
    have hmem := (List.max?_eq_some_iff.mp h).1
    obtain ⟨e, he, hseq⟩ := List.mem_map.mp hmem
    exact ⟨e, he, hseq⟩
  | false =>
    have hlast : ExtractionStage.lastSeq
        (cfg.pipeline.extraction.extractedWindows events false) = some seq := h
    rw [lastSeq_eq (fun _ => ne_nil_of_mem_extractedWindows)] at hlast
    obtain ⟨e, he, hseq⟩ := Option.map_eq_some_iff.mp hlast
    refine ⟨e, ?_, hseq⟩
    obtain ⟨window, hwindow, hin⟩ := List.mem_flatten.mp (List.mem_of_getLast? he)
    rw [ExtractionStage.extractedWindows, windows_eq] at hwindow
    rw [← flatten_windows (breaks cfg.pipeline.extraction.windowMs) events]
    exact List.mem_flatten.mpr ⟨window, List.mem_of_mem_dropLast hwindow, hin⟩

/-- A call leaves the cursor where it is or takes it to a pending transcript. -/
theorem cursor_extracted {ω π : Type} {cfg : WorkerConfig} (hversion : cfg.version ≠ "")
    (sid : String) (s : SessionRun ω π) (finalize : Bool) (env : PipelineEnv) :
    (extracted cfg sid s finalize env).cursor cfg sid = s.worker.cursor cfg sid ∨
      ∃ e ∈ s.worker.pending cfg sid,
        (extracted cfg sid s finalize env).cursor cfg sid = e.seq := by
  rcases ExtractionWorker.processSession_cursor cfg env sid finalize hversion s.worker with
    hsame | hmoved
  · exact Or.inl hsame
  · cases hto : ExtractionWorker.advanceTo cfg (s.worker.pending cfg sid) finalize with
    | none =>
      rw [hto] at hmoved
      exact Or.inl hmoved
    | some seq =>
      rw [hto] at hmoved
      obtain ⟨e, he, hseq⟩ := advanceTo_mem hto
      exact Or.inr ⟨e, he, hmoved.trans hseq.symm⟩

/-- What is pending: the stored transcripts past the cursor. -/
theorem mem_pending_iff {ω π : Type} (cfg : WorkerConfig) (sid : String) (s : SessionRun ω π)
    (e : CaptureEvent) : e ∈ s.worker.pending cfg sid ↔
      e ∈ s.gateway.world.store.rows sid ∧ e.seq > s.worker.cursor cfg sid ∧
        e.kind = .transcript := by
  rw [ExtractionWorker.pending, List.mem_filter, InMemoryEventStore.mem_events_iff,
    decide_eq_true_eq]
  exact Iff.rfl

/-! ## The invariant -/

section

variable {ω π : Type} {factory : PipelineFactory ω π} {cfg : WorkerConfig} {sid : String}
  {s : SessionRun ω π}

/-- The counter of the connection that said `hello` last is ahead of the cursor and of every
stored transcript, and what awaits extraction is stored past the cursor. -/
structure Ahead (cfg : WorkerConfig) (sid : String) (s : SessionRun ω π) : Prop where
  counter : ∀ conn, s.latest = some conn → (s.gateway.cores conn).sessionId = some sid →
    s.worker.cursor cfg sid < (s.gateway.cores conn).eventSeq ∧
      ∀ e ∈ s.gateway.world.store.rows sid, e.kind = .transcript →
        e.seq < (s.gateway.cores conn).eventSeq
  awaiting : ∀ e ∈ s.awaiting, e ∈ s.gateway.world.store.rows sid ∧ e.kind = .transcript ∧
    e.seq > s.worker.cursor cfg sid

/-- What a handler call stores comes from the transcripts of its pipeline. -/
theorem storedNow_eq_nil {st : ConnStep} (h : s.gateway.transcripts factory st = []) :
    storedNow factory sid s st = [] := by
  have hlength := s.gateway.length_emissions factory st
  rw [h] at hlength
  rw [storedNow, List.eq_nil_of_length_eq_zero hlength]
  rfl

/-- The start of a session: a covered `hello` seeds the counter past the cursor. -/
theorem cursor_lt_resume (h : CursorCovered cfg sid s) :
    s.worker.cursor cfg sid < (GatewayCore.resume sid s.gateway.world.store).1 := by
  unfold CursorCovered at h
  unfold GatewayCore.resume
  cases hlast : s.gateway.world.store.lastEvent sid with
  | none =>
    rw [hlast] at h
    exact h
  | some prior =>
    rw [hlast] at h
    dsimp only at h ⊢
    omega

/-- What a handler call stores for the session, when it is not a `hello`: transcripts of the
connection that said `hello` last, numbered from its counter on. -/
theorem mem_storedNow {st : ConnStep} (hcovered : Covered factory cfg sid s (.conn st))
    {e : CaptureEvent} (he : e ∈ storedNow factory sid s st) :
    s.latest = some st.conn ∧ (s.gateway.cores st.conn).sessionId = some sid ∧
      (s.gateway.cores st.conn).eventSeq ≤ e.seq ∧ e.kind = .transcript ∧
      e ∈ (s.gateway.step factory st).world.store.rows sid := by
  have hsome : s.gateway.transcripts factory st ≠ [] := by
    intro hnil
    rw [storedNow_eq_nil hnil] at he
    exact List.not_mem_nil he
  obtain ⟨em, hem, rfl⟩ := List.mem_map.mp he
  obtain ⟨hem, hkept⟩ := List.mem_filter.mp hem
  rw [decide_eq_true_eq] at hkept
  obtain ⟨hstored, hsid⟩ := hkept
  rcases s.gateway.handle_cases factory st with ⟨_, _, _, hnone, _⟩ | ⟨-, hleaves, -⟩
  · rw [hnone] at hem
    exact absurd hem List.not_mem_nil
  · unfold GatewayCore.Leaves at hleaves
    cases hbound : (s.gateway.cores st.conn).sessionId with
    | none =>
      rw [hbound] at hleaves
      rw [hleaves.1] at hem
      exact absurd hem List.not_mem_nil
    | some bound =>
      rw [hbound] at hleaves
      obtain ⟨hkind, hown, hge, hin⟩ := (rows_emits hleaves).2.2.2.1 em hem
      obtain rfl : bound = sid := hown.symm.trans hsid
      exact ⟨hcovered.2 hbound hsome, rfl, hge, hkind, hin hstored⟩

/-- A handler call takes no event of the session away. -/
theorem rows_conn {e : CaptureEvent} (st : ConnStep)
    (he : e ∈ s.gateway.world.store.rows sid) :
    e ∈ (s.gateway.step factory st).world.store.rows sid := by
  show e ∈ (s.gateway.handle factory st).2.2.store.rows sid
  rcases s.gateway.handle_cases factory st with ⟨_, _, _, _, _, _, hstore⟩ | ⟨-, hleaves, -⟩
  · rw [hstore]
    exact he
  · unfold GatewayCore.Leaves at hleaves
    cases hbound : (s.gateway.cores st.conn).sessionId with
    | none =>
      rw [hbound] at hleaves
      rw [hleaves.2]
      exact he
    | some bound =>
      rw [hbound] at hleaves
      obtain ⟨-, hkeep, -, -, hothers⟩ := rows_emits hleaves
      by_cases hsid : sid = bound
      · subst hsid
        exact hkeep e he
      · rw [hothers sid hsid]
        exact he

/-- The counter of the connection that said `hello` last stays ahead over a handler call. -/
theorem Ahead.counter_conn (h : Ahead cfg sid s) {st : ConnStep}
    (hcovered : Covered factory cfg sid s (.conn st)) {conn : ℕ}
    (hlatest : (if SaysHello sid st then some st.conn else s.latest) = some conn)
    (hsid : ((s.gateway.step factory st).cores conn).sessionId = some sid) :
    s.worker.cursor cfg sid < ((s.gateway.step factory st).cores conn).eventSeq ∧
      ∀ e ∈ (s.gateway.step factory st).world.store.rows sid, e.kind = .transcript →
        e.seq < ((s.gateway.step factory st).cores conn).eventSeq := by
  rw [GatewayRun.step] at hsid ⊢
  dsimp only at hsid ⊢
  rcases s.gateway.handle_cases factory st with
    ⟨sessionId, startSeq, hevent, -, hbound, hseq, hstore⟩ | ⟨hno, hleaves, hkept⟩
  · have hgreets : SaysHello sid st ↔ sessionId = sid := by
      rw [SaysHello, hevent]
    by_cases heq : sessionId = sid
    · subst heq
      rw [if_pos (hgreets.mpr rfl)] at hlatest
      obtain rfl := Option.some.inj hlatest
      rw [Function.update_self, hseq, hstore]
      exact ⟨cursor_lt_resume (hcovered.1 (hgreets.mpr rfl)),
        fun e he _ => lt_resume _ _ e he⟩
    · rw [if_neg (mt hgreets.mp heq)] at hlatest
      by_cases hconn : conn = st.conn
      · rw [hconn, Function.update_self, hbound] at hsid
        exact absurd (Option.some.inj hsid) heq
      · rw [Function.update_of_ne hconn] at hsid ⊢
        rw [hstore]
        exact h.counter conn hlatest hsid
  · have hsilent : ¬ SaysHello sid st := by
      unfold SaysHello
      split
      · exact absurd ‹_› (hno _ _)
      all_goals exact not_false
    rw [if_neg hsilent] at hlatest
    unfold GatewayCore.Leaves at hleaves
    by_cases hconn : conn = st.conn
    · subst hconn
      rw [Function.update_self] at hsid ⊢
      have hbefore : (s.gateway.cores st.conn).sessionId = some sid := by
        rcases hkept with hkept | hkept
        · exact hkept.symm.trans hsid
        · rw [hkept] at hsid
          cases hsid
      rw [hbefore] at hleaves
      obtain ⟨hle, -, hnew, -, -⟩ := rows_emits hleaves
      obtain ⟨hcursor, hrows⟩ := h.counter st.conn hlatest hbefore
      refine ⟨by omega, fun e he hkind => ?_⟩
      rcases hnew e he with hold | ⟨-, hlt, -⟩
      · have := hrows e hold hkind
        omega
      · exact hlt
    · rw [Function.update_of_ne hconn] at hsid ⊢
      obtain ⟨hcursor, hrows⟩ := h.counter conn hlatest hsid
      refine ⟨hcursor, fun e he hkind => ?_⟩
      cases hbound : (s.gateway.cores st.conn).sessionId with
      | none =>
        rw [hbound] at hleaves
        rw [hleaves.2] at he
        exact hrows e he hkind
      | some bound =>
        rw [hbound] at hleaves
        obtain ⟨-, -, hnew, -, hothers⟩ := rows_emits hleaves
        by_cases heq : sid = bound
        · subst heq
          -- A transcript here would come from a connection that was overtaken.
          rcases hnew e he with hold | ⟨-, -, hsome⟩
          · exact hrows e hold hkind
          · have htranscripts : s.gateway.transcripts factory st ≠ [] := by
              intro hnil
              have hlength := s.gateway.length_emissions factory st
              rw [hnil] at hlength
              exact hsome hkind (List.eq_nil_of_length_eq_zero hlength)
            have hsame := hlatest.symm.trans (hcovered.2 hbound htranscripts)
            exact absurd (Option.some.inj hsame) hconn
        · rw [hothers sid heq] at he
          exact hrows e he hkind

/-- Every covered step keeps the counter ahead. -/
theorem Ahead.step (hversion : cfg.version ≠ "") (h : Ahead cfg sid s) {st : SessionStep}
    (hcovered : Covered factory cfg sid s st) :
    Ahead cfg sid (step factory cfg sid s st) := by
  cases st with
  | conn st =>
    refine ⟨fun conn => h.counter_conn hcovered, fun e he => ?_⟩
    rcases List.mem_append.mp he with he | he
    · obtain ⟨hrow, hkind, hgt⟩ := h.awaiting e he
      exact ⟨rows_conn st hrow, hkind, hgt⟩
    · obtain ⟨hlatest, hbound, hge, hkind, hrow⟩ := mem_storedNow hcovered he
      have hcursor := (h.counter st.conn hlatest hbound).1
      exact ⟨hrow, hkind, lt_of_lt_of_le hcursor hge⟩
  | extract finalize env =>
    refine ⟨fun conn hlatest hsid => ?_, fun e he => ?_⟩
    · obtain ⟨hcursor, hrows⟩ := h.counter conn hlatest hsid
      refine ⟨?_, hrows⟩
      show (extracted cfg sid s finalize env).cursor cfg sid < (s.gateway.cores conn).eventSeq
      rcases cursor_extracted hversion sid s finalize env with hsame | ⟨e, he, hseq⟩
      · rw [hsame]
        exact hcursor
      · obtain ⟨hrow, -, hkind⟩ := (mem_pending_iff cfg sid s e).mp he
        rw [hseq]
        exact hrows e hrow hkind
    · obtain ⟨he, hgt⟩ := List.mem_filter.mp he
      obtain ⟨hrow, hkind, -⟩ := h.awaiting e he
      exact ⟨hrow, hkind, of_decide_eq_true hgt⟩
  | delete firstSeq lastSeq =>
    have hrows : (CursorSafety.step factory cfg sid s
        (.delete firstSeq lastSeq)).gateway.world.store.rows sid =
        (s.gateway.world.store.rows sid).filter fun e =>
          ¬ (firstSeq ≤ e.seq ∧ e.seq ≤ lastSeq) := by
      refine (InMemoryEventStore.rows_deleteRange _ _ _ _ _).trans ?_
      rw [if_pos rfl]
    refine ⟨fun conn hlatest hsid => ?_, fun e he => ?_⟩
    · obtain ⟨hcursor, hbelow⟩ := h.counter conn hlatest hsid
      refine ⟨hcursor, fun e he => hbelow e ?_⟩
      rw [hrows] at he
      exact List.mem_of_mem_filter he
    · obtain ⟨he, hout⟩ := List.mem_filter.mp he
      obtain ⟨hrow, hkind, hgt⟩ := h.awaiting e he
      rw [hrows]
      exact ⟨List.mem_filter.mpr ⟨hrow, hout⟩, hkind, hgt⟩

/-- With the counter ahead, what is stored is past the cursor and what waits is pending. -/
theorem Ahead.extractable (h : Ahead cfg sid s) {st : SessionStep}
    (hcovered : Covered factory cfg sid s st) : Extractable factory cfg sid s st := by
  cases st with
  | conn st =>
    intro e he
    obtain ⟨hlatest, hbound, hge, -, -⟩ := mem_storedNow hcovered he
    exact lt_of_lt_of_le (h.counter st.conn hlatest hbound).1 hge
  | extract finalize env =>
    intro e he
    obtain ⟨hrow, hkind, hgt⟩ := h.awaiting e he
    exact (mem_pending_iff cfg sid s e).mpr ⟨hrow, hgt, hkind⟩
  | delete firstSeq lastSeq => trivial

/-- Nothing awaits extraction, and nobody said `hello`, before the first step. -/
theorem ahead_new (world : GatewayWorld ω) (stores : MemoryStores)
    (parseFailures : Dict String ℕ) :
    Ahead cfg sid
      ({ gateway := { world := world }, stores := stores, parseFailures := parseFailures } :
        SessionRun ω π) := by
  constructor
  · intro conn hlatest
    cases hlatest
  · intro e he
    cases he

/-- **Every transcript is extractable, over any connections, extractions and deletions, when
every `hello` finds the cursor covered by the last event that is left**, and transcripts come
from the connection that said `hello` last: each is stored with a number past the cursor, and
is pending in the next call of `processSession` unless it was deleted first.
SOURCE: gateway/core.py:388-399, memory/extraction_worker.py:517-553, events/store.py:155-165 -/
theorem extractable_of_covered (hversion : cfg.version ≠ "") (world : GatewayWorld ω)
    (stores : MemoryStores) (parseFailures : Dict String ℕ) (steps : List SessionStep)
    (h : EveryStep (CursorSafety.step factory cfg sid) (Covered factory cfg sid)
      { gateway := { world := world }, stores := stores, parseFailures := parseFailures } steps) :
    EveryStep (CursorSafety.step factory cfg sid) (Extractable factory cfg sid)
      { gateway := { world := world }, stores := stores, parseFailures := parseFailures }
      steps :=
  EveryStep.of_invariant (I := Ahead cfg sid) (fun _ _ hs hst => hs.step hversion hst)
    (fun _ _ hs hst => hs.extractable hst) (ahead_new world stores parseFailures) h

end

/-! ## A deleted recording -/

/-- A session is recorded, extracted and deleted; then it is recorded again. -/
def recordedAgain : List SessionStep :=
  [.conn ⟨0, 0, .hello "s" 0⟩, .conn ⟨0, 0, .audio {} (chunk 0 0)⟩, .conn ⟨0, 0, .disconnect⟩,
    .extract true {}, .delete 0 0, .conn ⟨1, 0, .hello "s" 1⟩,
    .conn ⟨1, 0, .audio {} (chunk 1 20)⟩, .conn ⟨1, 0, .disconnect⟩, .extract true {}]

/-- The same with one recording left. -/
def recordedOn : List SessionStep :=
  [.conn ⟨0, 0, .hello "s" 0⟩, .conn ⟨0, 0, .audio {} (chunk 0 0)⟩,
    .conn ⟨0, 0, .audio {} (chunk 1 20)⟩, .conn ⟨0, 0, .disconnect⟩, .extract true {},
    .delete 0 0, .conn ⟨1, 0, .hello "s" 2⟩, .conn ⟨1, 0, .audio {} (chunk 2 40)⟩,
    .conn ⟨1, 0, .disconnect⟩, .extract true {}]

theorem extractable_of_covered_recordedOn :
    EveryStep (step holding demoConfig "s") (Extractable holding demoConfig "s")
      { gateway := { world := { pipelines := () } }, stores := {}, parseFailures := .empty }
      recordedOn :=
  extractable_of_covered (by decide) { pipelines := () } {} .empty recordedOn (by decide +kernel)

/-- **What is said after a recording was deleted is lost to extraction**: its number starts over
behind the cursor. -/
theorem not_always_extractable :
    ¬ ∀ (ω π : Type) (factory : PipelineFactory ω π) (cfg : WorkerConfig) (sid : String)
      (shared : ω) (steps : List SessionStep), cfg.version ≠ "" →
      EveryStep (step factory cfg sid) (Extractable factory cfg sid)
        { gateway := { world := { pipelines := shared } } } steps := by
  intro h
  have hall : EveryStep (step holding demoConfig "s") (Extractable holding demoConfig "s")
      { gateway := { world := { pipelines := () } } }
      (recordedAgain.take 7 ++ .conn ⟨1, 0, .disconnect⟩ :: [.extract true {}]) :=
    h Unit (List Transcript) holding demoConfig "s" () recordedAgain (by decide)
  have hlost : ∃ e ∈ storedNow holding "s"
      (run (step holding demoConfig "s") { gateway := { world := { pipelines := () } } }
        (recordedAgain.take 7)) ⟨1, 0, .disconnect⟩,
      e.seq ≤ (run (step holding demoConfig "s") { gateway := { world := { pipelines := () } } }
        (recordedAgain.take 7)).worker.cursor demoConfig "s" := by decide +kernel
  obtain ⟨e, he, hle⟩ := hlost
  have hgt := hall.at_split e he
  omega

end OpenRecall.Analysis.CursorSafety
