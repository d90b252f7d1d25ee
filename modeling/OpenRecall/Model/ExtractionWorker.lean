import OpenRecall.Model.Extraction

/-!
# The extraction worker

`processSession` runs the pipeline over the transcripts of a session that lie past its
cursor. The cursor moves only when the run succeeds, or when it is the last of too many
parse failures in a row, in which case the batch is skipped. The worker's metrics and its
listeners are the `effects` of a call.
-/

set_option autoImplicit false

namespace OpenRecall.Model

open Foundation

/-- SOURCE: memory/extraction_worker.py:255-293 -/
structure WorkerConfig where
  pipeline : Pipeline
  maxParseFailures : ℕ := 5
  extractorVersion : Option String := none

/-- The version the cursor is stamped with: the worker's own, or else the pipeline's. -/
def WorkerConfig.version (cfg : WorkerConfig) : String :=
  cfg.extractorVersion.getD cfg.pipeline.extraction.version

/-- The worker with the stores it shares. -/
structure ExtractionWorker where
  events : InMemoryEventStore := {}
  stores : MemoryStores := {}
  parseFailures : Dict String ℕ := .empty

/-- What a call leaves besides the stores: counters, and the listeners it notifies with the
range of the batch. -/
inductive WorkerEffect where
  | llmParseFailures
  | indexingFailures
  | extractionDeadLetter
  | listeners (firstSeq lastSeq : ℤ)
  deriving DecidableEq

/-- How a call ends. -/
inductive ProcessOutcome where
  | indexed (atoms : List MemoryAtom)
  | deadLettered
  | raised (e : PipelineError)
  deriving DecidableEq

/-- The call did what it is for, neither raising nor giving the batch up. -/
def ProcessOutcome.Succeeded : ProcessOutcome → Prop
  | .indexed _ => True
  | .deadLettered | .raised _ => False

instance : DecidablePred ProcessOutcome.Succeeded := fun outcome =>
  match outcome with
  | .indexed _ => inferInstanceAs (Decidable True)
  | .deadLettered | .raised _ => inferInstanceAs (Decidable False)

/-- A call's outcome, its effects, the windows it handed to the extractor and the atoms
that extraction formed. -/
structure ProcessResult where
  outcome : ProcessOutcome
  effects : List WorkerEffect := []
  handed : List (List CaptureEvent) := []
  extracted : List MemoryAtom := []

namespace ExtractionWorker

def cursor (cfg : WorkerConfig) (sessionId : String) (w : ExtractionWorker) : ℤ :=
  w.stores.atoms.getCursor sessionId (some cfg.version)

/-- The transcripts past the cursor.
SOURCE: memory/extraction_worker.py:519-527 -/
def pending (cfg : WorkerConfig) (sessionId : String) (w : ExtractionWorker) :
    List CaptureEvent :=
  (w.events.events sessionId).filter fun e =>
    e.seq > w.cursor cfg sessionId ∧ e.kind = .transcript

/-- How far the cursor may move.
SOURCE: memory/extraction_worker.py:538, memory/extraction_worker.py:551-554 -/
def advanceTo (cfg : WorkerConfig) (events : List CaptureEvent) (finalize : Bool) : Option ℤ :=
  if finalize then (events.map CaptureEvent.seq).max?
  else cfg.pipeline.extraction.consumedSeq events false

def advance (cfg : WorkerConfig) (sessionId : String) (advanceTo : Option ℤ)
    (atoms : InMemoryAtomStore) : InMemoryAtomStore :=
  match advanceTo with
  | none => atoms
  | some seq => atoms.setCursor sessionId seq (some cfg.version)

/-- Run the pipeline for one session.
SOURCE: memory/extraction_worker.py:477-681 -/
def processSession (cfg : WorkerConfig) (env : PipelineEnv) (sessionId : String)
    (finalize : Bool) (w : ExtractionWorker) : ProcessResult × ExtractionWorker :=
  let pending := w.pending cfg sessionId
  match pending.head?, pending.getLast? with
  | some first, some last =>
    let advanceTo := advanceTo cfg pending finalize
    let (ran, stores) := cfg.pipeline.run env sessionId pending finalize w.stores
    match ran.result with
    | .error .llmParseError =>
      let failures := (w.parseFailures.get? sessionId).getD 0 + 1
      if failures ≥ cfg.maxParseFailures then
        (⟨.deadLettered, [.llmParseFailures, .extractionDeadLetter], ran.handed, ran.extracted⟩,
          { w with
            stores := { stores with atoms := advance cfg sessionId advanceTo stores.atoms }
            parseFailures := w.parseFailures.erase sessionId })
      else
        (⟨.raised .llmParseError, [.llmParseFailures], ran.handed, ran.extracted⟩,
          { w with
            stores := stores
            parseFailures := w.parseFailures.set sessionId failures })
    | .error .other =>
      (⟨.raised .other, [.indexingFailures], ran.handed, ran.extracted⟩,
        { w with stores := stores })
    | .ok indexed =>
      (⟨.indexed indexed, if indexed = [] then [] else [.listeners first.seq last.seq],
          ran.handed, ran.extracted⟩,
        { w with
          stores := { stores with atoms := advance cfg sessionId advanceTo stores.atoms }
          parseFailures := w.parseFailures.erase sessionId })
  | _, _ => (⟨.indexed [], [], [], []⟩, w)

/-! ## What a call leaves -/

/-- The cursor after it was advanced. -/
theorem getCursor_advance {cfg : WorkerConfig} (hversion : cfg.version ≠ "")
    (sessionId : String) (seq : Option ℤ) (atoms : InMemoryAtomStore) :
    (advance cfg sessionId seq atoms).getCursor sessionId (some cfg.version) =
      seq.getD (atoms.getCursor sessionId (some cfg.version)) := by
  cases seq with
  | none => rfl
  | some seq => exact InMemoryAtomStore.getCursor_setCursor sessionId seq hversion atoms

section

variable (cfg : WorkerConfig) (env : PipelineEnv) (sessionId : String) (finalize : Bool)
  {w : ExtractionWorker}

/-- With nothing pending, a call changes nothing. -/
theorem processSession_of_pending_nil (h : w.pending cfg sessionId = []) :
    w.processSession cfg env sessionId finalize = (⟨.indexed [], [], [], []⟩, w) := by
  simp [processSession, h]

/-- What is pending has a first event and a last one. -/
theorem exists_first_last (hne : w.pending cfg sessionId ≠ []) :
    ∃ first last, (w.pending cfg sessionId).head? = some first ∧
      (w.pending cfg sessionId).getLast? = some last :=
  ⟨_, _, List.head?_eq_some_head hne, List.getLast?_eq_some_getLast hne⟩

/-- The run of the pipeline in a call. -/
def pipelineRun (w : ExtractionWorker) : PipelineRun × MemoryStores :=
  cfg.pipeline.run env sessionId (w.pending cfg sessionId) finalize w.stores

/-- A run that succeeds: the cursor moves, the failures are forgotten. -/
theorem processSession_of_ok (hne : w.pending cfg sessionId ≠ []) {indexed : List MemoryAtom}
    (h : (w.pipelineRun cfg env sessionId finalize).1.result = .ok indexed) :
    (w.processSession cfg env sessionId finalize).1.outcome = .indexed indexed ∧
      (w.processSession cfg env sessionId finalize).2 =
        { w with
          stores :=
            { index := (w.pipelineRun cfg env sessionId finalize).2.index
              atoms := advance cfg sessionId
                (advanceTo cfg (w.pending cfg sessionId) finalize)
                (w.pipelineRun cfg env sessionId finalize).2.atoms }
          parseFailures := w.parseFailures.erase sessionId } := by
  obtain ⟨first, last, hfirst, hlast⟩ := exists_first_last cfg sessionId hne
  unfold pipelineRun at h ⊢
  simp only [processSession, hfirst, hlast, h, and_self]

/-- A run that raises a parse error: the failure is counted, and from `maxParseFailures` in a
row on the batch is given up. -/
theorem processSession_of_parseError (hne : w.pending cfg sessionId ≠ [])
    (h : (w.pipelineRun cfg env sessionId finalize).1.result = .error .llmParseError) :
    ((w.processSession cfg env sessionId finalize).1.outcome,
      (w.processSession cfg env sessionId finalize).2) =
      if (w.parseFailures.get? sessionId).getD 0 + 1 ≥ cfg.maxParseFailures then
        (.deadLettered,
          { w with
            stores :=
              { index := (w.pipelineRun cfg env sessionId finalize).2.index
                atoms := advance cfg sessionId
                  (advanceTo cfg (w.pending cfg sessionId) finalize)
                  (w.pipelineRun cfg env sessionId finalize).2.atoms }
            parseFailures := w.parseFailures.erase sessionId })
      else
        (.raised .llmParseError,
          { w with
            stores := (w.pipelineRun cfg env sessionId finalize).2
            parseFailures := w.parseFailures.set sessionId
              ((w.parseFailures.get? sessionId).getD 0 + 1) }) := by
  obtain ⟨first, last, hfirst, hlast⟩ := exists_first_last cfg sessionId hne
  unfold pipelineRun at h ⊢
  simp only [processSession, hfirst, hlast, h]
  split_ifs <;> rfl

/-- A run that raises anything else: only what it did to the stores is left. -/
theorem processSession_of_otherError (hne : w.pending cfg sessionId ≠ [])
    (h : (w.pipelineRun cfg env sessionId finalize).1.result = .error .other) :
    (w.processSession cfg env sessionId finalize).1.outcome = .raised .other ∧
      (w.processSession cfg env sessionId finalize).2 =
        { w with stores := (w.pipelineRun cfg env sessionId finalize).2 } := by
  obtain ⟨first, last, hfirst, hlast⟩ := exists_first_last cfg sessionId hne
  unfold pipelineRun at h ⊢
  simp only [processSession, hfirst, hlast, h, and_self]

/-- A call that succeeds with something pending comes from a run that did. -/
theorem pipelineRun_of_succeeded (hne : w.pending cfg sessionId ≠ [])
    (h : (w.processSession cfg env sessionId finalize).1.outcome.Succeeded) :
    ∃ indexed, (w.pipelineRun cfg env sessionId finalize).1.result = .ok indexed := by
  cases hres : (w.pipelineRun cfg env sessionId finalize).1.result with
  | ok indexed => exact ⟨indexed, rfl⟩
  | error e =>
    cases e with
    | llmParseError =>
      have hcase := processSession_of_parseError cfg env sessionId finalize hne hres
      split_ifs at hcase <;> rw [(Prod.mk.inj hcase).1] at h <;> exact h.elim
    | other =>
      rw [(processSession_of_otherError cfg env sessionId finalize hne hres).1] at h
      exact h.elim

/-- What a call hands over and forms is what its run does. -/
theorem processSession_handed (hne : w.pending cfg sessionId ≠ []) :
    (w.processSession cfg env sessionId finalize).1.handed =
        (w.pipelineRun cfg env sessionId finalize).1.handed ∧
      (w.processSession cfg env sessionId finalize).1.extracted =
        (w.pipelineRun cfg env sessionId finalize).1.extracted := by
  obtain ⟨first, last, hfirst, hlast⟩ := exists_first_last cfg sessionId hne
  unfold pipelineRun
  simp only [processSession, hfirst, hlast]
  split
  · split_ifs <;> exact ⟨rfl, rfl⟩
  · exact ⟨rfl, rfl⟩
  · exact ⟨rfl, rfl⟩

/-- The cursor after a run that succeeds. -/
theorem processSession_cursor_of_ok (hversion : cfg.version ≠ "")
    (hne : w.pending cfg sessionId ≠ []) {indexed : List MemoryAtom}
    (h : (w.pipelineRun cfg env sessionId finalize).1.result = .ok indexed) :
    (w.processSession cfg env sessionId finalize).2.cursor cfg sessionId =
      (advanceTo cfg (w.pending cfg sessionId) finalize).getD (w.cursor cfg sessionId) := by
  have hcursor := Pipeline.run_cursor cfg.pipeline env sessionId (w.pending cfg sessionId)
    finalize w.stores
  rw [(processSession_of_ok cfg env sessionId finalize hne h).2, cursor]
  dsimp only
  rw [getCursor_advance hversion, cursor, pipelineRun,
    InMemoryAtomStore.getCursor_congr hcursor]

/-- However a call ends, the cursor stays or moves as far as it may. -/
theorem processSession_cursor (hversion : cfg.version ≠ "") (w : ExtractionWorker) :
    (w.processSession cfg env sessionId finalize).2.cursor cfg sessionId =
        w.cursor cfg sessionId ∨
      (w.processSession cfg env sessionId finalize).2.cursor cfg sessionId =
        (advanceTo cfg (w.pending cfg sessionId) finalize).getD (w.cursor cfg sessionId) := by
  have hcursor := Pipeline.run_cursor cfg.pipeline env sessionId (w.pending cfg sessionId)
    finalize w.stores
  by_cases hne : w.pending cfg sessionId = []
  · rw [processSession_of_pending_nil cfg env sessionId finalize hne]
    exact Or.inl rfl
  · cases hres : (w.pipelineRun cfg env sessionId finalize).1.result with
    | ok indexed =>
      exact Or.inr (processSession_cursor_of_ok cfg env sessionId finalize hversion hne hres)
    | error e =>
      cases e with
      | llmParseError =>
        have hcase := processSession_of_parseError cfg env sessionId finalize hne hres
        split_ifs at hcase
        · rw [(Prod.mk.inj hcase).2, cursor]
          dsimp only
          rw [getCursor_advance hversion, cursor, pipelineRun,
            InMemoryAtomStore.getCursor_congr hcursor]
          exact Or.inr rfl
        · rw [(Prod.mk.inj hcase).2]
          exact Or.inl (InMemoryAtomStore.getCursor_congr hcursor sessionId _)
      | other =>
        rw [(processSession_of_otherError cfg env sessionId finalize hne hres).2]
        exact Or.inl (InMemoryAtomStore.getCursor_congr hcursor sessionId _)

@[simp] theorem advance_seen (seq : Option ℤ) (atoms : InMemoryAtomStore) :
    (advance cfg sessionId seq atoms).seen = atoms.seen := by
  cases seq <;> rfl

@[simp] theorem advance_bySession (seq : Option ℤ) (atoms : InMemoryAtomStore) :
    (advance cfg sessionId seq atoms).bySession = atoms.bySession := by
  cases seq <;> rfl

/-- What a call leaves in the stores is what its run does, but for the session's cursor. -/
theorem processSession_atoms (w : ExtractionWorker) :
    (w.processSession cfg env sessionId finalize).2.stores.index =
        (w.pipelineRun cfg env sessionId finalize).2.index ∧
      ∃ seq, (w.processSession cfg env sessionId finalize).2.stores.atoms =
        advance cfg sessionId seq (w.pipelineRun cfg env sessionId finalize).2.atoms := by
  by_cases hne : w.pending cfg sessionId = []
  · rw [processSession_of_pending_nil cfg env sessionId finalize hne, pipelineRun, hne,
      Pipeline.run_of_nil]
    exact ⟨rfl, none, rfl⟩
  · cases hres : (w.pipelineRun cfg env sessionId finalize).1.result with
    | ok indexed =>
      rw [(processSession_of_ok cfg env sessionId finalize hne hres).2]
      exact ⟨rfl, _, rfl⟩
    | error e =>
      cases e with
      | llmParseError =>
        have hcase := processSession_of_parseError cfg env sessionId finalize hne hres
        split_ifs at hcase
        · rw [(Prod.mk.inj hcase).2]
          exact ⟨rfl, _, rfl⟩
        · rw [(Prod.mk.inj hcase).2]
          exact ⟨rfl, none, rfl⟩
      | other =>
        rw [(processSession_of_otherError cfg env sessionId finalize hne hres).2]
        exact ⟨rfl, none, rfl⟩

/-- What a call leaves in the stores is what its run does. -/
theorem processSession_stores (w : ExtractionWorker) :
    (w.processSession cfg env sessionId finalize).2.stores.index =
        (w.pipelineRun cfg env sessionId finalize).2.index ∧
      (w.processSession cfg env sessionId finalize).2.stores.atoms.seen =
        (w.pipelineRun cfg env sessionId finalize).2.atoms.seen := by
  obtain ⟨hindex, seq, hatoms⟩ := processSession_atoms cfg env sessionId finalize w
  exact ⟨hindex, by rw [hatoms, advance_seen]⟩

/-- A call leaves the cursors of the other sessions. -/
theorem processSession_cursor_of_ne (w : ExtractionWorker) {other : String}
    (h : other ≠ sessionId) :
    (w.processSession cfg env sessionId finalize).2.stores.atoms.cursor.get? other =
      w.stores.atoms.cursor.get? other := by
  obtain ⟨-, seq, hatoms⟩ := processSession_atoms cfg env sessionId finalize w
  have hcursor : (w.pipelineRun cfg env sessionId finalize).2.atoms.cursor =
      w.stores.atoms.cursor := Pipeline.run_cursor _ _ _ _ _ _
  rw [hatoms, ← hcursor]
  cases seq with
  | none => rfl
  | some seq => exact Dict.get?_set_of_ne _ _ h

/-- A call never changes the events. -/
theorem processSession_events (w : ExtractionWorker) :
    (w.processSession cfg env sessionId finalize).2.events = w.events := by
  unfold processSession
  dsimp only
  split
  · split
    · split_ifs <;> rfl
    · rfl
    · rfl
  · rfl

end

/-! ## Reconciliation -/

/-- Process the sessions one by one, whatever the calls raise. The outcomes come with it.
SOURCE: memory/extraction_worker.py:703-717 -/
def reconcileLoop (cfg : WorkerConfig) (env : String → PipelineEnv) :
    List String → ExtractionWorker → List (String × ProcessOutcome) × ExtractionWorker
  | [], w => ([], w)
  | sid :: sids, w =>
    let called := w.processSession cfg (env sid) sid true
    let rest := reconcileLoop cfg env sids called.2
    ((sid, called.1.outcome) :: rest.1, rest.2)

/-- Process every session that has events, in order. `env` says what the run of each session
meets.
SOURCE: memory/extraction_worker.py:683-719 -/
def reconcile (cfg : WorkerConfig) (env : String → PipelineEnv) (w : ExtractionWorker) :
    List (String × ProcessOutcome) × ExtractionWorker :=
  reconcileLoop cfg env (w.events.sessions.insertionSort (· ≤ ·)) w

end ExtractionWorker

end OpenRecall.Model
