import OpenRecall.Analysis.Windowing

/-!
# Giving a batch up

A call of `processSession` runs the pipeline on all pending windows at once, and the first
window the extractor cannot read makes the whole run raise. After `maxParseFailures` calls in
a row that end so, the worker gives the batch up: the cursor moves past all of it, and no
window of the batch leaves an atom, whether the extractor could read it or not. Without such
a window the first call stores every atom.
-/

set_option autoImplicit false

namespace OpenRecall.Analysis.DeadLetter

open Foundation OpenRecall.Model OpenRecall.Analysis.Windowing

/-- One call with `finalize`. -/
def call (cfg : WorkerConfig) (sid : String) (w : ExtractionWorker) (env : PipelineEnv) :
    ExtractionWorker :=
  (w.processSession cfg env sid true).2

/-- The windows a call with `finalize` extracts. -/
def batchWindows (cfg : WorkerConfig) (sid : String) (w : ExtractionWorker) :
    List (List CaptureEvent) :=
  cfg.pipeline.extraction.windows (w.pending cfg sid)

/-- The extractor raises its parse error on the window, on every call. -/
def Poison (cfg : WorkerConfig) (window : List CaptureEvent) : Prop :=
  cfg.pipeline.extraction.reply window = .error .llmParseError

instance (cfg : WorkerConfig) : DecidablePred (Poison cfg) := fun window =>
  inferInstanceAs (Decidable (cfg.pipeline.extraction.reply window = .error .llmParseError))

/-- How many calls in a row it takes to give the batch up, with the failures counted before. -/
def callsToGiveUp (cfg : WorkerConfig) (sid : String) (w : ExtractionWorker) : ℕ :=
  max 1 (cfg.maxParseFailures - (w.parseFailures.get? sid).getD 0)

variable {cfg : WorkerConfig} {sid : String} {w : ExtractionWorker}

/-- Once the cursor is at the last pending event nothing is pending. -/
theorem pending_of_passed {w' : ExtractionWorker} (hevents : w'.events = w.events)
    (hcursor : ∀ e ∈ w.pending cfg sid, e.seq ≤ w'.cursor cfg sid)
    (hforward : w.cursor cfg sid ≤ w'.cursor cfg sid) : w'.pending cfg sid = [] := by
  rw [ExtractionWorker.pending, hevents, List.filter_eq_nil_iff]
  intro e he
  simp only [decide_eq_true_eq, not_and]
  intro hpast hkind
  have hmem : e ∈ w.pending cfg sid := by
    rw [ExtractionWorker.pending, List.mem_filter]
    exact ⟨he, by simpa using ⟨by omega, hkind⟩⟩
  have := hcursor e hmem
  omega

/-- Advancing over a batch takes the cursor past each of its events, and forward. -/
theorem advance_past (hne : w.pending cfg sid ≠ []) {cursor : ℤ}
    (hcursor : cursor = (ExtractionWorker.advanceTo cfg (w.pending cfg sid) true).getD
      (w.cursor cfg sid)) :
    (∀ e ∈ w.pending cfg sid, e.seq ≤ cursor) ∧ w.cursor cfg sid ≤ cursor := by
  have hmap : (w.pending cfg sid).map CaptureEvent.seq ≠ [] := by simpa using hne
  obtain ⟨seq, hseq⟩ : ∃ seq, ((w.pending cfg sid).map CaptureEvent.seq).max? = some seq := by
    rw [← Option.isSome_iff_exists, List.isSome_max?_iff]
    exact hmap
  obtain ⟨hin, hmax⟩ := List.max?_eq_some_iff.mp hseq
  rw [ExtractionWorker.advanceTo, if_pos rfl, hseq, Option.getD_some] at hcursor
  subst hcursor
  refine ⟨fun e he => hmax _ (List.mem_map_of_mem he), ?_⟩
  obtain ⟨e, he, rfl⟩ := List.mem_map.mp hin
  have hpast := (List.mem_filter.mp he).2
  simp only [decide_eq_true_eq] at hpast
  omega

/-- With nothing pending, calls change nothing. -/
theorem run_of_pending_nil (h : w.pending cfg sid = []) (envs : List PipelineEnv) :
    run (call cfg sid) w envs = w := by
  induction envs with
  | nil => rfl
  | cons env envs ih =>
    rw [run_cons, call, ExtractionWorker.processSession_of_pending_nil cfg env sid true h, ih]

/-! ## A batch with a window the extractor cannot read -/

section Poisoned

/-- The run over such a batch raises the parse error and touches neither store. -/
theorem pipelineRun_poisoned
    (hsplit : ∀ window ∈ batchWindows cfg sid w,
      cfg.pipeline.extraction.Parses window ∨ Poison cfg window)
    (hpoison : ∃ window ∈ batchWindows cfg sid w, Poison cfg window) (env : PipelineEnv) :
    w.pending cfg sid ≠ [] ∧
      (w.pipelineRun cfg env sid true).1.result = .error .llmParseError ∧
      (w.pipelineRun cfg env sid true).2 = w.stores := by
  obtain ⟨window, hwindow, hreply⟩ := hpoison
  have hnot : ¬ cfg.pipeline.extraction.Parses window := by
    rintro ⟨memories, hmemories⟩
    rw [Poison, hmemories] at hreply
    cases hreply
  have hne : w.pending cfg sid ≠ [] := by
    intro hnil
    rw [batchWindows, hnil, windows_eq, windows_nil] at hwindow
    exact List.not_mem_nil hwindow
  obtain ⟨e, hraised, v, hv, hve⟩ := cfg.pipeline.extraction.extractLoop_of_not_parses sid env.now
    (fun v (hv : v ∈ cfg.pipeline.extraction.extractedWindows (w.pending cfg sid) true) =>
      ne_nil_of_mem_extractedWindows hv) ⟨window, hwindow, hnot⟩ [] none
  obtain rfl : e = .llmParseError := by
    rcases hsplit v hv with ⟨memories, hmemories⟩ | hpoison
    · rw [hmemories] at hve
      cases hve
    · rw [Poison, hve] at hpoison
      cases hpoison
      rfl
  exact ⟨hne, Pipeline.run_of_extract_error cfg.pipeline env w.stores hraised⟩

/-- After some calls on a batch that holds such a window: no atom of the batch was stored or
indexed, and the cursor is past the whole batch as soon as the worker gave it up. -/
structure BatchSkipped (cfg : WorkerConfig) (sid : String) (w w' : ExtractionWorker)
    (calls : ℕ) : Prop where
  events : w'.events = w.events
  index : w'.stores.index = w.stores.index
  seen : w'.stores.atoms.seen = w.stores.atoms.seen
  bySession : w'.stores.atoms.bySession = w.stores.atoms.bySession
  held : calls < callsToGiveUp cfg sid w → w'.cursor cfg sid = w.cursor cfg sid
  passed : callsToGiveUp cfg sid w ≤ calls →
    w'.pending cfg sid = [] ∧ ∀ e ∈ w.pending cfg sid, e.seq ≤ w'.cursor cfg sid

/-- The worker with one more failure counted. -/
def counted (sid : String) (w : ExtractionWorker) : ExtractionWorker :=
  { w with
    parseFailures := w.parseFailures.set sid ((w.parseFailures.get? sid).getD 0 + 1) }

/-- The worker that gave its batch up. -/
def givenUp (cfg : WorkerConfig) (sid : String) (w : ExtractionWorker) : ExtractionWorker :=
  { w with
    stores :=
      { w.stores with
        atoms := ExtractionWorker.advance cfg sid
          (ExtractionWorker.advanceTo cfg (w.pending cfg sid) true) w.stores.atoms }
    parseFailures := w.parseFailures.erase sid }

/-- One call on such a batch: the failure is counted, or the batch given up. -/
theorem call_poisoned
    (hsplit : ∀ window ∈ batchWindows cfg sid w,
      cfg.pipeline.extraction.Parses window ∨ Poison cfg window)
    (hpoison : ∃ window ∈ batchWindows cfg sid w, Poison cfg window) (env : PipelineEnv) :
    call cfg sid w env =
      if (w.parseFailures.get? sid).getD 0 + 1 ≥ cfg.maxParseFailures then givenUp cfg sid w
      else counted sid w := by
  obtain ⟨hne, hresult, hstores⟩ := pipelineRun_poisoned hsplit hpoison env
  have hcase := ExtractionWorker.processSession_of_parseError cfg env sid true hne hresult
  rw [hstores] at hcase
  unfold call
  split_ifs at hcase ⊢
  · exact (Prod.mk.inj hcase).2
  · exact (Prod.mk.inj hcase).2

/-- **The whole batch is skipped**, by every run of calls. The induction is on the calls: a
call that does not give up leaves one call less to do so.
SOURCE: memory/extraction_worker.py:574-620 -/
theorem run_poisoned (hversion : cfg.version ≠ "")
    (hsplit : ∀ window ∈ batchWindows cfg sid w,
      cfg.pipeline.extraction.Parses window ∨ Poison cfg window)
    (hpoison : ∃ window ∈ batchWindows cfg sid w, Poison cfg window) (envs : List PipelineEnv) :
    BatchSkipped cfg sid w (run (call cfg sid) w envs) envs.length := by
  induction envs generalizing w with
  | nil =>
    refine ⟨rfl, rfl, rfl, rfl, fun _ => rfl, fun h => ?_⟩
    rw [callsToGiveUp, List.length_nil] at h
    omega
  | cons env envs ih =>
    rw [run_cons, call_poisoned hsplit hpoison]
    obtain ⟨hne, -⟩ := pipelineRun_poisoned hsplit hpoison env
    split_ifs with hgiveUp
    · have hone : callsToGiveUp cfg sid w = 1 := by
        rw [callsToGiveUp]
        omega
      -- the rest of the calls have nothing to do
      have hpast := advance_past hne (ExtractionWorker.getCursor_advance hversion sid
        (ExtractionWorker.advanceTo cfg (w.pending cfg sid) true) w.stores.atoms)
      have hnil : (givenUp cfg sid w).pending cfg sid = [] :=
        pending_of_passed (show (givenUp cfg sid w).events = w.events from rfl) hpast.1 hpast.2
      rw [run_of_pending_nil hnil]
      refine ⟨rfl, rfl, ?_, ?_, fun h => ?_, fun _ => ⟨hnil, hpast.1⟩⟩
      · exact ExtractionWorker.advance_seen cfg sid _ _
      · exact ExtractionWorker.advance_bySession cfg sid _ _
      · rw [hone, List.length_cons] at h
        omega
    · have hrest := @ih (counted sid w) hsplit hpoison
      have hless : callsToGiveUp cfg sid (counted sid w) + 1 = callsToGiveUp cfg sid w := by
        rw [callsToGiveUp, callsToGiveUp, counted, Dict.get?_set_self, Option.getD_some]
        omega
      refine ⟨hrest.events, hrest.index, hrest.seen, hrest.bySession, fun h => ?_, fun h => ?_⟩
      · rw [List.length_cons] at h
        exact hrest.held (by omega)
      · rw [List.length_cons] at h
        exact hrest.passed (by omega)

end Poisoned

/-! ## A batch the extractor can read -/

/-- After some calls on a batch the extractor can read: all its atoms are stored and the
cursor is past it. -/
structure BatchStored (cfg : WorkerConfig) (sid : String) (w w' : ExtractionWorker) : Prop where
  stored : ∀ window ∈ batchWindows cfg sid w,
    ∀ id ∈ atomIds cfg.pipeline.extraction sid window, w'.stores.atoms.has id
  passed : w'.pending cfg sid = [] ∧ ∀ e ∈ w.pending cfg sid, e.seq ≤ w'.cursor cfg sid

/-- One call on such a batch in which nothing raises stores all its atoms. -/
theorem call_parsable (hversion : cfg.version ≠ "")
    (hembed : ∀ texts, (cfg.pipeline.embedder texts).length = texts.length)
    (hparses : ∀ window ∈ batchWindows cfg sid w, cfg.pipeline.extraction.Parses window)
    (hsync : ∀ window ∈ batchWindows cfg sid w,
      ∀ id ∈ atomIds cfg.pipeline.extraction sid window,
        id ∈ w.stores.index.ids → w.stores.atoms.has id)
    {env : PipelineEnv} (hquiet : env.Quiet) : BatchStored cfg sid w (call cfg sid w env) := by
  by_cases hne : w.pending cfg sid = []
  · rw [call, ExtractionWorker.processSession_of_pending_nil cfg env sid true hne]
    refine ⟨?_, hne, by simp [hne]⟩
    intro window hwindow
    rw [batchWindows, hne, windows_eq, windows_nil] at hwindow
    exact absurd hwindow List.not_mem_nil
  · have hloop := cfg.pipeline.extraction.extractLoop_of_parses sid env.now
      (fun v (hv : v ∈ cfg.pipeline.extraction.extractedWindows (w.pending cfg sid) true) =>
        ne_nil_of_mem_extractedWindows hv) hparses [] none
    have hextract : (cfg.pipeline.extraction.extract sid (w.pending cfg sid) true
        env.now).result = .ok ((batchWindows cfg sid w).flatMap
          (cfg.pipeline.extraction.formed sid env.now), _) :=
      congrArg ExtractionStage.Outcome.result hloop
    obtain ⟨added, hok⟩ := Pipeline.run_quiet hquiet w.stores hextract
    have hcursor := ExtractionWorker.processSession_cursor_of_ok cfg env sid true hversion hne hok
    have hpast := advance_past hne hcursor
    refine ⟨?_, pending_of_passed
      (ExtractionWorker.processSession_events cfg env sid true w) hpast.1 hpast.2, hpast.1⟩
    intro window hwindow id hid
    -- the pairs carry every atom of the batch
    have hpair : id ∈ pairIds (cfg.pipeline.pairs env sid (w.pending cfg sid) true) := by
      rw [Pipeline.pairs, hextract]
      simp only [hquiet.embed, Bool.false_eq_true, if_false]
      have hfst : ((batchWindows cfg sid w).flatMap
          (cfg.pipeline.extraction.formed sid env.now)).length ≤
          (cfg.pipeline.embedder (((batchWindows cfg sid w).flatMap
            (cfg.pipeline.extraction.formed sid env.now)).map MemoryAtom.text)).length := by
        rw [hembed, List.length_map]
      rw [pairIds, show (fun pair : MemoryAtom × Embedding => pair.1.atomId) =
        MemoryAtom.atomId ∘ Prod.fst from rfl, ← List.map_map, List.map_fst_zip hfst,
        List.map_flatMap, List.mem_flatMap]
      refine ⟨window, hwindow, ?_⟩
      rw [cfg.pipeline.extraction.formed_atomIds sid sid env.now 0]
      exact hid
    change id ∈ (w.processSession cfg env sid true).2.stores.atoms.seen
    rw [(ExtractionWorker.processSession_stores cfg env sid true w).2,
      ExtractionWorker.pipelineRun, Pipeline.run_atoms]
    rcases IndexingStage.run_result env.addRaises
      (cfg.pipeline.pairs env sid (w.pending cfg sid) true) w.stores.index with
      ⟨hlt, -⟩ | ⟨-, added, hok, -, hmem⟩
    · rw [returned_of_quiet hquiet.add] at hlt
      omega
    · rw [hok]
      dsimp only
      rw [mem_seen_appendAll, returned_of_quiet hquiet.append, List.take_length, hmem]
      by_cases hindexed : id ∈ w.stores.index.ids
      · exact Or.inl (hsync window hwindow id hid hindexed)
      · exact Or.inr ⟨hpair, hindexed⟩

/-! ## Both -/

/-- **Giving up is about the batch**: let every pending window be one the extractor can read or
one on which it always raises its parse error. If one is of the second kind, calls on the
unchanged events store no atom of the batch, and from the call on that reaches
`maxParseFailures` the cursor is past all of it. If none is, the first call in which nothing
else raises stores the atoms of every window and takes the cursor past them; the embedder
gives a vector for each text, and the index holds no atom of the batch that the store lacks.
SOURCE: memory/extraction_worker.py:508-637, memory/stages.py:172-208 -/
theorem batch_skipped_or_stored (cfg : WorkerConfig) (hversion : cfg.version ≠ "")
    (hembed : ∀ texts, (cfg.pipeline.embedder texts).length = texts.length) (sid : String)
    (w : ExtractionWorker)
    (hsplit : ∀ window ∈ batchWindows cfg sid w,
      cfg.pipeline.extraction.Parses window ∨ Poison cfg window)
    (hsync : ∀ window ∈ batchWindows cfg sid w,
      ∀ id ∈ atomIds cfg.pipeline.extraction sid window,
        id ∈ w.stores.index.ids → w.stores.atoms.has id)
    (envs : List PipelineEnv) :
    ((∃ window ∈ batchWindows cfg sid w, Poison cfg window) →
      BatchSkipped cfg sid w (run (call cfg sid) w envs) envs.length) ∧
    ((∀ window ∈ batchWindows cfg sid w, ¬ Poison cfg window) → envs ≠ [] →
      (∀ env ∈ envs, env.Quiet) → BatchStored cfg sid w (run (call cfg sid) w envs)) := by
  refine ⟨fun hpoison => run_poisoned hversion hsplit hpoison envs, ?_⟩
  intro hnone hne hquiet
  have hparses : ∀ window ∈ batchWindows cfg sid w,
      cfg.pipeline.extraction.Parses window := fun window hwindow =>
    (hsplit window hwindow).resolve_right (hnone window hwindow)
  cases envs with
  | nil => exact absurd rfl hne
  | cons env envs =>
    have hstored := call_parsable hversion hembed hparses hsync (hquiet env List.mem_cons_self)
    rw [run_cons, run_of_pending_nil hstored.passed.1]
    exact hstored

/-- An extractor that cannot read a window with the text `bad`. -/
def pickyConfig : WorkerConfig where
  pipeline :=
    { extraction :=
        { extractor := fun text =>
            if text = "bad" then .error .llmParseError else .ok [⟨"fact", text⟩]
          windowMs := 1000
          windowMs_pos := second_pos }
      embedder := fun texts => texts.map fun _ => [] }

/-- A worker with two windows to extract, the second of them `bad`. -/
def pickyWorker : ExtractionWorker :=
  reveal [demoEvent 0 .transcript 0,
    { demoEvent 1 .transcript 2000 with text := "bad" }] {}

/-- Its windows are read or poison. -/
theorem pickyWorker_split : ∀ window ∈ batchWindows pickyConfig "s" pickyWorker,
    pickyConfig.pipeline.extraction.Parses window ∨ Poison pickyConfig window := by
  have hwindows : batchWindows pickyConfig "s" pickyWorker = [[demoEvent 0 .transcript 0],
      [{ demoEvent 1 .transcript 2000 with text := "bad" }]] := by decide +kernel
  rw [hwindows]
  intro window hwindow
  rcases List.mem_cons.mp hwindow with rfl | hwindow
  · exact Or.inl ⟨_, rfl⟩
  · rw [List.mem_singleton.mp hwindow]
    exact Or.inr (by decide +kernel)

theorem batch_skipped_or_stored_picky :
    BatchSkipped pickyConfig "s" pickyWorker
      (run (call pickyConfig "s") pickyWorker (List.replicate 5 {})) 5 :=
  (batch_skipped_or_stored pickyConfig (by decide) (fun texts => List.length_map _) "s"
    pickyWorker pickyWorker_split (by decide +kernel) (List.replicate 5 {})).1 (by decide +kernel)

/-- **A window the extractor can read is lost with the batch**: after five calls the cursor is
past both windows, and the atom of the first, which the extractor reads, is not stored. -/
theorem not_always_isolated :
    ¬ ∀ (cfg : WorkerConfig) (sid : String) (w : ExtractionWorker) (envs : List PipelineEnv),
      (∀ window ∈ batchWindows cfg sid w,
        cfg.pipeline.extraction.Parses window ∨ Poison cfg window) →
      (∀ e ∈ w.pending cfg sid, e.seq ≤ (run (call cfg sid) w envs).cursor cfg sid) →
      ∀ window ∈ batchWindows cfg sid w, cfg.pipeline.extraction.Parses window →
        ∀ id ∈ atomIds cfg.pipeline.extraction sid window,
          (run (call cfg sid) w envs).stores.atoms.has id := by
  intro h
  have hstored := h pickyConfig "s" pickyWorker (List.replicate 5 {})
    pickyWorker_split (by decide +kernel) [demoEvent 0 .transcript 0] (by decide +kernel) ⟨_, rfl⟩
    "s:0:0" (by decide +kernel)
  exact absurd hstored (by decide +kernel)

end OpenRecall.Analysis.DeadLetter
