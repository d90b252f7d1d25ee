import OpenRecall.Foundation.Run
import OpenRecall.Foundation.Windows
import OpenRecall.Model.ExtractionWorker

/-!
# Live extraction equals batch extraction

The live path calls `processSession` after every increment of a session's events and holds
the trailing window back; a last call with `finalize` takes that one too. The windows it
hands to the extractor, over all calls, are those of a single batch call on the whole
session, because windowing is incremental and the cursor always sits on a window boundary.
-/

set_option autoImplicit false

namespace OpenRecall.Analysis.Windowing

open Foundation OpenRecall.Model

/-- An event too far from the first of a window to join it. -/
def breaks (windowMs : ℤ) (first e : CaptureEvent) : Bool :=
  decide (e.startMs - first.startMs ≥ windowMs)

/-- The loop with an open window ends with the windows of what is left. -/
theorem windowsLoop_eq (windowMs : ℤ) (events : List CaptureEvent)
    (closed : List (List CaptureEvent)) (first : CaptureEvent) (current : List CaptureEvent) :
    ExtractionStage.windowsLoop windowMs events closed (first :: current) (some first.startMs) =
      closed ++ (first :: current ++ events.takeWhile fun e => !breaks windowMs first e) ::
        Foundation.windows (breaks windowMs)
          (events.dropWhile fun e => !breaks windowMs first e) := by
  induction events generalizing closed first current with
  | nil => simp [ExtractionStage.windowsLoop]
  | cons e es ih =>
    by_cases hbreaks : e.startMs - first.startMs ≥ windowMs
    · -- the event closes the window and starts the next one
      have hnot : (!breaks windowMs first e) = false := by simp [breaks, hbreaks]
      rw [ExtractionStage.windowsLoop, if_pos hbreaks, if_pos (List.cons_ne_nil _ _), ih,
        List.takeWhile_cons_of_neg (by simp [hnot]), List.dropWhile_cons_of_neg (by simp [hnot]),
        windows_cons]
      simp
    · have hjoins : breaks windowMs first e = false := by simpa [breaks] using hbreaks
      rw [ExtractionStage.windowsLoop, if_neg hbreaks, List.cons_append, ih]
      simp [hjoins]

/-- The stage's windows are greedy windows.
SOURCE: memory/stages.py:242-270 -/
theorem windows_eq (stage : ExtractionStage) (events : List CaptureEvent) :
    stage.windows events = Foundation.windows (breaks stage.windowMs) events := by
  cases events with
  | nil => simp [ExtractionStage.windows, ExtractionStage.windowsLoop]
  | cons e es =>
    have hloop := windowsLoop_eq stage.windowMs es [] e []
    rw [ExtractionStage.windows, ExtractionStage.windowsLoop, windows_cons]
    simpa using hloop

/-- The windows a call extracts are not empty. -/
theorem ne_nil_of_mem_extractedWindows {stage : ExtractionStage} {events : List CaptureEvent}
    {finalize : Bool} {window : List CaptureEvent}
    (h : window ∈ stage.extractedWindows events finalize) : window ≠ [] := by
  rw [ExtractionStage.extractedWindows, windows_eq] at h
  cases finalize with
  | true => exact ne_nil_of_mem_windows _ h
  | false => exact ne_nil_of_mem_windows _ (List.mem_of_mem_dropLast h)

/-! ## One call -/

/-- The transcripts past a cursor. -/
def transcripts (cursor : ℤ) (events : List CaptureEvent) : List CaptureEvent :=
  events.filter fun e => e.seq > cursor ∧ e.kind = .transcript

/-- The ids of the atoms a window forms, which the clock does not change. -/
def atomIds (stage : ExtractionStage) (sid : String) (window : List CaptureEvent) :
    List String :=
  (stage.formed sid 0 window).map MemoryAtom.atomId

variable {cfg : WorkerConfig} {sid : String} {w : ExtractionWorker}

/-- Events that were appended in order are pending when they are transcripts past the
cursor. -/
theorem pending_eq (h : (w.events.rows sid).Pairwise fun a b => a.seq < b.seq) :
    w.pending cfg sid = transcripts (w.cursor cfg sid) (w.events.rows sid) := by
  rw [ExtractionWorker.pending, InMemoryEventStore.events_eq_rows h, transcripts]

/-- If the extractor can read every window of a call, the call hands all of them over and
forms all their atoms. -/
theorem handed_of_parses (cfg : WorkerConfig) (sid : String) (w : ExtractionWorker)
    (env : PipelineEnv) (finalize : Bool)
    (hparses : ∀ window ∈ cfg.pipeline.extraction.extractedWindows (w.pending cfg sid) finalize,
      cfg.pipeline.extraction.Parses window) :
    (w.processSession cfg env sid finalize).1.handed =
        cfg.pipeline.extraction.extractedWindows (w.pending cfg sid) finalize ∧
      (w.processSession cfg env sid finalize).1.extracted.map MemoryAtom.atomId =
        (cfg.pipeline.extraction.extractedWindows (w.pending cfg sid) finalize).flatMap
          (atomIds cfg.pipeline.extraction sid) := by
  by_cases hne : w.pending cfg sid = []
  · rw [ExtractionWorker.processSession_of_pending_nil cfg env sid finalize hne, hne,
      ExtractionStage.extractedWindows, windows_eq, windows_nil]
    cases finalize <;> simp
  · have hloop := cfg.pipeline.extraction.extractLoop_of_parses sid env.now
      (fun _ => ne_nil_of_mem_extractedWindows) hparses [] none
    obtain ⟨hhanded, hextracted⟩ :=
      ExtractionWorker.processSession_handed cfg env sid finalize hne
    have hresult := congrArg ExtractionStage.Outcome.result hloop
    rw [hhanded, hextracted, ExtractionWorker.pipelineRun, Pipeline.run_handed,
      Pipeline.run_extracted _ _ _ hresult, ExtractionStage.extract, hloop]
    refine ⟨rfl, ?_⟩
    rw [List.nil_append, List.map_flatMap]
    apply List.flatMap_congr
    intro window _
    exact ExtractionStage.formed_atomIds _ _ _ _ _ _

/-- A call that succeeds could read its windows, and moved the cursor as far as it may. -/
theorem parses_of_succeeded (hversion : cfg.version ≠ "") {env : PipelineEnv} {finalize : Bool}
    (hne : w.pending cfg sid ≠ [])
    (h : (w.processSession cfg env sid finalize).1.outcome.Succeeded) :
    (∀ window ∈ cfg.pipeline.extraction.extractedWindows (w.pending cfg sid) finalize,
        cfg.pipeline.extraction.Parses window) ∧
      (w.processSession cfg env sid finalize).2.cursor cfg sid =
        (ExtractionWorker.advanceTo cfg (w.pending cfg sid) finalize).getD
          (w.cursor cfg sid) := by
  obtain ⟨indexed, hok⟩ := ExtractionWorker.pipelineRun_of_succeeded cfg env sid finalize hne h
  refine ⟨?_, ExtractionWorker.processSession_cursor_of_ok cfg env sid finalize hversion hne hok⟩
  intro window hwindow
  by_contra hnot
  obtain ⟨atoms, c, hextract⟩ := Pipeline.run_ok hok
  obtain ⟨e, he, -⟩ := cfg.pipeline.extraction.extractLoop_of_not_parses sid env.now
    (fun _ => ne_nil_of_mem_extractedWindows) ⟨window, hwindow, hnot⟩ [] none
  rw [ExtractionStage.extract, he] at hextract
  cases hextract

/-! ## The live path -/

/-- One increment: the events that are revealed, and what raises in the call after them. -/
structure Increment where
  events : List CaptureEvent
  env : PipelineEnv := {}

/-- Append events to the store. -/
def reveal (events : List CaptureEvent) (w : ExtractionWorker) : ExtractionWorker :=
  { w with events := events.foldl (fun st e => (st.append e).2) w.events }

/-- The worker on the live path, and what it was shown and handed over so far. -/
structure Live where
  worker : ExtractionWorker
  revealed : List CaptureEvent := []
  handed : List (List CaptureEvent) := []
  atomIds : List String := []

/-- Reveal an increment and call `processSession` without `finalize`. -/
def pass (cfg : WorkerConfig) (sid : String) (s : Live) (inc : Increment) :
    ProcessResult × ExtractionWorker :=
  (reveal inc.events s.worker).processSession cfg inc.env sid false

def step (cfg : WorkerConfig) (sid : String) (s : Live) (inc : Increment) : Live :=
  { worker := (pass cfg sid s inc).2
    revealed := s.revealed ++ inc.events
    handed := s.handed ++ (pass cfg sid s inc).1.handed
    atomIds := s.atomIds ++ (pass cfg sid s inc).1.extracted.map MemoryAtom.atomId }

/-- The call after the increment succeeds. -/
def Succeeds (cfg : WorkerConfig) (sid : String) (s : Live) (inc : Increment) : Prop :=
  (pass cfg sid s inc).1.outcome.Succeeded

instance (cfg : WorkerConfig) (sid : String) (s : Live) (inc : Increment) :
    Decidable (Succeeds cfg sid s inc) :=
  inferInstanceAs (Decidable (pass cfg sid s inc).1.outcome.Succeeded)

/-- Events of a session, in `seq` order, that a store without events of the session has not
seen. -/
structure Timeline (sid : String) (w : ExtractionWorker) (events : List CaptureEvent) :
    Prop where
  rows : w.events.rows sid = []
  session : ∀ e ∈ events, e.sessionId = sid
  seqs : events.Pairwise fun a b => a.seq < b.seq
  ids : (events.map CaptureEvent.eventId).Nodup
  unseen : ∀ e ∈ events, e.eventId ∉ w.events.seen

/-- A start of a timeline is one. -/
theorem Timeline.of_append {events more : List CaptureEvent}
    (h : Timeline sid w (events ++ more)) : Timeline sid w events where
  rows := h.rows
  session e he := h.session e (List.mem_append_left more he)
  seqs := (List.pairwise_append.mp h.seqs).1
  ids := by
    have hids := h.ids
    rw [List.map_append] at hids
    exact hids.of_append_left
  unseen e he := h.unseen e (List.mem_append_left more he)

/-- Revealing unseen events of a session puts them last, and makes them seen. -/
theorem rows_reveal {events : List CaptureEvent} (w : ExtractionWorker)
    (hsession : ∀ e ∈ events, e.sessionId = sid)
    (hids : (events.map CaptureEvent.eventId).Nodup)
    (hunseen : ∀ e ∈ events, e.eventId ∉ w.events.seen) :
    (reveal events w).events.rows sid = w.events.rows sid ++ events ∧
      ∀ id, id ∈ (reveal events w).events.seen ↔
        id ∈ w.events.seen ∨ id ∈ events.map CaptureEvent.eventId := by
  induction events generalizing w with
  | nil => simp [reveal]
  | cons e es ih =>
    have happend : e.eventId ∉ w.events.seen := hunseen e List.mem_cons_self
    have hsid : e.sessionId = sid := hsession e List.mem_cons_self
    rw [List.map_cons, List.nodup_cons] at hids
    have hseen : (w.events.append e).2.seen = insert e.eventId w.events.seen := by
      simp [InMemoryEventStore.append, happend]
    obtain ⟨hrows, hmem⟩ := ih { w with events := (w.events.append e).2 }
      (fun a ha => hsession a (List.mem_cons_of_mem e ha)) hids.2 (by
        intro a ha hin
        rw [hseen, Finset.mem_insert] at hin
        rcases hin with heq | hin
        · exact hids.1 (heq ▸ List.mem_map_of_mem ha)
        · exact hunseen a (List.mem_cons_of_mem e ha) hin)
    have hreveal : reveal (e :: es) w = reveal es { w with events := (w.events.append e).2 } := rfl
    rw [hreveal]
    refine ⟨?_, ?_⟩
    · rw [hrows, InMemoryEventStore.rows_append, if_pos ⟨happend, hsid⟩, List.append_assoc]
      rfl
    · intro id
      rw [hmem, hseen, Finset.mem_insert, List.map_cons, List.mem_cons]
      constructor
      · rintro ((rfl | h) | h)
        · exact Or.inr (Or.inl rfl)
        · exact Or.inl h
        · exact Or.inr (Or.inr h)
      · rintro (h | rfl | h)
        · exact Or.inl (Or.inr h)
        · exact Or.inl (Or.inl rfl)
        · exact Or.inr h

/-! ## The cursor on a window boundary -/

/-- The last event of the last window is the last of all, as no window is empty. -/
theorem lastSeq_eq {windows : List (List CaptureEvent)} (hne : ∀ window ∈ windows, window ≠ []) :
    ExtractionStage.lastSeq windows = windows.flatten.getLast?.map CaptureEvent.seq := by
  rcases List.eq_nil_or_concat windows with rfl | ⟨before, window, rfl⟩
  · rfl
  · rcases List.eq_nil_or_concat window with rfl | ⟨events, last, rfl⟩
    · exact absurd rfl (hne [] (by simp))
    · simp [ExtractionStage.lastSeq]

/-- The last `seq` of two runs of windows is that of the second, if it has one. -/
theorem lastSeq_append {closed windows : List (List CaptureEvent)}
    (hclosed : ∀ window ∈ closed, window ≠ []) (hne : ∀ window ∈ windows, window ≠ [])
    (cursor : ℤ) : (ExtractionStage.lastSeq (closed ++ windows)).getD cursor =
      (ExtractionStage.lastSeq windows).getD ((ExtractionStage.lastSeq closed).getD cursor) := by
  rw [lastSeq_eq hclosed, lastSeq_eq hne, lastSeq_eq (fun window h =>
    (List.mem_append.mp h).elim (hclosed window) (hne window)), List.flatten_append,
    List.getLast?_append]
  cases windows.flatten.getLast? with
  | none => rfl
  | some last => rfl

/-- Events in `seq` order have the highest `seq` last. -/
theorem max?_seq {events : List CaptureEvent}
    (hseqs : events.Pairwise fun a b => a.seq < b.seq) :
    (events.map CaptureEvent.seq).max? = events.getLast?.map CaptureEvent.seq := by
  rcases List.eq_nil_or_concat events with rfl | ⟨before, last, rfl⟩
  · rfl
  · rw [List.concat_eq_append] at hseqs ⊢
    rw [List.getLast?_concat, Option.map_some, List.max?_eq_some_iff]
    refine ⟨by simp, ?_⟩
    intro seq hseq
    obtain ⟨e, he, rfl⟩ := List.mem_map.mp hseq
    rcases List.mem_append.mp he with he | he
    · exact ((List.pairwise_append.mp hseqs).2.2 e he last (by simp)).le
    · rw [List.mem_singleton.mp he]

/-- Past the last event of the closed windows lies what they leave of the transcripts. -/
theorem transcripts_past {cursor : ℤ} {events rest : List CaptureEvent}
    {closed : List (List CaptureEvent)}
    (hseqs : events.Pairwise fun a b => a.seq < b.seq)
    (hsplit : transcripts cursor events = closed.flatten ++ rest)
    (hne : ∀ window ∈ closed, window ≠ []) :
    transcripts ((ExtractionStage.lastSeq closed).getD cursor) events = rest := by
  rcases List.eq_nil_or_concat closed with rfl | ⟨windows, window, rfl⟩
  · simpa [ExtractionStage.lastSeq] using hsplit
  · rcases List.eq_nil_or_concat window with rfl | ⟨before, last, rfl⟩
    · exact absurd rfl (hne [] (by simp))
    · have hlast : ExtractionStage.lastSeq (windows.concat (before.concat last)) =
          some last.seq := by simp [ExtractionStage.lastSeq]
      have hmem : last ∈ transcripts cursor events := by
        rw [hsplit]
        simp
      have hpast : last.seq > cursor := by
        have := (List.mem_filter.mp hmem).2
        simp only [decide_eq_true_eq] at this
        exact this.1
      -- past `last` is past the cursor, so the longer list can be filtered again
      have hfilter : transcripts last.seq events =
          (transcripts cursor events).filter fun e => e.seq > last.seq := by
        rw [transcripts, transcripts, List.filter_filter]
        apply List.filter_congr
        intro e _
        rw [← Bool.decide_and, decide_eq_decide]
        constructor
        · rintro ⟨h, hkind⟩
          exact ⟨h, by omega, hkind⟩
        · rintro ⟨h, -, hkind⟩
          exact ⟨h, hkind⟩
      have hsorted : (transcripts cursor events).Pairwise fun a b => a.seq < b.seq :=
        hseqs.sublist List.filter_sublist
      have hshape : transcripts cursor events =
          ((windows.flatten ++ before) ++ [last]) ++ rest := by
        rw [hsplit]
        simp
      rw [hshape] at hsorted
      obtain ⟨hleft, -, hcross⟩ := List.pairwise_append.mp hsorted
      obtain ⟨-, -, hbefore⟩ := List.pairwise_append.mp hleft
      have hnone : ((windows.flatten ++ before) ++ [last]).filter (fun e => e.seq > last.seq) =
          [] := by
        rw [List.filter_eq_nil_iff]
        intro e he
        rcases List.mem_append.mp he with he | he
        · have := hbefore e he last (by simp)
          simp only [decide_eq_true_eq, gt_iff_lt]
          omega
        · simp [List.mem_singleton.mp he]
      have hall : rest.filter (fun e => e.seq > last.seq) = rest := by
        rw [List.filter_eq_self]
        intro e he
        simpa using hcross last (by simp) e he
      rw [hlast, Option.getD_some, hfilter, hshape, List.filter_append, hnone, hall,
        List.nil_append]

/-- Where the live path stands after some increments: the closed windows of what was revealed
are handed over, and the cursor is on their boundary. -/
structure Inv (cfg : WorkerConfig) (sid : String) (w : ExtractionWorker) (s : Live) : Prop where
  rows : s.worker.events.rows sid = s.revealed
  seen : ∀ id, id ∈ s.worker.events.seen ↔
    id ∈ w.events.seen ∨ id ∈ s.revealed.map CaptureEvent.eventId
  handed : s.handed = (Foundation.windows (breaks cfg.pipeline.extraction.windowMs)
    (transcripts (w.cursor cfg sid) s.revealed)).dropLast
  cursor : s.worker.cursor cfg sid =
    (ExtractionStage.lastSeq s.handed).getD (w.cursor cfg sid)
  parses : ∀ window ∈ s.handed, cfg.pipeline.extraction.Parses window
  atomIds : s.atomIds = s.handed.flatMap (atomIds cfg.pipeline.extraction sid)

/-- The live path starts with nothing handed over. -/
theorem Inv.start (hrows : w.events.rows sid = []) : Inv cfg sid w { worker := w } where
  rows := hrows
  seen id := by simp
  handed := by simp [transcripts]
  cursor := rfl
  parses window h := by simp at h
  atomIds := rfl

theorem Inv.handed_ne_nil {s : Live} (h : Inv cfg sid w s) : ∀ window ∈ s.handed, window ≠ [] := by
  intro window hwindow
  rw [h.handed] at hwindow
  exact ne_nil_of_mem_windows _ (List.mem_of_mem_dropLast hwindow)

/-- What is pending after an increment: the window that was left open, and what is new. -/
theorem Inv.pending {s : Live} (h : Inv cfg sid w s) {events : List CaptureEvent}
    (hline : Timeline sid w (s.revealed ++ events)) :
    (reveal events s.worker).events.rows sid = s.revealed ++ events ∧
      (∀ id, id ∈ (reveal events s.worker).events.seen ↔
        id ∈ w.events.seen ∨ id ∈ (s.revealed ++ events).map CaptureEvent.eventId) ∧
      (reveal events s.worker).pending cfg sid =
        openWindow (breaks cfg.pipeline.extraction.windowMs)
          (transcripts (w.cursor cfg sid) s.revealed) ++
        transcripts (w.cursor cfg sid) events := by
  have hids := hline.ids
  rw [List.map_append] at hids
  obtain ⟨hrows, hseen⟩ := rows_reveal s.worker
    (fun e (he : e ∈ events) => hline.session e (List.mem_append_right _ he)) hids.of_append_right (by
      intro e he hin
      rcases (h.seen e.eventId).mp hin with hin | hin
      · exact hline.unseen e (List.mem_append_right _ he) hin
      · exact (List.disjoint_of_nodup_append hids) hin (List.mem_map_of_mem he))
  rw [h.rows] at hrows
  refine ⟨hrows, ?_, ?_⟩
  · intro id
    rw [hseen, h.seen, List.map_append, List.mem_append, or_assoc]
  · have hcursor : (reveal events s.worker).cursor cfg sid =
        (ExtractionStage.lastSeq s.handed).getD (w.cursor cfg sid) := h.cursor
    rw [pending_eq (by rw [hrows]; exact hline.seqs), hrows, hcursor]
    apply transcripts_past hline.seqs _ h.handed_ne_nil
    rw [transcripts, List.filter_append, h.handed, ← List.append_assoc]
    congr 1
    exact (flatten_dropLast_append_openWindow _ _).symm

/-- Every successful call keeps the cursor on a window boundary. -/
theorem Inv.step (hversion : cfg.version ≠ "") {s : Live} (h : Inv cfg sid w s) {inc : Increment}
    (hline : Timeline sid w (s.revealed ++ inc.events)) (hok : Succeeds cfg sid s inc) :
    Inv cfg sid w (step cfg sid s inc) := by
  obtain ⟨hrows, hseen, hpending⟩ := h.pending hline
  have hevents : (pass cfg sid s inc).2.events = (reveal inc.events s.worker).events :=
    ExtractionWorker.processSession_events cfg inc.env sid false _
  have hsplit : transcripts (w.cursor cfg sid) (s.revealed ++ inc.events) =
      transcripts (w.cursor cfg sid) s.revealed ++ transcripts (w.cursor cfg sid) inc.events :=
    List.filter_append ..
  have hwindows := windows_append (breaks cfg.pipeline.extraction.windowMs)
    (transcripts (w.cursor cfg sid) s.revealed) (transcripts (w.cursor cfg sid) inc.events)
  rw [← hsplit, ← hpending, ← h.handed] at hwindows
  have hextracted : cfg.pipeline.extraction.extractedWindows
      ((reveal inc.events s.worker).pending cfg sid) false =
      (Foundation.windows (breaks cfg.pipeline.extraction.windowMs)
        ((reveal inc.events s.worker).pending cfg sid)).dropLast := by
    rw [ExtractionStage.extractedWindows, windows_eq]
    rfl
  -- what a call does, with nothing pending or not
  obtain ⟨hparses, hcursor⟩ : (∀ window ∈ cfg.pipeline.extraction.extractedWindows
        ((reveal inc.events s.worker).pending cfg sid) false,
        cfg.pipeline.extraction.Parses window) ∧
      (pass cfg sid s inc).2.cursor cfg sid =
        (ExtractionStage.lastSeq (cfg.pipeline.extraction.extractedWindows
          ((reveal inc.events s.worker).pending cfg sid) false)).getD
          (s.worker.cursor cfg sid) := by
    by_cases hne : (reveal inc.events s.worker).pending cfg sid = []
    · rw [pass, ExtractionWorker.processSession_of_pending_nil cfg inc.env sid false hne,
        hextracted, hne, windows_nil]
      exact ⟨by simp, rfl⟩
    · exact parses_of_succeeded hversion hne hok
  obtain ⟨hhanded, hatomIds⟩ := handed_of_parses cfg sid _ inc.env false hparses
  have hclosed : s.handed ++ (pass cfg sid s inc).1.handed =
      (Foundation.windows (breaks cfg.pipeline.extraction.windowMs)
        (transcripts (w.cursor cfg sid) (s.revealed ++ inc.events))).dropLast := by
    rw [pass, hhanded, hextracted, hwindows]
    by_cases hne : (reveal inc.events s.worker).pending cfg sid = []
    · -- nothing is pending, so no transcript was left open and none is new
      rw [hne, windows_nil, List.dropLast_nil, List.append_nil]
      rw [hne] at hpending
      obtain ⟨hopen, -⟩ := List.append_eq_nil_iff.mp hpending.symm
      have hnone : transcripts (w.cursor cfg sid) s.revealed = [] := by
        by_contra hsome
        have hself := windows_openWindow (breaks cfg.pipeline.extraction.windowMs) hsome
        rw [hopen, windows_nil] at hself
        cases hself
      rw [h.handed, hnone, windows_nil]
      rfl
    · rw [List.dropLast_append_of_ne_nil]
      rwa [Ne, windows_eq_nil_iff]
  constructor
  · change (pass cfg sid s inc).2.events.rows sid = _
    rw [hevents, hrows]
    rfl
  · intro id
    change id ∈ (pass cfg sid s inc).2.events.seen ↔ _
    rw [hevents]
    exact hseen id
  · exact hclosed
  · change (pass cfg sid s inc).2.cursor cfg sid = (ExtractionStage.lastSeq
      (s.handed ++ (pass cfg sid s inc).1.handed)).getD (w.cursor cfg sid)
    rw [hcursor, pass, hhanded, lastSeq_append h.handed_ne_nil
      (fun _ => ne_nil_of_mem_extractedWindows), h.cursor]
  · intro window hwindow
    rcases List.mem_append.mp hwindow with hwindow | hwindow
    · exact h.parses window hwindow
    · rw [pass, hhanded] at hwindow
      exact hparses window hwindow
  · change s.atomIds ++ (pass cfg sid s inc).1.extracted.map MemoryAtom.atomId =
      (s.handed ++ (pass cfg sid s inc).1.handed).flatMap _
    rw [pass, hatomIds, hhanded, h.atomIds, List.flatMap_append]

/-! ## Live and batch -/

/-- The live path after all increments. -/
def live (cfg : WorkerConfig) (sid : String) (w : ExtractionWorker) (incs : List Increment) :
    Live :=
  run (step cfg sid) { worker := w } incs

/-- The last call of the live path. -/
def finish (cfg : WorkerConfig) (sid : String) (w : ExtractionWorker) (incs : List Increment)
    (env : PipelineEnv) : ProcessResult × ExtractionWorker :=
  (live cfg sid w incs).worker.processSession cfg env sid true

/-- The one call on the whole session. -/
def batch (cfg : WorkerConfig) (sid : String) (w : ExtractionWorker) (incs : List Increment)
    (env : PipelineEnv) : ProcessResult :=
  ((reveal (incs.flatMap Increment.events) w).processSession cfg env sid true).1

/-- The live path hands over the windows of the batch call, each once, forms its atoms, and
keeps the cursor at the end of the last window handed over. -/
structure LiveEqualsBatch (cfg : WorkerConfig) (sid : String) (w : ExtractionWorker)
    (incs : List Increment) (env batchEnv : PipelineEnv) : Prop where
  handed : (live cfg sid w incs).handed ++ (finish cfg sid w incs env).1.handed =
    (batch cfg sid w incs batchEnv).handed
  windows : (batch cfg sid w incs batchEnv).handed = cfg.pipeline.extraction.windows
    (transcripts (w.cursor cfg sid) (incs.flatMap Increment.events))
  once : ((live cfg sid w incs).handed ++ (finish cfg sid w incs env).1.handed).Nodup
  atomIds : (live cfg sid w incs).atomIds ++
      (finish cfg sid w incs env).1.extracted.map MemoryAtom.atomId =
    (batch cfg sid w incs batchEnv).extracted.map MemoryAtom.atomId
  boundary : EveryStep (step cfg sid) (fun s inc => (step cfg sid s inc).worker.cursor cfg sid =
    (ExtractionStage.lastSeq (step cfg sid s inc).handed).getD (w.cursor cfg sid))
    { worker := w } incs
  finished : (finish cfg sid w incs env).2.cursor cfg sid =
    (ExtractionStage.lastSeq ((live cfg sid w incs).handed ++
      (finish cfg sid w incs env).1.handed)).getD (w.cursor cfg sid)

/-- What the live path was shown. -/
theorem revealed_run (s : Live) (incs : List Increment) :
    (run (step cfg sid) s incs).revealed = s.revealed ++ incs.flatMap Increment.events := by
  induction incs generalizing s with
  | nil => simp
  | cons inc incs ih =>
    rw [run_cons, ih, List.flatMap_cons, ← List.append_assoc]
    rfl

/-- Each increment extends the timeline. -/
theorem everyStep_timeline (cfg : WorkerConfig) {s : Live} {incs : List Increment}
    (hline : Timeline sid w (s.revealed ++ incs.flatMap Increment.events)) :
    EveryStep (step cfg sid) (fun s inc => Timeline sid w (s.revealed ++ inc.events)) s incs := by
  induction incs generalizing s with
  | nil => trivial
  | cons inc incs ih =>
    rw [List.flatMap_cons, ← List.append_assoc] at hline
    exact ⟨hline.of_append, ih hline⟩

/-- **Live extraction equals batch extraction**: for every way of revealing a session's events
with a successful call after each increment and a successful last call, the windows handed to
the extractor are those of one batch call, each handed over once, with the same atom ids; and
after every call the cursor is the `seq` of the last event of the last window handed over, or
where it was at first. The version that stamps the cursor is not empty: every caller leaves it
at `v1`.
SOURCE: memory/stages.py:122-270, memory/extraction_worker.py:517-681 -/
theorem live_equals_batch (cfg : WorkerConfig) (hversion : cfg.version ≠ "") (sid : String)
    (w : ExtractionWorker) (incs : List Increment)
    (hline : Timeline sid w (incs.flatMap Increment.events))
    (hlive : EveryStep (step cfg sid) (Succeeds cfg sid) { worker := w } incs)
    (env : PipelineEnv) (hfinish : (finish cfg sid w incs env).1.outcome.Succeeded)
    (batchEnv : PipelineEnv) : LiveEqualsBatch cfg sid w incs env batchEnv := by
  have hstart : Inv cfg sid w { worker := w } := Inv.start hline.rows
  have hsteps := (everyStep_timeline cfg (show Timeline sid w (Live.revealed { worker := w } ++ _) from
    hline)).and hlive
  have hinv : Inv cfg sid w (live cfg sid w incs) :=
    EveryStep.invariant (fun s inc h hp => h.step hversion hp.1 hp.2) hstart hsteps
  have hrevealed : (live cfg sid w incs).revealed = incs.flatMap Increment.events :=
    revealed_run { worker := w } incs
  -- what the last call finds pending is the open window
  obtain ⟨-, -, hpending⟩ := hinv.pending (show Timeline sid w (_ ++ []) by
    rwa [hrevealed, List.append_nil])
  rw [hrevealed, show transcripts (w.cursor cfg sid) [] = [] from rfl, List.append_nil] at hpending
  change (live cfg sid w incs).worker.pending cfg sid = _ at hpending
  have hwindows := windows_append (breaks cfg.pipeline.extraction.windowMs)
    (transcripts (w.cursor cfg sid) (incs.flatMap Increment.events)) []
  rw [List.append_nil, List.append_nil, ← hpending, ← hrevealed, ← hinv.handed, hrevealed,
    ← windows_eq, ← windows_eq] at hwindows
  have hseqs : ((live cfg sid w incs).worker.pending cfg sid).Pairwise
      fun a b => a.seq < b.seq := by
    rw [pending_eq (by rw [hinv.rows, hrevealed]; exact hline.seqs), hinv.rows, hrevealed]
    exact hline.seqs.sublist List.filter_sublist
  obtain ⟨hparses, hcursor⟩ : (∀ window ∈ cfg.pipeline.extraction.extractedWindows
        ((live cfg sid w incs).worker.pending cfg sid) true,
        cfg.pipeline.extraction.Parses window) ∧
      (finish cfg sid w incs env).2.cursor cfg sid =
        (ExtractionStage.lastSeq (cfg.pipeline.extraction.extractedWindows
          ((live cfg sid w incs).worker.pending cfg sid) true)).getD
          ((live cfg sid w incs).worker.cursor cfg sid) := by
    have hflat : (cfg.pipeline.extraction.extractedWindows
        ((live cfg sid w incs).worker.pending cfg sid) true).flatten =
        (live cfg sid w incs).worker.pending cfg sid := by
      rw [ExtractionStage.extractedWindows, windows_eq]
      exact flatten_windows _ _
    rw [lastSeq_eq (fun _ => ne_nil_of_mem_extractedWindows), hflat, ← max?_seq hseqs]
    by_cases hne : (live cfg sid w incs).worker.pending cfg sid = []
    · rw [finish, ExtractionWorker.processSession_of_pending_nil cfg env sid true hne, hne,
        ExtractionStage.extractedWindows, windows_eq, windows_nil]
      exact ⟨by simp, rfl⟩
    · exact parses_of_succeeded hversion hne hfinish
  obtain ⟨hhanded, hatomIds⟩ := handed_of_parses cfg sid _ env true hparses
  -- what the batch call finds pending is every transcript
  obtain ⟨hrows, -⟩ := rows_reveal w hline.session hline.ids hline.unseen
  rw [hline.rows, List.nil_append] at hrows
  have hall : (reveal (incs.flatMap Increment.events) w).pending cfg sid =
      transcripts (w.cursor cfg sid) (incs.flatMap Increment.events) := by
    rw [pending_eq (by rw [hrows]; exact hline.seqs), hrows]
    rfl
  have hextracted : cfg.pipeline.extraction.extractedWindows
      ((reveal (incs.flatMap Increment.events) w).pending cfg sid) true =
      (live cfg sid w incs).handed ++ cfg.pipeline.extraction.extractedWindows
        ((live cfg sid w incs).worker.pending cfg sid) true := by
    rw [hall]
    exact hwindows
  obtain ⟨hbatch, hbatchIds⟩ := handed_of_parses cfg sid
    (reveal (incs.flatMap Increment.events) w) batchEnv true (by
      intro window hwindow
      rw [hextracted] at hwindow
      rcases List.mem_append.mp hwindow with hwindow | hwindow
      · exact hinv.parses window hwindow
      · exact hparses window hwindow)
  have htotal : (live cfg sid w incs).handed ++ (finish cfg sid w incs env).1.handed =
      (batch cfg sid w incs batchEnv).handed := by
    rw [finish, hhanded, batch, hbatch, hextracted]
  have hbatchWindows : (batch cfg sid w incs batchEnv).handed =
      cfg.pipeline.extraction.windows
        (transcripts (w.cursor cfg sid) (incs.flatMap Increment.events)) := by
    rw [batch, hbatch, hall]
    rfl
  have hnodup : (transcripts (w.cursor cfg sid) (incs.flatMap Increment.events)).Nodup :=
    (List.Nodup.of_map _ hline.ids).filter _
  constructor
  · exact htotal
  · exact hbatchWindows
  · rw [htotal, hbatchWindows, windows_eq]
    exact nodup_windows _ hnodup
  · rw [finish, batch, hatomIds, hbatchIds, hextracted, List.flatMap_append, hinv.atomIds]
  · exact EveryStep.of_invariant (fun s inc h hp => h.step hversion hp.1 hp.2)
      (fun s inc h hp => (h.step hversion hp.1 hp.2).cursor) hstart hsteps
  · rw [hcursor, hinv.cursor, lastSeq_append hinv.handed_ne_nil _]
    · rw [finish, hhanded]
    · rw [finish, hhanded]
      exact fun _ => ne_nil_of_mem_extractedWindows

theorem second_pos : (1000 : ℤ) > 0 := by decide

/-- An extractor that finds one memory in every window, with windows of a second. -/
def demoConfig : WorkerConfig where
  pipeline :=
    { extraction :=
        { extractor := fun text => .ok [⟨"fact", text⟩]
          windowMs := 1000
          windowMs_pos := second_pos }
      embedder := fun texts => texts.map fun _ => [] }

def demoEvent (seq : ℕ) (kind : EventKind) (startMs : ℤ) : CaptureEvent where
  eventId := "s:" ++ toString seq
  sessionId := "s"
  seq := seq
  kind := kind
  createdAt := 0
  text := "hello"
  durationMs := 400
  startMs := startMs

/-- Two windows and a button press, revealed in three increments. -/
def demoIncrements : List Increment :=
  [⟨[demoEvent 0 .transcript 0, demoEvent 1 .moment 100], {}⟩,
    ⟨[demoEvent 2 .transcript 400], {}⟩, ⟨[demoEvent 3 .transcript 1200], {}⟩]

theorem live_equals_batch_two_windows :
    LiveEqualsBatch demoConfig "s" {} demoIncrements {} {} :=
  live_equals_batch demoConfig (by decide) "s" {} demoIncrements
    ⟨by decide +kernel, by decide +kernel, by decide +kernel, by decide +kernel, by decide +kernel⟩
    (by decide +kernel) {} (by decide +kernel) {}

/-- The first window is handed over when the third increment closes it. -/
example : (live demoConfig "s" {} demoIncrements).handed =
    [[demoEvent 0 .transcript 0, demoEvent 2 .transcript 400]] := by decide +kernel

end OpenRecall.Analysis.Windowing
