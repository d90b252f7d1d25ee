import OpenRecall.Foundation.Labels
import OpenRecall.Analysis.Windowing

/-!
# Extraction with a new version

A new extractor version does not honour the cursors of the old one, so the next reconciliation
extracts every session from its start. The atoms it forms have ids made from the event that ends
their window and their place in it, and the index refuses the ids it holds. So a memory of the old
version stays, with its text, and the new version only adds memories under ids that were free:
the memories are re-formed exactly when the new version forms those of the old one again.
-/

set_option autoImplicit false

namespace OpenRecall.Analysis.ReExtraction

open Foundation OpenRecall.Model OpenRecall.Analysis.Windowing

/-! ## Ids of atoms -/

/-- The id of an atom of a window that ends with the event.
SOURCE: memory/stages.py:187 -/
def atomIdOf (eventId : String) (index : ℕ) : String := eventId ++ ":" ++ toString index

/-- The index is what follows the last colon. -/
theorem atomIdOf_inj {eventId eventId' : String} {index index' : ℕ}
    (h : atomIdOf eventId index = atomIdOf eventId' index') :
    eventId = eventId' ∧ index = index' := by
  obtain ⟨hid, hindex⟩ := label_inj (colon_notMem_repr index) (colon_notMem_repr index') h
  exact ⟨hid, Nat.repr_inj.mp hindex⟩

/-- An atom of a window is of the session and of the window's last event. -/
theorem mem_formed {stage : ExtractionStage} {sid : String} {now : Time}
    {window : List CaptureEvent} {a : MemoryAtom} (h : a ∈ stage.formed sid now window) :
    a.sessionId = some sid ∧ ∃ last ∈ window, window.getLast? = some last ∧
      a.sourceEventId = last.eventId ∧ ∃ k, a.atomId = atomIdOf last.eventId k := by
  unfold ExtractionStage.formed at h
  split at h
  · rename_i last memories hlast _
    unfold ExtractionStage.windowAtoms at h
    obtain ⟨⟨memory, index⟩, -, rfl⟩ := List.mem_map.mp h
    exact ⟨rfl, last, List.mem_of_getLast? hlast, hlast, rfl, index, rfl⟩
  · simp at h

/-- The atoms of one window have different ids. -/
theorem nodup_formed (stage : ExtractionStage) (sid : String) (now : Time)
    (window : List CaptureEvent) :
    ((stage.formed sid now window).map MemoryAtom.atomId).Nodup := by
  unfold ExtractionStage.formed
  split
  · rename_i last memories _ _
    have hids : (ExtractionStage.windowAtoms sid now window last memories).map
        MemoryAtom.atomId = (memories.zipIdx.map Prod.snd).map (atomIdOf last.eventId) := by
      rw [ExtractionStage.windowAtoms, List.map_map, List.map_map]
      rfl
    rw [hids, List.zipIdx_map_snd]
    apply List.Nodup.map _ List.nodup_range'
    exact fun i j hij => (atomIdOf_inj hij).2
  · exact List.nodup_nil

/-- What an atom says, under its id. -/
def memoryOf (a : MemoryAtom) : String × String := (a.atomId, a.text)

/-- The clock does not change what a window's atoms say. -/
theorem formed_memories (stage : ExtractionStage) (sid : String) (now now' : Time)
    (window : List CaptureEvent) :
    (stage.formed sid now window).map memoryOf = (stage.formed sid now' window).map memoryOf := by
  unfold ExtractionStage.formed
  split
  · simp [ExtractionStage.windowAtoms, Function.comp_def, memoryOf]
  · rfl

/-! ## Batches -/

/-- The transcripts of a session. -/
def batch (events : InMemoryEventStore) (sid : String) : List CaptureEvent :=
  transcripts noCursor (events.events sid)

/-- The atoms that the batch windows of a session form. -/
def batchAtoms (stage : ExtractionStage) (events : InMemoryEventStore) (sid : String)
    (now : Time) : List MemoryAtom :=
  (stage.windows (batch events sid)).flatMap (stage.formed sid now)

/-- The memories that a version's extractor produces over the batch windows of a session. -/
def produced (cfg : WorkerConfig) (events : InMemoryEventStore) (sid : String) :
    List (String × String) :=
  (batchAtoms cfg.pipeline.extraction events sid 0).map memoryOf

variable {events : InMemoryEventStore} {sid : String}

theorem mem_rows_of_mem_batch {e : CaptureEvent} (h : e ∈ batch events sid) :
    e ∈ events.rows sid :=
  (events.mem_events_iff sid e).mp (List.mem_of_mem_filter h)

theorem nodup_batch (sid : String) (h : events.Distinct) :
    ((batch events sid).map CaptureEvent.eventId).Nodup := by
  have hrows : ((events.events sid).map CaptureEvent.eventId).Nodup :=
    (((events.rows sid).perm_insertionSort _).map _).nodup_iff.mpr (h.nodup sid)
  exact hrows.sublist (List.filter_sublist.map _)

/-- The windows' atoms have different ids: no two windows end with the same event. -/
theorem nodup_windowsAtoms (stage : ExtractionStage) (sid : String) (now : Time)
    {pending : List CaptureEvent} (h : (pending.map CaptureEvent.eventId).Nodup) :
    (((stage.windows pending).flatMap (stage.formed sid now)).map MemoryAtom.atomId).Nodup := by
  have hflat : (stage.windows pending).flatten = pending := by rw [windows_eq, flatten_windows]
  rw [← hflat, List.map_flatten, List.nodup_flatten] at h
  rw [List.map_flatMap, List.nodup_flatMap]
  refine ⟨fun window _ => nodup_formed stage sid now window, ?_⟩
  apply (List.pairwise_map.mp h.2).imp
  intro window window' hdisjoint id hid hid'
  obtain ⟨a, ha, rfl⟩ := List.mem_map.mp hid
  obtain ⟨a', ha', heq⟩ := List.mem_map.mp hid'
  obtain ⟨-, last, hlast, -, -, k, hk⟩ := mem_formed ha
  obtain ⟨-, last', hlast', -, -, k', hk'⟩ := mem_formed ha'
  rw [hk, hk'] at heq
  apply hdisjoint (List.mem_map_of_mem hlast)
  rw [(atomIdOf_inj heq).1.symm]
  exact List.mem_map_of_mem hlast'

/-- The clock does not change what a batch produces. -/
theorem map_batchAtoms (cfg : WorkerConfig) (events : InMemoryEventStore) (sid : String)
    (now : Time) :
    (batchAtoms cfg.pipeline.extraction events sid now).map memoryOf = produced cfg events sid := by
  rw [produced, batchAtoms, batchAtoms, List.map_flatMap, List.map_flatMap]
  apply List.flatMap_congr
  intro window _
  exact formed_memories _ _ _ _ _

theorem nodup_produced (h : events.Distinct) (cfg : WorkerConfig) :
    ((produced cfg events sid).map Prod.fst).Nodup := by
  have hnodup := nodup_windowsAtoms cfg.pipeline.extraction sid 0 (nodup_batch sid h)
  rw [produced, List.map_map]
  exact hnodup

/-- An id that an atom of one of the session's events can have. -/
def Own (events : InMemoryEventStore) (sid id : String) : Prop :=
  ∃ e ∈ events.rows sid, ∃ k, id = atomIdOf e.eventId k

/-- No id is one of two sessions. -/
theorem own_unique (h : events.Distinct) {sid' id : String} (hown : Own events sid id)
    (hown' : Own events sid' id) : sid = sid' := by
  obtain ⟨e, he, k, rfl⟩ := hown
  obtain ⟨e', he', k', heq⟩ := hown'
  exact h.across sid sid' e he e' he' (atomIdOf_inj heq).1

/-- The atoms of windows of a session's events are of the session and those events. -/
theorem own_of_mem_windows {stage : ExtractionStage} {pending : List CaptureEvent} {now : Time}
    (hpending : ∀ e ∈ pending, e ∈ events.rows sid) {a : MemoryAtom}
    (ha : a ∈ (stage.windows pending).flatMap (stage.formed sid now)) :
    a.sessionId = some sid ∧ (∃ e ∈ events.rows sid, a.sourceEventId = e.eventId) ∧
      Own events sid a.atomId := by
  obtain ⟨window, hwindow, ha⟩ := List.mem_flatMap.mp ha
  obtain ⟨hsid, last, hlast, -, hsource, k, hk⟩ := mem_formed ha
  have hin : last ∈ pending := by
    rw [← flatten_windows (breaks stage.windowMs) pending, ← windows_eq]
    exact List.mem_flatten_of_mem hwindow hlast
  exact ⟨hsid, ⟨last, hpending last hin, hsource⟩, last, hpending last hin, k, hk⟩

/-! ## What the stores hold of a session -/

/-- What is stored for the events of a session.
SOURCE: memory/store.py:235-237 -/
def stored (sid : String) (w : ExtractionWorker) : List (String × String) :=
  ((w.stores.atoms.atoms (some sid)).filter fun a =>
    a.sourceEventId ∈ (w.events.rows sid).map CaptureEvent.eventId).map memoryOf

/-- The memories are what is stored for the session's events, and their ids are those of the
session that the index and the store hold. -/
structure Holds (sid : String) (memories : List (String × String)) (w : ExtractionWorker) :
    Prop where
  stored : ∀ p, p ∈ stored sid w ↔ p ∈ memories
  indexed : ∀ id, Own w.events sid id →
    (id ∈ w.stores.index.ids ↔ id ∈ memories.map Prod.fst)
  seen : ∀ id, Own w.events sid id →
    (id ∈ w.stores.atoms.seen ↔ id ∈ memories.map Prod.fst)

/-- Some version extracted the session to its end: its cursor is at or past every transcript, and
what it produced over the batch windows is what the stores hold. -/
structure FullyExtracted (cfg : WorkerConfig) (sid : String) (w : ExtractionWorker) : Prop where
  holds : Holds sid (produced cfg w.events sid) w
  cursor : ∀ e ∈ w.events.events sid, e.kind = .transcript →
    ∃ c, w.stores.atoms.cursor.get? sid =
      some (c, InMemoryAtomStore.cursorStamp (some cfg.version)) ∧ e.seq ≤ c

section Call

variable (cfg : WorkerConfig) (env : PipelineEnv) {w : ExtractionWorker}

theorem mem_rows_of_mem_pending {s : String} {e : CaptureEvent} (h : e ∈ w.pending cfg s) :
    e ∈ w.events.rows s :=
  (w.events.mem_events_iff s e).mp (List.mem_of_mem_filter h)

/-- The atoms that a call has to index are formed from the windows of its session. -/
theorem mem_pairs {s : String} {pair : MemoryAtom × Embedding}
    (h : pair ∈ cfg.pipeline.pairs env s (w.pending cfg s) true) :
    pair.1.sessionId = some s ∧ Own w.events s pair.1.atomId := by
  unfold Pipeline.pairs at h
  split at h
  · simp at h
  · rename_i atoms c hextract
    split_ifs at h
    · simp at h
    · have hatoms := ExtractionStage.atoms_of_extract_ok
        (fun _ => ne_nil_of_mem_extractedWindows) hextract
      have hin : pair.1 ∈ atoms := (List.of_mem_zip h).1
      rw [hatoms] at hin
      have hown := own_of_mem_windows (fun _ => mem_rows_of_mem_pending cfg) hin
      exact ⟨hown.1, hown.2.2⟩

/-- The atoms the indexing loop gives back are among those it got. -/
theorem mem_of_mem_added {raises : ℕ → Bool} {pairs : List (MemoryAtom × Embedding)}
    {index : InMemoryMemoryIndex} {added : List MemoryAtom}
    (h : (IndexingStage.run raises pairs index).1 = .ok added) {a : MemoryAtom} (ha : a ∈ added) :
    ∃ pair ∈ pairs, pair.1 = a := by
  induction pairs generalizing raises index added with
  | nil =>
    obtain rfl : added = [] := by simpa [IndexingStage.run, eq_comm] using h
    simp at ha
  | cons pair pairs ih =>
    obtain ⟨atom, vector⟩ := pair
    cases hraises : raises 0 with
    | true => simp [IndexingStage.run, hraises] at h
    | false =>
      rw [IndexingStage.run_cons hraises] at h
      cases hrest : (IndexingStage.run (fun k => raises (k + 1)) pairs
        (index.add atom vector).2).1 with
      | error e =>
        rw [hrest] at h
        cases h
      | ok rest =>
        rw [hrest] at h
        rw [← Except.ok.inj h] at ha
        have hcase : a = atom ∨ a ∈ rest := by
          split_ifs at ha
          · exact List.mem_cons.mp ha
          · exact Or.inr ha
        rcases hcase with rfl | hin
        · exact ⟨_, List.mem_cons_self, rfl⟩
        · obtain ⟨pair, hpair, heq⟩ := ih hrest hin
          exact ⟨pair, List.mem_cons_of_mem _ hpair, heq⟩

/-- A call leaves what the stores hold of the other sessions. -/
theorem Holds.call_of_ne (hdistinct : w.events.Distinct) {memories : List (String × String)}
    {s : String} (hne : s ≠ sid) (h : Holds sid memories w) :
    Holds sid memories (w.processSession cfg env s true).2 := by
  have hevents := ExtractionWorker.processSession_events cfg env s true w
  obtain ⟨hindex, seq, hatoms⟩ := ExtractionWorker.processSession_atoms cfg env s true w
  have hrun := Pipeline.run_atoms cfg.pipeline env s (w.pending cfg s) true w.stores
  have hpairs : ∀ pair ∈ cfg.pipeline.pairs env s (w.pending cfg s) true,
      pair.1.sessionId = some s ∧ Own w.events s pair.1.atomId := fun _ => mem_pairs cfg env
  have hids : ∀ id, Own w.events sid id →
      (id ∈ (w.pipelineRun cfg env s true).2.index.ids ↔ id ∈ w.stores.index.ids) := by
    intro id hown
    rw [ExtractionWorker.pipelineRun, Pipeline.run_index, IndexingStage.mem_ids_run,
      or_iff_left]
    intro hin
    obtain ⟨pair, hpair, rfl⟩ := List.mem_map.mp hin
    exact hne (own_unique hdistinct (hpairs pair (List.mem_of_mem_take hpair)).2 hown)
  have hstore : (∀ id, Own w.events sid id →
      (id ∈ (w.pipelineRun cfg env s true).2.atoms.seen ↔ id ∈ w.stores.atoms.seen)) ∧
      ∀ a, a ∈ (w.pipelineRun cfg env s true).2.atoms.atoms (some sid) ↔
        a ∈ w.stores.atoms.atoms (some sid) := by
    rw [ExtractionWorker.pipelineRun, hrun]
    cases hadded : (IndexingStage.run env.addRaises
      (cfg.pipeline.pairs env s (w.pending cfg s) true) w.stores.index).1 with
    | error e => exact ⟨fun _ _ => Iff.rfl, fun _ => Iff.rfl⟩
    | ok added =>
      refine ⟨fun id hown => ?_, fun a => ?_⟩
      · rw [mem_seen_appendAll, or_iff_left]
        intro hin
        obtain ⟨a, ha, rfl⟩ := List.mem_map.mp hin
        obtain ⟨pair, hpair, rfl⟩ := mem_of_mem_added hadded (List.mem_of_mem_take ha)
        exact hne (own_unique hdistinct (hpairs pair hpair).2 hown)
      · apply mem_atoms_appendAll_of_ne
        intro a ha
        obtain ⟨pair, hpair, rfl⟩ := mem_of_mem_added hadded ha
        rw [(hpairs pair hpair).1]
        exact fun heq => hne (Option.some.inj heq)
  constructor
  · intro p
    rw [← h.stored]
    unfold ReExtraction.stored
    rw [hevents, hatoms]
    simp only [List.mem_map, List.mem_filter]
    have hsame : ∀ a, a ∈ (ExtractionWorker.advance cfg s seq
        (w.pipelineRun cfg env s true).2.atoms).atoms (some sid) ↔
        a ∈ w.stores.atoms.atoms (some sid) := by
      intro a
      rw [← hstore.2 a, InMemoryAtomStore.atoms, InMemoryAtomStore.atoms,
        ExtractionWorker.advance_bySession]
    simp only [hsame]
  · intro id hown
    rw [hevents] at hown
    rw [hindex, hids id hown, h.indexed id hown]
  · intro id hown
    rw [hevents] at hown
    rw [hatoms, ExtractionWorker.advance_seen, hstore.1 id hown, h.seen id hown]

/-- What a call that succeeds does to the stores: of the atoms its windows form, it indexes and
appends those whose ids the index does not hold. -/
theorem pipelineRun_adds
    (hembed : ∀ texts, (cfg.pipeline.embedder texts).length = texts.length)
    (hdistinct : w.events.Distinct) (hpending : w.pending cfg sid = batch w.events sid)
    (hne : w.pending cfg sid ≠ [])
    (hok : (w.processSession cfg env sid true).1.outcome.Succeeded) :
    ∃ added : List MemoryAtom,
      (added.map MemoryAtom.atomId).Nodup ∧
      (∀ a, a ∈ added ↔ a ∈ batchAtoms cfg.pipeline.extraction w.events sid env.now ∧
        a.atomId ∉ w.stores.index.ids) ∧
      (∀ id, id ∈ (w.pipelineRun cfg env sid true).2.index.ids ↔ id ∈ w.stores.index.ids ∨
        id ∈ (batchAtoms cfg.pipeline.extraction w.events sid env.now).map
          MemoryAtom.atomId) ∧
      (w.pipelineRun cfg env sid true).2.atoms =
        (appendAll env.appendRaises added w.stores.atoms).2 ∧
      returned env.appendRaises added.length = added.length := by
  obtain ⟨added, hrun⟩ := ExtractionWorker.pipelineRun_of_succeeded cfg env sid true hne hok
  rw [ExtractionWorker.pipelineRun] at hrun ⊢
  obtain ⟨atoms, c, hextract⟩ := Pipeline.run_ok hrun
  obtain ⟨hpairs, hindexed, happended⟩ := Pipeline.run_ok_loops hrun hextract
  have hformed : atoms = batchAtoms cfg.pipeline.extraction w.events sid env.now := by
    rw [ExtractionStage.atoms_of_extract_ok (fun _ => ne_nil_of_mem_extractedWindows) hextract,
      hpending]
    rfl
  have hfst : (cfg.pipeline.pairs env sid (w.pending cfg sid) true).map Prod.fst = atoms := by
    rw [hpairs, List.map_fst_zip]
    rw [hembed, List.length_map]
  have hids : pairIds (cfg.pipeline.pairs env sid (w.pending cfg sid) true) =
      atoms.map MemoryAtom.atomId := by
    rw [← hfst, List.map_map]
    rfl
  have hnodup : (atoms.map MemoryAtom.atomId).Nodup := by
    rw [hformed]
    exact nodup_windowsAtoms _ _ _ (nodup_batch sid hdistinct)
  have hadded : added = atoms.filter fun a => a.atomId ∉ w.stores.index.ids := by
    rw [IndexingStage.run_of_nodup (hids ▸ hnodup) hindexed, hfst]
  have hreturned : returned env.addRaises
      (cfg.pipeline.pairs env sid (w.pending cfg sid) true).length =
      (cfg.pipeline.pairs env sid (w.pending cfg sid) true).length := by
    rcases IndexingStage.run_result env.addRaises
      (cfg.pipeline.pairs env sid (w.pending cfg sid) true) w.stores.index with
      ⟨-, herror⟩ | ⟨hreturned, -⟩
    · rw [hindexed] at herror
      cases herror
    · exact hreturned
  rw [← hformed]
  refine ⟨added, ?_, fun a => ?_, fun id => ?_, ?_, ?_⟩
  · rw [hadded]
    exact hnodup.sublist (List.filter_sublist.map _)
  · rw [hadded, List.mem_filter, decide_eq_true_eq]
  · rw [Pipeline.run_index, IndexingStage.mem_ids_run, hreturned, List.take_length, hids]
  · rw [Pipeline.run_atoms, hindexed]
  · by_contra hnot
    rw [appendAll_result, if_neg hnot] at happended
    cases happended

/-- The memories of a version, added to others under the ids that are free. -/
def addFree (memories : List (String × String)) (more : List (String × String)) :
    List (String × String) :=
  memories ++ more.filter fun p => p.1 ∉ memories.map Prod.fst

theorem mem_addFree {memories more : List (String × String)} {p : String × String} :
    p ∈ addFree memories more ↔ p ∈ memories ∨ p ∈ more ∧ p.1 ∉ memories.map Prod.fst := by
  simp [addFree]

theorem ids_addFree (memories more : List (String × String)) (id : String) :
    id ∈ (addFree memories more).map Prod.fst ↔
      id ∈ memories.map Prod.fst ∨ id ∈ more.map Prod.fst := by
  by_cases hold : id ∈ memories.map Prod.fst
  · rw [addFree, List.map_append, List.mem_append]
    simp only [hold, true_or]
  · rw [addFree, List.map_append, List.mem_append, or_iff_right hold, or_iff_right hold]
    constructor
    · intro h
      obtain ⟨p, hp, rfl⟩ := List.mem_map.mp h
      exact List.mem_map_of_mem (List.mem_of_mem_filter hp)
    · intro h
      obtain ⟨p, hp, rfl⟩ := List.mem_map.mp h
      exact List.mem_map_of_mem (List.mem_filter.mpr ⟨hp, decide_eq_true hold⟩)

/-- A call that succeeds on all transcripts of its session adds the memories it produces under ids
that were free. -/
theorem Holds.call_self (hdistinct : w.events.Distinct)
    (hembed : ∀ texts, (cfg.pipeline.embedder texts).length = texts.length)
    {memories : List (String × String)} (h : Holds sid memories w)
    (hpending : w.pending cfg sid = batch w.events sid)
    (hok : (w.processSession cfg env sid true).1.outcome.Succeeded) :
    Holds sid (addFree memories (produced cfg w.events sid))
      (w.processSession cfg env sid true).2 := by
  by_cases hne : w.pending cfg sid = []
  · have hnone : produced cfg w.events sid = [] := by
      rw [produced, batchAtoms, ← hpending, hne, windows_eq, windows_nil]
      rfl
    rw [ExtractionWorker.processSession_of_pending_nil cfg env sid true hne, hnone]
    simpa [addFree] using h
  have hevents := ExtractionWorker.processSession_events cfg env sid true w
  obtain ⟨hindex, seq, hatoms⟩ := ExtractionWorker.processSession_atoms cfg env sid true w
  obtain ⟨added, hnodup, hadded, hids, hstores, hall⟩ :=
    pipelineRun_adds cfg env hembed hdistinct hpending hne hok
  have hproduced := map_batchAtoms cfg w.events sid env.now
  have hown : ∀ a ∈ batchAtoms cfg.pipeline.extraction w.events sid env.now,
      a.sessionId = some sid ∧ (∃ e ∈ w.events.rows sid, a.sourceEventId = e.eventId) ∧
        Own w.events sid a.atomId :=
    fun _ => own_of_mem_windows fun _ => mem_rows_of_mem_batch
  generalize batchAtoms cfg.pipeline.extraction w.events sid env.now = atoms at *
  rw [← hproduced]
  have hfree : ∀ a, a ∈ added ↔ a ∈ atoms ∧ a.atomId ∉ memories.map Prod.fst := by
    intro a
    rw [hadded]
    exact and_congr_right fun ha => not_congr (h.indexed _ (hown a ha).2.2)
  have hatomIds : (atoms.map memoryOf).map Prod.fst = atoms.map MemoryAtom.atomId := by
    rw [List.map_map]
    rfl
  constructor
  · intro p
    rw [mem_addFree, ← h.stored]
    have hstored : ∀ a, a ∈ (w.processSession cfg env sid true).2.stores.atoms.atoms (some sid) ↔
        a ∈ w.stores.atoms.atoms (some sid) ∨ a ∈ added := by
      intro a
      have hnew : ∀ a ∈ added, a.atomId ∉ w.stores.atoms.seen := by
        intro a ha
        obtain ⟨hin, hnot⟩ := (hfree a).mp ha
        rwa [h.seen _ (hown a hin).2.2]
      rw [hatoms, InMemoryAtomStore.atoms, ExtractionWorker.advance_bySession, hstores,
        ← InMemoryAtomStore.atoms, mem_atoms_appendAll _ hnodup _ hnew, hall, List.take_length]
      apply or_congr_right
      exact and_iff_left_of_imp fun ha => (hown a ((hfree a).mp ha).1).1
    unfold ReExtraction.stored
    rw [hevents]
    simp only [List.mem_map, List.mem_filter, hstored]
    constructor
    · rintro ⟨a, ⟨hin | hin, hsource⟩, rfl⟩
      · exact Or.inl ⟨a, ⟨hin, hsource⟩, rfl⟩
      · obtain ⟨ha, hnot⟩ := (hfree a).mp hin
        exact Or.inr ⟨⟨a, ha, rfl⟩, by simpa [memoryOf] using hnot⟩
    · rintro (⟨a, ⟨hin, hsource⟩, rfl⟩ | ⟨⟨a, ha, rfl⟩, hnot⟩)
      · exact ⟨a, ⟨Or.inl hin, hsource⟩, rfl⟩
      · obtain ⟨e, he, hsource⟩ := (hown a ha).2.1
        refine ⟨a, ⟨Or.inr ((hfree a).mpr ⟨ha, by simpa [memoryOf] using hnot⟩), ?_⟩, rfl⟩
        rw [decide_eq_true_eq]
        exact ⟨e, he, hsource.symm⟩
  · intro id hid
    rw [hevents] at hid
    rw [hindex, hids, ids_addFree, hatomIds, h.indexed id hid]
  · intro id hid
    rw [hevents] at hid
    rw [hatoms, ExtractionWorker.advance_seen, hstores, mem_seen_appendAll, hall,
      List.take_length, ids_addFree, hatomIds, h.seen id hid]
    -- an id that is not added is one that was there
    by_cases hold : id ∈ memories.map Prod.fst
    · simp only [hold, true_or]
    · rw [or_iff_right hold, or_iff_right hold]
      simp only [List.mem_map, hfree]
      constructor
      · rintro ⟨a, ⟨ha, -⟩, rfl⟩
        exact ⟨a, ha, rfl⟩
      · rintro ⟨a, ha, rfl⟩
        exact ⟨a, ⟨ha, by simpa using hold⟩, rfl⟩

end Call

/-! ## Reconciliation -/

section Reconcile

variable (cfg : WorkerConfig) (env : String → PipelineEnv)

/-- Reconciling other sessions leaves what the stores hold of a session, and its cursor. -/
theorem Holds.reconcileLoop_of_notMem {sids : List String} (hnot : sid ∉ sids)
    {w : ExtractionWorker} (hdistinct : w.events.Distinct) {memories : List (String × String)}
    (h : Holds sid memories w) :
    Holds sid memories (w.reconcileLoop cfg env sids).2 ∧
      (w.reconcileLoop cfg env sids).2.events = w.events ∧
      (w.reconcileLoop cfg env sids).2.stores.atoms.cursor.get? sid =
        w.stores.atoms.cursor.get? sid := by
  induction sids generalizing w with
  | nil => exact ⟨h, rfl, rfl⟩
  | cons s sids ih =>
    rw [List.mem_cons, not_or] at hnot
    have hevents := ExtractionWorker.processSession_events cfg (env s) s true w
    have hcall := h.call_of_ne cfg (env s) hdistinct (Ne.symm hnot.1)
    obtain ⟨hholds, hsame, hcursor⟩ := ih hnot.2 (hevents ▸ hdistinct) hcall
    exact ⟨hholds, hsame.trans hevents, hcursor.trans
      (ExtractionWorker.processSession_cursor_of_ne cfg (env s) s true w hnot.1)⟩

/-- Reconciling is the call of the session, on what the sessions before it left, and what the
sessions after it do. -/
theorem reconcileLoop_append (sids sids' : List String) (w : ExtractionWorker) :
    w.reconcileLoop cfg env (sids ++ sids') =
      ((w.reconcileLoop cfg env sids).1 ++
          ((w.reconcileLoop cfg env sids).2.reconcileLoop cfg env sids').1,
        ((w.reconcileLoop cfg env sids).2.reconcileLoop cfg env sids').2) := by
  induction sids generalizing w with
  | nil => rfl
  | cons s sids ih => simp [ExtractionWorker.reconcileLoop, ih]

/-- The reconciliation reached the session's end without error. -/
def Reconciled (sid : String) (results : List (String × ProcessOutcome)) : Prop :=
  ∀ result ∈ results, result.1 = sid → result.2.Succeeded

instance (sid : String) (results : List (String × ProcessOutcome)) :
    Decidable (Reconciled sid results) :=
  inferInstanceAs (Decidable (∀ result ∈ results, result.1 = sid → result.2.Succeeded))

/-- A session without events was not reconciled and has nothing to extract. -/
theorem batch_of_notMem_sessions (h : sid ∉ events.sessions) :
    events.events sid = [] := by
  have hnone : events.bySession.get? sid = none := (Dict.get?_eq_none_iff _ _).mpr h
  simp [InMemoryEventStore.events, InMemoryEventStore.rows, hnone]

/-- What a session has pending is what its transcripts and its cursor say. -/
theorem pending_congr {w w' : ExtractionWorker} (hevents : w'.events = w.events)
    (hcursor : w'.stores.atoms.cursor.get? sid = w.stores.atoms.cursor.get? sid) :
    w'.pending cfg sid = w.pending cfg sid := by
  unfold ExtractionWorker.pending ExtractionWorker.cursor InMemoryAtomStore.getCursor
  rw [hevents, hcursor]

/-- The call of a session in a reconciliation comes once, after others and before others. -/
theorem sessions_split {w : ExtractionWorker} (h : sid ∈ w.events.sessions) :
    ∃ xs ys, w.events.sessions.insertionSort (· ≤ ·) = xs ++ sid :: ys ∧ sid ∉ xs ∧ sid ∉ ys := by
  obtain ⟨xs, ys, hsplit⟩ := List.append_of_mem ((List.mem_insertionSort (· ≤ ·)).mpr h)
  have hnodup : (w.events.sessions.insertionSort (· ≤ ·)).Nodup :=
    (List.perm_insertionSort _ _).nodup_iff.mpr w.events.bySession.nodup
  rw [hsplit, List.nodup_append, List.nodup_cons] at hnodup
  exact ⟨xs, ys, hsplit, fun hin => hnodup.2.2 sid hin sid List.mem_cons_self rfl,
    hnodup.2.1.1⟩

/-- **Reconciling a session whose transcripts are all pending**: the memories the version produces
over the batch windows are added under the ids that were free. -/
theorem Holds.reconcile {w : ExtractionWorker} (hdistinct : w.events.Distinct)
    (hembed : ∀ texts, (cfg.pipeline.embedder texts).length = texts.length)
    {memories : List (String × String)} (h : Holds sid memories w)
    (hpending : w.pending cfg sid = batch w.events sid)
    (hok : Reconciled sid (w.reconcile cfg env).1) :
    Holds sid (addFree memories (produced cfg w.events sid)) (w.reconcile cfg env).2 := by
  unfold ExtractionWorker.reconcile at hok ⊢
  by_cases hsession : sid ∈ w.events.sessions
  · obtain ⟨xs, ys, hsplit, hxs, hys⟩ := sessions_split hsession
    rw [hsplit, reconcileLoop_append, ExtractionWorker.reconcileLoop] at hok ⊢
    obtain ⟨hbefore, hevents, hcursor⟩ := h.reconcileLoop_of_notMem cfg env hxs hdistinct
    generalize (w.reconcileLoop cfg env xs).2 = w' at hok hbefore hevents hcursor ⊢
    have hcall := hbefore.call_self cfg (env sid) (hevents ▸ hdistinct) hembed
      (by rw [pending_congr cfg hevents hcursor, hpending, hevents])
      (hok _ (List.mem_append_right _ List.mem_cons_self) rfl)
    have hafter := ExtractionWorker.processSession_events cfg (env sid) sid true w'
    rw [hevents] at hcall hafter
    exact (hcall.reconcileLoop_of_notMem cfg env hys (hafter ▸ hdistinct)).1
  · have hnone : produced cfg w.events sid = [] := by
      rw [produced, batchAtoms, batch, batch_of_notMem_sessions hsession, windows_eq]
      simp [transcripts]
    rw [hnone]
    have hnot : sid ∉ w.events.sessions.insertionSort (· ≤ ·) := by
      rwa [List.mem_insertionSort]
    simpa [addFree] using (h.reconcileLoop_of_notMem cfg env hnot hdistinct).1

/-- Nothing changes for a session that has nothing pending. -/
theorem Holds.reconcile_of_pending_nil {w : ExtractionWorker} (hdistinct : w.events.Distinct)
    {memories : List (String × String)} (h : Holds sid memories w)
    (hpending : w.pending cfg sid = []) : Holds sid memories (w.reconcile cfg env).2 := by
  unfold ExtractionWorker.reconcile
  by_cases hsession : sid ∈ w.events.sessions
  · obtain ⟨xs, ys, hsplit, hxs, hys⟩ := sessions_split hsession
    rw [hsplit, reconcileLoop_append, ExtractionWorker.reconcileLoop]
    obtain ⟨hbefore, hevents, hcursor⟩ := h.reconcileLoop_of_notMem cfg env hxs hdistinct
    generalize (w.reconcileLoop cfg env xs).2 = w' at hbefore hevents hcursor ⊢
    rw [ExtractionWorker.processSession_of_pending_nil cfg (env sid) sid true
      (by rw [pending_congr cfg hevents hcursor, hpending])]
    exact (hbefore.reconcileLoop_of_notMem cfg env hys (hevents ▸ hdistinct)).1
  · have hnot : sid ∉ w.events.sessions.insertionSort (· ≤ ·) := by
      rwa [List.mem_insertionSort]
    exact (h.reconcileLoop_of_notMem cfg env hnot hdistinct).1

theorem reconcile_events (w : ExtractionWorker) : (w.reconcile cfg env).2.events = w.events := by
  unfold ExtractionWorker.reconcile
  generalize w.events.sessions.insertionSort (· ≤ ·) = sids
  induction sids generalizing w with
  | nil => rfl
  | cons s sids ih =>
    exact (ih _).trans (ExtractionWorker.processSession_events cfg (env s) s true w)

end Reconcile

/-! ## The new version -/

/-- **The memories are re-formed**: what is stored for the session is what the new version
produces, and no memory of the old one is left under an id that the new one uses as well. -/
structure ReFormed (old new : WorkerConfig) (sid : String) (w : ExtractionWorker) : Prop where
  stored : ∀ p, p ∈ stored sid w ↔ p ∈ produced new w.events sid
  noneLeft : ∀ p ∈ produced old w.events sid, p ∈ ReExtraction.stored sid w →
    p.1 ∈ (produced new w.events sid).map Prod.fst → p ∈ produced new w.events sid

/-- A version that does not read the old one's cursors has every transcript pending, and one that
does has none. -/
theorem pending_of_fullyExtracted {old : WorkerConfig} {w : ExtractionWorker}
    (h : FullyExtracted old sid w) (new : WorkerConfig) :
    w.pending new sid = if InMemoryAtomStore.cursorStamp (some old.version) = new.version then []
      else batch w.events sid := by
  by_cases hnone : ∀ e ∈ w.events.events sid, e.kind ≠ .transcript
  · have hpending : w.pending new sid = [] := by
      rw [ExtractionWorker.pending, List.filter_eq_nil_iff]
      exact fun e he => by simp [hnone e he]
    have hbatch : batch w.events sid = [] := by
      rw [batch, transcripts, List.filter_eq_nil_iff]
      exact fun e he => by simp [hnone e he]
    simp [hpending, hbatch]
  · push Not at hnone
    obtain ⟨e, he, hkind⟩ := hnone
    obtain ⟨c, hc, -⟩ := h.cursor e he hkind
    have hall : ∀ e ∈ w.events.events sid, e.kind = .transcript → e.seq ≤ c := by
      intro e he hkind
      obtain ⟨c', hc', hle⟩ := h.cursor e he hkind
      rw [hc, Option.some.injEq, Prod.mk.injEq] at hc'
      exact hc'.1 ▸ hle
    have hcursor : w.cursor new sid =
        if InMemoryAtomStore.cursorStamp (some old.version) = new.version then c
        else noCursor := by
      simp [ExtractionWorker.cursor, InMemoryAtomStore.getCursor, hc]
    rw [ExtractionWorker.pending, hcursor]
    split_ifs
    · rw [List.filter_eq_nil_iff]
      intro e he
      rw [decide_eq_true_eq, not_and]
      intro hlt hkind
      have := hall e he hkind
      omega
    · rfl

/-- A call that succeeds stamps the cursor of its session with the version, at or past what was
pending. -/
theorem cursor_of_succeeded (cfg : WorkerConfig) (env : PipelineEnv) {w : ExtractionWorker}
    (hne : w.pending cfg sid ≠ [])
    (hok : (w.processSession cfg env sid true).1.outcome.Succeeded) :
    ∃ c, (w.processSession cfg env sid true).2.stores.atoms.cursor.get? sid =
      some (c, InMemoryAtomStore.cursorStamp (some cfg.version)) ∧
      ∀ e ∈ w.pending cfg sid, e.seq ≤ c := by
  obtain ⟨indexed, hrun⟩ := ExtractionWorker.pipelineRun_of_succeeded cfg env sid true hne hok
  obtain ⟨c, hmax⟩ : ∃ c, ((w.pending cfg sid).map CaptureEvent.seq).max? = some c := by
    apply Option.isSome_iff_exists.mp
    simpa [List.isSome_max?_iff] using hne
  refine ⟨c, ?_, fun e he => ?_⟩
  · rw [(ExtractionWorker.processSession_of_ok cfg env sid true hne hrun).2]
    simp [ExtractionWorker.advance, ExtractionWorker.advanceTo, hmax,
      InMemoryAtomStore.setCursor]
  · exact (List.max?_eq_some_iff.mp hmax).2 _ (List.mem_map_of_mem he)

/-- Reconciling a session that nothing was extracted from extracts it to its end. -/
theorem fullyExtracted_reconcile (cfg : WorkerConfig) (env : String → PipelineEnv)
    {w : ExtractionWorker} (hdistinct : w.events.Distinct)
    (hembed : ∀ texts, (cfg.pipeline.embedder texts).length = texts.length)
    (hseq : ∀ e ∈ w.events.events sid, e.seq > noCursor) (hnew : Holds sid [] w)
    (hcursor : w.stores.atoms.cursor.get? sid = none)
    (hok : Reconciled sid (w.reconcile cfg env).1) :
    FullyExtracted cfg sid (w.reconcile cfg env).2 := by
  have hpending : w.pending cfg sid = batch w.events sid := by
    simp [ExtractionWorker.pending, ExtractionWorker.cursor, InMemoryAtomStore.getCursor, hcursor,
      batch, transcripts]
  have hevents := reconcile_events cfg env w
  have hholds := hnew.reconcile cfg env hdistinct hembed hpending hok
  refine ⟨?_, fun e he hkind => ?_⟩
  · rw [hevents]
    simpa [addFree] using hholds
  · rw [hevents] at he
    have hin : e ∈ batch w.events sid := by
      simp [batch, transcripts, he, hseq e he, hkind]
    have hsession : sid ∈ w.events.sessions := by
      by_contra hnot
      rw [batch, batch_of_notMem_sessions hnot] at hin
      simp [transcripts] at hin
    unfold ExtractionWorker.reconcile at hok ⊢
    obtain ⟨xs, ys, hsplit, hxs, hys⟩ := sessions_split hsession
    rw [hsplit, reconcileLoop_append, ExtractionWorker.reconcileLoop] at hok ⊢
    obtain ⟨hbefore, hsame, hkeep⟩ := hnew.reconcileLoop_of_notMem cfg env hxs hdistinct
    generalize (w.reconcileLoop cfg env xs).2 = w' at hok hbefore hsame hkeep ⊢
    have hpending' : w'.pending cfg sid = batch w.events sid := by
      rw [pending_congr cfg hsame hkeep, hpending]
    have hsucceeded := hok _ (List.mem_append_right _ List.mem_cons_self) rfl
    obtain ⟨c, hc, hle⟩ := cursor_of_succeeded cfg (env sid)
      (hpending' ▸ List.ne_nil_of_mem hin) hsucceeded
    have hcall := hbefore.call_self cfg (env sid) (hsame ▸ hdistinct) hembed
      (hpending'.trans (by rw [hsame])) hsucceeded
    have hafter := ExtractionWorker.processSession_events cfg (env sid) sid true w'
    obtain ⟨-, -, hlast⟩ := hcall.reconcileLoop_of_notMem cfg env hys
      (hafter.trans hsame ▸ hdistinct)
    exact ⟨c, hlast.trans hc, hle e (hpending' ▸ hin)⟩

/-- **A new version re-forms the memories of a session exactly when it produces, under the same
id, every memory of the old one**; and, if it is the version the old one's cursors are stamped
with, no others.
SOURCE: memory/stages.py:97-208, memory/store.py:223-256, memory/index.py:94-99 -/
theorem reFormed_iff (old new : WorkerConfig) (env : String → PipelineEnv) (sid : String)
    (w : ExtractionWorker) (hdistinct : w.events.Distinct)
    (hembed : ∀ texts, (new.pipeline.embedder texts).length = texts.length)
    (hfull : FullyExtracted old sid w) (hok : Reconciled sid (w.reconcile new env).1) :
    ReFormed old new sid (w.reconcile new env).2 ↔
      (∀ p ∈ produced old w.events sid, p ∈ produced new w.events sid) ∧
        (InMemoryAtomStore.cursorStamp (some old.version) = new.version →
          ∀ p ∈ produced new w.events sid, p ∈ produced old w.events sid) := by
  have hevents := reconcile_events new env w
  have hpending := pending_of_fullyExtracted hfull new
  have hreformed : ReFormed old new sid (w.reconcile new env).2 ↔
      ∀ p, p ∈ stored sid (w.reconcile new env).2 ↔ p ∈ produced new w.events sid := by
    constructor
    · intro h
      rw [← hevents]
      exact h.stored
    · intro h
      rw [← hevents] at h
      exact ⟨h, fun p _ hp _ => (h p).mp hp⟩
  rw [hreformed]
  split_ifs at hpending with hstamp
  · have hholds := hfull.holds.reconcile_of_pending_nil new env hdistinct hpending
    simp only [hholds.stored, hstamp, true_imp_iff]
    exact ⟨fun h => ⟨fun p hp => (h p).mp hp, fun p hp => (h p).mpr hp⟩,
      fun h p => ⟨h.1 p, h.2 p⟩⟩
  · have hholds := hfull.holds.reconcile new env hdistinct hembed hpending hok
    simp only [hholds.stored, mem_addFree, hstamp, false_imp_iff, and_true]
    constructor
    · exact fun h p hp => (h p).mp (Or.inl hp)
    · intro h p
      constructor
      · rintro (hp | ⟨hp, -⟩)
        · exact h p hp
        · exact hp
      · intro hp
        by_cases hfree : p.1 ∈ (produced old w.events sid).map Prod.fst
        · -- the old version's memory of that id is the new one's
          obtain ⟨q, hq, heq⟩ := List.mem_map.mp hfree
          obtain rfl := List.inj_on_of_nodup_map (nodup_produced hdistinct new) (h q hq) hp heq
          exact Or.inl hq
        · exact Or.inr ⟨hp, hfree⟩

/-- A version whose extractor says the same of every window. -/
def constantConfig (version : String) (texts : List String) : WorkerConfig where
  pipeline :=
    { extraction :=
        { extractor := fun _ => .ok (texts.map fun text => ⟨"fact", text⟩)
          windowMs := 1000
          windowMs_pos := second_pos
          version := version }
      embedder := fun texts => texts.map fun _ => [] }

/-- A worker with one transcript. -/
def oneTranscript : ExtractionWorker where
  events := (InMemoryEventStore.append (demoEvent 0 .transcript 0) {}).2

/-- The first version has extracted the transcript. -/
def afterFirst : ExtractionWorker :=
  (oneTranscript.reconcile (constantConfig "v1" ["call Ann"]) fun _ => {}).2

theorem distinct_oneTranscript : oneTranscript.events.Distinct :=
  InMemoryEventStore.distinct_empty.append _

theorem fullyExtracted_afterFirst :
    FullyExtracted (constantConfig "v1" ["call Ann"]) "s" afterFirst := by
  apply fullyExtracted_reconcile (constantConfig "v1" ["call Ann"]) (fun _ => {})
    distinct_oneTranscript (fun texts => List.length_map _) (by decide +kernel) ?_
    (by decide +kernel) (by decide +kernel)
  exact ⟨fun p => by simp [stored, oneTranscript, InMemoryAtomStore.atoms],
    fun id _ => by simp [oneTranscript, InMemoryMemoryIndex.ids, Dict.keys, Dict.empty],
    fun id _ => by simp [oneTranscript]⟩

theorem distinct_afterFirst : afterFirst.events.Distinct := by
  rw [afterFirst, reconcile_events]
  exact distinct_oneTranscript

/-- A new version that says the same and more re-forms the memories. -/
theorem reFormed_iff_more :
    ReFormed (constantConfig "v1" ["call Ann"]) (constantConfig "v2" ["call Ann", "buy milk"]) "s"
        (afterFirst.reconcile (constantConfig "v2" ["call Ann", "buy milk"]) fun _ => {}).2 ↔
      (∀ p ∈ produced (constantConfig "v1" ["call Ann"]) afterFirst.events "s",
          p ∈ produced (constantConfig "v2" ["call Ann", "buy milk"]) afterFirst.events "s") ∧
        (InMemoryAtomStore.cursorStamp (some (constantConfig "v1" ["call Ann"]).version) =
            (constantConfig "v2" ["call Ann", "buy milk"]).version →
          ∀ p ∈ produced (constantConfig "v2" ["call Ann", "buy milk"]) afterFirst.events "s",
            p ∈ produced (constantConfig "v1" ["call Ann"]) afterFirst.events "s") :=
  reFormed_iff _ _ _ _ _ distinct_afterFirst (fun texts => List.length_map _)
    fullyExtracted_afterFirst (by decide +kernel)

/-- The text of the old version stays under the id that the new one uses too. -/
theorem not_always_reFormed :
    ¬ ∀ (old new : WorkerConfig) (env : String → PipelineEnv) (sid : String)
      (w : ExtractionWorker), old.version ≠ new.version → w.events.Distinct →
      (∀ texts, (new.pipeline.embedder texts).length = texts.length) →
      FullyExtracted old sid w → Reconciled sid (w.reconcile new env).1 →
      ReFormed old new sid (w.reconcile new env).2 := by
  intro h
  have hformed := h (constantConfig "v1" ["call Ann"]) (constantConfig "v2" ["call Anna"])
    (fun _ => {}) "s" afterFirst (by decide) distinct_afterFirst (fun texts => List.length_map _)
    fullyExtracted_afterFirst (by decide +kernel)
  exact absurd ((hformed.stored ("s:0:0", "call Ann")).mp (by decide +kernel)) (by decide +kernel)

end OpenRecall.Analysis.ReExtraction
