import OpenRecall.Foundation.Run
import OpenRecall.Analysis.Windowing

/-!
# The index and the atom store

A run of the pipeline adds its atoms to the index one by one and then appends to the atom
store those the index took. A call that raises in between tears the two apart: the atoms the
index took already are in the index only, and the retry does not mend that, because the
index refuses them and only what it takes is appended. The two stay in step through a run of
attempts exactly when no attempt tears them.
-/

set_option autoImplicit false

namespace OpenRecall.Analysis.IndexConsistency

open Foundation OpenRecall.Model OpenRecall.Analysis.Windowing

/-- The same atom ids are in the index and in the atom store. -/
def InSync (stores : MemoryStores) : Prop :=
  ∀ id, id ∈ stores.index.ids ↔ id ∈ stores.atoms.seen

/-- What the atom store holds is in the index. -/
def Within (stores : MemoryStores) : Prop := ∀ id ∈ stores.atoms.seen, id ∈ stores.index.ids

/-- The ids among the pairs that the index does not hold. -/
def newIds (pairs : List (MemoryAtom × Embedding)) (index : InMemoryMemoryIndex) : List String :=
  (pairIds pairs).dedup.filter fun id => id ∉ index.ids

/-- A call raises after the index took a new atom: a later `add`, or one of the appends. -/
def Tears (env : PipelineEnv) (pairs : List (MemoryAtom × Embedding))
    (index : InMemoryMemoryIndex) : Prop :=
  newIds (pairs.take (returned env.addRaises pairs.length)) index ≠ [] ∧
    (returned env.addRaises pairs.length < pairs.length ∨
      returned env.appendRaises (newIds pairs index).length < (newIds pairs index).length)

instance (env : PipelineEnv) (pairs : List (MemoryAtom × Embedding))
    (index : InMemoryMemoryIndex) : Decidable (Tears env pairs index) :=
  inferInstanceAs (Decidable (_ ∧ _))

theorem mem_newIds {pairs : List (MemoryAtom × Embedding)} {index : InMemoryMemoryIndex}
    {id : String} : id ∈ newIds pairs index ↔ id ∈ pairIds pairs ∧ id ∉ index.ids := by
  simp [newIds]

theorem nodup_newIds (pairs : List (MemoryAtom × Embedding)) (index : InMemoryMemoryIndex) :
    (newIds pairs index).Nodup :=
  (List.nodup_dedup _).filter _

/-! ## One run of the pipeline -/

variable {p : Pipeline} {env : PipelineEnv} {sid : String} {events : List CaptureEvent}
  {finalize : Bool} {stores : MemoryStores}

/-- Nothing gets into the store that is not in the index. -/
theorem within_run (h : Within stores) : Within (p.run env sid events finalize stores).2 := by
  intro id hid
  rw [Pipeline.run_index, IndexingStage.mem_ids_run]
  rw [Pipeline.run_atoms] at hid
  rcases IndexingStage.run_result env.addRaises (p.pairs env sid events finalize) stores.index
    with ⟨-, herror⟩ | ⟨hreturned, added, hok, -, hmem⟩
  · rw [herror] at hid
    exact Or.inl (h id hid)
  · rw [hok] at hid
    dsimp only at hid
    rw [mem_seen_appendAll] at hid
    rcases hid with hid | hid
    · exact Or.inl (h id hid)
    · rw [hreturned, List.take_length]
      have hadded : id ∈ added.map MemoryAtom.atomId := by
        rw [List.map_take] at hid
        exact List.mem_of_mem_take hid
      exact Or.inr ((hmem id).mp hadded).1

/-- **One run**: the two are in step after it exactly when they were before and the run does
not tear them apart.
SOURCE: memory/stages.py:310-396 -/
theorem inSync_run_iff (h : Within stores) :
    InSync (p.run env sid events finalize stores).2 ↔
      InSync stores ∧ ¬ Tears env (p.pairs env sid events finalize) stores.index := by
  have hindex : ∀ id, id ∈ (p.run env sid events finalize stores).2.index.ids ↔
      id ∈ stores.index.ids ∨ id ∈ pairIds ((p.pairs env sid events finalize).take
        (returned env.addRaises (p.pairs env sid events finalize).length)) := by
    intro id
    rw [Pipeline.run_index, IndexingStage.mem_ids_run]
  have hseen := Pipeline.run_atoms p env sid events finalize stores
  generalize p.pairs env sid events finalize = pairs at hindex hseen ⊢
  generalize (p.run env sid events finalize stores).2 = stores' at hindex hseen ⊢
  rcases IndexingStage.run_result env.addRaises pairs stores.index with
    ⟨hlt, herror⟩ | ⟨hreturned, added, hok, hnodup, hmem⟩
  · -- an `add` raised, so nothing is appended
    rw [herror] at hseen
    dsimp only at hseen
    constructor
    · intro hsync
      have hback : InSync stores := fun id =>
        ⟨fun hid => hseen ▸ (hsync id).mp ((hindex id).mpr (Or.inl hid)), h id⟩
      refine ⟨hback, ?_⟩
      rintro ⟨hnew, -⟩
      obtain ⟨id, hid⟩ := List.exists_mem_of_ne_nil _ hnew
      obtain ⟨htaken, hnot⟩ := mem_newIds.mp hid
      exact hnot (h id (hseen ▸ (hsync id).mp ((hindex id).mpr (Or.inr htaken))))
    · rintro ⟨hsync, htears⟩ id
      have hnone : newIds (pairs.take (returned env.addRaises pairs.length)) stores.index = [] := by
        by_contra hnew
        exact htears ⟨hnew, Or.inl hlt⟩
      rw [hindex, hseen, ← hsync]
      constructor
      · rintro (hid | hid)
        · exact hid
        · by_contra hnot
          have := mem_newIds.mpr ⟨hid, hnot⟩
          rw [hnone] at this
          exact List.not_mem_nil this
      · exact Or.inl
  · -- every `add` returned, and the atoms that were new go to the store
    rw [hok] at hseen
    dsimp only at hseen
    have hmemSeen : ∀ id, id ∈ stores'.atoms.seen ↔ id ∈ stores.atoms.seen ∨
        id ∈ (added.take (returned env.appendRaises added.length)).map MemoryAtom.atomId := by
      intro id
      rw [hseen, mem_seen_appendAll]
    rw [hreturned, List.take_length] at hindex
    have hlength : (newIds pairs stores.index).length = added.length := by
      rw [← List.length_map MemoryAtom.atomId]
      apply List.Perm.length_eq
      apply (List.perm_ext_iff_of_nodup (nodup_newIds pairs stores.index) hnodup).mpr
      intro id
      rw [mem_newIds, hmem]
    constructor
    · intro hsync
      have hold : ∀ id ∈ stores.index.ids, id ∉ added.map MemoryAtom.atomId := fun id hid hin =>
        ((hmem id).mp hin).2 hid
      refine ⟨fun id => ⟨fun hid => ?_, h id⟩, ?_⟩
      · rcases (hmemSeen id).mp ((hsync id).mp ((hindex id).mpr (Or.inl hid))) with hin | hin
        · exact hin
        · rw [List.map_take] at hin
          exact absurd (List.mem_of_mem_take hin) (hold id hid)
      · rintro ⟨-, hraises⟩
        have hlt : returned env.appendRaises added.length < added.length := by
          rcases hraises with hlt | hlt
          · omega
          · rwa [hlength] at hlt
        -- the first atom that was not appended
        have hsplit : added.map MemoryAtom.atomId =
            (added.take (returned env.appendRaises added.length)).map MemoryAtom.atomId ++
              (added.drop (returned env.appendRaises added.length)).map MemoryAtom.atomId := by
          rw [← List.map_append, List.take_append_drop]
        obtain ⟨atom, hatom⟩ := List.exists_mem_of_ne_nil
          (added.drop (returned env.appendRaises added.length)) (by
            rw [Ne, List.drop_eq_nil_iff]
            omega)
        have hin : atom.atomId ∈ added.map MemoryAtom.atomId :=
          List.mem_map_of_mem (List.mem_of_mem_drop hatom)
        rcases (hmemSeen atom.atomId).mp ((hsync atom.atomId).mp
          ((hindex atom.atomId).mpr (Or.inr ((hmem _).mp hin).1))) with hstored | hstored
        · exact hold _ (h _ hstored) hin
        · rw [hsplit] at hnodup
          exact (List.disjoint_of_nodup_append hnodup) hstored (List.mem_map_of_mem hatom)
    · rintro ⟨hsync, htears⟩ id
      have hall : returned env.appendRaises added.length = added.length := by
        have hle := returned_le env.appendRaises added.length
        by_contra hne
        apply htears
        rw [Tears, hreturned, List.take_length, hlength]
        refine ⟨?_, Or.inr (by omega)⟩
        intro hnil
        rw [hnil] at hlength
        simp only [List.length_nil] at hlength
        omega
      rw [hindex, hmemSeen, hall, List.take_length, hmem, hsync]
      by_cases hid : id ∈ stores.atoms.seen <;> simp [hid]

/-! ## Runs of attempts -/

/-- What can happen to the worker: new events, a run of the pipeline, or a call of
`processSession`; the two may raise. -/
inductive Attempt where
  | reveal (events : List CaptureEvent)
  | run (sessionId : String) (events : List CaptureEvent) (finalize : Bool) (env : PipelineEnv)
  | process (sessionId : String) (finalize : Bool) (env : PipelineEnv)

def step (cfg : WorkerConfig) (w : ExtractionWorker) : Attempt → ExtractionWorker
  | .reveal events => reveal events w
  | .run sessionId events finalize env =>
    { w with stores := (cfg.pipeline.run env sessionId events finalize w.stores).2 }
  | .process sessionId finalize env => (w.processSession cfg env sessionId finalize).2

/-- The attempt tears index and store apart. -/
def TornBy (cfg : WorkerConfig) (w : ExtractionWorker) : Attempt → Prop
  | .reveal _ => False
  | .run sessionId events finalize env =>
    Tears env (cfg.pipeline.pairs env sessionId events finalize) w.stores.index
  | .process sessionId finalize env =>
    Tears env (cfg.pipeline.pairs env sessionId (w.pending cfg sessionId) finalize)
      w.stores.index

instance (cfg : WorkerConfig) (w : ExtractionWorker) (a : Attempt) :
    Decidable (TornBy cfg w a) :=
  match a with
  | .reveal _ => inferInstanceAs (Decidable False)
  | .run sessionId events finalize env =>
    inferInstanceAs (Decidable (Tears env (cfg.pipeline.pairs env sessionId events finalize) _))
  | .process sessionId finalize env =>
    inferInstanceAs (Decidable (Tears env (cfg.pipeline.pairs env sessionId
      (w.pending cfg sessionId) finalize) _))

/-- Being in step only reads the ids. -/
theorem inSync_congr {stores stores' : MemoryStores} (hindex : stores.index = stores'.index)
    (hseen : stores.atoms.seen = stores'.atoms.seen) : InSync stores ↔ InSync stores' := by
  rw [InSync, InSync, hindex, hseen]

theorem within_step (cfg : WorkerConfig) (w : ExtractionWorker) (a : Attempt)
    (h : Within w.stores) : Within (step cfg w a).stores := by
  cases a with
  | reveal events => exact h
  | run sessionId events finalize env => exact within_run h
  | process sessionId finalize env =>
    obtain ⟨hindex, hseen⟩ :=
      ExtractionWorker.processSession_stores cfg env sessionId finalize w
    intro id hid
    rw [step, hseen] at hid
    rw [step, hindex]
    exact within_run h id hid

/-- One attempt keeps the two in step exactly when it does not tear them. -/
theorem inSync_step_iff (cfg : WorkerConfig) (w : ExtractionWorker) (a : Attempt)
    (h : Within w.stores) :
    InSync (step cfg w a).stores ↔ InSync w.stores ∧ ¬ TornBy cfg w a := by
  cases a with
  | reveal events => simp [step, reveal, TornBy]
  | run sessionId events finalize env => exact inSync_run_iff h
  | process sessionId finalize env =>
    obtain ⟨hindex, hseen⟩ :=
      ExtractionWorker.processSession_stores cfg env sessionId finalize w
    rw [step, inSync_congr hindex hseen]
    exact inSync_run_iff h

/-- **Index and store stay in step through a run of attempts, any of which may raise, if and
only if no attempt raises after the index took a new atom.** Later successes mend nothing: the
index refuses what it holds, and only what it takes is appended.
SOURCE: memory/stages.py:310-396, memory/extraction_worker.py:555-637 -/
theorem inSync_iff_never_torn (cfg : WorkerConfig) (w : ExtractionWorker)
    (hsync : InSync w.stores) (attempts : List Attempt) :
    InSync (run (step cfg) w attempts).stores ↔
      EveryStep (step cfg) (fun w a => ¬ TornBy cfg w a) w attempts := by
  have hrule := run_iff_everyStep (I := fun w => Within w.stores) (G := fun w => InSync w.stores)
    (fun w a h _ => within_step cfg w a h) (fun w a h _ => inSync_step_iff cfg w a h)
    (fun id hid => (hsync id).mpr hid) (everyStep_true w attempts)
  rw [hrule]
  exact and_iff_right hsync

/-- One event, an attempt whose append raises, and one where nothing does. -/
def tornRun : List Attempt :=
  [.reveal [demoEvent 0 .transcript 0],
    .process "s" true { appendRaises := fun _ => true },
    .process "s" true {}]

/-- Index and store of the run are in step if and only if no attempt of it is torn. -/
theorem inSync_iff_never_torn_tornRun :
    InSync (run (step demoConfig) {} tornRun).stores ↔
      EveryStep (step demoConfig) (fun w a => ¬ TornBy demoConfig w a) {} tornRun :=
  inSync_iff_never_torn demoConfig {} (fun id => by simp [InMemoryMemoryIndex.ids, Dict.keys,
    Dict.empty]) tornRun

/-- **The two can diverge for good**: the append of the first attempt raises, the second
attempt succeeds and moves the cursor past the event, and its atom is in the index only. -/
theorem not_always_inSync :
    ¬ ∀ (cfg : WorkerConfig) (w : ExtractionWorker) (attempts : List Attempt)
      (sid : String) (env : PipelineEnv), InSync w.stores →
      ((run (step cfg) w attempts).processSession cfg env sid true).1.outcome.Succeeded →
      (∀ e ∈ (run (step cfg) w attempts).pending cfg sid,
        e.seq ≤ (step cfg (run (step cfg) w attempts) (.process sid true env)).cursor cfg sid) →
      InSync (step cfg (run (step cfg) w attempts) (.process sid true env)).stores := by
  intro h
  have hsync := h demoConfig {} [.reveal [demoEvent 0 .transcript 0],
    .process "s" true { appendRaises := fun _ => true }] "s" {}
    (fun id => by simp [InMemoryMemoryIndex.ids, Dict.keys, Dict.empty])
    (by decide +kernel) (by decide +kernel) "s:0:0"
  exact absurd (hsync.mp (by decide +kernel)) (by decide +kernel)

end OpenRecall.Analysis.IndexConsistency
