import OpenRecall.Analysis.IndexConsistency
import OpenRecall.Analysis.Reconciliation
import OpenRecall.Model.DirectWriters

/-!
# Stored memories and the index

Four components write atoms into one store: the extraction pipeline, the planner, the vision
pipeline and the command memory. The retriever searches the index, and only the first of them
writes to it. So what the others store can be found by no question, unless the index happens to
hold its id already: every memory stays searchable exactly as long as no direct write mints an
atom whose id is not in the index.
-/

set_option autoImplicit false

namespace OpenRecall.Model

open Foundation

/-! ## What each direct writer adds to the store -/

namespace Planner

variable (p : Planner) (ctx : PlannerContext) (env : PlannerEnv) (world : PlannerWorld)

/-- The run mints its action: it is a memory or a reminder that the guardrails let pass, its
stores are wired, and none of them raises. -/
def Mints : Prop :=
  (p.vetted env world).2.1.outcome ≠ .refuse ∧ p.atomStore ∧ env.appendRaises = false ∧
    ((p.vetted env world).1.action.kind = .createMemory ∨
      (p.vetted env world).1.action.kind = .createReminder ∧ p.reminderStore ∧
        env.reminderAddRaises = none)

instance : Decidable (p.Mints env world) := inferInstanceAs (Decidable (_ ∧ _))

/-- The id of the atom that a run mints. -/
def nextAtomId : String := p.kit.ids.new world.plane.minted

variable {p ctx env world}

theorem mem_seen_mint {atom : MemoryAtom} {result : PlannerResult} {id : String} :
    id ∈ (mint env atom result world).world.atoms.seen ↔
      id ∈ world.atoms.seen ∨ env.appendRaises = false ∧ id = atom.atomId := by
  unfold mint
  split_ifs with hraises
  · simp [hraises]
  · simp [InMemoryAtomStore.mem_seen_append, hraises, or_comm]

theorem mem_seen_createMemory {guarded : GuardedAction} {action : AgentAction} {id : String} :
    id ∈ (p.createMemory ctx env guarded action world).world.atoms.seen ↔
      id ∈ world.atoms.seen ∨
        p.atomStore ∧ env.appendRaises = false ∧ id = p.nextAtomId world := by
  unfold createMemory
  by_cases hstore : p.atomStore = true
  · simp only [hstore, not_true_eq_false, if_false, mem_seen_mint, mintedAtom, nextAtomId,
      true_and]
  · simp [hstore]

theorem mem_seen_createReminder {guarded : GuardedAction} {action : AgentAction} {id : String} :
    id ∈ (p.createReminder ctx env guarded action world).world.atoms.seen ↔
      id ∈ world.atoms.seen ∨
        (p.atomStore ∧ p.reminderStore) ∧ env.reminderAddRaises = none ∧
          env.appendRaises = false ∧ id = p.nextAtomId world := by
  unfold createReminder
  by_cases hstores : p.atomStore = true ∧ p.reminderStore = true
  · simp only [hstores, and_self, not_true_eq_false, if_false, true_and]
    cases hraises : env.reminderAddRaises with
    | some exc => simp
    | none => simp only [mem_seen_mint, mintedAtom, nextAtomId, true_and]
  · simp [hstores]

/-- A command leaves the atoms alone. -/
theorem dispatchCommand_atoms (action : AgentAction) :
    (p.dispatchCommand ctx env action world).world.atoms = world.atoms := by
  unfold dispatchCommand
  split
  · rfl
  · split <;> rfl

/-- What a vetted action stores, by its kind. -/
theorem mem_seen_act {action : AgentAction} {guarded : GuardedAction} {id : String} :
    id ∈ (p.act ctx env action guarded world).world.atoms.seen ↔
      id ∈ world.atoms.seen ∨
        (guarded.outcome ≠ .refuse ∧ p.atomStore ∧ env.appendRaises = false ∧
          (action.kind = .createMemory ∨
            action.kind = .createReminder ∧ p.reminderStore ∧ env.reminderAddRaises = none)) ∧
          id = p.nextAtomId world := by
  unfold act
  cases hkind : action.kind with
  | answer => simp
  | noMemory => simp
  | issueCommand =>
    dsimp only
    split_ifs
    · simp
    · simp [dispatchCommand_atoms]
  | createMemory =>
    dsimp only
    split_ifs with hrefuse
    · simp [hrefuse]
    · simp [mem_seen_createMemory, hrefuse, and_assoc]
  | createReminder =>
    dsimp only
    split_ifs with hrefuse
    · simp [hrefuse]
    · rw [mem_seen_createReminder]
      simp only [ne_eq, hrefuse, not_false_eq_true, false_or, true_and]
      tauto

/-- **What a run of the planner stores**: at most the atom it mints.
SOURCE: agent/planner.py:206-546 -/
theorem mem_seen_plan (id : String) :
    id ∈ (p.plan ctx env world).world.atoms.seen ↔
      id ∈ world.atoms.seen ∨ p.Mints env world ∧ id = p.nextAtomId world :=
  mem_seen_act

end Planner

/-- The capture stores a scene: it has none of the image yet, and the vision model answers. -/
def VisionPipeline.Stores (v : VisionPipeline) (c : Capture) (atoms : InMemoryAtomStore) : Prop :=
  ¬ atoms.has (v.sceneId c) ∧ (v.caption c.image c.mediaType).isSome

instance (v : VisionPipeline) (c : Capture) (atoms : InMemoryAtomStore) :
    Decidable (v.Stores c atoms) := inferInstanceAs (Decidable (_ ∧ _))

/-- What a capture stores.
SOURCE: vision/pipeline.py:41-77 -/
theorem VisionPipeline.mem_seen_capture (v : VisionPipeline) (c : Capture) (now : Time)
    (blobs : InMemoryBlobStore) (atoms : InMemoryAtomStore) (id : String) :
    id ∈ (v.capture c now blobs atoms).2.2.seen ↔
      id ∈ atoms.seen ∨ v.Stores c atoms ∧ id = v.sceneId c := by
  unfold capture Stores
  split_ifs with hhas
  · simp [hhas]
  · cases hcaption : v.caption c.image c.mediaType with
    | none => simp
    | some caption => simp [InMemoryAtomStore.mem_seen_append, sceneAtom, hhas, or_comm]

/-- What an acked command stores.
SOURCE: agent/command_memory.py:34-55 -/
theorem CommandMemoryWriter.mem_seen_onAck (a : AckedCommand) (now : Time)
    (atoms : InMemoryAtomStore) (id : String) :
    id ∈ (CommandMemoryWriter.onAck a now atoms).seen ↔
      id ∈ atoms.seen ∨ a.sourceEventId.isSome ∧ id = a.commandId := by
  unfold onAck
  cases a.sourceEventId with
  | none => simp
  | some sourceEventId => simp [InMemoryAtomStore.mem_seen_append, or_comm]

end OpenRecall.Model

namespace OpenRecall.Analysis.Searchability

open Foundation OpenRecall.Model OpenRecall.Analysis.IndexConsistency
  OpenRecall.Analysis.Windowing OpenRecall.Analysis.Reconciliation

/-! ## The four writers over one store and one index -/

/-- How the writers are wired. -/
structure Writers where
  pipeline : Pipeline
  planner : Planner
  vision : VisionPipeline

/-- What the writers share, with the planner's other stores and the images. -/
structure Memory where
  stores : MemoryStores := {}
  plane : CommandPlane := {}
  reminders : List Reminder := []
  rateWindow : List Time := []
  blobs : InMemoryBlobStore := {}

/-- The planner's part. -/
def Memory.plannerWorld (m : Memory) : PlannerWorld where
  plane := m.plane
  atoms := m.stores.atoms
  reminders := m.reminders
  rateWindow := m.rateWindow

/-- One operation of a writer. -/
inductive Write where
  | extract (sessionId : String) (events : List CaptureEvent) (finalize : Bool)
      (env : PipelineEnv)
  | plan (ctx : PlannerContext) (env : PlannerEnv)
  | capture (c : Capture) (now : Time)
  | onAck (a : AckedCommand) (now : Time)

def step (ws : Writers) (m : Memory) : Write → Memory
  | .extract sessionId events finalize env =>
    { m with stores := (ws.pipeline.run env sessionId events finalize m.stores).2 }
  | .plan ctx env =>
    let world := (ws.planner.plan ctx env m.plannerWorld).world
    { m with
      stores := { m.stores with atoms := world.atoms }
      plane := world.plane
      reminders := world.reminders
      rateWindow := world.rateWindow }
  | .capture c now =>
    let out := ws.vision.capture c now m.blobs m.stores.atoms
    { m with stores := { m.stores with atoms := out.2.2 }, blobs := out.2.1 }
  | .onAck a now =>
    { m with stores := { m.stores with
        atoms := CommandMemoryWriter.onAck a now m.stores.atoms } }

/-- The id of the atom that an operation writes to the store without the index, if it does. -/
def directId (ws : Writers) (m : Memory) : Write → Option String
  | .extract _ _ _ _ => none
  | .plan _ env =>
    if ws.planner.Mints env m.plannerWorld then some (ws.planner.nextAtomId m.plannerWorld)
    else none
  | .capture c _ => if ws.vision.Stores c m.stores.atoms then some (ws.vision.sceneId c) else none
  | .onAck a _ => if a.sourceEventId.isSome then some a.commandId else none

/-- The operation writes no atom directly, or one whose id is in the index already. -/
def Covered (ws : Writers) (m : Memory) (w : Write) : Prop :=
  ∀ id ∈ directId ws m w, id ∈ m.stores.index.ids

instance (ws : Writers) (m : Memory) (w : Write) : Decidable (Covered ws m w) :=
  inferInstanceAs (Decidable (∀ id ∈ directId ws m w, _))

/-- An operation other than an extraction leaves the index alone and stores its own atom. -/
theorem step_direct (ws : Writers) (m : Memory) (w : Write) :
    (∃ sessionId events finalize env, w = .extract sessionId events finalize env) ∨
      (step ws m w).stores.index = m.stores.index ∧
        ∀ id, id ∈ (step ws m w).stores.atoms.seen ↔
          id ∈ m.stores.atoms.seen ∨ id ∈ directId ws m w := by
  cases w with
  | extract sessionId events finalize env => exact Or.inl ⟨_, _, _, _, rfl⟩
  | plan ctx env =>
    refine Or.inr ⟨rfl, fun id => ?_⟩
    simp only [step, directId, Planner.mem_seen_plan]
    apply or_congr Iff.rfl
    by_cases hmints : ws.planner.Mints env m.plannerWorld <;> simp [hmints, eq_comm]
  | capture c now =>
    refine Or.inr ⟨rfl, fun id => ?_⟩
    simp only [step, directId, VisionPipeline.mem_seen_capture]
    apply or_congr Iff.rfl
    by_cases hstores : ws.vision.Stores c m.stores.atoms <;> simp [hstores, eq_comm]
  | onAck a now =>
    refine Or.inr ⟨rfl, fun id => ?_⟩
    simp only [step, directId, CommandMemoryWriter.mem_seen_onAck]
    apply or_congr Iff.rfl
    by_cases hsource : a.sourceEventId.isSome = true <;> simp [hsource, eq_comm]

/-- One operation keeps the stored memories searchable exactly when it is covered. -/
theorem within_step_iff (ws : Writers) (m : Memory) (w : Write) (h : Within m.stores) :
    Within (step ws m w).stores ↔ Covered ws m w := by
  rcases step_direct ws m w with ⟨sessionId, events, finalize, env, rfl⟩ | ⟨hindex, hseen⟩
  · apply iff_of_true
    · exact within_run h
    · simp [Covered, directId]
  · unfold Within Covered
    rw [hindex]
    constructor
    · intro hafter id hid
      exact hafter id ((hseen id).mpr (Or.inr hid))
    · intro hcovered id hid
      rcases (hseen id).mp hid with hid | hid
      · exact h id hid
      · exact hcovered id hid

/-- **Every stored memory is searchable after each operation of a run if and only if no operation
mints an atom directly, unless the index holds its id.** Extractions are always covered.
SOURCE: memory/stages.py:310-396, agent/planner.py:427-546, vision/pipeline.py:41-77,
agent/command_memory.py:34-55 -/
theorem always_searchable_iff (ws : Writers) (m : Memory) (h : Within m.stores)
    (writes : List Write) :
    (∀ done, done <+: writes → Within (run (step ws) m done).stores) ↔
      EveryStep (step ws) (Covered ws) m writes :=
  forall_prefix_iff_everyStep (I := fun m : Memory => Within m.stores) (within_step_iff ws) h
    writes

/-! ## Concrete runs -/

/-- The writers, for an image of the bytes `jpeg-bytes`. -/
def demoWriters : Writers where
  pipeline := demoConfig.pipeline
  planner := { guardrails := .default, kit := plainKit, atomStore := true }
  vision :=
    { sha256Hex := fun _ => "0111dbc398b94eacda6759809c050530868ee7e313b3381c2f95ce8b55331c50"
      caption := fun _ _ => some "a neon sign" }

/-- A transcript, its extraction, and the capture of an image. -/
def demoWrites : List Write :=
  [.extract "s" [demoEvent 0 .transcript 0] true {},
    .capture
      { sessionId := some "s", image := [106, 112, 101, 103, 45, 98, 121, 116, 101, 115]
        capturedAtMs := 5000 } 0]

theorem within_empty : Within {} := by
  intro id hid
  simp at hid

/-- After each of the two operations every stored memory is searchable if and only if the second
stores no scene. -/
theorem always_searchable_iff_demoWrites :
    (∀ done, done <+: demoWrites → Within (run (step demoWriters) {} done).stores) ↔
      EveryStep (step demoWriters) (Covered demoWriters) {} demoWrites :=
  always_searchable_iff demoWriters {} within_empty demoWrites

/-- **A stored scene is not in the index**: one capture suffices. -/
theorem not_always_searchable :
    ¬ ∀ (ws : Writers) (m : Memory) (writes : List Write), Within m.stores →
      ∀ done, done <+: writes → Within (run (step ws) m done).stores := by
  intro h
  have hscene := h demoWriters {} demoWrites within_empty demoWrites List.prefix_rfl
    "s:scene:0111dbc398b94eacda6759809c050530868ee7e313b3381c2f95ce8b55331c50" (by decide +kernel)
  exact absurd hscene (by decide +kernel)

end OpenRecall.Analysis.Searchability
