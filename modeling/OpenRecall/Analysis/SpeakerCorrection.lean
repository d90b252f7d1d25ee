import OpenRecall.Model.SpeakerIdentifier
import OpenRecall.Model.SpeakerReassign

/-!
# What a speaker correction leaves with the source

After `reassignSpeaker` no event names the source and its embedding buffer is empty, whatever the
backends (`events_sweep`, `ringBuffer_moveEmbeddings`). Two things can stay. The sweep goes over
the sessions of the atom store, so an atom without a session keeps its speaker (`atoms_sweep`).
And the source's centroid is recomputed after its buffer was emptied, where `recomputeCentroid`
returns early, so the vector the moved embeddings made is still there to match them. `dePoisoned_iff`
says that nothing else stays.
-/

set_option autoImplicit false

namespace OpenRecall.Analysis.SpeakerCorrection

open Foundation Model

variable {fromId toId : String}

/-! ## Relabelled rows -/

theorem relabel_event_ne (h : fromId ≠ toId) (e : CaptureEvent) :
    (e.relabel fromId toId).speaker ≠ some fromId := by
  unfold CaptureEvent.relabel
  split_ifs with hs
  · simpa using h.symm
  · exact hs

theorem relabel_eventRow_ne (h : fromId ≠ toId) (r : EventRow) :
    (r.relabel fromId toId).speaker ≠ some fromId := by
  unfold EventRow.relabel
  split_ifs with hs
  · simpa using h.symm
  · exact hs

theorem relabel_atom_ne (h : fromId ≠ toId) (a : MemoryAtom) :
    (a.relabel fromId toId).speaker ≠ some fromId := by
  unfold MemoryAtom.relabel
  split_ifs with hs
  · simpa using h.symm
  · exact hs

theorem relabel_atomRow_ne (h : fromId ≠ toId) (r : AtomRow) :
    (r.relabel fromId toId).speaker ≠ some fromId := by
  unfold AtomRow.relabel
  split_ifs with hs
  · simpa using h.symm
  · exact hs

/-! ## The four stores as keyed updates -/

/-- A dictionary of rows by key: an update replaces the rows of a key that is there. -/
theorem getD_get?_updated {κ ρ : Type} [DecidableEq κ] (d : Dict κ (List ρ)) (f : ρ → ρ)
    {k : κ} {rows : List ρ} (h : d.get? k = some rows) (k' : κ) :
    ((d.set k (rows.map f)).get? k').getD [] =
      if k' = k then ((d.get? k').getD []).map f else (d.get? k').getD [] := by
  rw [Dict.get?_set]
  split_ifs with hk
  · simp [hk, h]
  · rfl

/-- Changing the rows of one key changes what is selected by that key, and nothing else. -/
theorem filter_map_key {κ ρ : Type} [DecidableEq κ] (key : ρ → κ) {f : ρ → ρ}
    (hf : ∀ r, key (f r) = key r) (k k' : κ) (rows : List ρ) :
    (rows.map fun r => if key r = k then f r else r).filter (key · = k') =
      if k' = k then (rows.filter (key · = k')).map f else rows.filter (key · = k') := by
  have hkey : ∀ r, key (if key r = k then f r else r) = key r := by
    intro r
    split_ifs
    · exact hf r
    · rfl
  rw [List.filter_map]
  simp only [Function.comp_def, hkey]
  split_ifs with hk
  · subst hk
    apply List.map_congr_left
    intro r hr
    simp_all
  · conv_rhs => rw [← List.map_id (rows.filter _)]
    apply List.map_congr_left
    intro r hr
    have hr' : key r = k' := by simpa using (List.mem_filter.mp hr).2
    rw [if_neg (by rw [hr']; exact hk), id]

def inMemoryEvents (fromId toId : String) :
    KeyedUpdate InMemoryEventStore String CaptureEvent where
  rows st sid := st.rows sid
  update sid st := st.relabelSpeaker fromId toId sid
  change := CaptureEvent.relabel fromId toId
  change_change e := by
    unfold CaptureEvent.relabel
    split_ifs <;> simp_all
  rows_update sid st sid' := by
    unfold InMemoryEventStore.relabelSpeaker
    cases hrows : st.bySession.get? sid with
    | none =>
      split_ifs with hsid
      · simp [InMemoryEventStore.rows, hsid, hrows]
      · rfl
    | some rows => exact getD_get?_updated st.bySession _ hrows sid'

def sqliteEvents (fromId toId : String) : KeyedUpdate SqliteEventStore String EventRow where
  rows st sid := st.rows.filter (·.sessionId = sid)
  update sid st := st.relabelSpeaker fromId toId sid
  change := EventRow.relabel fromId toId
  change_change r := by
    unfold EventRow.relabel
    split_ifs <;> simp_all
  rows_update sid st sid' := by
    apply filter_map_key EventRow.sessionId
    intro r
    unfold EventRow.relabel
    split_ifs <;> rfl

def inMemoryAtoms (fromId toId : String) :
    KeyedUpdate InMemoryAtomStore (Option String) MemoryAtom where
  rows st sid := (st.bySession.get? sid).getD []
  update sid st := st.relabelSpeaker fromId toId sid
  change := MemoryAtom.relabel fromId toId
  change_change a := by
    unfold MemoryAtom.relabel
    split_ifs <;> simp_all
  rows_update sid st sid' := by
    unfold InMemoryAtomStore.relabelSpeaker
    cases hrows : st.bySession.get? sid with
    | none =>
      split_ifs with hsid
      · simp [hsid, hrows]
      · rfl
    | some rows => exact getD_get?_updated st.bySession _ hrows sid'

def sqliteAtoms (fromId toId : String) : KeyedUpdate SqliteAtomStore String AtomRow where
  rows st sid := st.rows.filter (·.sessionId = sid)
  update sid st := st.relabelSpeaker fromId toId sid
  change := AtomRow.relabel fromId toId
  change_change r := by
    unfold AtomRow.relabel
    split_ifs <;> simp_all
  rows_update sid st sid' := by
    apply filter_map_key AtomRow.sessionId
    intro r
    unfold AtomRow.relabel
    split_ifs <;> rfl

/-! ## What the sweeps leave -/

/-- What the rows of a dictionary say, key by key. -/
theorem mem_values_flatten {κ ρ : Type} [DecidableEq κ] (d : Dict κ (List ρ)) (r : ρ) :
    r ∈ d.values.flatten ↔ ∃ k, r ∈ (d.get? k).getD [] := by
  simp only [List.mem_flatten, Dict.mem_values_iff]
  constructor
  · rintro ⟨rows, ⟨k, hk⟩, hr⟩
    exact ⟨k, by simpa [hk] using hr⟩
  · rintro ⟨k, hr⟩
    cases hk : d.get? k with
    | none => simp [hk] at hr
    | some rows => exact ⟨rows, ⟨k, hk⟩, by simpa [hk] using hr⟩

theorem getD_get?_eq_nil {κ ρ : Type} [DecidableEq κ] {d : Dict κ (List ρ)} {k : κ}
    (h : k ∉ d.keys) : (d.get? k).getD [] = [] := by
  simp [(d.get?_eq_none_iff k).mpr h]

theorem foldl_inMemoryEvents (sids : List String) (st : InMemoryEventStore) :
    sids.foldl (fun st sid => EventStore.relabelSpeaker fromId toId sid st) (.inMemory st) =
      .inMemory ((inMemoryEvents fromId toId).sweep sids st) := by
  induction sids generalizing st with
  | nil => rfl
  | cons sid sids ih => exact ih (st.relabelSpeaker fromId toId sid)

theorem foldl_sqliteEvents (sids : List String) (st : SqliteEventStore) :
    sids.foldl (fun st sid => EventStore.relabelSpeaker fromId toId sid st) (.sqlite st) =
      .sqlite ((sqliteEvents fromId toId).sweep sids st) := by
  induction sids generalizing st with
  | nil => rfl
  | cons sid sids ih => exact ih (st.relabelSpeaker fromId toId sid)

theorem foldl_inMemoryAtoms (sids : List String) (st : InMemoryAtomStore) :
    sids.foldl (fun st sid => AtomStore.relabelSpeaker fromId toId sid st) (.inMemory st) =
      .inMemory ((inMemoryAtoms fromId toId).sweep (sids.map some) st) := by
  induction sids generalizing st with
  | nil => rfl
  | cons sid sids ih => exact ih (st.relabelSpeaker fromId toId (some sid))

theorem foldl_sqliteAtoms (sids : List String) (st : SqliteAtomStore) :
    sids.foldl (fun st sid => AtomStore.relabelSpeaker fromId toId sid st) (.sqlite st) =
      .sqlite ((sqliteAtoms fromId toId).sweep sids st) := by
  induction sids generalizing st with
  | nil => rfl
  | cons sid sids ih => exact ih (st.relabelSpeaker fromId toId sid)

/-- **No event names the source** after every session was swept. -/
theorem events_sweep (h : fromId ≠ toId) (st : EventStore) :
    some fromId ∉ (st.sessions.foldl
      (fun st sid => EventStore.relabelSpeaker fromId toId sid st) st).attributions := by
  cases st with
  | inMemory st =>
    rw [foldl_inMemoryEvents]
    intro hmem
    obtain ⟨e, he, hspeaker⟩ := List.mem_map.mp hmem
    obtain ⟨sid, hsid⟩ := (mem_values_flatten _ e).mp he
    have hcover : (inMemoryEvents fromId toId).rows st sid ≠ [] → sid ∈ st.sessions := by
      intro hne
      by_contra hnot
      exact hne (getD_get?_eq_nil hnot)
    obtain ⟨e₀, -, rfl⟩ := (inMemoryEvents fromId toId).exists_of_mem_sweep hcover hsid
    exact relabel_event_ne h e₀ hspeaker
  | sqlite st =>
    rw [foldl_sqliteEvents]
    intro hmem
    obtain ⟨r, hr, hspeaker⟩ := List.mem_map.mp hmem
    have hsid : r ∈ (sqliteEvents fromId toId).rows
        ((sqliteEvents fromId toId).sweep st.sessions st) r.sessionId :=
      List.mem_filter.mpr ⟨hr, by simp⟩
    have hcover : (sqliteEvents fromId toId).rows st r.sessionId ≠ [] →
        r.sessionId ∈ st.sessions := by
      intro hne
      obtain ⟨r₀, hr₀⟩ := List.exists_mem_of_ne_nil _ hne
      obtain ⟨hrow, hkey⟩ := List.mem_filter.mp hr₀
      have hkey' : r₀.sessionId = r.sessionId := by simpa using hkey
      rw [SqliteEventStore.sessions, List.mem_dedup, ← hkey']
      exact List.mem_map_of_mem hrow
    obtain ⟨r₀, -, rfl⟩ := (sqliteEvents fromId toId).exists_of_mem_sweep hcover hsid
    exact relabel_eventRow_ne h r₀ hspeaker

/-- **The atoms that name the source after the sweep** are those without a session that named it
before. -/
theorem atoms_sweep (h : fromId ≠ toId) (st : AtomStore) :
    some fromId ∈ (st.sessions.foldl
      (fun st sid => AtomStore.relabelSpeaker fromId toId sid st) st).attributions ↔
      some fromId ∈ st.sessionlessAttributions := by
  cases st with
  | inMemory st =>
    rw [foldl_inMemoryAtoms]
    have hsids : ∀ sid, sid ∈ (AtomStore.inMemory st).sessions.map some ↔
        sid ∈ st.bySession.keys ∧ sid ≠ none := by
      intro sid
      simp only [AtomStore.sessions, InMemoryAtomStore.sessions, List.mem_map,
        List.reduceOption_mem_iff]
      constructor
      · rintro ⟨s, hs, rfl⟩
        exact ⟨hs, by simp⟩
      · rintro ⟨hs, hne⟩
        obtain ⟨s, rfl⟩ := Option.ne_none_iff_exists'.mp hne
        exact ⟨s, hs, rfl⟩
    have hnone : (((inMemoryAtoms fromId toId).sweep
        ((AtomStore.inMemory st).sessions.map some) st).bySession.get? none).getD [] =
          (st.bySession.get? none).getD [] :=
      (inMemoryAtoms fromId toId).rows_sweep_of_notMem (by simp [hsids]) st
    constructor
    · intro hmem
      obtain ⟨a, ha, hspeaker⟩ := List.mem_map.mp hmem
      obtain ⟨sid, hsid⟩ := (mem_values_flatten _ a).mp ha
      by_cases hkey : sid = none
      · subst hkey
        rw [hnone] at hsid
        exact List.mem_map.mpr ⟨a, hsid, hspeaker⟩
      · have hcover : (inMemoryAtoms fromId toId).rows st sid ≠ [] →
            sid ∈ (AtomStore.inMemory st).sessions.map some := by
          intro hne
          by_contra hnot
          exact hne (getD_get?_eq_nil fun hk => hnot ((hsids sid).mpr ⟨hk, hkey⟩))
        obtain ⟨a₀, -, rfl⟩ := (inMemoryAtoms fromId toId).exists_of_mem_sweep hcover hsid
        exact absurd hspeaker (relabel_atom_ne h a₀)
    · intro hmem
      obtain ⟨a, ha, hspeaker⟩ := List.mem_map.mp hmem
      rw [← hnone] at ha
      exact List.mem_map.mpr ⟨a, (mem_values_flatten _ a).mpr ⟨none, ha⟩, hspeaker⟩
  | sqlite st =>
    rw [foldl_sqliteAtoms]
    have hsids : ∀ sid, sid ∈ (AtomStore.sqlite st).sessions ↔
        sid ∈ st.rows.map AtomRow.sessionId ∧ sid ≠ sessionless := by
      intro sid
      simp [AtomStore.sessions, SqliteAtomStore.sessions]
    have hnone : ((sqliteAtoms fromId toId).sweep
        (AtomStore.sqlite st).sessions st).rows.filter (·.sessionId = sessionless) =
          st.rows.filter (·.sessionId = sessionless) :=
      (sqliteAtoms fromId toId).rows_sweep_of_notMem (by simp [hsids]) st
    constructor
    · intro hmem
      obtain ⟨r, hr, hspeaker⟩ := List.mem_map.mp hmem
      by_cases hkey : r.sessionId = sessionless
      · have hsid : r ∈ st.rows.filter (·.sessionId = sessionless) := by
          rw [← hnone]
          exact List.mem_filter.mpr ⟨hr, by simpa using hkey⟩
        exact List.mem_map.mpr ⟨r, hsid, hspeaker⟩
      · have hcover : (sqliteAtoms fromId toId).rows st r.sessionId ≠ [] →
            r.sessionId ∈ (AtomStore.sqlite st).sessions := by
          intro hne
          obtain ⟨r₀, hr₀⟩ := List.exists_mem_of_ne_nil _ hne
          obtain ⟨hrow, hk⟩ := List.mem_filter.mp hr₀
          have hk' : r₀.sessionId = r.sessionId := by simpa using hk
          rw [hsids, ← hk']
          exact ⟨List.mem_map_of_mem hrow, hk' ▸ hkey⟩
        have hsid : r ∈ (sqliteAtoms fromId toId).rows
            ((sqliteAtoms fromId toId).sweep (AtomStore.sqlite st).sessions st) r.sessionId :=
          List.mem_filter.mpr ⟨hr, by simp⟩
        obtain ⟨r₀, -, rfl⟩ := (sqliteAtoms fromId toId).exists_of_mem_sweep hcover hsid
        exact absurd hspeaker (relabel_atomRow_ne h r₀)
    · intro hmem
      obtain ⟨r, hr, hspeaker⟩ := List.mem_map.mp hmem
      rw [← hnone] at hr
      exact List.mem_map.mpr ⟨r, (List.mem_filter.mp hr).1, hspeaker⟩

/-! ## The registry -/

/-- Capping the embeddings deletes some of them. -/
theorem mem_of_mem_cap {n : ℕ} {speakerId : String} {embeddings : List EmbeddingRow}
    {e : EmbeddingRow} (h : e ∈ SqliteSpeakerRegistry.cap n speakerId embeddings) :
    e ∈ embeddings := by
  obtain ⟨⟨e', i⟩, he, rfl⟩ := List.mem_map.mp h
  exact List.fst_mem_of_mem_zipIdx (List.mem_filter.mp he).1

/-- The source's buffer is empty after the move. -/
theorem ringBuffer_moveEmbeddings (h : fromId ≠ toId) (cfg : SpeakerConfig)
    (reg : SpeakerRegistry) : (reg.moveEmbeddings cfg fromId toId).ringBuffer fromId = [] := by
  cases reg with
  | inMemory reg =>
    have hget : (reg.moveEmbeddings cfg fromId toId).bufs.get? fromId = none := by
      rw [InMemorySpeakerRegistry.moveEmbeddings, Dict.get?_set_of_ne _ _ h, Dict.get?_erase,
        if_pos rfl]
    simp [SpeakerRegistry.moveEmbeddings, SpeakerRegistry.ringBuffer,
      InMemorySpeakerRegistry.ringBuffer, InMemorySpeakerRegistry.buf, hget]
  | sqlite reg =>
    have hnone : (reg.moveEmbeddings cfg fromId toId).embeddings.filter
        (·.speakerId = fromId) = [] := by
      rw [List.filter_eq_nil_iff]
      intro e he
      obtain ⟨e₀, -, rfl⟩ := List.mem_map.mp (mem_of_mem_cap he)
      split_ifs with hfrom
      · simpa using h.symm
      · simpa using hfrom
    simp [SpeakerRegistry.moveEmbeddings, SpeakerRegistry.ringBuffer,
      SqliteSpeakerRegistry.ringBuffer, SqliteSpeakerRegistry.embeddingsOf, hnone]

/-- **What a correction leaves in the registry**: the source's buffer is empty, and its row is what
it was, as its centroid is recomputed from nothing. -/
theorem registry_reassign (h : fromId ≠ toId) (cfg : SpeakerConfig) (ops : FloatOps)
    (now : String) (mem : SpeakerMemory) :
    (reassignSpeaker cfg ops now fromId toId mem).1.registry.ringBuffer fromId = [] ∧
    (reassignSpeaker cfg ops now fromId toId mem).1.registry.speakers.get? fromId =
      mem.registry.speakers.get? fromId := by
  have hnil := ringBuffer_moveEmbeddings h cfg mem.registry
  simp only [reassignSpeaker, SpeakerRegistry.recomputeCentroid_of_nil hnil]
  cases hrec : (mem.registry.moveEmbeddings cfg fromId toId).recomputeCentroid cfg ops now toId with
  | none => exact ⟨hnil, by simp⟩
  | some reg' =>
    obtain ⟨hbuf, hrow⟩ := SpeakerRegistry.recomputeCentroid_spec hrec
    exact ⟨(hbuf fromId).trans hnil, by simpa using hrow fromId h⟩

/-- A later state of the registry in which nothing was done to one speaker. -/
def Later (cfg : SpeakerConfig) (ops : FloatOps) (id : String) :
    SpeakerRegistry → SpeakerRegistry → Prop :=
  Relation.ReflTransGen fun reg reg' =>
    ∃ now op, id ∉ RegistryOp.ids op ∧ reg' = op.apply cfg ops now reg

variable {cfg : SpeakerConfig} {ops : FloatOps}

theorem Later.get? {id : String} {reg reg' : SpeakerRegistry} (h : Later cfg ops id reg reg') :
    reg'.speakers.get? id = reg.speakers.get? id := by
  induction h with
  | refl => rfl
  | tail _ hstep ih =>
    obtain ⟨now, op, hid, rfl⟩ := hstep
    rw [RegistryOp.get?_apply hid, ih]

/-- The registry after deleting some speakers. -/
def deleteAll (ids : List String) (reg : SpeakerRegistry) : SpeakerRegistry :=
  ids.foldl (fun reg id => reg.deleteSpeaker id) reg

theorem get?_deleteAll (ids : List String) (reg : SpeakerRegistry) (id : String) :
    (deleteAll ids reg).speakers.get? id =
      if id ∈ ids then none else reg.speakers.get? id := by
  induction ids generalizing reg with
  | nil => simp [deleteAll]
  | cons id' ids ih =>
    have hcons : deleteAll (id' :: ids) reg = deleteAll ids (reg.deleteSpeaker id') := rfl
    rw [hcons, ih, SpeakerRegistry.speakers_deleteSpeaker, Dict.get?_erase]
    by_cases hid : id = id' <;> simp [hid]

theorem later_deleteAll {id : String} {ids : List String} (h : id ∉ ids)
    (reg : SpeakerRegistry) : Later cfg ops id reg (deleteAll ids reg) := by
  induction ids generalizing reg with
  | nil => exact Relation.ReflTransGen.refl
  | cons id' ids ih =>
    rw [List.mem_cons, not_or] at h
    refine Relation.ReflTransGen.head ⟨"", .deleteSpeaker id', ?_, rfl⟩ (ih h.2 _)
    simpa [RegistryOp.ids] using h.1

/-- **A vector can be matched to a speaker that is left alone** when the speaker has a centroid
that is close enough to it, and not otherwise. -/
theorem exists_later_recognised_iff (id : String) (e : Embedding) (reg : SpeakerRegistry) :
    (∃ reg', Later cfg ops id reg reg' ∧ recognised cfg ops e reg' = some id) ↔
      ∃ row c, reg.speakers.get? id = some row ∧ row.centroid = some c ∧
        (cosine ops e c).ge cfg.tentativeThreshold := by
  constructor
  · rintro ⟨reg', hlater, hrec⟩
    obtain ⟨row, hrow, hsome, hsim⟩ := recognised_spec hrec
    obtain ⟨c, hc⟩ := Option.isSome_iff_exists.mp hsome
    exact ⟨row, c, hlater.get? ▸ hrow, hc, by simpa [hc] using hsim⟩
  · rintro ⟨row, c, hrow, hc, hsim⟩
    -- with every other speaker deleted, the closest speaker is this one
    have hothers : id ∉ reg.speakers.keys.filter (· ≠ id) := by simp
    have hleft := get?_deleteAll (reg.speakers.keys.filter (· ≠ id)) reg
    have honly : ∀ t ∈ (deleteAll (reg.speakers.keys.filter (· ≠ id)) reg).matchable,
        t = Speaker.ofEntry (id, row) := by
      intro t ht
      obtain ⟨hget, -⟩ := (SpeakerRegistry.mem_matchable _ t).mp ht
      rw [hleft] at hget
      split_ifs at hget with hdeleted
      have hkey : t.speakerId ∈ reg.speakers.keys := by
        rw [← Dict.get?_isSome_iff, hget]
        rfl
      have hid : t.speakerId = id := by
        by_contra hne
        exact hdeleted (List.mem_filter.mpr ⟨hkey, by simpa using hne⟩)
      rw [hid, hrow, Option.some.injEq] at hget
      cases t
      simp_all [Speaker.ofEntry]
    have hne : (deleteAll (reg.speakers.keys.filter (· ≠ id)) reg).matchable ≠ [] := by
      apply List.ne_nil_of_mem (a := Speaker.ofEntry (id, row))
      rw [SpeakerRegistry.mem_matchable, hleft]
      exact ⟨by simpa [Speaker.ofEntry] using hrow, by simp [Speaker.ofEntry, hc]⟩
    refine ⟨_, later_deleteAll hothers reg, ?_⟩
    exact recognised_of_only hne honly (by simpa [Speaker.ofEntry, hc] using hsim)

/-! ## De-poisoning -/

/-- Nothing is left with the source: no event and no atom names it, it has no embedding, and none
of the embeddings it had can be matched to it as long as nothing is done to it again. -/
structure DePoisoned (cfg : SpeakerConfig) (ops : FloatOps) (fromId : String)
    (before after : SpeakerMemory) : Prop where
  events : some fromId ∉ after.events.attributions
  atoms : some fromId ∉ after.atoms.attributions
  buffer : after.registry.ringBuffer fromId = []
  unmatched : ∀ e ∈ before.registry.ringBuffer fromId, ∀ reg,
    Later cfg ops fromId after.registry reg → recognised cfg ops e reg ≠ some fromId

theorem events_reassign (cfg : SpeakerConfig) (ops : FloatOps) (now : String)
    (mem : SpeakerMemory) : (reassignSpeaker cfg ops now fromId toId mem).1.events =
      mem.events.sessions.foldl (fun st sid => st.relabelSpeaker fromId toId sid) mem.events := by
  simp only [reassignSpeaker]
  split
  · rfl
  · split <;> rfl

theorem atoms_reassign (cfg : SpeakerConfig) (ops : FloatOps) (now : String)
    (mem : SpeakerMemory) : (reassignSpeaker cfg ops now fromId toId mem).1.atoms =
      mem.atoms.sessions.foldl (fun st sid => st.relabelSpeaker fromId toId sid) mem.atoms := by
  simp only [reassignSpeaker]
  split
  · rfl
  · split <;> rfl

/-- **When a correction leaves nothing with the source**: exactly when no atom without a session
names it and its stored centroid, if it has one, is close to none of its embeddings. -/
theorem dePoisoned_iff (h : fromId ≠ toId) (now : String) (mem : SpeakerMemory) :
    DePoisoned cfg ops fromId mem (reassignSpeaker cfg ops now fromId toId mem).1 ↔
      some fromId ∉ mem.atoms.sessionlessAttributions ∧
      ∀ row c, mem.registry.speakers.get? fromId = some row → row.centroid = some c →
        ∀ e ∈ mem.registry.ringBuffer fromId, ¬ (cosine ops e c).ge cfg.tentativeThreshold := by
  obtain ⟨hbuf, hrow⟩ := registry_reassign h cfg ops now mem
  constructor
  · intro hclean
    refine ⟨fun hatom => ?_, fun row c hget hc e he hsim => ?_⟩
    · exact hclean.atoms (atoms_reassign cfg ops now mem ▸ (atoms_sweep h mem.atoms).mpr hatom)
    · obtain ⟨reg', hlater, hrec⟩ :=
        (exists_later_recognised_iff fromId e _).mpr ⟨row, c, hrow.trans hget, hc, hsim⟩
      exact hclean.unmatched e he reg' hlater hrec
  · rintro ⟨hatoms, hfar⟩
    refine ⟨?_, ?_, hbuf, fun e he reg' hlater hrec => ?_⟩
    · rw [events_reassign]
      exact events_sweep h mem.events
    · rw [atoms_reassign]
      exact fun hmem => hatoms ((atoms_sweep h mem.atoms).mp hmem)
    · obtain ⟨row, c, hget, hc, hsim⟩ :=
        (exists_later_recognised_iff fromId e _).mp ⟨reg', hlater, hrec⟩
      exact hfar row c (hrow ▸ hget) hc e he hsim

/-! ## A correction that leaves the source matchable -/

/-- Arithmetic on finite doubles where nothing rounds, and the root of a square integer. -/
def exactOps : FloatOps where
  add := exact (· + ·)
  sub := exact (· - ·)
  mul := exact (· * ·)
  div := exact (· / ·)
  sum := List.foldl (exact (· + ·)) (.finite 0)
  sqrt
    | .finite q => .finite (((List.range (q.num.toNat + 1)).find? fun n => n * n = q).getD 0)
    | x => x
  trunc
    | .finite q => q.floor.toNat
    | _ => 0
where
  exact (f : ℚ → ℚ → ℚ) : Double → Double → Double
    | .finite x, .finite y => .finite (f x y)
    | _, _ => .nan

def voice (displayName : String) (centroid : Embedding) : SpeakerRow where
  displayName := displayName
  isWearer := false
  enrollmentStatus := "confirmed"
  centroid := some centroid
  embeddingModel := "m"
  dim := 2
  turnCount := 1
  firstSeen := "2026-07-26T00:00:00+00:00"
  updatedAt := "2026-07-26T00:00:00+00:00"

/-- The voice that was attributed to `a` by mistake. -/
def misheard : Embedding := [.finite 1, .finite 0]

/-- Two speakers; the only embedding of the first one is the one that is moved. -/
def beforeCorrection : SpeakerMemory where
  registry := .inMemory
    { speakers := (Dict.empty.set "a" (voice "A" misheard)).set "b"
        (voice "B" [.finite 0, .finite 1])
      bufs := Dict.empty.set "a" [(misheard, .finite 1)] }
  events := .inMemory {}
  atoms := .inMemory {}

/-- Right after the correction the moved embedding is still recognised as the source. -/
theorem recognised_after_correction : recognised {} exactOps misheard
    (reassignSpeaker {} exactOps "2026-07-26T00:01:00+00:00" "a" "b" beforeCorrection).1.registry =
      some "a" := by
  decide +kernel

/-- A correction does not always leave nothing with the source. -/
theorem not_always_dePoisoned : ¬ ∀ (cfg : SpeakerConfig) (ops : FloatOps) (now fromId toId : String)
    (mem : SpeakerMemory), fromId ≠ toId →
      DePoisoned cfg ops fromId mem (reassignSpeaker cfg ops now fromId toId mem).1 := by
  intro h
  have hclean := h {} exactOps "2026-07-26T00:01:00+00:00" "a" "b" beforeCorrection (by decide)
  refine hclean.unmatched misheard ?_ _ Relation.ReflTransGen.refl recognised_after_correction
  decide +kernel

/-- The condition at that input. -/
theorem dePoisoned_iff_beforeCorrection :
    DePoisoned {} exactOps "a" beforeCorrection
      (reassignSpeaker {} exactOps "2026-07-26T00:01:00+00:00" "a" "b" beforeCorrection).1 ↔
      some "a" ∉ beforeCorrection.atoms.sessionlessAttributions ∧
      ∀ row c, beforeCorrection.registry.speakers.get? "a" = some row → row.centroid = some c →
        ∀ e ∈ beforeCorrection.registry.ringBuffer "a",
          ¬ (cosine exactOps e c).ge ({} : SpeakerConfig).tentativeThreshold :=
  dePoisoned_iff (by decide) "2026-07-26T00:01:00+00:00" beforeCorrection

end OpenRecall.Analysis.SpeakerCorrection
