import OpenRecall.Analysis.SearchBackends
import OpenRecall.Model.EventEdits

/-!
# The two event stores are one log

Both stores hold a log of events that is only appended to, relabelled and cut, and answer what the
log says. After any operations they give back the same events of every session, and agree on where a
session continues; the store in memory also lists the sessions that were emptied.
-/

set_option autoImplicit false

namespace OpenRecall.Analysis.EventBackends

open Foundation
open OpenRecall.Model.Datetimes
open OpenRecall.Model.EventSearch
open OpenRecall.Analysis.SearchBackends (store rowOf toEvent_rowOf_iff readMoment)
open OpenRecall.Analysis.AtomBackends (mapM_eq_some_iff)

/-! ## Relabelling -/

section

variable {τ υ : Type} (fromId toId : String) (e : EventOf τ)

@[simp] theorem relabel_eventId : (e.relabel fromId toId).eventId = e.eventId := by
  unfold EventOf.relabel
  split_ifs <;> rfl

@[simp] theorem relabel_sessionId : (e.relabel fromId toId).sessionId = e.sessionId := by
  unfold EventOf.relabel
  split_ifs <;> rfl

@[simp] theorem relabel_createdAt : (e.relabel fromId toId).createdAt = e.createdAt := by
  unfold EventOf.relabel
  split_ifs <;> rfl

theorem relabel_created (at_ : υ) :
    (e.relabel fromId toId).created at_ = (e.created at_).relabel fromId toId := by
  unfold EventOf.relabel
  split_ifs with hspeaker hrow hrow
  · rfl
  · exact absurd hspeaker hrow
  · exact absurd hrow hspeaker
  · rfl

theorem relabel_rowOf (e : Event) :
    rowOf (e.relabel fromId toId) = (rowOf e).relabel fromId toId := by
  rw [rowOf, relabel_createdAt, relabel_created]
  rfl

end

/-! ## The log -/

/-- The events of a session that an operation takes hold of. -/
def Relabelled (fromId sessionId : String) {τ : Type} (e : EventOf τ) : Prop :=
  e.sessionId = sessionId ∧ e.speaker = some fromId

def Doomed (sessionId : String) (firstSeq lastSeq : ℤ) {τ : Type} (e : EventOf τ) : Prop :=
  e.sessionId = sessionId ∧ e.inRange firstSeq lastSeq = true

instance (fromId sessionId : String) (τ : Type) :
    DecidablePred (Relabelled fromId sessionId (τ := τ)) :=
  fun _ => inferInstanceAs (Decidable (_ ∧ _))

instance (sessionId : String) (firstSeq lastSeq : ℤ) (τ : Type) :
    DecidablePred (Doomed sessionId firstSeq lastSeq (τ := τ)) :=
  fun _ => inferInstanceAs (Decidable (_ ∧ _))

/-- The log after an operation. -/
def edit (stored : List Event) : EventOp → List Event
  | .append e => store stored e
  | .relabel fromId toId sessionId =>
    stored.map fun e => if e.sessionId = sessionId then e.relabel fromId toId else e
  | .delete sessionId firstSeq lastSeq => stored.filter fun e => ¬Doomed sessionId firstSeq lastSeq e

/-- How many events an operation stores or changes. -/
def changed (stored : List Event) : EventOp → ℕ
  | .append e => if e.eventId ∈ stored.map EventOf.eventId then 0 else 1
  | .relabel fromId _ sessionId => stored.countP fun e => Relabelled fromId sessionId e
  | .delete sessionId firstSeq lastSeq => stored.countP fun e => Doomed sessionId firstSeq lastSeq e

/-- How the two stores hold a log. -/
structure Same (stored : List Event) (memory : InMemoryEventStore) (sqlite : SqliteEventStore) :
    Prop where
  ids : (stored.map EventOf.eventId).Nodup
  seen : ∀ id, id ∈ memory.seen ↔ id ∈ stored.map EventOf.eventId
  session : ∀ sessionId, memory.rows sessionId = stored.filter fun e => e.sessionId = sessionId
  rows : sqlite.rows = stored.map rowOf

namespace Same

variable {stored : List Event} {memory : InMemoryEventStore} {sqlite : SqliteEventStore}

theorem start : Same [] {} {} where
  ids := List.nodup_nil
  seen := by simp
  session := by simp [InMemoryEventStore.rows]
  rows := rfl

theorem rowIds (h : Same stored memory sqlite) :
    sqlite.rows.map EventOf.eventId = stored.map EventOf.eventId := by
  rw [h.rows, List.map_map]
  rfl

/-! ### Appending -/

theorem append_memory (h : Same stored memory sqlite) (e : Event) :
    (memory.append e).1.toNat = changed stored (.append e) := by
  rw [InMemoryEventStore.append, changed]
  simp only [h.seen]
  split_ifs <;> rfl

theorem append_sqlite (h : Same stored memory sqlite) (e : Event) :
    (sqlite.append e).1.toNat = changed stored (.append e) := by
  rw [SqliteEventStore.append, changed, h.rowIds]
  split_ifs <;> rfl

/-- SOURCE: events/store.py:111-116, events/store.py:201-223 -/
theorem append (h : Same stored memory sqlite) (e : Event) :
    Same (edit stored (.append e)) (memory.append e).2 (sqlite.append e).2 := by
  rw [edit, store, InMemoryEventStore.append, SqliteEventStore.append, h.rowIds]
  simp only [h.seen]
  split_ifs with hmem
  · exact h
  · refine ⟨nodup_map_concat h.ids hmem, fun id => ?_, fun sessionId => ?_, ?_⟩
    · rw [Finset.mem_insert, h.seen, List.map_append, List.mem_append, List.map_singleton,
        List.mem_singleton, or_comm]
    · have hold := h.session sessionId
      rw [InMemoryEventStore.rows] at hold
      rw [InMemoryEventStore.rows, Dict.get?_set, List.filter_append]
      by_cases hsession : e.sessionId = sessionId
      · rw [if_pos hsession.symm, Option.getD_some, hsession, h.session]
        simp [hsession]
      · rw [if_neg (Ne.symm hsession), hold]
        simp [hsession]
    · rw [h.rows, List.map_append]
      rfl

/-! ### Relabelling -/

theorem rows_relabel (memory : InMemoryEventStore) (fromId toId sessionId k : String) :
    (memory.relabelSpeaker fromId toId sessionId).2.rows k =
      if k = sessionId then (memory.rows k).map (EventOf.relabel fromId toId)
      else memory.rows k := by
  unfold InMemoryEventStore.relabelSpeaker InMemoryEventStore.rows
  cases hrows : memory.bySession.get? sessionId with
  | none =>
    split_ifs with hk
    · rw [hk, hrows]
      rfl
    · rfl
  | some rows =>
    rw [Dict.get?_set]
    split_ifs with hk
    · rw [hk, hrows]
      rfl
    · rfl

theorem countP_session (h : Same stored memory sqlite) (sessionId : String) (p : Event → Bool) :
    (memory.rows sessionId).countP p = stored.countP fun e => e.sessionId = sessionId ∧ p e := by
  rw [h.session, List.countP_filter]
  exact List.countP_congr fun e _ => by simp [and_comm]

theorem relabel_memory (h : Same stored memory sqlite) (fromId toId sessionId : String) :
    (memory.relabelSpeaker fromId toId sessionId).1 =
      changed stored (.relabel fromId toId sessionId) := by
  have hcount : (memory.relabelSpeaker fromId toId sessionId).1 =
      (memory.rows sessionId).countP fun e => e.speaker = some fromId := by
    unfold InMemoryEventStore.relabelSpeaker InMemoryEventStore.rows
    cases memory.bySession.get? sessionId with
    | none => rfl
    | some rows => rfl
  rw [hcount, h.countP_session, changed]
  refine List.countP_congr fun e _ => ?_
  simp only [decide_eq_true_eq]
  exact Iff.rfl

theorem relabel_sqlite (h : Same stored memory sqlite) (fromId toId sessionId : String) :
    (sqlite.relabelSpeaker fromId toId sessionId).1 =
      changed stored (.relabel fromId toId sessionId) := by
  rw [SqliteEventStore.relabelSpeaker, h.rows, List.countP_map]
  rfl

/-- SOURCE: events/store.py:131-140, events/store.py:281-289 -/
theorem relabel (h : Same stored memory sqlite) (fromId toId sessionId : String) :
    Same (edit stored (.relabel fromId toId sessionId))
      (memory.relabelSpeaker fromId toId sessionId).2
      (sqlite.relabelSpeaker fromId toId sessionId).2 := by
  have hids : (edit stored (.relabel fromId toId sessionId)).map EventOf.eventId =
      stored.map EventOf.eventId := by
    rw [edit, List.map_map]
    refine List.map_congr_left fun e _ => ?_
    rw [Function.comp_apply]
    split_ifs <;> simp
  have hseen : (memory.relabelSpeaker fromId toId sessionId).2.seen = memory.seen := by
    unfold InMemoryEventStore.relabelSpeaker
    split <;> rfl
  refine ⟨hids ▸ h.ids, fun id => by rw [hseen, hids, h.seen], fun k => ?_, ?_⟩
  · rw [rows_relabel, h.session, edit, List.filter_map]
    have hkey : ((fun e : Event => decide (e.sessionId = k)) ∘ fun e =>
        if e.sessionId = sessionId then e.relabel fromId toId else e) =
        fun e => decide (e.sessionId = k) := by
      funext e
      rw [Function.comp_apply]
      split_ifs <;> simp
    rw [hkey]
    split_ifs with hk
    · refine List.map_congr_left fun e he => ?_
      rw [if_pos ((of_decide_eq_true (List.mem_filter.mp he).2).trans hk)]
    · refine (List.map_id _).symm.trans (List.map_congr_left fun e he => ?_)
      rw [if_neg fun hsession => hk ((of_decide_eq_true (List.mem_filter.mp he).2).symm.trans
        hsession), id]
  · rw [SqliteEventStore.relabelSpeaker, h.rows, edit, List.map_map, List.map_map]
    refine List.map_congr_left fun e _ => ?_
    show (if e.sessionId = sessionId then _ else _) = rowOf (if e.sessionId = sessionId then _ else _)
    split_ifs
    · rw [relabel_rowOf]
    · rfl

/-! ### Deleting -/

theorem rows_deleteRange (memory : InMemoryEventStore) (sessionId : String) (firstSeq lastSeq : ℤ)
    (k : String) :
    (memory.deleteRange sessionId firstSeq lastSeq).2.rows k =
      (memory.rows k).filter fun e => !(k = sessionId && e.inRange firstSeq lastSeq) := by
  unfold InMemoryEventStore.deleteRange InMemoryEventStore.rows
  split
  · next hrows =>
    by_cases hk : k = sessionId
    · simp [hk, hrows]
    · simp [hk]
  · next hrows =>
    by_cases hk : k = sessionId
    · simp [hk, hrows]
    · simp [hk]
  · next rows hne hrows =>
    rw [Dict.get?_set]
    by_cases hk : k = sessionId
    · simp [hk, hrows]
    · simp [hk]

theorem seen_deleteRange (memory : InMemoryEventStore) (sessionId : String)
    (firstSeq lastSeq : ℤ) :
    (memory.deleteRange sessionId firstSeq lastSeq).2.seen =
      memory.seen \ (((memory.rows sessionId).filter (EventOf.inRange firstSeq lastSeq)).map
        EventOf.eventId).toFinset := by
  unfold InMemoryEventStore.deleteRange InMemoryEventStore.rows
  split
  · next hrows => simp [hrows]
  · next hrows => simp [hrows]
  · next rows hne hrows => rw [hrows, Option.getD_some]

theorem delete_memory (h : Same stored memory sqlite) (sessionId : String)
    (firstSeq lastSeq : ℤ) :
    (memory.deleteRange sessionId firstSeq lastSeq).1 =
      changed stored (.delete sessionId firstSeq lastSeq) := by
  have hcount : (memory.deleteRange sessionId firstSeq lastSeq).1 =
      (memory.rows sessionId).countP (EventOf.inRange firstSeq lastSeq) := by
    unfold InMemoryEventStore.deleteRange InMemoryEventStore.rows
    split
    · next hrows => rw [hrows]; rfl
    · next hrows => rw [hrows]; rfl
    · next rows hne hrows =>
      have hall := List.length_eq_length_filter_add (l := rows) (EventOf.inRange firstSeq lastSeq)
      rw [hrows, Option.getD_some, List.countP_eq_length_filter]
      show rows.length - (rows.filter fun e => !e.inRange firstSeq lastSeq).length = _
      omega
  rw [hcount, h.countP_session, changed]
  refine List.countP_congr fun e _ => ?_
  simp only [decide_eq_true_eq]
  exact Iff.rfl

theorem delete_sqlite (h : Same stored memory sqlite) (sessionId : String)
    (firstSeq lastSeq : ℤ) :
    (sqlite.deleteRange sessionId firstSeq lastSeq).1 =
      changed stored (.delete sessionId firstSeq lastSeq) := by
  rw [SqliteEventStore.deleteRange, h.rows, List.countP_map]
  rfl

/-- SOURCE: events/store.py:155-165, events/store.py:314-322 -/
theorem delete (h : Same stored memory sqlite) (sessionId : String) (firstSeq lastSeq : ℤ) :
    Same (edit stored (.delete sessionId firstSeq lastSeq))
      (memory.deleteRange sessionId firstSeq lastSeq).2
      (sqlite.deleteRange sessionId firstSeq lastSeq).2 := by
  refine ⟨h.ids.sublist (List.filter_sublist.map _), fun id => ?_, fun k => ?_, ?_⟩
  · rw [seen_deleteRange, Finset.mem_sdiff, h.seen, List.mem_toFinset, h.session, edit]
    simp only [List.mem_map, List.mem_filter, decide_eq_true_eq]
    constructor
    · rintro ⟨⟨e, he, rfl⟩, hkept⟩
      exact ⟨e, ⟨he, fun hdoomed => hkept ⟨e, ⟨⟨he, hdoomed.1⟩, hdoomed.2⟩, rfl⟩⟩, rfl⟩
    · rintro ⟨e, ⟨he, hkept⟩, rfl⟩
      refine ⟨⟨e, he, rfl⟩, ?_⟩
      rintro ⟨e', ⟨⟨he', hsession⟩, hrange⟩, hid⟩
      obtain rfl := List.inj_on_of_nodup_map h.ids he' he hid
      exact hkept ⟨hsession, hrange⟩
  · rw [rows_deleteRange, h.session, edit, List.filter_filter, List.filter_filter]
    refine List.filter_congr fun e _ => ?_
    by_cases hk : e.sessionId = k
    · by_cases hsession : k = sessionId <;> simp [Doomed, hk, hsession]
    · simp [hk]
  · rw [SqliteEventStore.deleteRange, h.rows, edit, List.filter_map]
    rfl

/-- **Every operation** does to both stores what it does to the log. -/
theorem step (h : Same stored memory sqlite) (answers : List ℕ) (op : EventOp) :
    ∃ memory' sqlite', InMemoryEventStore.step ⟨memory, answers⟩ op =
        ⟨memory', answers ++ [changed stored op]⟩ ∧
      SqliteEventStore.step ⟨sqlite, answers⟩ op = ⟨sqlite', answers ++ [changed stored op]⟩ ∧
      Same (edit stored op) memory' sqlite' := by
  cases op with
  | append e =>
    refine ⟨_, _, ?_, ?_, h.append e⟩
    · rw [← h.append_memory]
      rfl
    · rw [← h.append_sqlite]
      rfl
  | relabel fromId toId sessionId =>
    refine ⟨_, _, ?_, ?_, h.relabel fromId toId sessionId⟩
    · rw [← h.relabel_memory]
      rfl
    · rw [← h.relabel_sqlite]
      rfl
  | delete sessionId firstSeq lastSeq =>
    refine ⟨_, _, ?_, ?_, h.delete sessionId firstSeq lastSeq⟩
    · rw [← h.delete_memory]
      rfl
    · rw [← h.delete_sqlite]
      rfl

end Same

/-! ## Runs -/

/-- What the operations on a log are answered. -/
def answersOf : List Event → List EventOp → List ℕ
  | _, [] => []
  | stored, op :: ops => changed stored op :: answersOf (edit stored op) ops

theorem Same.run {stored : List Event} {memory : InMemoryEventStore} {sqlite : SqliteEventStore}
    (h : Same stored memory sqlite) (answers : List ℕ) (ops : List EventOp) :
    ∃ memory' sqlite', Foundation.run InMemoryEventStore.step ⟨memory, answers⟩ ops =
        ⟨memory', answers ++ answersOf stored ops⟩ ∧
      Foundation.run SqliteEventStore.step ⟨sqlite, answers⟩ ops =
        ⟨sqlite', answers ++ answersOf stored ops⟩ ∧
      Same (ops.foldl edit stored) memory' sqlite' := by
  induction ops generalizing stored memory sqlite answers with
  | nil => exact ⟨memory, sqlite, by simp [answersOf], by simp [answersOf], h⟩
  | cons op ops ih =>
    obtain ⟨memory₁, sqlite₁, hmemory, hsqlite, hsame⟩ := h.step answers op
    obtain ⟨memory', sqlite', hmemory', hsqlite', hsame'⟩ :=
      ih hsame (answers ++ [changed stored op])
    refine ⟨memory', sqlite', ?_, ?_, hsame'⟩
    · rw [run_cons, hmemory, hmemory', List.append_assoc]
      rfl
    · rw [run_cons, hsqlite, hsqlite', List.append_assoc]
      rfl

/-- The creations in a log are those of events that were appended. -/
theorem forall_createdAt {P : DateTime → Prop} {ops : List EventOp}
    (h : ∀ e, EventOp.append e ∈ ops → P e.createdAt) {stored : List Event}
    (hstored : ∀ e ∈ stored, P e.createdAt) : ∀ e ∈ ops.foldl edit stored, P e.createdAt := by
  induction ops generalizing stored with
  | nil => exact hstored
  | cons op ops ih =>
    refine ih (fun e he => h e (List.mem_cons_of_mem op he)) ?_
    cases op with
    | append e =>
      rw [edit, store]
      split_ifs
      · exact hstored
      · exact List.forall_mem_append.mpr
          ⟨hstored, List.forall_mem_singleton.mpr (h e List.mem_cons_self)⟩
    | relabel fromId toId sessionId =>
      refine List.forall_mem_map.mpr fun e he => ?_
      split_ifs
      · rw [relabel_createdAt]
        exact hstored e he
      · exact hstored e he
    | delete sessionId firstSeq lastSeq => exact fun e he => hstored e (List.mem_filter.mp he).1

/-! ## Reading -/

/-- The events of a session in a log, by `seq`. -/
def eventsOf (sessionId : String) (stored : List Event) : List Event :=
  (stored.filter fun e => e.sessionId = sessionId).insertionSort fun a b => a.seq ≤ b.seq

section

variable {stored : List Event} {memory : InMemoryEventStore} {sqlite : SqliteEventStore}
  {parse : List Char → Option Moment}

theorem Same.memory_events (h : Same stored memory sqlite) (sessionId : String) :
    memory.events sessionId = eventsOf sessionId stored := by
  rw [InMemoryEventStore.events, h.session, eventsOf]

theorem Same.sessionRows (h : Same stored memory sqlite) (sessionId : String) :
    sqlite.sessionRows sessionId = (eventsOf sessionId stored).map rowOf := by
  rw [SqliteEventStore.sessionRows, h.rows, List.filter_map, eventsOf]
  exact (List.map_insertionSort (fun a b : Event => a.seq ≤ b.seq)
    (fun a b : EventRow => a.seq ≤ b.seq) rowOf _ fun _ _ _ _ => Iff.rfl).symm

theorem mem_of_mem_eventsOf {sessionId : String} {e : Event} (h : e ∈ eventsOf sessionId stored) :
    e ∈ stored :=
  (List.mem_filter.mp ((List.mem_insertionSort _).mp h)).1

theorem Same.sqlite_events (h : Same stored memory sqlite)
    (hparse : ∀ e ∈ stored, parse e.createdAt.isoformat = some e.createdAt.moment)
    (sessionId : String) :
    sqlite.events parse sessionId = some ((eventsOf sessionId stored).map found) := by
  rw [SqliteEventStore.events, h.sessionRows, mapM_eq_some_iff, List.map_map, List.map_map]
  refine List.map_congr_left fun e he => ?_
  exact (toEvent_rowOf_iff e).mpr (hparse e (mem_of_mem_eventsOf he))

/-- Where a session continues: nowhere, or at events of the same `seq`, which is the highest. -/
def LastAlike (events : List Event) (last : Option Event)
    (durable : Option (Option (EventOf Moment))) : Prop :=
  (events = [] ∧ last = none ∧ durable = some none) ∨
    ∃ a ∈ events, ∃ b ∈ events, last = some a ∧ durable = some (some (found b)) ∧
      a.seq = b.seq ∧ ∀ e ∈ events, e.seq ≤ a.seq

theorem Same.lastAlike (h : Same stored memory sqlite)
    (hparse : ∀ e ∈ stored, parse e.createdAt.isoformat = some e.createdAt.moment)
    (sessionId : String) :
    LastAlike (eventsOf sessionId stored) (memory.lastEvent sessionId)
      (sqlite.lastEvent parse sessionId) := by
  have hmem : ∀ e, e ∈ memory.rows sessionId ↔ e ∈ eventsOf sessionId stored := by
    intro e
    rw [h.session, eventsOf, List.mem_insertionSort]
  rw [SqliteEventStore.lastEvent, h.sessionRows, List.getLast?_map]
  cases hlast : (eventsOf sessionId stored).getLast? with
  | none =>
    have hnil := List.getLast?_eq_none_iff.mp hlast
    have hrows : memory.rows sessionId = [] :=
      List.eq_nil_iff_forall_not_mem.mpr fun e he => by simpa [hnil] using (hmem e).mp he
    refine .inl ⟨hnil, ?_, rfl⟩
    rw [InMemoryEventStore.lastEvent, hrows]
    rfl
  | some b =>
    have hb := List.mem_of_getLast? hlast
    have hmax : ∀ e ∈ eventsOf sessionId stored, e.seq ≤ b.seq := by
      obtain ⟨before, hsplit⟩ := List.getLast?_eq_some_iff.mp hlast
      have hsorted : (before ++ [b]).Pairwise fun a b : Event => a.seq ≤ b.seq :=
        hsplit ▸ List.pairwise_insertionSort _ _
      intro e he
      rw [hsplit] at he
      rcases List.mem_append.mp he with hbefore | he
      · exact (List.pairwise_append.mp hsorted).2.2 e hbefore b List.mem_cons_self
      · rw [List.mem_singleton.mp he]
    have hne : memory.rows sessionId ≠ [] := List.ne_nil_of_mem ((hmem b).mpr hb)
    obtain ⟨a, ha⟩ : ∃ a, (memory.rows sessionId).maxOn? EventOf.seq = some a :=
      Option.isSome_iff_exists.mp (List.isSome_maxOn?_iff.mpr hne)
    have hmemA := (hmem a).mp (List.maxOn?_mem ha)
    have hle : ∀ e ∈ eventsOf sessionId stored, e.seq ≤ a.seq := by
      intro e he
      have hget := List.le_apply_get_maxOn?_of_mem (f := EventOf.seq) ((hmem e).mpr he)
      simpa only [ha, Option.get_some] using hget
    have hread : SqliteEventStore.toEvent parse (rowOf b) = some (found b) :=
      (toEvent_rowOf_iff b).mpr (hparse b (mem_of_mem_eventsOf hb))
    refine .inr ⟨a, hmemA, b, hb, ha, ?_, le_antisymm (hmax a hmemA) (hle b hb), hle⟩
    rw [Option.map_some]
    dsimp only
    rw [hread, Option.map_some]

theorem Same.mem_sessions_iff (h : Same stored memory sqlite) (sessionId : String) :
    sessionId ∈ sqlite.sessions ↔ eventsOf sessionId stored ≠ [] := by
  rw [SqliteEventStore.sessions, List.mem_dedup, h.rows, List.map_map]
  constructor
  · intro hmem
    obtain ⟨e, he, rfl⟩ := List.mem_map.mp hmem
    exact List.ne_nil_of_mem ((List.mem_insertionSort _).mpr
      (List.mem_filter.mpr ⟨he, decide_eq_true rfl⟩))
  · intro hne
    obtain ⟨e, he⟩ := List.exists_mem_of_ne_nil _ hne
    obtain ⟨hstored, hsession⟩ := List.mem_filter.mp ((List.mem_insertionSort _).mp he)
    exact List.mem_map.mpr ⟨e, hstored, of_decide_eq_true hsession⟩

theorem Same.mem_memory_sessions (h : Same stored memory sqlite) {sessionId : String}
    (hne : eventsOf sessionId stored ≠ []) : sessionId ∈ memory.sessions := by
  rw [InMemoryEventStore.sessions, ← Dict.get?_isSome_iff, Option.isSome_iff_ne_none]
  intro hnone
  refine hne ?_
  rw [← h.memory_events, InMemoryEventStore.events, InMemoryEventStore.rows, hnone]
  rfl

end

/-- **One log behind two stores.** After any appends, corrections and deletions, whose creations are
read back from their texts, both stores have answered what the log says, and give back its events
of every session. They agree on where a session continues. The durable store lists the sessions with
events, and the store in memory lists these too.
SOURCE: events/store.py:106-165, events/store.py:169-322 -/
theorem event_backends_agree (parse : List Char → Option Moment) (ops : List EventOp)
    (hparse : ∀ e, EventOp.append e ∈ ops → parse e.createdAt.isoformat = some e.createdAt.moment)
    (sessionId : String) :
    let events := eventsOf sessionId (ops.foldl edit [])
    let memory := Foundation.run InMemoryEventStore.step ⟨{}, []⟩ ops
    let sqlite := Foundation.run SqliteEventStore.step ⟨{}, []⟩ ops
    memory.answers = answersOf [] ops ∧ sqlite.answers = answersOf [] ops ∧
      memory.store.events sessionId = events ∧
      sqlite.store.events parse sessionId = some (events.map found) ∧
      LastAlike events (memory.store.lastEvent sessionId)
        (sqlite.store.lastEvent parse sessionId) ∧
      (sessionId ∈ sqlite.store.sessions ↔ events ≠ []) ∧
      (events ≠ [] → sessionId ∈ memory.store.sessions) := by
  obtain ⟨memory, sqlite, hmemory, hsqlite, h⟩ := Same.start.run [] ops
  have hread : ∀ e ∈ ops.foldl edit [], parse e.createdAt.isoformat = some e.createdAt.moment :=
    forall_createdAt (P := fun createdAt => parse createdAt.isoformat = some createdAt.moment)
      hparse fun e he => by cases he
  dsimp only
  rw [hmemory, hsqlite]
  exact ⟨List.nil_append _, List.nil_append _, h.memory_events sessionId,
    h.sqlite_events hread sessionId, h.lastAlike hread sessionId, h.mem_sessions_iff sessionId,
    h.mem_memory_sessions⟩

/-- An event that is stored, given to another speaker, and deleted. -/
theorem event_backends_agree_deleted :
    let ops : List EventOp := [.append SearchBackends.apples, .relabel "v1" "v2" "s1",
      .delete "s1" 0 0]
    (Foundation.run InMemoryEventStore.step ⟨{}, []⟩ ops).answers = answersOf [] ops :=
  (event_backends_agree readMoment [.append SearchBackends.apples, .relabel "v1" "v2" "s1",
    .delete "s1" 0 0] (by simpa using by decide) "s1").1

end OpenRecall.Analysis.EventBackends
