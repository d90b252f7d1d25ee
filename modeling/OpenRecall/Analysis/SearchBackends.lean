import OpenRecall.Analysis.AtomBackends
import OpenRecall.Analysis.LikeSearch

/-!
# The two searches of the event stores

After the same appends both stores hold the same events. They answer a search alike, with every
limit, exactly when the query is blank, or they find the same transcripts, order them alike and
read them back (`searches_agree_iff`). A letter outside ASCII that `LOWER` leaves as it is can keep
a transcript from being found.
-/

set_option autoImplicit false

namespace OpenRecall.Analysis.SearchBackends

open Foundation
open OpenRecall.Model (LowerCase Text contains isSpace isSpace_toLower isSpace_eq_false_of_letter
  toLower_eq_self)
open OpenRecall.Model.Datetimes
open OpenRecall.Model.EventSearch
open OpenRecall.Analysis.LikeSearch
open OpenRecall.Analysis.AtomBackends (mapM_eq_some_iff)

/-! ## Appending -/

/-- The store in memory after appends to an empty one. -/
def memoryOf (appends : List Event) : InMemoryEventStore :=
  appends.foldl (fun st e => (st.append e).2) {}

/-- The durable store after appends to an empty one. -/
def sqliteOf (appends : List Event) : SqliteEventStore :=
  appends.foldl (fun st e => (st.append e).2) {}

/-- An event is stored unless its id is there. -/
def store (stored : List Event) (e : Event) : List Event :=
  if e.eventId ∈ stored.map EventOf.eventId then stored else stored ++ [e]

/-- The events that are stored: of each id the first one. -/
def storedOf (appends : List Event) : List Event := appends.foldl store []

/-- The row of an event. -/
def rowOf (e : Event) : EventRow := e.created e.createdAt.isoformat

/-- How the two stores hold the events that are stored. -/
structure Holds (stored : List Event) (memory : InMemoryEventStore)
    (sqlite : SqliteEventStore) : Prop where
  ids : (stored.map EventOf.eventId).Nodup
  seen : ∀ id, id ∈ memory.seen ↔ id ∈ stored.map EventOf.eventId
  session : ∀ sessionId, memory.rows sessionId = stored.filter fun e => e.sessionId = sessionId
  all : memory.all.Perm stored
  rows : sqlite.rows = stored.map rowOf

/-- What one append does to both stores.
SOURCE: events/store.py:111-116, events/store.py:201-223 -/
theorem Holds.append {stored : List Event} {memory : InMemoryEventStore}
    {sqlite : SqliteEventStore} (h : Holds stored memory sqlite) (e : Event) :
    Holds (store stored e) (memory.append e).2 (sqlite.append e).2 := by
  have hrows : sqlite.rows.map EventOf.eventId = stored.map EventOf.eventId := by
    rw [h.rows, List.map_map]
    rfl
  rw [store, InMemoryEventStore.append, SqliteEventStore.append, hrows]
  simp only [h.seen]
  split_ifs with hmem
  · exact h
  · refine ⟨nodup_map_concat h.ids hmem, fun id => ?_, fun sessionId => ?_, ?_, ?_⟩
    · rw [Finset.mem_insert, h.seen, List.map_append, List.mem_append, List.map_singleton,
        List.mem_singleton, or_comm]
    · have hold := h.session sessionId
      rw [InMemoryEventStore.rows] at hold
      rw [InMemoryEventStore.rows, Dict.get?_set, List.filter_append]
      by_cases hsession : e.sessionId = sessionId
      · subst hsession
        simp [h.session]
      · simp [hsession, Ne.symm hsession, hold]
    · refine (Dict.flatten_values_set_concat memory.bySession e.sessionId e).trans ?_
      exact (h.all.cons e).trans (List.perm_append_singleton e stored).symm
    · show sqlite.rows ++ [rowOf e] = (stored ++ [e]).map rowOf
      rw [h.rows, List.map_append, List.map_singleton]

/-- **The stores hold the same events** after the same appends. -/
theorem holds_appends (appends : List Event) :
    Holds (storedOf appends) (memoryOf appends) (sqliteOf appends) := by
  have hrun : ∀ (stored : List Event) (memory : InMemoryEventStore)
      (sqlite : SqliteEventStore), Holds stored memory sqlite → Holds (appends.foldl store stored)
        (appends.foldl (fun st e => (st.append e).2) memory)
        (appends.foldl (fun st e => (st.append e).2) sqlite) := by
    induction appends with
    | nil => exact fun _ _ _ h => h
    | cons e appends ih => exact fun _ _ _ h => ih _ _ _ (h.append e)
  apply hrun
  exact ⟨by simp, by simp, by simp [InMemoryEventStore.rows],
    by simp [InMemoryEventStore.all, Dict.values, Dict.empty], rfl⟩

/-! ## What is found, and in which order -/

section

variable (py : LowerCase) (query : String)

/-- The store in memory finds the event. -/
def memoryHit (e : Event) : Bool :=
  InMemoryEventStore.isHit py (needleOf py query) e

/-- The durable store finds the event. -/
def sqliteHit (e : Event) : Bool :=
  e.kind = .transcript ∧ LikeHit (needleOf py query) e.text.toList

end

/-- The key by which the store in memory orders events. -/
abbrev timeKey (e : Event) : ℤ ×ₗ String ×ₗ ℤ := InMemoryEventStore.sortKey e

/-- The key by which the durable store orders their rows. -/
abbrev textKey (e : Event) : List Char ×ₗ String ×ₗ ℤ := SqliteEventStore.orderKey (rowOf e)

/-- The local clock of an event, the place of its offset, its session and its number. -/
def clockKey (e : Event) : ℕ ×ₗ ℤ ×ₗ String ×ₗ ℤ :=
  toLex (e.createdAt.stamp.clock, toLex (e.createdAt.rank, toLex (e.sessionId, e.seq)))

/-- Texts of events are ordered by their clocks when all have an offset or all have none. -/
theorem textKey_lt_iff {e f : Event} (h : e.createdAt.aware = f.createdAt.aware) :
    textKey e < textKey f ↔ clockKey e < clockKey f := by
  have hlt := DateTime.isoformat_lt_iff h
  have hgt := DateTime.isoformat_lt_iff h.symm
  have heq : e.createdAt.isoformat = f.createdAt.isoformat ↔
      e.createdAt.stamp.clock = f.createdAt.stamp.clock ∧ e.createdAt.rank = f.createdAt.rank := by
    rw [eq_iff_le_not_lt, ← not_lt, hlt, hgt]
    omega
  simp only [textKey, SqliteEventStore.orderKey, clockKey, Prod.Lex.toLex_lt_toLex]
  show (e.createdAt.isoformat < f.createdAt.isoformat ∨
    e.createdAt.isoformat = f.createdAt.isoformat ∧
      (e.sessionId < f.sessionId ∨ e.sessionId = f.sessionId ∧ e.seq < f.seq)) ↔ _
  rw [hlt, heq, or_assoc, and_assoc, ← and_or_left]

instance : Std.Total fun a b : Event => timeKey b ≤ timeKey a := ⟨fun _ _ => le_total _ _⟩

instance : IsTrans Event fun a b => timeKey b ≤ timeKey a := ⟨fun _ _ _ h h' => h'.trans h⟩

instance : Std.Total fun a b : Event => textKey b ≤ textKey a := ⟨fun _ _ => le_total _ _⟩

instance : IsTrans Event fun a b => textKey b ≤ textKey a := ⟨fun _ _ _ h h' => h'.trans h⟩

section

variable (py : LowerCase) (parse : List Char → Option Moment) (query : String)
  (appends : List Event)

/-- The stored events that the store in memory finds. -/
def memoryHits : List Event := (storedOf appends).filter (memoryHit py query)

/-- The stored events that the durable store finds. -/
def sqliteHits : List Event := (storedOf appends).filter (sqliteHit py query)

theorem nodup_storedOf : (storedOf appends).Nodup := (holds_appends appends).ids.of_map _

theorem nodup_memoryHits : (memoryHits py query appends).Nodup := (nodup_storedOf appends).filter _

/-- The store in memory goes through its events by session, but sorts them as if it had them in the
order of their appends: those with equal keys are of one session. -/
theorem insertionSort_all :
    ((memoryOf appends).all.filter (memoryHit py query)).insertionSort
        (fun a b => timeKey b ≤ timeKey a) =
      (memoryHits py query appends).insertionSort fun a b => timeKey b ≤ timeKey a := by
  have hholds := holds_appends appends
  refine (insertionSort_eq_of_perm (nodup_memoryHits py query appends)
    (hholds.all.symm.filter _) fun a b hab hba hpair => ?_).symm
  have hsession : b.sessionId = a.sessionId := by
    have hkey : timeKey a = timeKey b := le_antisymm hba hab
    exact (congrArg (fun k => (ofLex (ofLex k).2).1) hkey).symm
  have hrows : ((memoryOf appends).rows a.sessionId).Sublist (memoryOf appends).all := by
    rw [InMemoryEventStore.rows]
    cases hget : (memoryOf appends).bySession.get? a.sessionId with
    | none => exact List.nil_sublist _
    | some rows => exact List.sublist_flatten_of_mem ((Dict.mem_values_iff _ _).mpr ⟨_, hget⟩)
  rw [hholds.session] at hrows
  have hpair' := hpair.filter fun e => decide (e.sessionId = a.sessionId)
  rw [memoryHits, List.filter_comm] at hpair'
  have hkeep : [a, b].filter (fun e => decide (e.sessionId = a.sessionId)) = [a, b] := by
    simp [hsession]
  rw [hkeep] at hpair'
  exact hpair'.trans (hrows.filter _)

/-- The events that can be ordered have an offset, all of them or none. -/
def OneKind : Prop :=
  ∀ e ∈ memoryHits py query appends, ∀ f ∈ memoryHits py query appends,
    e.createdAt.aware = f.createdAt.aware

theorem oneKind_iff :
    OneKind py query appends ↔
      ¬ ((∃ e ∈ (memoryOf appends).all.filter (memoryHit py query), e.createdAt.aware = true) ∧
        ∃ e ∈ (memoryOf appends).all.filter (memoryHit py query), e.createdAt.aware = false) := by
  have hmem (e : Event) : e ∈ (memoryOf appends).all.filter (memoryHit py query) ↔
      e ∈ memoryHits py query appends := ((holds_appends appends).all.filter _).mem_iff
  simp only [hmem, OneKind]
  constructor
  · rintro h ⟨⟨e, he, haware⟩, f, hf, hnaive⟩
    rw [h e he f hf, hnaive] at haware
    exact Bool.noConfusion haware
  · intro h e he f hf
    by_contra hne
    cases hea : e.createdAt.aware with
    | true => exact h ⟨⟨e, he, hea⟩, f, hf, by simpa [hea] using Ne.symm hne⟩
    | false => exact h ⟨⟨f, hf, by simpa [hea] using Ne.symm hne⟩, e, he, hea⟩

/-- What the store in memory gives back. -/
def memoryList : List Event :=
  (memoryHits py query appends).insertionSort fun a b => timeKey b ≤ timeKey a

/-- What the durable store gives back, as the events of the rows. -/
def sqliteList : List Event :=
  (sqliteHits py query appends).insertionSort fun a b => textKey b ≤ textKey a

variable {py parse query appends}

/-- **The search of the store in memory**, when its hits are of one kind.
SOURCE: events/store.py:142-153 -/
theorem memory_search_eq (hneedle : needleOf py query ≠ []) (h : OneKind py query appends)
    (limit : ℕ) : (memoryOf appends).search py query limit =
      .ok (((memoryList py query appends).take limit).map found) := by
  have hslice (hits : List Event) :
      InMemoryEventStore.slice limit hits = hits.take limit := by
    simp [InMemoryEventStore.slice]
  have hsort : InMemoryEventStore.newestFirst
      ((memoryOf appends).all.filter (memoryHit py query)) =
        .ok (memoryList py query appends) := by
    rw [InMemoryEventStore.newestFirst, if_neg ((oneKind_iff py query appends).mp h)]
    exact congrArg _ (insertionSort_all py query appends)
  rw [InMemoryEventStore.search]
  simp only [hneedle, if_false]
  show (InMemoryEventStore.newestFirst
    ((memoryOf appends).all.filter (memoryHit py query)) >>= fun hits =>
      pure ((InMemoryEventStore.slice limit hits).map found)) = _
  rw [hsort, ← hslice]
  rfl

theorem memory_search_error (hneedle : needleOf py query ≠ [])
    (h : ¬ OneKind py query appends) (limit : ℤ) :
    (memoryOf appends).search py query limit = .error .typeError := by
  have hsort : InMemoryEventStore.newestFirst
      ((memoryOf appends).all.filter (memoryHit py query)) = .error .typeError := by
    rw [InMemoryEventStore.newestFirst,
      if_pos (not_not.mp (mt (oneKind_iff py query appends).mpr h))]
  rw [InMemoryEventStore.search]
  simp only [hneedle, if_false]
  show (InMemoryEventStore.newestFirst
    ((memoryOf appends).all.filter (memoryHit py query)) >>= fun hits =>
      pure ((InMemoryEventStore.slice limit hits).map found)) = _
  rw [hsort]
  rfl

/-- SQLite takes the pattern, if it comes to look at it. -/
def PatternFits (py : LowerCase) (query : String) (appends : List Event) : Prop :=
  (∃ e ∈ storedOf appends, e.kind = .transcript) →
    utf8Bytes (patternOf (needleOf py query)) ≤ maxPatternBytes

theorem transcripts_eq :
    (sqliteOf appends).rows.filter (fun r => r.kind = .transcript) =
      ((storedOf appends).filter fun e => e.kind = .transcript).map rowOf := by
  rw [(holds_appends appends).rows, List.filter_map]
  rfl

theorem transcripts_ne_nil_iff :
    (sqliteOf appends).rows.filter (fun r => r.kind = .transcript) ≠ [] ↔
      ∃ e ∈ storedOf appends, e.kind = .transcript := by
  rw [transcripts_eq]
  simp

/-- The rows that the pattern matches are those of the hits. -/
theorem matching_eq :
    ((sqliteOf appends).rows.filter fun r => r.kind = .transcript).filter (fun r =>
        like (patternOf (needleOf py query)) (sqlLower r.text.toList)) =
      (sqliteHits py query appends).map rowOf := by
  rw [transcripts_eq, List.filter_map, List.filter_filter, sqliteHits]
  congr 1
  apply List.filter_congr
  intro e _
  have hlike := like_patternOf_iff (needleOf py query) e.text.toList
  rw [Bool.eq_iff_iff, sqliteHit, decide_eq_true_eq, Bool.and_eq_true, decide_eq_true_eq,
    ← hlike, and_comm]
  rfl

/-- **The query of the durable store**, when SQLite takes its pattern.
SOURCE: events/store.py:305-311 -/
theorem query_eq (h : PatternFits py query appends) (limit : ℕ) :
    (sqliteOf appends).query (patternOf (needleOf py query)) limit =
      .ok (((sqliteList py query appends).take limit).map rowOf) := by
  have hsort : ((sqliteHits py query appends).map rowOf).insertionSort
      (fun a b => SqliteEventStore.orderKey b ≤ SqliteEventStore.orderKey a) =
        (sqliteList py query appends).map rowOf :=
    (List.map_insertionSort _ _ rowOf _ fun _ _ _ _ => Iff.rfl).symm
  rw [SqliteEventStore.query, if_neg, matching_eq, hsort, List.map_take]
  · simp [SqliteEventStore.limited]
  · rintro ⟨-, htranscripts, hlong⟩
    exact absurd hlong (h (transcripts_ne_nil_iff.mp htranscripts)).not_gt

theorem query_error (h : ¬ PatternFits py query appends) {limit : ℤ} (hlimit : limit ≠ 0) :
    (sqliteOf appends).query (patternOf (needleOf py query)) limit = .error .patternTooLong := by
  rw [PatternFits, Classical.not_imp, not_le] at h
  rw [SqliteEventStore.query, if_pos ⟨hlimit, transcripts_ne_nil_iff.mpr h.1, h.2⟩]

/-! ## Reading back -/

/-- The event of a row is what a search gives back when its creation is read back.
SOURCE: events/store.py:90-103 -/
theorem toEvent_rowOf_iff (e : Event) :
    SqliteEventStore.toEvent parse (rowOf e) = some (found e) ↔
      parse e.createdAt.isoformat = some e.createdAt.moment := by
  rw [SqliteEventStore.toEvent, Option.map_eq_some_iff]
  constructor
  · rintro ⟨at_, hparse, hfound⟩
    obtain rfl : at_ = e.createdAt.moment := congrArg EventOf.createdAt hfound
    exact hparse
  · exact fun hparse => ⟨_, hparse, rfl⟩

/-- **The search of the durable store**, when SQLite takes its pattern.
SOURCE: events/store.py:291-312 -/
theorem sqlite_search_eq_ok_iff (hneedle : needleOf py query ≠ [])
    (h : PatternFits py query appends) (limit : ℕ) (events : List (EventOf Moment)) :
    (sqliteOf appends).search py parse query limit = .ok events ↔
      ((sqliteList py query appends).take limit).map (fun e =>
        SqliteEventStore.toEvent parse (rowOf e)) = events.map some := by
  have hread : (((sqliteList py query appends).take limit).map rowOf).mapM
      (SqliteEventStore.toEvent parse) = some events ↔
        (((sqliteList py query appends).take limit).map rowOf).map
          (SqliteEventStore.toEvent parse) = events.map some := mapM_eq_some_iff
  rw [List.map_map] at hread
  refine Iff.trans ?_ hread
  rw [SqliteEventStore.search]
  simp only [hneedle, if_false, query_eq h limit, bind, Except.bind]
  cases (((sqliteList py query appends).take limit).map rowOf).mapM
    (SqliteEventStore.toEvent parse) with
  | none => simp [throw, throwThe, MonadExceptOf.throw]
  | some events' => simp [pure, Except.pure]

/-! ## The same results -/

variable (py parse query appends)

/-- With every limit both stores give the same events in the same order. -/
def Agree : Prop :=
  ∀ limit : ℕ, ∃ events, (memoryOf appends).search py query limit = .ok events ∧
    (sqliteOf appends).search py parse query limit = .ok events

/-- What the two searches do alike: which transcripts they find, how they order them, by their
instants and by their local clocks, and what they read back. -/
structure SameSearch : Prop where
  hits : ∀ e ∈ storedOf appends, e.kind = .transcript →
    (needleOf py query <:+: py.lower e.text.toList ↔ LikeHit (needleOf py query) e.text.toList)
  kinds : OneKind py query appends
  order : ∀ e f, List.Sublist [e, f] (memoryHits py query appends) →
    (timeKey e < timeKey f ↔ clockKey e < clockKey f)
  reads : ∀ e ∈ memoryHits py query appends,
    parse e.createdAt.isoformat = some e.createdAt.moment
  pattern : PatternFits py query appends

variable {py parse query appends}

/-- The hits are the same when each transcript is found by both or by neither. -/
theorem hits_eq_iff :
    memoryHits py query appends = sqliteHits py query appends ↔
      ∀ e ∈ storedOf appends, e.kind = .transcript →
        (needleOf py query <:+: py.lower e.text.toList ↔
          LikeHit (needleOf py query) e.text.toList) := by
  have hhit (e : Event) : memoryHit py query e = sqliteHit py query e ↔ (e.kind = .transcript →
      (needleOf py query <:+: py.lower e.text.toList ↔
        LikeHit (needleOf py query) e.text.toList)) := by
    rw [Bool.eq_iff_iff, memoryHit, InMemoryEventStore.isHit, sqliteHit, contains,
      decide_eq_true_eq, decide_eq_true_eq, decide_eq_true_eq]
    tauto
  simp only [← hhit]
  constructor
  · intro h e he
    have hmem := congrArg (e ∈ ·) h
    simpa [memoryHits, sqliteHits, he, ← Bool.eq_iff_iff] using hmem
  · exact fun h => List.filter_congr h

/-- The orders are the same when they agree on which of two hits comes first. -/
theorem order_iff (hkinds : OneKind py query appends) :
    (memoryHits py query appends).insertionSort (fun a b => timeKey b ≤ timeKey a) =
        (memoryHits py query appends).insertionSort (fun a b => textKey b ≤ textKey a) ↔
      ∀ e f, List.Sublist [e, f] (memoryHits py query appends) →
        (timeKey e < timeKey f ↔ clockKey e < clockKey f) := by
  rw [insertionSort_eq_insertionSort_iff (nodup_memoryHits py query appends)]
  refine forall_congr' fun e => forall_congr' fun f => forall_congr' fun hpair => ?_
  have he := hpair.subset List.mem_cons_self
  have hf := hpair.subset (List.mem_cons_of_mem e List.mem_cons_self)
  rw [← not_lt, ← not_lt, not_iff_not, textKey_lt_iff (hkinds e he f hf)]

/-- Events that are read back as other events are these events, and were read back right. -/
theorem eq_of_toEvent {xs ys : List Event} (hxs : ∀ e ∈ xs, e ∈ storedOf appends)
    (hys : ∀ e ∈ ys, e ∈ storedOf appends)
    (h : xs.map (fun e => SqliteEventStore.toEvent parse (rowOf e)) = (ys.map found).map some) :
    xs = ys ∧ ∀ e ∈ xs, parse e.createdAt.isoformat = some e.createdAt.moment := by
  induction xs generalizing ys with
  | nil =>
    cases ys with
    | nil => simp
    | cons y ys => simp at h
  | cons x xs ih =>
    cases ys with
    | nil => simp at h
    | cons y ys =>
      rw [List.forall_mem_cons] at hxs hys
      obtain ⟨hfirst, hrest⟩ := List.cons.inj h
      have hid : x.eventId = y.eventId := by
        obtain ⟨at_, -, hread⟩ := Option.map_eq_some_iff.mp hfirst
        exact congrArg (fun e : EventOf Moment => e.eventId) hread
      obtain rfl := List.inj_on_of_nodup_map (holds_appends appends).ids hxs.1 hys.1 hid
      obtain ⟨rfl, hreads⟩ := ih hxs.2 hys.2 hrest
      exact ⟨rfl, List.forall_mem_cons.mpr ⟨(toEvent_rowOf_iff x).mp hfirst, hreads⟩⟩

theorem mem_memoryList {e : Event} :
    e ∈ memoryList py query appends ↔ e ∈ memoryHits py query appends :=
  List.mem_insertionSort _

theorem mem_sqliteList {e : Event} :
    e ∈ sqliteList py query appends ↔ e ∈ sqliteHits py query appends :=
  List.mem_insertionSort _

theorem sqlite_search_error (hneedle : needleOf py query ≠ [])
    (h : ¬ PatternFits py query appends) {limit : ℤ} (hlimit : limit ≠ 0) :
    (sqliteOf appends).search py parse query limit = .error .patternTooLong := by
  rw [SqliteEventStore.search]
  simp only [hneedle, if_false, query_error h hlimit]
  rfl

/-- Stores that always agree search alike. -/
theorem Agree.sameSearch (h : Agree py parse query appends) (hneedle : needleOf py query ≠ []) :
    SameSearch py parse query appends := by
  obtain ⟨events, hmemory, hsqlite⟩ := h ((storedOf appends).length + 1)
  have hkinds : OneKind py query appends := by
    by_contra hmixed
    rw [memory_search_error hneedle hmixed] at hmemory
    cases hmemory
  have hpattern : PatternFits py query appends := by
    by_contra hlong
    rw [sqlite_search_error hneedle hlong (by omega)] at hsqlite
    cases hsqlite
  rw [memory_search_eq hneedle hkinds, Except.ok.injEq] at hmemory
  rw [sqlite_search_eq_ok_iff hneedle hpattern, ← hmemory] at hsqlite
  have hlength (hits : List Event) (p : Event → Bool)
      (hperm : hits.Perm ((storedOf appends).filter p)) :
      hits.take ((storedOf appends).length + 1) = hits := by
    rw [List.take_of_length_le]
    rw [hperm.length_eq]
    exact (List.length_filter_le _ _).trans (Nat.le_succ _)
  rw [hlength (sqliteList py query appends) _ (List.perm_insertionSort _ _),
    hlength (memoryList py query appends) _ (List.perm_insertionSort _ _)] at hsqlite
  obtain ⟨hlists, hreads⟩ := eq_of_toEvent
    (fun e he => List.mem_of_mem_filter (mem_sqliteList.mp he))
    (fun e he => List.mem_of_mem_filter (mem_memoryList.mp he)) hsqlite
  have hmem (e : Event) : e ∈ memoryHits py query appends ↔ e ∈ sqliteHits py query appends := by
    rw [← mem_memoryList, ← mem_sqliteList, hlists]
  have hhits : memoryHits py query appends = sqliteHits py query appends := by
    apply List.filter_congr
    intro e he
    have hboth := hmem e
    rw [memoryHits, sqliteHits, List.mem_filter, List.mem_filter] at hboth
    simpa [he, ← Bool.eq_iff_iff] using hboth
  refine ⟨hits_eq_iff.mp hhits, hkinds, (order_iff hkinds).mp ?_, fun e he => ?_, hpattern⟩
  · rw [sqliteList, ← hhits] at hlists
    exact hlists.symm
  · exact hreads e (mem_sqliteList.mpr ((hmem e).mp he))

/-- Stores that search alike agree. -/
theorem SameSearch.agree (h : SameSearch py parse query appends)
    (hneedle : needleOf py query ≠ []) : Agree py parse query appends := by
  intro limit
  have hlists : sqliteList py query appends = memoryList py query appends := by
    rw [sqliteList, ← hits_eq_iff.mpr h.hits]
    exact ((order_iff h.kinds).mpr h.order).symm
  refine ⟨_, memory_search_eq hneedle h.kinds limit, ?_⟩
  rw [sqlite_search_eq_ok_iff hneedle h.pattern, hlists, List.map_map]
  apply List.map_congr_left
  intro e he
  exact (toEvent_rowOf_iff e).mpr (h.reads e (mem_memoryList.mp (List.mem_of_mem_take he)))

variable (py parse query appends)

/-- **When the two searches agree**: the query is blank, or they find the same transcripts, order
them alike, and read them back.
SOURCE: events/store.py:142-153, events/store.py:291-312 -/
theorem searches_agree_iff :
    Agree py parse query appends ↔
      needleOf py query = [] ∨ SameSearch py parse query appends := by
  by_cases hneedle : needleOf py query = []
  · refine iff_of_true (fun limit => ⟨[], ?_, ?_⟩) (.inl hneedle)
    · rw [InMemoryEventStore.search]
      simp only [hneedle, if_true]
    · rw [SqliteEventStore.search]
      simp only [hneedle, if_true]
  · rw [or_iff_right hneedle]
    exact ⟨fun h => h.sameSearch hneedle, fun h => h.agree hneedle⟩

end

/-! ## A letter outside ASCII -/

theorem umlautLower_append_space (xs : Text) {c : Char} (ys : Text) (hc : isSpace c = true) :
    (xs ++ c :: ys).map (fun c => if c = 'Ä' then 'ä' else c.toLower) =
      xs.map (fun c => if c = 'Ä' then 'ä' else c.toLower) ++
        c :: ys.map (fun c => if c = 'Ä' then 'ä' else c.toLower) := by
  have hne : c ≠ 'Ä' := by
    rintro rfl
    exact absurd hc (by decide)
  have hsame : c.toLower = c := toLower_eq_self fun h => by
    simp [isSpace_eq_false_of_letter (c := c) (by omega)] at hc
  simp [hne, hsame]

theorem isSpace_umlautLower {xs : Text} (hxs : ∀ c ∈ xs, isSpace c = false) :
    ∀ c ∈ xs.map (fun c => if c = 'Ä' then 'ä' else c.toLower), isSpace c = false := by
  intro c hc
  obtain ⟨d, hd, rfl⟩ := List.mem_map.mp hc
  show isSpace (if d = 'Ä' then 'ä' else d.toLower) = false
  split_ifs
  · decide
  · exact (isSpace_toLower d).trans (hxs d hd)

/-- `str.lower` of texts with letters of ASCII and Ä only. -/
def umlautLower : LowerCase where
  lower text := text.map fun c => if c = 'Ä' then 'ä' else c.toLower
  lower_nil := rfl
  lower_append_space xs _ ys hc := umlautLower_append_space xs ys hc
  not_isSpace _ hxs := isSpace_umlautLower hxs

/-- Read the text of a datetime with an offset. -/
def readMoment (cs : List Char) : Option Moment :=
  (IsoTime.readIso cs).map fun s => ⟨true, s.clock - s.offset⟩

/-- A transcript in capitals. -/
def apples : Event where
  eventId := "s1:0"
  sessionId := "s1"
  seq := 0
  kind := .transcript
  createdAt := ⟨⟨0, some 0⟩, ⟨by simp [IsoTime.dayUs], by simp [IsoTime.dayUs]⟩⟩
  text := String.ofList ['Ä', 'P', 'F', 'E', 'L']
  durationMs := 0
  startMs := 0

/-- The store in memory finds "ÄPFEL" for "äpfel", and the durable store does not. -/
theorem searches_disagree :
    ¬ Agree umlautLower readMoment (String.ofList ['ä', 'p', 'f', 'e', 'l']) [apples] := by
  intro h
  have hneedle : needleOf umlautLower (String.ofList ['ä', 'p', 'f', 'e', 'l']) =
      ['ä', 'p', 'f', 'e', 'l'] := by
    rw [needleOf, String.toList_ofList]
    decide
  have hstored : apples ∈ storedOf [apples] := by simp [storedOf, store]
  have hhit := (h.sameSearch (by simp [hneedle])).hits apples hstored rfl
  rw [hneedle, apples, String.toList_ofList] at hhit
  exact absurd (hhit.mp (by decide)) (by decide)

end OpenRecall.Analysis.SearchBackends
