import OpenRecall.Model.SqliteAtoms
import OpenRecall.Analysis.CursorPaging

/-!
# The two atom stores

After the same appends the in-memory store and the durable one hold the same atoms, but the first
ranks them by their instants and the second by the texts of their timestamps. They list the same
pages exactly when the two orders agree on the atoms that the request selects and on which of them
come before its anchor, and when these atoms read back from their rows (`agree_iff`).
-/

set_option autoImplicit false

namespace OpenRecall.Analysis.AtomBackends

open OpenRecall.Model OpenRecall.Model.Paging OpenRecall.Analysis.CursorPaging
open Foundation

/-! ## Appending -/

/-- The in-memory store after appends to an empty one. -/
def memoryOf (appends : List ZonedAtom) : InMemoryAtomStore :=
  appends.foldl (fun st z => (st.append z.toAtom).2) {}

/-- The durable store after appends to an empty one. -/
def sqliteOf (appends : List ZonedAtom) : SqliteAtomStore :=
  appends.foldl (fun st z => (st.append z).2) {}

/-- An atom is stored unless its id is there. -/
def store (stored : List ZonedAtom) (z : ZonedAtom) : List ZonedAtom :=
  if z.atomId ∈ stored.map ZonedAtom.atomId then stored else stored ++ [z]

/-- The atoms that are stored: of each id the first one. -/
def storedOf (appends : List ZonedAtom) : List ZonedAtom := appends.foldl store []

theorem nodup_store {stored : List ZonedAtom} (h : (stored.map ZonedAtom.atomId).Nodup)
    (z : ZonedAtom) : ((store stored z).map ZonedAtom.atomId).Nodup := by
  unfold store
  split_ifs with hmem
  · exact h
  · exact nodup_map_concat h hmem

/-- How the two stores hold the atoms that are stored. -/
structure Holds (stored : List ZonedAtom) (memory : InMemoryAtomStore) (sqlite : SqliteAtomStore) :
    Prop where
  ids : (stored.map ZonedAtom.atomId).Nodup
  seen : ∀ id, id ∈ memory.seen ↔ id ∈ stored.map ZonedAtom.atomId
  all : memory.all.Perm (stored.map ZonedAtom.toAtom)
  rows : sqlite.rows = stored.map ZonedAtom.toRow

theorem atomId_rows (stored : List ZonedAtom) :
    (stored.map ZonedAtom.toRow).map AtomRow.atomId = stored.map ZonedAtom.atomId := by
  rw [List.map_map]
  rfl

/-- What one append does to both stores.
SOURCE: memory/store.py:223-229, memory/store.py:381-411 -/
theorem Holds.append {stored : List ZonedAtom} {memory : InMemoryAtomStore}
    {sqlite : SqliteAtomStore} (h : Holds stored memory sqlite) (z : ZonedAtom) :
    Holds (store stored z) (memory.append z.toAtom).2 (sqlite.append z).2 := by
  have hids := nodup_store h.ids z
  by_cases hmem : z.atomId ∈ stored.map ZonedAtom.atomId
  · have hseen : z.toAtom.atomId ∈ memory.seen := (h.seen z.atomId).mpr hmem
    have hrow : z.atomId ∈ sqlite.rows.map AtomRow.atomId := by
      rw [h.rows, atomId_rows]
      exact hmem
    rw [store, if_pos hmem, InMemoryAtomStore.append, if_pos hseen, SqliteAtomStore.append,
      if_pos hrow]
    exact h
  · have hseen : z.toAtom.atomId ∉ memory.seen := mt (h.seen z.atomId).mp hmem
    have hrow : z.atomId ∉ sqlite.rows.map AtomRow.atomId := by
      rw [h.rows, atomId_rows]
      exact hmem
    refine ⟨hids, ?_, ?_, ?_⟩
    · intro id
      rw [InMemoryAtomStore.mem_seen_append, h.seen, store, if_neg hmem, List.map_append,
        List.mem_append, List.map_singleton, List.mem_singleton, or_comm]
      rfl
    · rw [store, if_neg hmem, List.map_append, List.map_singleton]
      exact ((all_append_perm hseen).trans (h.all.cons _)).trans
        (List.perm_append_singleton _ _).symm
    · rw [SqliteAtomStore.append, if_neg hrow, store, if_neg hmem, h.rows, List.map_append,
        List.map_singleton]

/-- **The stores hold the same atoms** after the same appends. -/
theorem holds_appends (appends : List ZonedAtom) :
    Holds (storedOf appends) (memoryOf appends) (sqliteOf appends) := by
  have hrun : ∀ (stored : List ZonedAtom) (memory : InMemoryAtomStore) (sqlite : SqliteAtomStore),
      Holds stored memory sqlite → Holds (appends.foldl store stored)
        (appends.foldl (fun st z => (st.append z.toAtom).2) memory)
        (appends.foldl (fun st z => (st.append z).2) sqlite) := by
    induction appends with
    | nil => exact fun _ _ _ h => h
    | cons z appends ih => exact fun _ _ _ h => ih _ _ _ (h.append z)
  apply hrun
  exact ⟨by simp, by simp, by simp [InMemoryAtomStore.all, Dict.values, Dict.empty], rfl⟩

/-! ## What a request selects -/

/-- The key by which the in-memory store ranks an atom. -/
def timeKey (z : ZonedAtom) : RowKey := z.toAtom.rowKey

/-- The key by which the durable store ranks an atom. -/
def textKey (z : ZonedAtom) : String ×ₗ String := z.toRow.rowKey

/-- A request's filters and anchor. -/
structure Request where
  kind : Option String
  sessionId : Option String
  before : Option (IsoTime.Stamp × String)

namespace Request

variable (r : Request)

/-- The anchor as the in-memory store takes it. -/
def anchor : Option (Time × String) := r.before.map fun b => (instant b.1, b.2)

/-- The in-memory store lists the atom, on some page. -/
def InMemory (z : ZonedAtom) : Prop :=
  (∀ k, r.kind = some k → z.kind = k) ∧ (∀ s, r.sessionId = some s → z.sessionId = some s) ∧
    ∀ at_ id, r.before = some (at_, id) → timeKey z < toLex (instant at_, id)

/-- The durable store lists the atom, on some page. -/
def InSqlite (z : ZonedAtom) : Prop :=
  (∀ k, r.kind = some k → z.kind = k) ∧
    (∀ s, r.sessionId = some s → z.sessionId.getD sessionless = s) ∧
    ∀ at_ id, r.before = some (at_, id) →
      textKey z < toLex (String.ofList (IsoTime.isoText at_), id)

/-- A page of the in-memory store. -/
def memoryPage (limit : ℤ) (appends : List ZonedAtom) :
    Except ListError (List MemoryAtom × Option (Time × String)) :=
  (memoryOf appends).list r.kind r.sessionId limit r.anchor

/-- A page of the durable store. -/
def sqlitePage (parse : List Char → Option Time) (limit : ℤ) (appends : List ZonedAtom) :
    Except ListError (List MemoryAtom × Option (Time × String)) :=
  (sqliteOf appends).list parse r.kind r.sessionId limit r.before

end Request

section

variable (r : Request) (appends : List ZonedAtom)

/-- The rows that the in-memory store cuts its page from. -/
def memoryRows : List MemoryAtom :=
  Keyset.rest MemoryAtom.rowKey (r.anchor.map toLex)
    ((memoryOf appends).matching r.kind r.sessionId)

theorem memoryPage_eq {limit : ℤ} (h : 0 < limit) :
    r.memoryPage limit appends = .ok ((memoryRows r appends).take limit.toNat,
      nextOf (fun a => (a.timelineAt, a.atomId)) limit.toNat (memoryRows r appends)) := by
  have hanchor : r.anchor = (r.anchor.map toLex).map ofLex := by
    cases r.anchor <;> rfl
  rw [Request.memoryPage, InMemoryAtomStore.list, checkLimit_of_pos h, hanchor]
  simp only [bind, Except.bind, resume_atoms]
  rfl

theorem mem_matching {kind sessionId : Option String} {st : InMemoryAtomStore} {a : MemoryAtom} :
    a ∈ st.matching kind sessionId ↔ a ∈ st.all ∧ (∀ k, kind = some k → a.kind = k) ∧
      ∀ s, sessionId = some s → a.sessionId = some s := by
  cases kind <;> cases sessionId <;> simp [InMemoryAtomStore.matching, and_assoc, and_comm]

/-- The in-memory store lists these atoms, by their instants. -/
theorem mem_memoryRows {a : MemoryAtom} :
    a ∈ memoryRows r appends ↔ ∃ z ∈ storedOf appends, r.InMemory z ∧ z.toAtom = a := by
  have hbelow : ∀ z : ZonedAtom, Keyset.Below (r.anchor.map toLex) z.toAtom.rowKey ↔
      ∀ at_ id, r.before = some (at_, id) → timeKey z < toLex (instant at_, id) := by
    intro z
    cases hbefore : r.before with
    | none => simp [Keyset.Below, Request.anchor, hbefore]
    | some b => simp [Keyset.Below, Request.anchor, hbefore, timeKey, Prod.ext_iff]
  rw [memoryRows, Keyset.mem_rest, mem_matching, (holds_appends appends).all.mem_iff, List.mem_map]
  constructor
  · rintro ⟨⟨⟨z, hz, rfl⟩, hkind, hsession⟩, hbefore⟩
    exact ⟨z, hz, ⟨hkind, hsession, (hbelow z).mp hbefore⟩, rfl⟩
  · rintro ⟨z, hz, ⟨hkind, hsession, hbefore⟩, rfl⟩
    exact ⟨⟨⟨z, hz, rfl⟩, hkind, hsession⟩, (hbelow z).mpr hbefore⟩

theorem pairwise_memoryRows : (memoryRows r appends).Pairwise fun a b => b.rowKey < a.rowKey := by
  have hgood : GoodAtoms (memoryOf appends) := by
    rw [GoodAtoms, ((holds_appends appends).all.map _).nodup_iff, List.map_map]
    exact (holds_appends appends).ids
  have hkeys : (((memoryOf appends).matching r.kind r.sessionId).map MemoryAtom.rowKey).Nodup :=
    nodup_rowKeys (hgood.sublist ((matching_sublist r.kind r.sessionId _).map _))
  exact Keyset.pairwise_rest hkeys _

/-- The rows that the durable store cuts its page from. -/
def sqliteRows : List AtomRow :=
  (sqliteOf appends).query r.kind r.sessionId r.before

theorem sqlitePage_eq (parse : List Char → Option Time) {limit : ℤ} (h : 0 < limit) :
    r.sqlitePage parse limit appends =
      SqliteAtomStore.pageOf (limit.toNat < (sqliteRows r appends).length)
        (((sqliteRows r appends).take limit.toNat).mapM (AtomRow.toAtom parse)) := by
  have hlength : ∀ rows : List AtomRow,
      limit.toNat < (rows.take (limit.toNat + 1)).length ↔ limit.toNat < rows.length := by
    intro rows
    rw [List.length_take]
    omega
  rw [Request.sqlitePage, SqliteAtomStore.list, checkLimit_of_pos h]
  simp only [bind, Except.bind, List.take_take, Nat.min_eq_left (Nat.le_succ _), hlength]
  rfl

/-- The durable store lists these atoms, by the texts of their timestamps. -/
theorem mem_sqliteRows {row : AtomRow} :
    row ∈ sqliteRows r appends ↔ ∃ z ∈ storedOf appends, r.InSqlite z ∧ z.toRow = row := by
  have hselects : ∀ z : ZonedAtom, r.InSqlite z ↔
      SqliteAtomStore.selects r.kind r.sessionId z.toRow ∧
        SqliteAtomStore.isBefore r.before z.toRow := by
    intro z
    rw [SqliteAtomStore.selects, decide_eq_true_iff, Request.InSqlite, ← and_assoc]
    apply and_congr_right
    intro _
    cases hbefore : r.before with
    | none => simp [SqliteAtomStore.isBefore]
    | some b =>
      rw [SqliteAtomStore.isBefore, decide_eq_true_iff]
      simp [textKey, Prod.ext_iff]
  rw [sqliteRows, SqliteAtomStore.query, List.mem_insertionSort, List.mem_filter,
    (holds_appends appends).rows, List.mem_map, Bool.and_eq_true]
  constructor
  · rintro ⟨⟨z, hz, rfl⟩, hrow⟩
    exact ⟨z, hz, (hselects z).mpr hrow, rfl⟩
  · rintro ⟨z, hz, hrow, rfl⟩
    exact ⟨⟨z, hz, rfl⟩, (hselects z).mp hrow⟩

theorem pairwise_sqliteRows : (sqliteRows r appends).Pairwise fun a b => b.rowKey < a.rowKey := by
  have hrows : ((sqliteOf appends).rows.map AtomRow.rowKey).Nodup := by
    apply List.Nodup.of_map fun k : String ×ₗ String => (ofLex k).2
    rw [(holds_appends appends).rows, List.map_map, List.map_map]
    exact (holds_appends appends).ids
  exact Keyset.pairwise_rest (hrows.sublist (List.filter_sublist.map _)) none

end

/-! ## Reading rows -/

theorem mapM_eq_some_iff {α β : Type} {f : α → Option β} {xs : List α} {ys : List β} :
    xs.mapM f = some ys ↔ xs.map f = ys.map some := by
  induction xs generalizing ys with
  | nil => cases ys <;> simp
  | cons x xs ih =>
    rw [List.mapM_cons, List.map_cons]
    cases hx : f x with
    | none => cases ys <;> simp
    | some y =>
      cases hxs : xs.mapM f with
      | none =>
        cases ys with
        | nil => simp
        | cons z zs =>
          have hne : xs.map f ≠ zs.map some := mt ih.mpr (by simp [hxs])
          simp [hne]
      | some zs =>
        have hzs := ih.mp hxs
        cases ys with
        | nil => simp
        | cons z ws => simp [hzs, List.map_inj_right]

/-- A list whose items all come from somewhere comes from a list. -/
theorem exists_map_eq {α β : Type} {f : α → β} {P : α → Prop} {ys : List β}
    (h : ∀ y ∈ ys, ∃ x, P x ∧ f x = y) : ∃ xs : List α, xs.map f = ys ∧ ∀ x ∈ xs, P x := by
  induction ys with
  | nil => exact ⟨[], rfl, by simp⟩
  | cons y ys ih =>
    obtain ⟨⟨x, hx, rfl⟩, hrest⟩ := List.forall_mem_cons.mp h
    obtain ⟨xs, rfl, hxs⟩ := ih hrest
    exact ⟨x :: xs, rfl, List.forall_mem_cons.mpr ⟨hx, hxs⟩⟩

/-- The timestamps of an atom are read back from their texts, as far as their instants go. -/
structure ReadsBack (parse : List Char → Option Time) (z : ZonedAtom) : Prop where
  createdAt : parse (IsoTime.isoText z.createdAt) = some (instant z.createdAt)
  occurredAt : ∀ s, z.occurredAt = some s → parse (IsoTime.isoText s) = some (instant s)

/-- The session id that is read for one that was stored. -/
theorem session_iff (sessionId : Option String) :
    (if sessionId.getD sessionless = sessionless then none
      else some (sessionId.getD sessionless)) = sessionId ↔ sessionId ≠ some sessionless := by
  cases sessionId with
  | none => simp
  | some s =>
    by_cases h : s = sessionless
    · simp [h]
    · simp [h]

theorem readTime_iff (parse : List Char → Option Time) (at_ : Option IsoTime.Stamp) :
    AtomRow.readTime parse (at_.map IsoTime.isoText) = some (at_.map instant) ↔
      ∀ s, at_ = some s → parse (IsoTime.isoText s) = some (instant s) := by
  cases at_ with
  | none => simp [AtomRow.readTime]
  | some s => simp [AtomRow.readTime]

/-- The atom of a row is the one that was stored when its timestamps are read back and its session
id does not stand for none.
SOURCE: memory/store.py:68-86 -/
theorem toAtom_toRow_iff (parse : List Char → Option Time) (z : ZonedAtom) :
    z.toRow.toAtom parse = some z.toAtom ↔
      ReadsBack parse z ∧ z.sessionId ≠ some sessionless := by
  constructor
  · intro h
    rw [AtomRow.toAtom, Option.bind_eq_bind, Option.bind_eq_some_iff] at h
    obtain ⟨createdAt, hcreated, h⟩ := h
    rw [Option.bind_eq_bind, Option.bind_eq_some_iff] at h
    obtain ⟨occurredAt, hoccurred, h⟩ := h
    have hatom := Option.some.inj h
    have hcreatedAt : createdAt = instant z.createdAt := congrArg MemoryAtom.createdAt hatom
    have hoccurredAt : occurredAt = z.occurredAt.map instant :=
      congrArg MemoryAtom.occurredAt hatom
    have hsession := congrArg MemoryAtom.sessionId hatom
    rw [hcreatedAt] at hcreated
    rw [hoccurredAt] at hoccurred
    exact ⟨⟨hcreated, (readTime_iff parse z.occurredAt).mp hoccurred⟩,
      (session_iff z.sessionId).mp hsession⟩
  · rintro ⟨⟨hcreated, hoccurred⟩, hsession⟩
    have hcreated' : parse z.toRow.createdAt = some (instant z.createdAt) := hcreated
    have hoccurred' : AtomRow.readTime parse z.toRow.occurredAt = some (z.occurredAt.map instant) :=
      (readTime_iff parse z.occurredAt).mpr hoccurred
    have hid : (if z.toRow.sessionId = sessionless then none else some z.toRow.sessionId) =
        z.sessionId := (session_iff z.sessionId).mpr hsession
    rw [AtomRow.toAtom, hcreated', Option.bind_eq_bind, Option.bind_some, hoccurred',
      Option.bind_eq_bind, Option.bind_some, hid]
    rfl

/-- The id of a row's atom is the row's. -/
theorem atomId_of_toAtom {parse : List Char → Option Time} {row : AtomRow} {a : MemoryAtom}
    (h : row.toAtom parse = some a) : a.atomId = row.atomId := by
  rw [AtomRow.toAtom, Option.bind_eq_bind, Option.bind_eq_some_iff] at h
  obtain ⟨createdAt, -, h⟩ := h
  rw [Option.bind_eq_bind, Option.bind_eq_some_iff] at h
  obtain ⟨occurredAt, -, h⟩ := h
  obtain rfl := Option.some.inj h
  rfl

/-! ## Same pages -/

section

variable (parse : List Char → Option Time) (r : Request) (appends : List ZonedAtom)

/-- The two orders agree on what the request selects, and the selected atoms are read back. -/
structure SameOrder : Prop where
  listed : ∀ z ∈ storedOf appends, r.InMemory z ↔ r.InSqlite z
  order : ∀ z ∈ storedOf appends, ∀ z' ∈ storedOf appends, r.InMemory z → r.InMemory z' →
    (timeKey z < timeKey z' ↔ textKey z < textKey z')
  session : ∀ z ∈ storedOf appends, r.InMemory z → z.sessionId ≠ some sessionless
  reads : ∀ z ∈ storedOf appends, r.InMemory z → ReadsBack parse z

/-- The atoms that both stores list, in the order in which both list them. -/
structure Aligned (listed : List ZonedAtom) : Prop where
  stored : ∀ z ∈ listed, z ∈ storedOf appends
  memory : memoryRows r appends = listed.map ZonedAtom.toAtom
  sqlite : sqliteRows r appends = listed.map ZonedAtom.toRow
  reads : ∀ z ∈ listed, z.toRow.toAtom parse = some z.toAtom

variable {parse r appends}

theorem eq_of_atomId {z z' : ZonedAtom} (hz : z ∈ storedOf appends) (hz' : z' ∈ storedOf appends)
    (h : z.atomId = z'.atomId) : z = z' :=
  List.inj_on_of_nodup_map (holds_appends appends).ids hz hz' h

theorem Aligned.mem_iff_inMemory {listed : List ZonedAtom} (h : Aligned parse r appends listed)
    {z : ZonedAtom} (hz : z ∈ storedOf appends) : z ∈ listed ↔ r.InMemory z := by
  have hrows : z.toAtom ∈ memoryRows r appends ↔ _ := mem_memoryRows r appends
  rw [h.memory, List.mem_map] at hrows
  constructor
  · intro hmem
    obtain ⟨z', hz', hin, heq⟩ := hrows.mp ⟨z, hmem, rfl⟩
    rwa [← eq_of_atomId hz' hz (congrArg MemoryAtom.atomId heq)]
  · intro hin
    obtain ⟨z', hz', heq⟩ := hrows.mpr ⟨z, hz, hin, rfl⟩
    rwa [← eq_of_atomId (h.stored z' hz') hz (congrArg MemoryAtom.atomId heq)]

theorem Aligned.mem_iff_inSqlite {listed : List ZonedAtom} (h : Aligned parse r appends listed)
    {z : ZonedAtom} (hz : z ∈ storedOf appends) : z ∈ listed ↔ r.InSqlite z := by
  have hrows : z.toRow ∈ sqliteRows r appends ↔ _ := mem_sqliteRows r appends
  rw [h.sqlite, List.mem_map] at hrows
  constructor
  · intro hmem
    obtain ⟨z', hz', hin, heq⟩ := hrows.mp ⟨z, hmem, rfl⟩
    rwa [← eq_of_atomId hz' hz (congrArg AtomRow.atomId heq)]
  · intro hin
    obtain ⟨z', hz', heq⟩ := hrows.mpr ⟨z, hz, hin, rfl⟩
    rwa [← eq_of_atomId (h.stored z' hz') hz (congrArg AtomRow.atomId heq)]

/-- When both stores list the same atoms in the same order, the condition holds. -/
theorem Aligned.sameOrder {listed : List ZonedAtom} (h : Aligned parse r appends listed) :
    SameOrder parse r appends := by
  have htime : listed.Pairwise fun a b => timeKey b < timeKey a := by
    have hpairs := pairwise_memoryRows r appends
    rwa [h.memory, List.pairwise_map] at hpairs
  have htext : listed.Pairwise fun a b => textKey b < textKey a := by
    have hpairs := pairwise_sqliteRows r appends
    rwa [h.sqlite, List.pairwise_map] at hpairs
  have hread : ∀ z ∈ storedOf appends, r.InMemory z →
      ReadsBack parse z ∧ z.sessionId ≠ some sessionless := fun z hz hin =>
    (toAtom_toRow_iff parse z).mp (h.reads z ((h.mem_iff_inMemory hz).mpr hin))
  refine ⟨?_, ?_, fun z hz hin => (hread z hz hin).2, fun z hz hin => (hread z hz hin).1⟩
  · intro z hz
    rw [← h.mem_iff_inMemory hz, h.mem_iff_inSqlite hz]
  · intro z hz z' hz' hin hin'
    exact Keyset.lt_iff_of_pairwise htime htext ((h.mem_iff_inMemory hz).mpr hin)
      ((h.mem_iff_inMemory hz').mpr hin')

/-- Under the condition both stores list the same atoms in the same order. -/
theorem SameOrder.aligned (h : SameOrder parse r appends) :
    ∃ listed, Aligned parse r appends listed := by
  have hfrom : ∀ a ∈ memoryRows r appends,
      ∃ z, (z ∈ storedOf appends ∧ r.InMemory z) ∧ z.toAtom = a := by
    intro a ha
    obtain ⟨z, hz, hin, heq⟩ := (mem_memoryRows r appends).mp ha
    exact ⟨z, ⟨hz, hin⟩, heq⟩
  obtain ⟨listed, hmemory, hlisted⟩ := exists_map_eq hfrom
  have htime : listed.Pairwise fun a b => timeKey b < timeKey a := by
    have hpairs := pairwise_memoryRows r appends
    rwa [← hmemory, List.pairwise_map] at hpairs
  have htext : (listed.map ZonedAtom.toRow).Pairwise fun a b => a.rowKey > b.rowKey := by
    rw [List.pairwise_map]
    refine htime.imp_of_mem ?_
    intro a b ha hb hlt
    exact (h.order b (hlisted b hb).1 a (hlisted a ha).1 (hlisted b hb).2 (hlisted a ha).2).mp hlt
  have hsqlite : sqliteRows r appends = listed.map ZonedAtom.toRow := by
    apply Keyset.eq_of_mem_iff (pairwise_sqliteRows r appends) htext
    intro row
    rw [mem_sqliteRows, List.mem_map]
    constructor
    · rintro ⟨z, hz, hin, rfl⟩
      have hmem := (mem_memoryRows r appends).mpr ⟨z, hz, (h.listed z hz).mpr hin, rfl⟩
      rw [← hmemory, List.mem_map] at hmem
      obtain ⟨z', hz', heq⟩ := hmem
      have hsame := eq_of_atomId (hlisted z' hz').1 hz (congrArg MemoryAtom.atomId heq)
      exact ⟨z', hz', hsame ▸ rfl⟩
    · rintro ⟨z, hz, rfl⟩
      obtain ⟨hstored, hin⟩ := hlisted z hz
      exact ⟨z, hstored, (h.listed z hstored).mp hin, rfl⟩
  refine ⟨listed, fun z hz => (hlisted z hz).1, hmemory.symm, hsqlite, ?_⟩
  intro z hz
  obtain ⟨hstored, hin⟩ := hlisted z hz
  exact (toAtom_toRow_iff parse z).mpr ⟨h.reads z hstored hin, h.session z hstored hin⟩

/-- Aligned lists are cut into the same pages. -/
theorem Aligned.page_eq {listed : List ZonedAtom} (h : Aligned parse r appends listed) {limit : ℤ}
    (hlimit : 0 < limit) : r.memoryPage limit appends = r.sqlitePage parse limit appends := by
  have hread : ((sqliteRows r appends).take limit.toNat).mapM (AtomRow.toAtom parse) =
      some ((memoryRows r appends).take limit.toNat) := by
    rw [mapM_eq_some_iff, h.sqlite, h.memory, ← List.map_take, ← List.map_take, List.map_map,
      List.map_map]
    apply List.map_congr_left
    exact fun z hz => h.reads z (List.mem_of_mem_take hz)
  have hlength : (sqliteRows r appends).length = (memoryRows r appends).length := by
    rw [h.sqlite, h.memory, List.length_map, List.length_map]
  rw [memoryPage_eq r appends hlimit, sqlitePage_eq r appends parse hlimit, hread, hlength,
    SqliteAtomStore.pageOf, nextOf]
  simp only [decide_eq_true_eq]

/-- A page that holds all rows of both stores shows that they are aligned. -/
theorem aligned_of_page_eq {limit : ℤ} (hlimit : 0 < limit)
    (hmemory : (memoryRows r appends).length ≤ limit.toNat)
    (hsqlite : (sqliteRows r appends).length ≤ limit.toNat)
    (h : r.memoryPage limit appends = r.sqlitePage parse limit appends) :
    ∃ listed, Aligned parse r appends listed := by
  rw [memoryPage_eq r appends hlimit, sqlitePage_eq r appends parse hlimit,
    List.take_of_length_le hmemory, List.take_of_length_le hsqlite] at h
  cases hread : (sqliteRows r appends).mapM (AtomRow.toAtom parse) with
  | none =>
    rw [hread] at h
    cases h
  | some atoms =>
    rw [hread] at h
    obtain rfl : memoryRows r appends = atoms := congrArg Prod.fst (Except.ok.inj h)
    have hfrom : ∀ row ∈ sqliteRows r appends,
        ∃ z, z ∈ storedOf appends ∧ z.toRow = row := by
      intro row hrow
      obtain ⟨z, hz, -, heq⟩ := (mem_sqliteRows r appends).mp hrow
      exact ⟨z, hz, heq⟩
    obtain ⟨listed, hrows, hstored⟩ := exists_map_eq hfrom
    rw [mapM_eq_some_iff, ← hrows, List.map_map] at hread
    -- A row's atom is listed by the in-memory store, and it has the row's id.
    have hreads : ∀ z ∈ listed, z.toRow.toAtom parse = some z.toAtom := by
      intro z hz
      have hmem : z.toRow.toAtom parse ∈ (memoryRows r appends).map some :=
        hread ▸ List.mem_map_of_mem hz
      obtain ⟨a, ha, heq⟩ := List.mem_map.mp hmem
      obtain ⟨z', hz', -, rfl⟩ := (mem_memoryRows r appends).mp ha
      have hid := atomId_of_toAtom heq.symm
      rw [← heq, eq_of_atomId hz' (hstored z hz) hid]
    refine ⟨listed, hstored, ?_, hrows.symm, hreads⟩
    have hmap : listed.map (AtomRow.toAtom parse ∘ ZonedAtom.toRow) =
        (listed.map ZonedAtom.toAtom).map some := by
      rw [List.map_map]
      exact List.map_congr_left hreads
    rw [hmap] at hread
    exact (List.map_injective_iff.mpr (Option.some_injective _) hread).symm

/-- **The two stores list the same pages, of every size, exactly when the text order and the time
order agree** on what the request selects.
SOURCE: memory/store.py:277-293, memory/store.py:440-471 -/
theorem agree_iff (parse : List Char → Option Time) (r : Request) (appends : List ZonedAtom) :
    (∀ limit, 0 < limit → r.memoryPage limit appends = r.sqlitePage parse limit appends) ↔
      SameOrder parse r appends := by
  constructor
  · intro hall
    obtain ⟨limit, hlimit⟩ : ∃ limit : ℤ,
        limit = ((memoryRows r appends).length + (sqliteRows r appends).length + 1 : ℕ) := ⟨_, rfl⟩
    obtain ⟨listed, h⟩ := aligned_of_page_eq (show 0 < limit by omega) (by omega) (by omega)
      (hall limit (by omega))
    exact h.sameOrder
  · intro h limit hlimit
    obtain ⟨listed, hlisted⟩ := h.aligned
    exact hlisted.page_eq hlimit

end

/-- Timestamps as `isoformat` writes them are read. -/
def isoParse (cs : List Char) : Option Time := (IsoTime.readIso cs).map instant

/-- An atom that was created at a time. -/
def atomAt (id : String) (at_ : IsoTime.Stamp) : ZonedAtom where
  atomId := id
  sessionId := some "s"
  sourceEventId := "e"
  kind := "fact"
  text := ""
  createdAt := at_
  startMs := 0

/-- 2024-01-01T10:00:00+05:00, which is five o'clock in UTC. -/
def tenInTheEast : IsoTime.Stamp := ⟨738885 * IsoTime.dayUs + 36000000000, 18000000000⟩

/-- 2024-01-01T06:00:00+00:00. -/
def sixInUtc : IsoTime.Stamp := ⟨738885 * IsoTime.dayUs + 21600000000, 0⟩

/-- **The two stores do not always list the same pages**: the newest atom by its instant is not
the one with the largest text. -/
theorem not_always_agree :
    ¬ ∀ (r : Request) (appends : List ZonedAtom) (limit : ℤ), 0 < limit →
      r.memoryPage limit appends = r.sqlitePage isoParse limit appends := by
  intro h
  have hpage := h ⟨none, none, none⟩ [atomAt "east" tenInTheEast, atomAt "utc" sixInUtc] 1
    (by norm_num)
  revert hpage
  decide +kernel

end OpenRecall.Analysis.AtomBackends
