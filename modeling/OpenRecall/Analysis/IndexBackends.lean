import OpenRecall.Foundation.Run
import OpenRecall.Model.MemoryIndexes
import OpenRecall.Analysis.AtomBackends
import OpenRecall.Analysis.SpeakerCorrection

/-!
# The two vector indexes answer alike

The durable index keeps fewer fields than there are, and ignores atoms that have no session. The
two agree on every call of every run in which the added atoms lose nothing by this.
-/

set_option autoImplicit false

namespace OpenRecall.Analysis.IndexBackends

open Foundation Model Paging MemoryIndex OpenRecall.Analysis.AtomBackends

/-- A call to both indexes. -/
inductive Call where
  | add (atom : FullZonedAtom) (vector : Embedding)
  | has (atomId : String)
  | deleteAtoms (atomIds : List String)
  | search (sessionId : Option String) (query : Embedding) (k : ℤ)

/-- What a call returns. -/
inductive Answer where
  | added (b : Bool)
  | present (b : Bool)
  | removed (n : ℕ)
  | found (results : List IndexResult)
  deriving DecidableEq

/-- The two indexes. -/
structure Both where
  memory : InMemory := {}
  sqlite : Sqlite := {}

section

variable (parse : List Char → Option Time) (maxVariables : ℕ) (ranking : Ranking)

/-- What the index in memory answers. -/
def memoryAnswer (s : Both) : Call → Answer
  | .add atom vector => .added (s.memory.add atom.toFullAtom vector).1
  | .has atomId => .present (s.memory.has atomId)
  | .deleteAtoms atomIds => .removed (s.memory.deleteAtoms atomIds).1
  | .search sessionId query k => .found (s.memory.search ranking sessionId query k)

/-- What the durable index answers, unless it raises. -/
def sqliteAnswer (s : Both) : Call → Except SqliteError Answer
  | .add atom vector => (s.sqlite.add atom vector).1.map .added
  | .has atomId => .ok (.present (s.sqlite.has atomId))
  | .deleteAtoms atomIds => (s.sqlite.deleteAtoms maxVariables atomIds).1.map .removed
  | .search sessionId query k => (s.sqlite.search parse ranking sessionId query k).map .found

def step (s : Both) : Call → Both
  | .add atom vector => ⟨(s.memory.add atom.toFullAtom vector).2, (s.sqlite.add atom vector).2⟩
  | .deleteAtoms atomIds =>
    ⟨(s.memory.deleteAtoms atomIds).2, (s.sqlite.deleteAtoms maxVariables atomIds).2⟩
  | _ => s

/-- **The two indexes answer alike.** -/
def Agree (s : Both) (call : Call) : Prop :=
  sqliteAnswer parse maxVariables ranking s call = .ok (memoryAnswer ranking s call)

/-- **The atom loses nothing in a row**: it has a session, no speaker, the default versions, and
timestamps that read back. -/
structure Plain (atom : FullZonedAtom) : Prop where
  session : atom.sessionId ≠ none
  speaker : atom.speaker = none
  speakerConfidence : atom.speakerConfidence = none
  speakerAssignment : atom.speakerAssignment = none
  versions : atom.toAtomVersions = {}
  times : ReadsBack parse atom.toZonedAtom

/-- **A call loses nothing**: an atom that is added is plain, unless its id is there already, with a
start that a column holds; and no more atoms are deleted at once than a statement has variables. -/
def Lossless (s : Both) : Call → Prop
  | .add atom _ => Sqlite.IsInteger atom.startMs ∧
    (s.memory.has atom.atomId = true ∨ Plain parse atom)
  | .deleteAtoms atomIds => atomIds.length ≤ maxVariables
  | _ => True

end

variable {parse : List Char → Option Time} {maxVariables : ℕ} {ranking : Ranking}

/-! ## What both hold -/

/-- The row of an atom. -/
def rowOf (x : FullZonedAtom × Embedding) : Row where
  atomId := x.1.atomId
  sessionId := x.1.sessionId.getD ""
  sourceEventId := x.1.sourceEventId
  kind := x.1.kind
  text := x.1.text
  createdAt := IsoTime.isoText x.1.createdAt
  startMs := x.1.startMs
  vector := x.2
  occurredAt := x.1.occurredAt.map IsoTime.isoText

/-- Both indexes hold the same plain atoms, in the order in which they were added. -/
structure Holds (parse : List Char → Option Time) (stored : List (FullZonedAtom × Embedding))
    (s : Both) : Prop where
  plain : ∀ x ∈ stored, Plain parse x.1
  memory : s.memory.entries.entries = stored.map fun x => (x.1.atomId, x.1.toFullAtom, x.2)
  sqlite : s.sqlite.rows = stored.map rowOf

variable {stored : List (FullZonedAtom × Embedding)} {s : Both}

theorem Holds.keys (h : Holds parse stored s) :
    s.memory.entries.keys = stored.map fun x => x.1.atomId := by
  rw [Dict.keys, h.memory, List.map_map]
  rfl

theorem Holds.rowIds (h : Holds parse stored s) :
    s.sqlite.rows.map Row.atomId = stored.map fun x => x.1.atomId := by
  rw [h.sqlite, List.map_map]
  rfl

/-! ## Adding -/

/-- A plain atom that is new is added to both. -/
theorem Holds.add (h : Holds parse stored s) {atom : FullZonedAtom} (vector : Embedding)
    (hplain : Plain parse atom) (hnew : atom.atomId ∉ stored.map fun x => x.1.atomId)
    (hstart : Sqlite.IsInteger atom.startMs) :
    Holds parse (stored ++ [(atom, vector)]) (step maxVariables s (.add atom vector)) ∧
      Agree parse maxVariables ranking s (.add atom vector) := by
  obtain ⟨sid, hsid⟩ := Option.ne_none_iff_exists'.mp hplain.session
  have hmemory : s.memory.add atom.toFullAtom vector =
      (true, ⟨s.memory.entries.set atom.atomId (atom.toFullAtom, vector)⟩) :=
    if_neg (by rw [h.keys]; exact hnew)
  have hrow : s.sqlite.add atom vector = (.ok true, ⟨s.sqlite.rows ++ [rowOf (atom, vector)]⟩) := by
    have hids : atom.atomId ∉ s.sqlite.rows.map Row.atomId := by
      rw [h.rowIds]
      exact hnew
    rw [Sqlite.add, if_neg (not_not.mpr hstart), hsid]
    simp only [if_neg hids, rowOf, hsid, Option.getD_some]
  refine ⟨⟨fun x hx => ?_, ?_, ?_⟩, ?_⟩
  · rcases List.mem_append.mp hx with hx | hx
    · exact h.plain x hx
    · rw [List.mem_singleton.mp hx]
      exact hplain
  · have hnone : s.memory.entries.get? atom.atomId = none := by
      rw [Dict.get?_eq_none_iff, h.keys]
      exact hnew
    rw [step, hmemory, Dict.entries_set_of_get?_none _ hnone, h.memory, List.map_append]
    rfl
  · rw [step, hrow, h.sqlite, List.map_append]
    rfl
  · rw [Agree, sqliteAnswer, memoryAnswer, hmemory, hrow]
    rfl

/-- An atom whose id is there is added to neither. -/
theorem Holds.add_again (h : Holds parse stored s) {atom : FullZonedAtom} (vector : Embedding)
    (hmem : atom.atomId ∈ stored.map fun x => x.1.atomId)
    (hstart : Sqlite.IsInteger atom.startMs) :
    Holds parse stored (step maxVariables s (.add atom vector)) ∧
      Agree parse maxVariables ranking s (.add atom vector) := by
  have hmemory : s.memory.add atom.toFullAtom vector = (false, s.memory) :=
    if_pos (by rw [h.keys]; exact hmem)
  have hrow : s.sqlite.add atom vector = (.ok false, s.sqlite) := by
    have hids : atom.atomId ∈ s.sqlite.rows.map Row.atomId := by
      rw [h.rowIds]
      exact hmem
    rw [Sqlite.add, if_neg (not_not.mpr hstart)]
    cases atom.sessionId with
    | none => rfl
    | some sid => exact if_pos hids
  constructor
  · rw [step, hmemory, hrow]
    exact h
  · rw [Agree, sqliteAnswer, memoryAnswer, hmemory, hrow]
    rfl

/-! ## Deleting -/

/-- Of the entries of some keys, one may be the first key's and the others are the rest's. -/
theorem countP_cons {ν : Type} {es : List (String × ν)} (h : (es.map Prod.fst).Nodup) (id : String)
    (ids : List String) :
    es.countP (fun e => e.1 ∈ id :: ids) =
      (if id ∈ es.map Prod.fst then 1 else 0) +
        (es.filter fun e => e.1 ≠ id).countP fun e => e.1 ∈ ids := by
  induction es with
  | nil => simp
  | cons e es ih =>
    obtain ⟨hout, hrest⟩ := List.nodup_cons.mp h
    have ih := ih hrest
    rw [List.countP_cons, ih]
    by_cases he : e.1 = id
    · have hid : id ∉ es.map Prod.fst := he ▸ hout
      rw [List.filter_cons_of_neg (by simp [he])]
      simp only [hid, List.map_cons, he, List.mem_cons, true_or, if_true, if_false, decide_true]
      omega
    · have hne : id ≠ e.1 := fun heq => he heq.symm
      rw [List.filter_cons_of_pos (by simp [he]), List.countP_cons]
      simp only [List.map_cons, List.mem_cons, he, hne, false_or]
      omega

/-- What popping some entries leaves, and how many it counts. -/
theorem foldl_pop (atomIds : List String) (acc : ℕ × InMemory) :
    (atomIds.foldl InMemory.pop acc).1 =
        acc.1 + acc.2.entries.entries.countP (fun e => e.1 ∈ atomIds) ∧
      (atomIds.foldl InMemory.pop acc).2.entries.entries =
        acc.2.entries.entries.filter fun e => e.1 ∉ atomIds := by
  induction atomIds generalizing acc with
  | nil => simp
  | cons id atomIds ih =>
    have herase : (InMemory.pop acc id).2.entries.entries =
        acc.2.entries.entries.filter fun e => e.1 ≠ id := rfl
    have hcount : (InMemory.pop acc id).1 =
        acc.1 + if id ∈ acc.2.entries.entries.map Prod.fst then 1 else 0 := by
      rw [InMemory.pop, Dict.keys]
      split_ifs <;> rfl
    obtain ⟨hremoved, hleft⟩ := ih (InMemory.pop acc id)
    rw [List.foldl_cons, hremoved, hleft, herase, hcount, countP_cons acc.2.entries.nodup]
    refine ⟨by omega, ?_⟩
    rw [List.filter_filter]
    refine List.filter_congr fun e _ => ?_
    simp [Bool.and_comm]

/-- A deletion takes the same atoms from both. -/
theorem Holds.deleteAtoms (h : Holds parse stored s) {atomIds : List String}
    (hbound : atomIds.length ≤ maxVariables) :
    Holds parse (stored.filter fun x => x.1.atomId ∉ atomIds)
        (step maxVariables s (.deleteAtoms atomIds)) ∧
      Agree parse maxVariables ranking s (.deleteAtoms atomIds) := by
  obtain ⟨hremoved, hleft⟩ := foldl_pop atomIds (0, s.memory)
  have hsqlite : s.sqlite.deleteAtoms maxVariables atomIds =
      (.ok (stored.countP fun x => x.1.atomId ∈ atomIds),
        ⟨(stored.filter fun x => x.1.atomId ∉ atomIds).map rowOf⟩) := by
    rw [Sqlite.deleteAtoms]
    split_ifs with hnil hmany
    · subst hnil
      simp [← h.sqlite]
    · omega
    · rw [h.sqlite, List.countP_map, List.filter_map]
      rfl
  refine ⟨⟨fun x hx => h.plain x (List.mem_of_mem_filter hx), ?_, ?_⟩, ?_⟩
  · rw [step, InMemory.deleteAtoms, hleft, h.memory, List.filter_map]
    rfl
  · rw [step, hsqlite]
  · rw [Agree, sqliteAnswer, memoryAnswer, hsqlite, InMemory.deleteAtoms, hremoved, h.memory,
      List.countP_map, Nat.zero_add]
    rfl

/-! ## Searching -/

/-- A plain atom is read back from its row as it is. -/
theorem load_rowOf {atom : FullZonedAtom} (vector : Embedding) (h : Plain parse atom) :
    Sqlite.load parse (rowOf (atom, vector)) = some (atom.toFullAtom, vector) := by
  obtain ⟨sid, hsid⟩ := Option.ne_none_iff_exists'.mp h.session
  have hcreated : parse (rowOf (atom, vector)).createdAt = some (instant atom.createdAt) :=
    h.times.createdAt
  have hoccurred : AtomRow.readTime parse (rowOf (atom, vector)).occurredAt =
      some (atom.occurredAt.map instant) :=
    (readTime_iff parse atom.occurredAt).mpr h.times.occurredAt
  have hfull : atom.toFullAtom = {
      atomId := atom.atomId
      sessionId := some sid
      sourceEventId := atom.sourceEventId
      kind := atom.kind
      text := atom.text
      createdAt := instant atom.createdAt
      startMs := atom.startMs
      occurredAt := atom.occurredAt.map instant } := by
    simp only [FullZonedAtom.toFullAtom, ZonedAtom.toAtom, hsid, h.speaker, h.speakerConfidence,
      h.speakerAssignment, h.versions]
  rw [Sqlite.load, hcreated, hoccurred, hfull]
  simp [rowOf, hsid]

theorem mapM_load {rows : List (FullZonedAtom × Embedding)} (h : ∀ x ∈ rows, Plain parse x.1) :
    (rows.map rowOf).mapM (Sqlite.load parse) =
      some (rows.map fun x => (x.1.toFullAtom, x.2)) := by
  induction rows with
  | nil => rfl
  | cons x rows ih =>
    obtain ⟨hx, hrows⟩ := List.forall_mem_cons.mp h
    simp [load_rowOf x.2 hx, ih hrows]

/-- A search ranks the same rows in both. -/
theorem Holds.search (h : Holds parse stored s) (sessionId : Option String) (query : Embedding)
    (k : ℤ) : Agree parse maxVariables ranking s (.search sessionId query k) := by
  have hvalues : s.memory.entries.values = stored.map fun x => (x.1.toFullAtom, x.2) := by
    rw [Dict.values, h.memory, List.map_map]
    rfl
  cases sessionId with
  | none =>
    simp only [Agree, sqliteAnswer, memoryAnswer, Sqlite.search, InMemory.search, hvalues, h.sqlite,
      mapM_load h.plain]
    rfl
  | some sid =>
    have hrows : (stored.map rowOf).filter (fun r => r.sessionId = sid) =
        (stored.filter fun x => x.1.toFullAtom.sessionId = some sid).map rowOf := by
      rw [List.filter_map]
      refine congrArg (List.map rowOf) (List.filter_congr fun x hx => ?_)
      obtain ⟨own, hown⟩ := Option.ne_none_iff_exists'.mp (h.plain x hx).session
      simp [rowOf, FullZonedAtom.toFullAtom, ZonedAtom.toAtom, hown]
    simp only [Agree, sqliteAnswer, memoryAnswer, Sqlite.search, InMemory.search, hvalues, h.sqlite,
      hrows, mapM_load fun x hx => h.plain x (List.mem_of_mem_filter hx), List.filter_map]
    rfl

/-! ## Runs -/

/-- Both hold the same plain atoms. -/
def Mirrors (parse : List Char → Option Time) (s : Both) : Prop := ∃ stored, Holds parse stored s

/-- What a call that loses nothing does: the answers agree, and both still hold the same. -/
theorem Holds.call (h : Holds parse stored s) (ranking : Ranking) {call : Call}
    (hcall : Lossless parse maxVariables s call) :
    Mirrors parse (step maxVariables s call) ∧ Agree parse maxVariables ranking s call := by
  cases call with
  | add atom vector =>
    obtain ⟨hstart, hplain⟩ := hcall
    by_cases hmem : atom.atomId ∈ stored.map fun x => x.1.atomId
    · obtain ⟨hholds, hagree⟩ := h.add_again vector hmem hstart
      exact ⟨⟨_, hholds⟩, hagree⟩
    · have hnot : s.memory.has atom.atomId ≠ true := by
        simpa [InMemory.has, h.keys] using hmem
      obtain ⟨hholds, hagree⟩ := h.add vector (hplain.resolve_left hnot) hmem hstart
      exact ⟨⟨_, hholds⟩, hagree⟩
  | has atomId =>
    refine ⟨⟨stored, h⟩, ?_⟩
    rw [Agree, sqliteAnswer, memoryAnswer, Sqlite.has, InMemory.has, h.rowIds, h.keys]
  | deleteAtoms atomIds =>
    obtain ⟨hholds, hagree⟩ := h.deleteAtoms hcall
    exact ⟨⟨_, hholds⟩, hagree⟩
  | search sessionId query k => exact ⟨⟨stored, h⟩, h.search sessionId query k⟩

/-- **The two indexes answer alike in every run whose calls lose nothing.**
SOURCE: memory/index.py:79-235 -/
theorem agree_run (parse : List Char → Option Time) (maxVariables : ℕ) (ranking : Ranking)
    (calls : List Call)
    (h : EveryStep (step maxVariables) (Lossless parse maxVariables) {} calls) :
    EveryStep (step maxVariables) (Agree parse maxVariables ranking) {} calls := by
  refine h.of_invariant (I := Mirrors parse) (fun s call hs hcall => ?_)
    (fun s call hs hcall => ?_) ⟨[], List.forall_mem_nil _, rfl, rfl⟩
  · obtain ⟨stored, hholds⟩ := hs
    exact (hholds.call ranking hcall).1
  · obtain ⟨stored, hholds⟩ := hs
    exact (hholds.call ranking hcall).2

/-- A fact of a session. -/
def fact : FullZonedAtom := { atomAt "fact" sixInUtc with }

/-- A scene of a picture that was taken out of session. -/
def scene : FullZonedAtom :=
  { atomAt "scene" sixInUtc with
    sessionId := none, kind := "scene", sourcePipelineVersion := "vision" }

/-- The exact arithmetic, and the places of the scores from the highest on. -/
def highestFirst : Ranking where
  ops := SpeakerCorrection.exactOps
  order scores := (List.range scores.length).insertionSort fun i j =>
    ((scores[i]?.getD .nan).less (scores[j]?.getD .nan)) = false

/-- A fact is added twice, searched for, and deleted. -/
def factCalls : List Call :=
  [.add fact [.finite 1], .add fact [.finite 1], .search none [.finite 1] 10,
    .deleteAtoms ["fact", "fact"], .has "fact"]

theorem plain_fact : Plain isoParse fact where
  session := by simp [fact, atomAt]
  speaker := rfl
  speakerConfidence := rfl
  speakerAssignment := rfl
  versions := rfl
  times := ⟨by decide +kernel, fun _ h => absurd h (by simp [fact, atomAt])⟩

/-- Both find the fact once, and delete it once. -/
theorem agree_run_fact :
    EveryStep (step 32766) (Agree isoParse 32766 highestFirst) {} factCalls ∧
      memoryAnswer highestFirst (run (step 32766) {} (factCalls.take 3))
        (.deleteAtoms ["fact", "fact"]) = .removed 1 := by
  refine ⟨agree_run isoParse 32766 highestFirst factCalls ⟨⟨?_, .inr plain_fact⟩,
    ⟨?_, .inr plain_fact⟩, trivial, ?_, trivial, trivial⟩, by decide +kernel⟩
  · decide +kernel
  · decide +kernel
  · simp [Lossless]

/-- **The durable index ignores a scene without a session**, which the other one adds.
SOURCE: memory/index.py:94-99, memory/index.py:165-185 -/
theorem not_always_agree_index :
    ¬ ∀ (ranking : Ranking) (calls : List Call),
      EveryStep (step 32766) (Agree isoParse 32766 ranking) {} calls := by
  intro h
  have hadd := (h highestFirst [.add scene [.finite 1]]).1
  have hignored : ({} : Sqlite).add scene [.finite 1] = (.ok false, {}) := by
    simp [Sqlite.add, scene, atomAt, Sqlite.IsInteger]
  simp [Agree, sqliteAnswer, memoryAnswer, hignored, Except.map, InMemory.add, Dict.keys,
    Dict.empty] at hadd

end OpenRecall.Analysis.IndexBackends
