import OpenRecall.Model.EventStore

/-!
# Memory atoms, their store and their index

An atom is a structured memory derived from a window of events. It lives in two places: in
the atom store, which also keeps each session's extraction cursor, and in the vector
index, which the retrieval searches. Both are idempotent on the atom id. These are the
in-memory versions.
-/

set_option autoImplicit false

namespace OpenRecall.Model

open Foundation

/-- One memory, without the pipeline version fields, which nothing here reads.
SOURCE: memory/atom.py:21-50 -/
structure MemoryAtom where
  atomId : String
  sessionId : Option String
  sourceEventId : String
  kind : String
  text : String
  createdAt : Time
  startMs : ℤ
  occurredAt : Option Time := none
  speaker : Option String := none
  speakerConfidence : Option ℚ := none
  speakerAssignment : Option String := none
  deriving DecidableEq

abbrev Embedding := List Double

/-! ## The index -/

/-- SOURCE: memory/index.py:90-92 -/
structure InMemoryMemoryIndex where
  entries : Dict String (MemoryAtom × Embedding) := .empty
  deriving DecidableEq

namespace InMemoryMemoryIndex

/-- The atom ids in the index. -/
def ids (index : InMemoryMemoryIndex) : List String := index.entries.keys

/-- Add an atom unless its id is there; the first component says whether it was added.
SOURCE: memory/index.py:94-99 -/
def add (atom : MemoryAtom) (vector : Embedding) (index : InMemoryMemoryIndex) :
    Bool × InMemoryMemoryIndex :=
  if atom.atomId ∈ index.ids then (false, index)
  else (true, ⟨index.entries.set atom.atomId (atom, vector)⟩)

/-- Drop the entries of the atoms; the first component is how many there were.
SOURCE: memory/index.py:105-109 -/
def deleteAtoms (atomIds : List String) (index : InMemoryMemoryIndex) : ℕ × InMemoryMemoryIndex :=
  atomIds.foldl (fun (removed, index) id =>
    (if id ∈ index.ids then removed + 1 else removed, ⟨index.entries.erase id⟩)) (0, index)

/-- The ids after an add. -/
theorem mem_ids_add (atom : MemoryAtom) (vector : Embedding) (index : InMemoryMemoryIndex)
    (id : String) :
    id ∈ (index.add atom vector).2.ids ↔ id = atom.atomId ∨ id ∈ index.ids := by
  unfold add
  by_cases h : atom.atomId ∈ index.ids
  · rw [if_pos h]
    constructor
    · exact Or.inr
    · rintro (rfl | hid)
      · exact h
      · exact hid
  · rw [if_neg h]
    unfold ids
    rw [← Dict.get?_isSome_iff, ← Dict.get?_isSome_iff, Dict.get?_set]
    by_cases hid : id = atom.atomId <;> simp [hid]

/-- The ids after a deletion. -/
theorem mem_ids_deleteAtoms (atomIds : List String) (index : InMemoryMemoryIndex) (id : String) :
    id ∈ (index.deleteAtoms atomIds).2.ids ↔ id ∈ index.ids ∧ id ∉ atomIds := by
  unfold deleteAtoms
  generalize 0 = removed
  induction atomIds generalizing removed index with
  | nil => simp
  | cons atomId rest ih =>
    rw [List.foldl_cons, ih, List.mem_cons, not_or, ids, Dict.mem_keys_erase, ids]
    tauto

end InMemoryMemoryIndex

/-! ## The atom store -/

/-- The cursor of a session nothing was extracted from. -/
def noCursor : ℤ := -1

/-- SOURCE: memory/store.py:216-221 -/
structure InMemoryAtomStore where
  seen : Finset String := ∅
  bySession : Dict (Option String) (List MemoryAtom) := .empty
  cursor : Dict String (ℤ × String) := .empty
  deriving DecidableEq

namespace InMemoryAtomStore

/-- SOURCE: memory/store.py:223-229 -/
def append (atom : MemoryAtom) (st : InMemoryAtomStore) : Bool × InMemoryAtomStore :=
  if atom.atomId ∈ st.seen then (false, st)
  else (true,
    { st with
      seen := insert atom.atomId st.seen
      bySession := st.bySession.set atom.sessionId
        ((st.bySession.get? atom.sessionId).getD [] ++ [atom]) })

/-- The atoms of a session ordered by their start; the sort is stable.
SOURCE: memory/store.py:235-237 -/
def atoms (sessionId : Option String) (st : InMemoryAtomStore) : List MemoryAtom :=
  ((st.bySession.get? sessionId).getD []).insertionSort fun a b => a.startMs ≤ b.startMs

/-- SOURCE: memory/store.py:231-233 -/
def has (atomId : String) (st : InMemoryAtomStore) : Prop := atomId ∈ st.seen

instance (atomId : String) (st : InMemoryAtomStore) : Decidable (st.has atomId) :=
  inferInstanceAs (Decidable (atomId ∈ st.seen))

/-- The last `seq` extracted with this version; a cursor another version wrote does not
count.
SOURCE: memory/store.py:242-252 -/
def getCursor (sessionId : String) (extractorVersion : Option String)
    (st : InMemoryAtomStore) : ℤ :=
  match st.cursor.get? sessionId with
  | none => noCursor
  | some (lastSeq, recordedVersion) =>
    match extractorVersion with
    | none => lastSeq
    | some version => if recordedVersion = version then lastSeq else noCursor

/-- What a cursor is stamped with; a version that is absent or empty is the legacy one.
SOURCE: memory/store.py:254-256 -/
def cursorStamp (extractorVersion : Option String) : String :=
  match extractorVersion with
  | none => "legacy"
  | some version => if version = "" then "legacy" else version

/-- SOURCE: memory/store.py:254-256 -/
def setCursor (sessionId : String) (seq : ℤ) (extractorVersion : Option String)
    (st : InMemoryAtomStore) : InMemoryAtomStore :=
  { st with cursor := st.cursor.set sessionId (seq, cursorStamp extractorVersion) }

@[simp] theorem append_cursor (atom : MemoryAtom) (st : InMemoryAtomStore) :
    (st.append atom).2.cursor = st.cursor := by
  unfold append
  split_ifs <;> rfl

@[simp] theorem setCursor_seen (sessionId : String) (seq : ℤ) (version : Option String)
    (st : InMemoryAtomStore) : (st.setCursor sessionId seq version).seen = st.seen := rfl

/-- Reading a cursor reads the cursors only. -/
theorem getCursor_congr {st st' : InMemoryAtomStore} (h : st.cursor = st'.cursor)
    (sessionId : String) (version : Option String) :
    st.getCursor sessionId version = st'.getCursor sessionId version := by
  rw [getCursor, getCursor, h]

/-- The ids after an append. -/
theorem mem_seen_append (atom : MemoryAtom) (st : InMemoryAtomStore) (id : String) :
    id ∈ (st.append atom).2.seen ↔ id = atom.atomId ∨ id ∈ st.seen := by
  unfold append
  by_cases h : atom.atomId ∈ st.seen
  · rw [if_pos h]
    constructor
    · exact Or.inr
    · rintro (rfl | hid)
      · exact h
      · exact hid
  · rw [if_neg h]
    exact Finset.mem_insert

/-- The atoms of a session after an append. -/
theorem mem_atoms_append (a atom : MemoryAtom) (st : InMemoryAtomStore)
    (sessionId : Option String) :
    a ∈ (st.append atom).2.atoms sessionId ↔
      a ∈ st.atoms sessionId ∨
        a = atom ∧ atom.sessionId = sessionId ∧ atom.atomId ∉ st.seen := by
  simp only [atoms, List.mem_insertionSort]
  unfold append
  by_cases hseen : atom.atomId ∈ st.seen
  · simp [hseen]
  · rw [if_neg hseen]
    by_cases hsid : atom.sessionId = sessionId
    · subst hsid
      simp [hseen]
    · simp [hsid, Dict.get?_set_of_ne _ _ (Ne.symm hsid)]

/-- A version that is not empty reads the cursor it wrote. -/
theorem getCursor_setCursor (sessionId : String) (seq : ℤ) {version : String}
    (hversion : version ≠ "") (st : InMemoryAtomStore) :
    (st.setCursor sessionId seq (some version)).getCursor sessionId (some version) = seq := by
  simp [getCursor, setCursor, cursorStamp, hversion]

end InMemoryAtomStore

end OpenRecall.Model
