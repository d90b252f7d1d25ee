import OpenRecall.Model.MemoryStores
import OpenRecall.Model.SessionIndex
import OpenRecall.Model.Paging

/-!
# The paged lists

Segments, sessions and memory atoms are listed newest first, and by id where the timestamps are
equal. The first two take and return cursors; the atom store takes and returns the timestamp and
the id themselves, which its route writes as a cursor.
-/

set_option autoImplicit false

namespace OpenRecall.Model

open Foundation Paging

/-- A timestamp and an id, compared in this order. -/
abbrev RowKey := Time ×ₗ String

def SessionSegment.rowKey (s : SessionSegment) : RowKey := toLex (s.startedAt, s.id)

def SessionSummary.rowKey (s : SessionSummary) : RowKey := toLex (s.startedAt, s.id)

/-- The conversation time.
SOURCE: memory/atom.py:52-60 -/
def MemoryAtom.timelineAt (a : MemoryAtom) : Time := a.occurredAt.getD a.createdAt

def MemoryAtom.rowKey (a : MemoryAtom) : RowKey := toLex (a.timelineAt, a.atomId)

namespace SegmentIndex

/-- SOURCE: sessions/segments.py:319-325 -/
def ordered (sessionId : Option String) (idx : SegmentIndex) : List SessionSegment :=
  let candidates := match sessionId with
    | none => idx.segments.values
    | some sessionId => idx.segments.values.filter (·.sessionId = sessionId)
  candidates.insertionSort fun a b => b.rowKey ≤ a.rowKey

/-- The segments after the cursor.
SOURCE: sessions/segments.py:326-331 -/
def resume (py : CursorReaders) (before : Option String) (rows : List SessionSegment) :
    Except ListError (List SessionSegment) :=
  match before with
  | none => .ok rows
  | some cursor => do
    let anchor ← py.decodeCursor cursor
    return rows.filter fun s => s.rowKey < toLex anchor

/-- A page of segments.
SOURCE: sessions/segments.py:302-335 -/
def list (py : CursorReaders) (limit : ℤ) (before sessionId : Option String) (idx : SegmentIndex) :
    Except ListError (List SessionSegment × Option String) := do
  checkLimit limit
  let rows ← resume py before (idx.ordered sessionId)
  return (rows.take limit.toNat,
    nextOf (fun s => encodeCursor s.startedAt s.id) limit.toNat rows)

end SegmentIndex

namespace SessionIndex

/-- SOURCE: sessions/index.py:277-281 -/
def ordered (idx : SessionIndex) : List SessionSummary :=
  idx.summaries.values.insertionSort fun a b => b.rowKey ≤ a.rowKey

/-- Whether a summary comes after the cursor's anchor.
SOURCE: sessions/index.py:288-290 -/
def isAfter (anchor : Time × String) (s : SessionSummary) : Bool :=
  s.startedAt < anchor.1 ∨ s.startedAt = anchor.1 ∧ s.id < anchor.2

/-- The summaries from the first one after the cursor on.
SOURCE: sessions/index.py:282-296 -/
def resume (py : CursorReaders) (before : Option String) (rows : List SessionSummary) :
    Except ListError (List SessionSummary) :=
  match before with
  | none => .ok rows
  | some cursor => do
    let anchor ← py.decodeCursor cursor
    return rows.dropWhile fun s => !isAfter anchor s

/-- A page of summaries.
SOURCE: sessions/index.py:265-305 -/
def list (py : CursorReaders) (limit : ℤ) (before : Option String) (idx : SessionIndex) :
    Except ListError (List SessionSummary × Option String) := do
  checkLimit limit
  let rows ← resume py before idx.ordered
  return (rows.take limit.toNat,
    nextOf (fun s => encodeCursor s.startedAt s.id) limit.toNat rows)

end SessionIndex

namespace InMemoryAtomStore

/-- SOURCE: memory/store.py:273-275 -/
def all (st : InMemoryAtomStore) : List MemoryAtom := st.bySession.values.flatten

/-- The atoms of a kind and of a session, where these are given.
SOURCE: memory/store.py:280-284 -/
def matching (kind sessionId : Option String) (st : InMemoryAtomStore) : List MemoryAtom :=
  let rows := match kind with
    | none => st.all
    | some kind => st.all.filter (·.kind = kind)
  match sessionId with
  | none => rows
  | some sessionId => rows.filter (·.sessionId = some sessionId)

/-- The atoms after the anchor.
SOURCE: memory/store.py:286-288 -/
def resume (before : Option (Time × String)) (rows : List MemoryAtom) : List MemoryAtom :=
  match before with
  | none => rows
  | some anchor => rows.filter fun a => a.rowKey < toLex anchor

/-- A page of atoms.
SOURCE: memory/store.py:277-293 -/
def list (kind sessionId : Option String) (limit : ℤ) (before : Option (Time × String))
    (st : InMemoryAtomStore) :
    Except ListError (List MemoryAtom × Option (Time × String)) := do
  checkLimit limit
  let rows := resume before
    ((st.matching kind sessionId).insertionSort fun a b => b.rowKey ≤ a.rowKey)
  return (rows.take limit.toNat, nextOf (fun a => (a.timelineAt, a.atomId)) limit.toNat rows)

end InMemoryAtomStore

end OpenRecall.Model
