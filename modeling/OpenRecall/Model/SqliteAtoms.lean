import OpenRecall.Model.Listings

/-!
# The durable atom store

Atoms are rows of a SQLite table. Timestamps are stored as ISO text with their offset and compared
as text, where the in-memory store compares instants. An atom without a session is stored under
the empty session id.
-/

set_option autoImplicit false

namespace OpenRecall.Model

open Foundation Paging

/-- An atom as it is appended, with the offsets of its timestamps.
SOURCE: memory/atom.py:21-50 -/
structure ZonedAtom where
  atomId : String
  sessionId : Option String
  sourceEventId : String
  kind : String
  text : String
  createdAt : IsoTime.Stamp
  startMs : ℤ
  occurredAt : Option IsoTime.Stamp := none
  speaker : Option String := none
  speakerConfidence : Option ℚ := none
  speakerAssignment : Option String := none

/-- The atom by its instants, which is how atoms compare. -/
def ZonedAtom.toAtom (z : ZonedAtom) : MemoryAtom where
  atomId := z.atomId
  sessionId := z.sessionId
  sourceEventId := z.sourceEventId
  kind := z.kind
  text := z.text
  createdAt := instant z.createdAt
  startMs := z.startMs
  occurredAt := z.occurredAt.map instant
  speaker := z.speaker
  speakerConfidence := z.speakerConfidence
  speakerAssignment := z.speakerAssignment

/-- A row of `memory_atoms`. -/
structure AtomRow where
  atomId : String
  sessionId : String
  sourceEventId : String
  kind : String
  text : String
  createdAt : List Char
  startMs : ℤ
  occurredAt : Option (List Char)
  speaker : Option String
  speakerConfidence : Option ℚ
  speakerAssignment : Option String

/-- The session id of atoms that have no session.
SOURCE: memory/store.py:35 -/
def sessionless : String := ""

/-- SOURCE: memory/store.py:391-407 -/
def ZonedAtom.toRow (z : ZonedAtom) : AtomRow where
  atomId := z.atomId
  sessionId := z.sessionId.getD sessionless
  sourceEventId := z.sourceEventId
  kind := z.kind
  text := z.text
  createdAt := IsoTime.isoText z.createdAt
  startMs := z.startMs
  occurredAt := z.occurredAt.map IsoTime.isoText
  speaker := z.speaker
  speakerConfidence := z.speakerConfidence
  speakerAssignment := z.speakerAssignment

namespace AtomRow

/-- Conversation time in SQL.
SOURCE: memory/store.py:65 -/
def timeline (r : AtomRow) : String := String.ofList (r.occurredAt.getD r.createdAt)

/-- The text of the conversation time and the id, compared in this order. -/
def rowKey (r : AtomRow) : String ×ₗ String := toLex (r.timeline, r.atomId)

/-- The time in a nullable column: absent, or a text that has to be a timestamp. -/
def readTime (parse : List Char → Option Time) : Option (List Char) → Option (Option Time)
  | none => some none
  | some cs => (parse cs).map some

/-- The atom of a row, when its timestamps can be read.
SOURCE: memory/store.py:68-86 -/
def toAtom (parse : List Char → Option Time) (r : AtomRow) : Option MemoryAtom := do
  let createdAt ← parse r.createdAt
  let occurredAt ← readTime parse r.occurredAt
  return {
    atomId := r.atomId
    sessionId := if r.sessionId = sessionless then none else some r.sessionId
    sourceEventId := r.sourceEventId
    kind := r.kind
    text := r.text
    createdAt := createdAt
    startMs := r.startMs
    occurredAt := occurredAt
    speaker := r.speaker
    speakerConfidence := r.speakerConfidence
    speakerAssignment := r.speakerAssignment }

end AtomRow

/-- The rows in the order of their insertion. -/
structure SqliteAtomStore where
  rows : List AtomRow := []

namespace SqliteAtomStore

/-- SOURCE: memory/store.py:381-411 -/
def append (atom : ZonedAtom) (st : SqliteAtomStore) : Bool × SqliteAtomStore :=
  if atom.atomId ∈ st.rows.map AtomRow.atomId then (false, st)
  else (true, ⟨st.rows ++ [atom.toRow]⟩)

/-- The WHERE clause of a deletion.
SOURCE: memory/store.py:491-492 -/
def startsIn (sessionId : String) (startMs endMs : ℤ) (r : AtomRow) : Bool :=
  r.sessionId = sessionId ∧ startMs ≤ r.startMs ∧ r.startMs < endMs

/-- Delete the atoms of a session that start in a range; the first component is their ids.
SOURCE: memory/store.py:488-503 -/
def deleteRange (sessionId : String) (startMs endMs : ℤ) (st : SqliteAtomStore) :
    List String × SqliteAtomStore :=
  ((st.rows.filter (startsIn sessionId startMs endMs)).map AtomRow.atomId,
    ⟨st.rows.filter fun r => ! startsIn sessionId startMs endMs r⟩)

/-- The WHERE clause, without the anchor.
SOURCE: memory/store.py:443-450 -/
def selects (kind sessionId : Option String) (r : AtomRow) : Bool :=
  (∀ k, kind = some k → r.kind = k) ∧ ∀ s, sessionId = some s → r.sessionId = s

/-- The WHERE clause's keyset comparison.
SOURCE: memory/store.py:451-455 -/
def isBefore (before : Option (IsoTime.Stamp × String)) (r : AtomRow) : Bool :=
  match before with
  | none => true
  | some (at_, id) => r.rowKey < toLex (String.ofList (IsoTime.isoText at_), id)

/-- The rows of the query.
SOURCE: memory/store.py:456-465 -/
def query (kind sessionId : Option String) (before : Option (IsoTime.Stamp × String))
    (st : SqliteAtomStore) : List AtomRow :=
  (st.rows.filter fun r => selects kind sessionId r && isBefore before r).insertionSort
    fun a b => b.rowKey ≤ a.rowKey

/-- The page, when its rows make atoms; the last one is the next anchor when more rows came.
SOURCE: memory/store.py:466-471 -/
def pageOf (more : Bool) (atoms : Option (List MemoryAtom)) :
    Except ListError (List MemoryAtom × Option (Time × String)) :=
  match atoms with
  | none => .error .badRow
  | some atoms =>
    .ok (atoms, if more then atoms.getLast?.map fun a => (a.timelineAt, a.atomId) else none)

/-- A page of atoms; one row more than the page is fetched.
SOURCE: memory/store.py:440-471 -/
def list (parse : List Char → Option Time) (kind sessionId : Option String) (limit : ℤ)
    (before : Option (IsoTime.Stamp × String)) (st : SqliteAtomStore) :
    Except ListError (List MemoryAtom × Option (Time × String)) := do
  checkLimit limit
  let rows := (query kind sessionId before st).take (limit.toNat + 1)
  pageOf (limit.toNat < rows.length) ((rows.take limit.toNat).mapM (AtomRow.toAtom parse))

end SqliteAtomStore

end OpenRecall.Model
