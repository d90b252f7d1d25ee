import OpenRecall.Model.Retrieval
import OpenRecall.Model.SpeakerRegistry
import OpenRecall.Model.SqliteAtoms

/-!
# The two vector indexes

There is an index in memory, which keeps the atoms themselves, and a durable one, which keeps some
of their fields as columns of a table and the vector as JSON. A search goes over all rows, in the
order of their insertion.
-/

set_option autoImplicit false

namespace OpenRecall.Model

open Foundation

/-- The versions of the pipeline that an atom comes from.
SOURCE: memory/atom.py:43-47 -/
structure AtomVersions where
  extractionVersion : String := "v1"
  embeddingModel : String := ""
  embeddingVersion : ℤ := 0
  extractorPromptVersion : String := "v1"
  sourcePipelineVersion : String := "transcript"
  deriving DecidableEq

/-- An atom with all its fields. -/
structure FullAtom extends MemoryAtom, AtomVersions
  deriving DecidableEq

/-- An atom with all its fields, and with the offsets of its timestamps. -/
structure FullZonedAtom extends ZonedAtom, AtomVersions

/-- The atom by its instants. -/
def FullZonedAtom.toFullAtom (z : FullZonedAtom) : FullAtom :=
  { z.toZonedAtom.toAtom, z.toAtomVersions with }

/-- SOURCE: memory/index.py:27-31 -/
structure IndexResult where
  atom : FullAtom
  score : Double
  vector : Embedding
  deriving DecidableEq

namespace MemoryIndex

/-- What the ranking computes with: the arithmetic, and the order into which the scores are sorted,
the highest first, as a list of their places. -/
structure Ranking where
  ops : FloatOps
  order : List Double → List ℕ

/-- SOURCE: memory/index.py:34-41 -/
def cosine (ops : FloatOps) (a b : Embedding) : Double :=
  let dot := ops.sum (List.zipWith ops.mul a b)
  let na := ops.sqrt (ops.sum (a.map fun x => ops.mul x x))
  let nb := ops.sqrt (ops.sum (b.map fun y => ops.mul y y))
  if na = .finite 0 ∨ nb = .finite 0 then .finite 0 else ops.div dot (ops.mul na nb)

/-- SOURCE: memory/index.py:73-76 -/
def rank (ranking : Ranking) (rows : List (FullAtom × Embedding)) (query : Embedding) (k : ℤ) :
    List IndexResult :=
  let scored := rows.map fun (a, v) => (⟨a, cosine ranking.ops query v, v⟩ : IndexResult)
  sliceTo k ((ranking.order (scored.map IndexResult.score)).filterMap fun i => scored[i]?)

/-! ## In memory -/

/-- SOURCE: memory/index.py:90-92 -/
structure InMemory where
  entries : Dict String (FullAtom × Embedding) := .empty

namespace InMemory

/-- SOURCE: memory/index.py:94-99 -/
def add (atom : FullAtom) (vector : Embedding) (index : InMemory) : Bool × InMemory :=
  if atom.atomId ∈ index.entries.keys then (false, index)
  else (true, ⟨index.entries.set atom.atomId (atom, vector)⟩)

/-- SOURCE: memory/index.py:101-103 -/
def has (atomId : String) (index : InMemory) : Bool := atomId ∈ index.entries.keys

/-- Pop one entry, and count it when it is there.
SOURCE: memory/index.py:107-109 -/
def pop (acc : ℕ × InMemory) (atomId : String) : ℕ × InMemory :=
  (if atomId ∈ acc.2.entries.keys then acc.1 + 1 else acc.1, ⟨acc.2.entries.erase atomId⟩)

/-- SOURCE: memory/index.py:105-109 -/
def deleteAtoms (atomIds : List String) (index : InMemory) : ℕ × InMemory :=
  atomIds.foldl pop (0, index)

/-- SOURCE: memory/index.py:111-121 -/
def search (ranking : Ranking) (sessionId : Option String) (query : Embedding) (k : ℤ)
    (index : InMemory) : List IndexResult :=
  let rows := match sessionId with
    | none => index.entries.values
    | some sid => index.entries.values.filter fun row => row.1.sessionId = some sid
  rank ranking rows query k

end InMemory

/-! ## In SQLite -/

/-- A row of `memory_index`; the vector is read back from its JSON as it was. -/
structure Row where
  atomId : String
  sessionId : String
  sourceEventId : String
  kind : String
  text : String
  createdAt : List Char
  startMs : ℤ
  vector : Embedding
  occurredAt : Option (List Char)

/-- The rows in the order of their insertion, which is that of their row ids. -/
structure Sqlite where
  rows : List Row := []

/-- What a call to SQLite can raise. -/
inductive SqliteError where
  | integerOverflow
  | tooManyVariables
  | unreadableTime
  deriving DecidableEq

namespace Sqlite

/-- The integers that a column holds. -/
def IsInteger (n : ℤ) : Prop := -2 ^ 63 ≤ n ∧ n < 2 ^ 63

instance (n : ℤ) : Decidable (IsInteger n) := inferInstanceAs (Decidable (_ ∧ _))

/-- Insert a row. An atom without a session is ignored, since its column must not be null, and so
is an atom whose id is there.
SOURCE: memory/index.py:165-185, memory/index.py:165-185 -/
def add (atom : FullZonedAtom) (vector : Embedding) (index : Sqlite) :
    Except SqliteError Bool × Sqlite :=
  if ¬ IsInteger atom.startMs then (.error .integerOverflow, index)
  else
    match atom.sessionId with
    | none => (.ok false, index)
    | some sid =>
      if atom.atomId ∈ index.rows.map Row.atomId then (.ok false, index)
      else (.ok true, ⟨index.rows ++ [{
        atomId := atom.atomId
        sessionId := sid
        sourceEventId := atom.sourceEventId
        kind := atom.kind
        text := atom.text
        createdAt := IsoTime.isoText atom.createdAt
        startMs := atom.startMs
        vector
        occurredAt := atom.occurredAt.map IsoTime.isoText }]⟩)

/-- SOURCE: memory/index.py:187-192 -/
def has (atomId : String) (index : Sqlite) : Bool := atomId ∈ index.rows.map Row.atomId

/-- Delete the rows of the atoms; a statement has a bounded number of variables.
SOURCE: memory/index.py:194-204 -/
def deleteAtoms (maxVariables : ℕ) (atomIds : List String) (index : Sqlite) :
    Except SqliteError ℕ × Sqlite :=
  if atomIds = [] then (.ok 0, index)
  else if maxVariables < atomIds.length then (.error .tooManyVariables, index)
  else (.ok (index.rows.countP fun r => r.atomId ∈ atomIds),
    ⟨index.rows.filter fun r => r.atomId ∉ atomIds⟩)

/-- The atom of a row; the fields that have no column are the default ones.
SOURCE: memory/index.py:219-234 -/
def load (parse : List Char → Option Time) (r : Row) : Option (FullAtom × Embedding) := do
  let createdAt ← parse r.createdAt
  let occurredAt ← AtomRow.readTime parse r.occurredAt
  return ({
    atomId := r.atomId
    sessionId := some r.sessionId
    sourceEventId := r.sourceEventId
    kind := r.kind
    text := r.text
    createdAt := createdAt
    startMs := r.startMs
    occurredAt := occurredAt }, r.vector)

/-- SOURCE: memory/index.py:206-235 -/
def search (parse : List Char → Option Time) (ranking : Ranking) (sessionId : Option String)
    (query : Embedding) (k : ℤ) (index : Sqlite) : Except SqliteError (List IndexResult) :=
  let rows := match sessionId with
    | none => index.rows
    | some sid => index.rows.filter fun r => r.sessionId = sid
  match rows.mapM (load parse) with
  | none => .error .unreadableTime
  | some loaded => .ok (rank ranking loaded query k)

end Sqlite

end MemoryIndex

end OpenRecall.Model
