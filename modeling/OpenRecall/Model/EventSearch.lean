import OpenRecall.Foundation.Wildcards
import OpenRecall.Model.CommandDetector
import OpenRecall.Model.Datetimes

/-!
# Searching what was said

Both event stores search the transcripts for a text and give back the newest first. The store in
memory lowers the text of each event as Python does and looks for the lowered query in it. The
durable store has SQLite do that: its `LOWER` and its `LIKE` know the letters of ASCII only, `LIKE`
reads the pattern and the text up to a NUL, and datetimes are ordered by their texts.

Events are taken with datetimes of any kind, which the two stores keep as they are and as texts.
-/

set_option autoImplicit false

namespace OpenRecall.Model.EventSearch

open Foundation Datetimes

/-! ## Events -/

/-- An event with its creation as a datetime, as the text of one, or as what `==` sees of it.
SOURCE: events/model.py:20-33 -/
structure EventOf (τ : Type) where
  eventId : String
  sessionId : String
  seq : ℤ
  kind : EventKind
  createdAt : τ
  text : String
  durationMs : ℤ
  startMs : ℤ
  speaker : Option String := none
  speakerConfidence : Option ℚ := none
  speakerAssignment : Option String := none
  deriving DecidableEq

abbrev Event := EventOf DateTime

abbrev EventRow := EventOf (List Char)

/-- The event with another creation. -/
def EventOf.created {τ υ : Type} (at_ : υ) (e : EventOf τ) : EventOf υ where
  eventId := e.eventId
  sessionId := e.sessionId
  seq := e.seq
  kind := e.kind
  createdAt := at_
  text := e.text
  durationMs := e.durationMs
  startMs := e.startMs
  speaker := e.speaker
  speakerConfidence := e.speakerConfidence
  speakerAssignment := e.speakerAssignment

/-- What a search gives back for an event. -/
def found (e : Event) : EventOf Moment := e.created e.createdAt.moment

/-- A search raises: datetimes with an offset and without one cannot be ordered, the pattern is too
long for SQLite, or a row does not make an event. -/
inductive SearchError where
  | typeError
  | patternTooLong
  | badRow
  deriving DecidableEq

/-- `query.strip().lower()` -/
def needleOf (py : LowerCase) (query : String) : Text := py.lower (stripText query.toList)

/-! ## In memory -/

/-- SOURCE: events/store.py:106-109 -/
structure InMemoryEventStore where
  seen : Finset String := ∅
  bySession : Dict String (List Event) := .empty

namespace InMemoryEventStore

/-- The events of a session in the order of their appends. -/
def rows (sessionId : String) (st : InMemoryEventStore) : List Event :=
  (st.bySession.get? sessionId).getD []

/-- SOURCE: events/store.py:111-116 -/
def append (event : Event) (st : InMemoryEventStore) : Bool × InMemoryEventStore :=
  if event.eventId ∈ st.seen then (false, st)
  else (true,
    { seen := insert event.eventId st.seen
      bySession := st.bySession.set event.sessionId (st.rows event.sessionId ++ [event]) })

/-- All events, by session. -/
def all (st : InMemoryEventStore) : List Event := st.bySession.values.flatten

/-- SOURCE: events/store.py:146-151 -/
def isHit (py : LowerCase) (needle : Text) (e : Event) : Bool :=
  e.kind = .transcript ∧ contains needle (py.lower e.text.toList)

/-- The key of the sort, between datetimes that can be compared.
SOURCE: events/store.py:152 -/
def sortKey (e : Event) : ℤ ×ₗ String ×ₗ ℤ :=
  toLex (e.createdAt.stamp.utc, toLex (e.sessionId, e.seq))

/-- Sort in reverse, which leaves those with equal keys in their order. A sort of datetimes of both
kinds comes to compare two of them that cannot be, and raises.
SOURCE: events/store.py:152 -/
def newestFirst (hits : List Event) : Except SearchError (List Event) :=
  if (∃ e ∈ hits, e.createdAt.aware = true) ∧ ∃ e ∈ hits, e.createdAt.aware = false then
    .error .typeError
  else .ok (hits.insertionSort fun a b => sortKey b ≤ sortKey a)

/-- `hits[:limit]` -/
def slice (limit : ℤ) (hits : List Event) : List Event :=
  if 0 ≤ limit then hits.take limit.toNat else hits.take (hits.length - limit.natAbs)

/-- SOURCE: events/store.py:142-153 -/
def search (py : LowerCase) (query : String) (limit : ℤ) (st : InMemoryEventStore) :
    Except SearchError (List (EventOf Moment)) :=
  let needle := needleOf py query
  if needle = [] then .ok []
  else do
    let hits ← newestFirst (st.all.filter (isHit py needle))
    return (slice limit hits).map found

end InMemoryEventStore

/-! ## Patterns of SQLite -/

/-- What SQLite reads of a text in `LIKE`. -/
def upToNul (text : Text) : Text := text.takeWhile (· ≠ '\x00')

/-- Characters that `LIKE` takes for the same: of ASCII, letters in either case. -/
def sameLetter (c d : Char) : Bool :=
  c = d ∨ c.toNat < 128 ∧ d.toNat < 128 ∧ c.toLower = d.toLower

/-- The items of a pattern with a backslash for its escape character, which does not end it. -/
def likeItems : Text → Option (List (Wildcards.Item Char))
  | [] => some []
  | '\\' :: c :: cs => (likeItems cs).map (.char c :: ·)
  | ['\\'] => none
  | '%' :: cs => (likeItems cs).map (.many :: ·)
  | '_' :: cs => (likeItems cs).map (.one :: ·)
  | c :: cs => (likeItems cs).map (.char c :: ·)

/-- `text LIKE pattern ESCAPE '\'` -/
def like (pattern text : Text) : Bool :=
  match likeItems (upToNul pattern) with
  | some items => Wildcards.Matches sameLetter items (upToNul text)
  | none => false

/-- `LOWER`, which lowers the letters of ASCII. -/
def sqlLower (text : Text) : Text := text.map Char.toLower

/-- How many bytes a pattern may have in SQLite. -/
def maxPatternBytes : ℕ := 50000

/-- `str.replace` of a character -/
def replaceChar (c : Char) (new : Text) (text : Text) : Text :=
  text.flatMap fun d => if d = c then new else [d]

/-- SOURCE: events/store.py:298-300 -/
def escaped (needle : Text) : Text :=
  replaceChar '_' ['\\', '_'] (replaceChar '%' ['\\', '%'] (replaceChar '\\' ['\\', '\\'] needle))

/-- SOURCE: events/store.py:310 -/
def patternOf (needle : Text) : Text := '%' :: escaped needle ++ ['%']

def utf8Bytes (text : Text) : ℕ := (text.map Char.utf8Size).sum

/-! ## In SQLite -/

/-- The rows in the order of their insertion. -/
structure SqliteEventStore where
  rows : List EventRow := []

namespace SqliteEventStore

/-- SOURCE: events/store.py:201-223 -/
def append (event : Event) (st : SqliteEventStore) : Bool × SqliteEventStore :=
  if event.eventId ∈ st.rows.map EventOf.eventId then (false, st)
  else (true, ⟨st.rows ++ [event.created event.createdAt.isoformat]⟩)

/-- The columns that order the rows.
SOURCE: events/store.py:309 -/
def orderKey (r : EventRow) : List Char ×ₗ String ×ₗ ℤ :=
  toLex (r.createdAt, toLex (r.sessionId, r.seq))

/-- `LIMIT`, which does not limit when it is negative. -/
def limited (limit : ℤ) (rows : List EventRow) : List EventRow :=
  if 0 ≤ limit then rows.take limit.toNat else rows

/-- The rows of the query. The pattern is only looked at for a transcript, and not at all when no
row is asked for.
SOURCE: events/store.py:305-311 -/
def query (pattern : Text) (limit : ℤ) (st : SqliteEventStore) :
    Except SearchError (List EventRow) :=
  let transcripts := st.rows.filter fun r => r.kind = .transcript
  if limit ≠ 0 ∧ transcripts ≠ [] ∧ maxPatternBytes < utf8Bytes pattern then
    .error .patternTooLong
  else
    .ok (limited limit ((transcripts.filter fun r =>
      like pattern (sqlLower r.text.toList)).insertionSort fun a b => orderKey b ≤ orderKey a))

/-- SOURCE: events/store.py:90-103 -/
def toEvent (parse : List Char → Option Moment) (r : EventRow) : Option (EventOf Moment) :=
  (parse r.createdAt).map r.created

/-- SOURCE: events/store.py:291-312 -/
def search (py : LowerCase) (parse : List Char → Option Moment) (query : String) (limit : ℤ)
    (st : SqliteEventStore) : Except SearchError (List (EventOf Moment)) :=
  let needle := needleOf py query
  if needle = [] then .ok []
  else do
    let rows ← st.query (patternOf needle) limit
    match rows.mapM (toEvent parse) with
    | some events => return events
    | none => throw .badRow

end SqliteEventStore

end OpenRecall.Model.EventSearch
