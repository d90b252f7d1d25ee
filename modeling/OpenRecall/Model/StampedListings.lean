import OpenRecall.Foundation.JsonScan
import OpenRecall.Model.Paging

/-!
# The paged lists over any timestamps

A datetime may be naive: a clock without an offset from UTC. It cannot be ordered against one
that has an offset, and the comparison raises. Here the lists of sessions and of segments are
taken with all that their code may raise, over rows and cursors whose datetimes are of both
kinds.
-/

set_option autoImplicit false

namespace OpenRecall.Model

open Foundation Paging

/-- What the code of a list raises. -/
inductive Raised where
  | valueError
  | keyError
  | typeError
  | recursionError
  deriving DecidableEq

/-- A text as its code points, among which there may be halves of pairs. -/
abbrev CodePoints := List ℕ

/-- A datetime: its local clock, in microseconds since the beginning of year 1, and how far that
clock is ahead of UTC, which a naive datetime does not say. -/
structure PyStamp where
  clock : ℕ
  offset : Option ℤ
  deriving DecidableEq

namespace PyStamp

def Aware (s : PyStamp) : Prop := s.offset.isSome

instance (s : PyStamp) : Decidable s.Aware := inferInstanceAs (Decidable (_ = true))

/-- The clock in UTC; that of a naive datetime as it is. -/
def utc (s : PyStamp) : ℤ := s.clock - s.offset.getD 0

/-- `<` -/
def lt (a b : PyStamp) : Except Raised Bool :=
  if a.Aware ↔ b.Aware then .ok (a.utc < b.utc) else .error .typeError

/-- `==`, under which a naive datetime is never an aware one. -/
def eq (a b : PyStamp) : Bool := (a.Aware ↔ b.Aware) ∧ a.utc = b.utc

/-- SOURCE: sessions/segments.py:51-53 -/
def asAware (s : PyStamp) : PyStamp := { s with offset := some (s.offset.getD 0) }

end PyStamp

/-- A datetime and an id. -/
abbrev StampKey := PyStamp × CodePoints

/-- `<` of two pairs: the first parts that are not equal decide. -/
def StampKey.lt (a b : StampKey) : Except Raised Bool :=
  if PyStamp.eq a.1 b.1 then .ok (decide (a.2 < b.2)) else PyStamp.lt a.1 b.1

/-! ## Cursors -/

/-- What the codec takes from the library: the limits of the interpreter, the text of a value that
is no string, unless it nests too deep, and the forms of timestamps other than the full one. -/
structure StampReaders where
  limits : JsonScan.Limits
  str : JsonScan.Value → Option CodePoints
  isoTime : CodePoints → Option PyStamp

namespace StampReaders

variable (py : StampReaders)

/-- A full timestamp with its offset, or without it, which makes it naive. -/
def readFull (cs : List Char) : Option PyStamp :=
  match IsoTime.readIso cs with
  | some s => some ⟨s.clock, some s.offset⟩
  | none => (IsoTime.readIso (cs ++ "+00:00".toList)).map fun s => ⟨s.clock, none⟩

def fromIsoformat (text : CodePoints) : Option PyStamp :=
  match (text.mapM JsonText.charOf).bind readFull with
  | some s => some s
  | none => py.isoTime text

/-- SOURCE: paging.py:39-43 -/
def payloadOf (cursor : String) : Except Raised JsonScan.Value :=
  if cursor.toList.all fun c => c.toNat < 128 then
    match (Base64.decode (Base64.fill cursor.toList)).bind readUtf8 with
    | none => .error .valueError
    | some text =>
      match JsonScan.loads py.limits text with
      | .ok payload => .ok payload
      | .error .malformed => .error .valueError
      | .error .tooDeep => .error .recursionError
  else .error .valueError

/-- `payload[key]`; a value that is no object takes no such key. -/
def item (key : List Char) : JsonScan.Value → Except Raised JsonScan.Value
  | .object members =>
    match members.reverse.lookup (key.map Char.toNat) with
    | some value => .ok value
    | none => .error .keyError
  | _ => .error .typeError

def timeOf : JsonScan.Value → Except Raised PyStamp
  | .string text =>
    match py.fromIsoformat text with
    | some s => .ok s
    | none => .error .valueError
  | _ => .error .typeError

def textOf : JsonScan.Value → Except Raised CodePoints
  | .string text => .ok text
  | value =>
    match py.str value with
    | some text => .ok text
    | none => .error .recursionError

/-- What the `try` of the codec does.
SOURCE: paging.py:38-45 -/
def anchorOf (cursor : String) : Except Raised StampKey := do
  let payload ← py.payloadOf cursor
  let before ← item beforeKey payload
  let at_ ← py.timeOf before
  let lastId ← item lastIdKey payload
  let id ← py.textOf lastId
  return (at_, id)

/-- SOURCE: paging.py:31-48 -/
def decodeCursor (cursor : String) : Except Raised StampKey :=
  match py.anchorOf cursor with
  | .error .keyError | .error .typeError => .error .valueError
  | anchor => anchor

end StampReaders

/-! ## Lists -/

/-- A row into rows from the newest to the oldest. -/
def insertRow {α : Type} (key : α → StampKey) (row : α) : List α → Except Raised (List α)
  | [] => .ok [row]
  | r :: rows => do
    let later ← (key row).lt (key r)
    if later then
      let rows ← insertRow key row rows
      return r :: rows
    else return row :: r :: rows

/-- `sorted` by the key, the newest first. Whatever its order of comparisons, a sort compares
a naive and an aware key if there are both.
SOURCE: sessions/index.py:277-281, sessions/segments.py:323-325 -/
def sortedRows {α : Type} (key : α → StampKey) : List α → Except Raised (List α)
  | [] => .ok []
  | row :: rows => do
    let rows ← sortedRows key rows
    insertRow key row rows

/-- The rows of a page, and the last of them if there are more, which the next cursor is made of.
SOURCE: sessions/index.py:298-305, sessions/segments.py:331-335 -/
def pageOf {α : Type} (limit : ℤ) (rows : List α) : List α × Option α :=
  (rows.take limit.toNat, nextOf id limit.toNat rows)

structure SessionRow where
  startedAt : PyStamp
  id : CodePoints

def SessionRow.key (s : SessionRow) : StampKey := (s.startedAt, s.id)

/-- The rows from the first one after the anchor on.
SOURCE: sessions/index.py:284-296 -/
def resumeSessions (anchor : StampKey) : List SessionRow → Except Raised (List SessionRow)
  | [] => .ok []
  | s :: rows => do
    let earlier ← s.startedAt.lt anchor.1
    if earlier ∨ s.startedAt.eq anchor.1 ∧ s.id < anchor.2 then return s :: rows
    else resumeSessions anchor rows

/-- SOURCE: sessions/index.py:265-305 -/
def listSessions (py : StampReaders) (limit : ℤ) (before : Option String)
    (summaries : List SessionRow) : Except Raised (List SessionRow × Option SessionRow) := do
  if limit ≤ 0 then throw .valueError
  let ordered ← sortedRows SessionRow.key summaries
  match before with
  | none => return pageOf limit ordered
  | some cursor =>
    let anchor ← py.decodeCursor cursor
    let ordered ← resumeSessions anchor ordered
    return pageOf limit ordered

structure SegmentRow where
  startedAt : PyStamp
  id : CodePoints
  sessionId : String

def SegmentRow.key (s : SegmentRow) : StampKey := (s.startedAt, s.id)

/-- The rows after the anchor; all datetimes are compared as aware ones.
SOURCE: sessions/segments.py:327-330 -/
def resumeSegments (anchor : StampKey) : List SegmentRow → Except Raised (List SegmentRow)
  | [] => .ok []
  | s :: rows => do
    let after ← StampKey.lt (s.startedAt.asAware, s.id) (anchor.1.asAware, anchor.2)
    let rows ← resumeSegments anchor rows
    return if after then s :: rows else rows

/-- SOURCE: sessions/segments.py:319-322 -/
def segmentCandidates (sessionId : Option String) (segments : List SegmentRow) :
    List SegmentRow :=
  match sessionId with
  | none => segments
  | some sessionId => segments.filter (·.sessionId = sessionId)

/-- SOURCE: sessions/segments.py:302-335 -/
def listSegments (py : StampReaders) (limit : ℤ) (before sessionId : Option String)
    (segments : List SegmentRow) : Except Raised (List SegmentRow × Option SegmentRow) := do
  if limit ≤ 0 then throw .valueError
  let ordered ← sortedRows SegmentRow.key (segmentCandidates sessionId segments)
  match before with
  | none => return pageOf limit ordered
  | some cursor =>
    let anchor ← py.decodeCursor cursor
    let ordered ← resumeSegments anchor ordered
    return pageOf limit ordered

end OpenRecall.Model
