import OpenRecall.Model.Command
import OpenRecall.Foundation.Base64
import OpenRecall.Foundation.IsoTime
import OpenRecall.Foundation.JsonText
import OpenRecall.Foundation.Keyset

/-!
# Cursors

The cursor of a paged list is the timestamp and the id of the last row of a page, as JSON in
base 64 without its padding. Timestamps are in UTC.
-/

set_option autoImplicit false

namespace OpenRecall.Model

open Foundation

/-- What a list raises: for a limit that is not positive, for a cursor that cannot be read, or for
a stored row that does not make an atom. -/
inductive ListError where
  | limit (message : String)
  | badCursor
  | badRow
  deriving DecidableEq

namespace Paging

/-! ## Timestamps -/

/-- The microseconds before 1970, since the beginning of year 1. -/
def epochUs : ℕ := 719162 * IsoTime.dayUs

/-- The instant of a timestamp. -/
def instant (s : IsoTime.Stamp) : Time := s.clock - s.offset - epochUs

/-- The timestamp of an instant, in UTC. -/
def utcStamp (t : Time) : IsoTime.Stamp := ⟨(t + epochUs).toNat, 0⟩

/-- The instants that a datetime can hold: years 1 to 9999. -/
def IsDatetime (t : Time) : Prop := 0 ≤ t + epochUs ∧ t + epochUs < 3652059 * IsoTime.dayUs

instance (t : Time) : Decidable (IsDatetime t) := inferInstanceAs (Decidable (_ ∧ _))

def isoformat (t : Time) : List Char := IsoTime.isoText (utcStamp t)

/-! ## The codec -/

/-- What the codec takes from the library beyond what it writes itself: the text of a value that is
not a string, and the other forms of timestamps that are read. -/
structure CursorReaders where
  str : JsonText.Json → String
  isoTime : List Char → Option Time

def utf8 (cs : List Char) : List UInt8 := cs.flatMap String.utf8EncodeChar

def readUtf8 (bytes : List UInt8) : Option (List Char) :=
  bytes.toByteArray.utf8Decode?.map Array.toList

def beforeKey : List Char := ['b', 'e', 'f', 'o', 'r', 'e']

def lastIdKey : List Char := ['l', 'a', 's', 't', '_', 'i', 'd']

/-- SOURCE: paging.py:25-28 -/
def encodeCursor (before : Time) (lastId : String) : String :=
  let payload := JsonText.objectText [(beforeKey, isoformat before), (lastIdKey, lastId.toList)]
  String.ofList (Base64.strip (Base64.encode (utf8 payload)))

/-- The JSON in a cursor, which is ASCII.
SOURCE: paging.py:39-43 -/
def payloadOf (cursor : String) : Option JsonText.Json :=
  if cursor.toList.all fun c => c.toNat < 128 then
    ((Base64.decode (Base64.fill cursor.toList)).bind readUtf8).bind JsonText.loads
  else none

namespace CursorReaders

variable (py : CursorReaders)

def fromIsoformat (cs : List Char) : Option Time :=
  match IsoTime.readIso cs with
  | some s => some (instant s)
  | none => py.isoTime cs

/-- The timestamp, when the value is a text. -/
def timeOf : JsonText.Json → Option Time
  | .string cs => py.fromIsoformat cs
  | _ => none

/-- The id; any value has a text. -/
def idOf : JsonText.Json → String
  | .string cs => String.ofList cs
  | value => py.str value

/-- The anchor in a payload.
SOURCE: paging.py:44-45 -/
def anchorOf (payload : JsonText.Json) : Option (Time × String) := do
  let before ← payload.get? beforeKey
  let at_ ← py.timeOf before
  let lastId ← payload.get? lastIdKey
  return (at_, py.idOf lastId)

/-- SOURCE: paging.py:31-48 -/
def decodeCursor (cursor : String) : Except ListError (Time × String) :=
  match (payloadOf cursor).bind py.anchorOf with
  | some anchor => .ok anchor
  | none => .error .badCursor

end CursorReaders

theorem readUtf8_utf8 (cs : List Char) : readUtf8 (utf8 cs) = some cs := by
  have hencode : (utf8 cs).toByteArray = cs.utf8Encode := rfl
  rw [readUtf8, hencode, List.utf8Decode?_utf8Encode]
  simp

/-- A text as a cursor. -/
def cursorOfText (payload : List Char) : String :=
  String.ofList (Base64.strip (Base64.encode (utf8 payload)))

/-- The text of a cursor is read back. -/
theorem read_cursorOfText (payload : List Char) :
    ((cursorOfText payload).toList.all fun c => c.toNat < 128) = true ∧
      (Base64.decode (Base64.fill (cursorOfText payload).toList)).bind readUtf8 =
        some payload := by
  rw [cursorOfText, String.toList_ofList]
  constructor
  · rw [List.all_eq_true]
    intro c hc
    exact decide_eq_true (Base64.toNat_lt_of_mem_encode ((List.rdropWhile_prefix _ _).subset hc))
  · rw [Base64.fill_strip_encode, Base64.decode_encode, Option.bind_some, readUtf8_utf8]

/-! ## A list -/

/-- SOURCE: sessions/segments.py:317-318, sessions/index.py:274-275, memory/store.py:278-279 -/
def checkLimit (limit : ℤ) : Except ListError Unit :=
  if limit ≤ 0 then .error (.limit s!"limit must be positive, got {limit}") else .ok ()

/-- The next cursor, when the rows go on after the page. -/
def nextOf {α χ : Type} (anchor : α → χ) (limit : ℕ) (rows : List α) : Option χ :=
  if limit < rows.length then (rows.take limit).getLast?.map anchor else none

end Paging

end OpenRecall.Model
