import OpenRecall.Foundation.IntText
import OpenRecall.Model.AudioPacket
import OpenRecall.Model.Segments

/-!
# Serving a range of an open recording

The audio of a segment that is still open is muxed when it is asked for. The route reads the
`Range` header itself: a header that begins with `bytes=` is answered with the bytes between two
positions or refused, and any other gets the whole body.
-/

set_option autoImplicit false

namespace OpenRecall.Model

open Foundation

/-- A response: its `Content-Type` where the route sets one, and its other headers. -/
structure RangeResponse where
  status : ℕ
  body : Bytes
  contentType : Option String
  headers : Dict String String

namespace RangeServing

/-- The most digits that the interpreter converts. -/
def maxStrDigits : ℕ := 4300

/-- `int` of a text; `other` is the value of the decimal digits that are not ASCII. -/
def int (other : Char → Option ℕ) (cs : List Char) : Option ℤ :=
  IntText.readInt other maxStrDigits (rstripList (cs.dropWhile isSpace))

/-- How the header of a byte range begins, in any case. -/
def unit : List Char := "bytes=".toList

/-- What follows the unit, if the header begins with it.
SOURCE: http/routes/segments.py:363-364 -/
def rangeSpec (header : String) : Option (List Char) :=
  let text := (strip header).toList
  if (text.take unit.length).map Char.toLower = unit then some (text.drop unit.length) else none

/-- The part before the first dash, and the part after it; without a dash the second is empty.
SOURCE: http/routes/segments.py:366 -/
def partition (spec : List Char) : List Char × List Char :=
  (spec.takeWhile (· ≠ '-'), (spec.dropWhile (· ≠ '-')).drop 1)

/-- The first and the last position that the range asks for, before they are checked.
SOURCE: http/routes/segments.py:367-374 -/
def askedBounds (other : Char → Option ℕ) (total : ℕ) (spec : List Char) : Option (ℤ × ℤ) :=
  let (startS, endS) := partition spec
  if startS = [] ∧ endS ≠ [] then
    (int other endS).map fun n => (max 0 (total - n), (total : ℤ) - 1)
  else if startS ≠ [] then do
    let start ← int other startS
    let last ← if endS ≠ [] then int other endS else some ((total : ℤ) - 1)
    some (start, last)
  else none

/-- The first and the last position that are served.
SOURCE: http/routes/segments.py:365-378 -/
def rangeBounds (other : Char → Option ℕ) (total : ℕ) (spec : List Char) : Option (ℕ × ℕ) :=
  (askedBounds other total spec).bind fun (start, last) =>
    let last := if (total : ℤ) ≤ last then (total : ℤ) - 1 else last
    if total = 0 ∨ start < 0 ∨ last < start ∨ (total : ℤ) ≤ start then none
    else some (start.toNat, last.toNat)

/-- SOURCE: http/routes/segments.py:343-388 -/
def serveOggRange (other : Char → Option ℕ) (header : Option String) (body : Bytes)
    (extraHeaders : List (String × String)) : RangeResponse :=
  let total := body.length
  let headers := extraHeaders.foldl (fun headers (name, value) => headers.set name value)
    (Dict.empty.set "Accept-Ranges" "bytes")
  match header.bind rangeSpec with
  | none => ⟨200, body, some "audio/ogg", headers⟩
  | some spec =>
    match rangeBounds other total spec with
    | none => ⟨416, [], none, headers.set "Content-Range" s!"bytes */{total}"⟩
    | some (start, last) =>
      ⟨206, (body.drop start).take (last + 1 - start), some "audio/ogg",
        headers.set "Content-Range" s!"bytes {start}-{last}/{total}"⟩

end RangeServing

end OpenRecall.Model
