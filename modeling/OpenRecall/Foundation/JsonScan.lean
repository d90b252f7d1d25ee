import OpenRecall.Foundation.JsonText

/-!
# Reading JSON within limits

The reader of JSON texts as an interpreter has it: each array and each object takes a part of the
stack, of which there is so much; an integer has at most so many digits; and a string is a list of
code points, in which a half of a pair may stand alone. A text that is no JSON and one that nests
too deep are told apart.
-/

set_option autoImplicit false

namespace Foundation.JsonScan

open JsonText

inductive Value where
  | null
  | bool (b : Bool)
  | number (text : List Char)
  | string (text : List ℕ)
  | array (items : List Value)
  | object (members : List (List ℕ × Value))

inductive Failure where
  | malformed
  | tooDeep
  deriving DecidableEq

/-- How deep values may nest, and how many digits an integer may have. -/
structure Limits where
  depth : ℕ
  digits : ℕ

def orMalformed {α : Type} : Option α → Except Failure α
  | some a => .ok a
  | none => .error .malformed

/-! ## Strings -/

/-- The second half of a pair. -/
def readLow : List Char → Option (ℕ × List Char)
  | '\\' :: 'u' :: cs => (readHex4 cs).filter fun read => 0xDC00 ≤ read.1 ∧ read.1 ≤ 0xDFFF
  | _ => none

/-- A code point that stands as its number; two halves of a pair are one code point. -/
def readUnicode (cs : List Char) : Option (ℕ × List Char) := do
  let (n, cs) ← readHex4 cs
  if 0xD800 ≤ n ∧ n ≤ 0xDBFF then
    match readLow cs with
    | some (low, cs) => some (0x10000 + (n - 0xD800) * 1024 + (low - 0xDC00), cs)
    | none => some (n, cs)
  else some (n, cs)

def readCodePoint (c : Char) (cs : List Char) : Option (ℕ × List Char) :=
  if c = '\\' ∧ cs.head? = some 'u' then readUnicode cs.tail
  else (readChar c cs).map fun read => (read.1.toNat, read.2)

/-- The string after its opening quote. -/
def readString : ℕ → List Char → Option (List ℕ × List Char)
  | 0, _ => none
  | _ + 1, [] => none
  | fuel + 1, c :: cs =>
    if c = '"' then some ([], cs)
    else do
      let (n, cs) ← readCodePoint c cs
      let (text, cs) ← readString fuel cs
      some (n :: text, cs)

/-! ## Values -/

/-- An integer of too many digits is refused. -/
def ofScalar (limits : Limits) : Json → Option Value
  | .null => some .null
  | .bool b => some (.bool b)
  | .number text =>
    let digits := text.filter isDigit
    if text.all (fun c => isDigit c ∨ c = '-') ∧ limits.digits < digits.length then none
    else some (.number text)
  | _ => none

def scanScalar (limits : Limits) (cs : List Char) : Option (Value × List Char) := do
  let (scalar, cs) ← readScalar cs
  let value ← ofScalar limits scalar
  some (value, cs)

mutual

def scanValue (limits : Limits) : ℕ → ℕ → List Char → Except Failure (Value × List Char)
  | 0, _, _ => .error .malformed
  | fuel + 1, room, cs =>
    match cs with
    | '"' :: cs => do
      let (text, cs) ← orMalformed (readString (cs.length + 1) cs)
      .ok (.string text, cs)
    | '{' :: cs =>
      if room = 0 then .error .tooDeep
      else
        match skip cs with
        | '}' :: cs => .ok (.object [], cs)
        | cs => do
          let (members, cs) ← scanMembers limits fuel (room - 1) cs
          .ok (.object members, cs)
    | '[' :: cs =>
      if room = 0 then .error .tooDeep
      else
        match skip cs with
        | ']' :: cs => .ok (.array [], cs)
        | cs => do
          let (items, cs) ← scanItems limits fuel (room - 1) cs
          .ok (.array items, cs)
    | cs => orMalformed (scanScalar limits cs)

/-- The members of an object, from the first key on. -/
def scanMembers (limits : Limits) :
    ℕ → ℕ → List Char → Except Failure (List (List ℕ × Value) × List Char)
  | 0, _, _ => .error .malformed
  | fuel + 1, room, cs => do
    let cs ← orMalformed (expect '"' cs)
    let (key, cs) ← orMalformed (readString (cs.length + 1) cs)
    let cs ← orMalformed (expect ':' (skip cs))
    let (value, cs) ← scanValue limits fuel room (skip cs)
    match skip cs with
    | '}' :: cs => .ok ([(key, value)], cs)
    | ',' :: cs => do
      let (members, cs) ← scanMembers limits fuel room (skip cs)
      .ok ((key, value) :: members, cs)
    | _ => .error .malformed

/-- The items of an array, from the first one on. -/
def scanItems (limits : Limits) :
    ℕ → ℕ → List Char → Except Failure (List Value × List Char)
  | 0, _, _ => .error .malformed
  | fuel + 1, room, cs => do
    let (value, cs) ← scanValue limits fuel room cs
    match skip cs with
    | ']' :: cs => .ok ([value], cs)
    | ',' :: cs => do
      let (items, cs) ← scanItems limits fuel room (skip cs)
      .ok (value :: items, cs)
    | _ => .error .malformed

end

/-- The value that a text is, which has no byte order mark. -/
def loads (limits : Limits) (cs : List Char) : Except Failure Value :=
  if cs.head? = some (Char.ofNat 0xFEFF) then .error .malformed
  else do
    let (value, rest) ← scanValue limits (cs.length + 1) limits.depth (skip cs)
    if skip rest = [] then .ok value else .error .malformed

end Foundation.JsonScan
