import Mathlib

/-!
# JSON texts

Strings are written in ASCII: the quote, the backslash and the usual control characters have
escapes of two characters, and everything else outside of the printable ASCII is written as one or
two groups of four hexadecimal digits. The reader takes all of JSON, and the constants for the
floating-point values that JSON lacks; a number stays as it is written. An escape that no character
belongs to is refused.
-/

set_option autoImplicit false

namespace Foundation.JsonText

inductive Json where
  | null
  | bool (b : Bool)
  | number (text : List Char)
  | string (text : List Char)
  | array (items : List Json)
  | object (members : List (List Char × Json))

/-! ## Writing strings -/

def hexDigit (d : ℕ) : Char := if d < 10 then Char.ofNat (48 + d) else Char.ofNat (87 + d)

/-- Four hexadecimal digits. -/
def hex4 (n : ℕ) : List Char :=
  [hexDigit (n / 4096 % 16), hexDigit (n / 256 % 16), hexDigit (n / 16 % 16), hexDigit (n % 16)]

/-- An escape of a number of 16 bits. -/
def unicodeEscape (n : ℕ) : List Char := '\\' :: 'u' :: hex4 n

/-- A character outside of the printable ASCII; one that takes more than 16 bits is two halves. -/
def escapeLong (n : ℕ) : List Char :=
  if n < 0x10000 then unicodeEscape n
  else unicodeEscape (0xD800 + (n - 0x10000) / 1024) ++
    unicodeEscape (0xDC00 + (n - 0x10000) % 1024)

/-- How a character stands in a string. -/
def escape (c : Char) : List Char :=
  if c = '"' then ['\\', '"']
  else if c = '\\' then ['\\', '\\']
  else if c = '\n' then ['\\', 'n']
  else if c = '\r' then ['\\', 'r']
  else if c = '\t' then ['\\', 't']
  else if c.toNat = 0x0C then ['\\', 'f']
  else if c.toNat = 0x08 then ['\\', 'b']
  else if 0x20 ≤ c.toNat ∧ c.toNat ≤ 0x7E then [c]
  else escapeLong c.toNat

/-- A string with its quotes. -/
def quote (text : List Char) : List Char := '"' :: text.flatMap escape ++ ['"']

/-! ## Reading strings -/

def hexValue (c : Char) : Option ℕ :=
  if 48 ≤ c.toNat ∧ c.toNat ≤ 57 then some (c.toNat - 48)
  else if 97 ≤ c.toNat ∧ c.toNat ≤ 102 then some (c.toNat - 87)
  else if 65 ≤ c.toNat ∧ c.toNat ≤ 70 then some (c.toNat - 55)
  else none

def readHex4 : List Char → Option (ℕ × List Char)
  | a :: b :: c :: d :: cs => do
    let a ← hexValue a
    let b ← hexValue b
    let c ← hexValue c
    let d ← hexValue d
    some (a * 4096 + b * 256 + c * 16 + d, cs)
  | _ => none

/-- The character of a number; a half of a pair has none. -/
def charOf (n : ℕ) : Option Char := if n.isValidChar then some (Char.ofNat n) else none

/-- What follows the first half of a pair. -/
def readLow (high : ℕ) : List Char → Option (Char × List Char)
  | '\\' :: 'u' :: cs => do
    let (low, cs) ← readHex4 cs
    if 0xDC00 ≤ low ∧ low ≤ 0xDFFF then
      let c ← charOf (0x10000 + (high - 0xD800) * 1024 + (low - 0xDC00))
      some (c, cs)
    else none
  | _ => none

/-- A character that stands as its number. -/
def readUnicode (cs : List Char) : Option (Char × List Char) := do
  let (n, cs) ← readHex4 cs
  if 0xD800 ≤ n ∧ n ≤ 0xDBFF then readLow n cs
  else
    let c ← charOf n
    some (c, cs)

/-- A character after a backslash. -/
def readEscape : List Char → Option (Char × List Char)
  | 'u' :: cs => readUnicode cs
  | '"' :: cs => some ('"', cs)
  | '\\' :: cs => some ('\\', cs)
  | '/' :: cs => some ('/', cs)
  | 'b' :: cs => some (Char.ofNat 0x08, cs)
  | 'f' :: cs => some (Char.ofNat 0x0C, cs)
  | 'n' :: cs => some ('\n', cs)
  | 'r' :: cs => some ('\r', cs)
  | 't' :: cs => some ('\t', cs)
  | _ => none

/-- A character of a string, which is not its closing quote. -/
def readChar (c : Char) (cs : List Char) : Option (Char × List Char) :=
  if c = '\\' then readEscape cs
  else if c.toNat < 0x20 then none
  else some (c, cs)

/-- The string after its opening quote. -/
def readString : ℕ → List Char → Option (List Char × List Char)
  | 0, _ => none
  | _ + 1, [] => none
  | fuel + 1, c :: cs =>
    if c = '"' then some ([], cs)
    else do
      let (c, cs) ← readChar c cs
      let (text, cs) ← readString fuel cs
      some (c :: text, cs)

/-! ## Objects of strings, and reading all of JSON -/

/-- The members of an object whose values are strings, and its closing brace. -/
def membersText : List (List Char × List Char) → List Char
  | [] => ['}']
  | [m] => quote m.1 ++ ':' :: ' ' :: quote m.2 ++ ['}']
  | m :: ms => quote m.1 ++ ':' :: ' ' :: quote m.2 ++ ',' :: ' ' :: membersText ms

/-- An object whose values are strings. -/
def objectText (members : List (List Char × List Char)) : List Char := '{' :: membersText members

def isBlank (c : Char) : Bool := c = ' ' ∨ c = '\t' ∨ c = '\n' ∨ c = '\r'

def skip (cs : List Char) : List Char := cs.dropWhile isBlank

def expect (c : Char) : List Char → Option (List Char)
  | [] => none
  | d :: ds => if d = c then some ds else none

/-- A word that has to come next. -/
def expectWord (word cs : List Char) : Option (List Char) :=
  if word.isPrefixOf cs then some (cs.drop word.length) else none

def isDigit (c : Char) : Bool := 48 ≤ c.toNat ∧ c.toNat ≤ 57

/-- The integer of a number, without its sign. -/
def readInteger (cs : List Char) : Option (List Char × List Char) :=
  match cs with
  | '0' :: cs => some (['0'], cs)
  | cs => if cs.takeWhile isDigit = [] then none
    else some (cs.takeWhile isDigit, cs.dropWhile isDigit)

/-- Digits after a given beginning, or nothing at all. -/
def readDigitsAfter (front cs : List Char) (whole : List Char) : List Char × List Char :=
  if cs.takeWhile isDigit = [] then ([], whole)
  else (front ++ cs.takeWhile isDigit, cs.dropWhile isDigit)

def readFraction : List Char → List Char × List Char
  | '.' :: cs => readDigitsAfter ['.'] cs ('.' :: cs)
  | cs => ([], cs)

def readExponent : List Char → List Char × List Char
  | e :: s :: cs =>
    if e = 'e' ∨ e = 'E' then
      if s = '+' ∨ s = '-' then readDigitsAfter [e, s] cs (e :: s :: cs)
      else readDigitsAfter [e] (s :: cs) (e :: s :: cs)
    else ([], e :: s :: cs)
  | cs => ([], cs)

/-- A number, as it is written. -/
def readNumber (cs : List Char) : Option (Json × List Char) := do
  let sign := if cs.head? = some '-' then ['-'] else []
  let (integer, cs) ← readInteger (cs.drop sign.length)
  let (fraction, cs) := readFraction cs
  let (exponent, cs) := readExponent cs
  some (.number (sign ++ integer ++ fraction ++ exponent), cs)

/-- The values that are written as words. -/
def words : List (List Char × Json) :=
  [(['n', 'u', 'l', 'l'], .null), (['t', 'r', 'u', 'e'], .bool true),
    (['f', 'a', 'l', 's', 'e'], .bool false), (['N', 'a', 'N'], .number ['N', 'a', 'N']),
    (['I', 'n', 'f', 'i', 'n', 'i', 't', 'y'], .number ['I', 'n', 'f', 'i', 'n', 'i', 't', 'y']),
    (['-', 'I', 'n', 'f', 'i', 'n', 'i', 't', 'y'],
      .number ['-', 'I', 'n', 'f', 'i', 'n', 'i', 't', 'y'])]

/-- A value that is neither a string nor made of others. -/
def readScalar (cs : List Char) : Option (Json × List Char) :=
  match words.findSome? fun w => (expectWord w.1 cs).map fun cs => (w.2, cs) with
  | some read => some read
  | none => readNumber cs

mutual

def readValue : ℕ → List Char → Option (Json × List Char)
  | 0, _ => none
  | fuel + 1, cs =>
    match cs with
    | '"' :: cs => (readString (cs.length + 1) cs).map fun read => (.string read.1, read.2)
    | '{' :: cs =>
      match skip cs with
      | '}' :: cs => some (.object [], cs)
      | cs => (readMembers fuel cs).map fun read => (.object read.1, read.2)
    | '[' :: cs =>
      match skip cs with
      | ']' :: cs => some (.array [], cs)
      | cs => (readItems fuel cs).map fun read => (.array read.1, read.2)
    | cs => readScalar cs

/-- The members of an object, from the first key on. -/
def readMembers : ℕ → List Char → Option (List (List Char × Json) × List Char)
  | 0, _ => none
  | fuel + 1, cs => do
    let cs ← expect '"' cs
    let (key, cs) ← readString (cs.length + 1) cs
    let cs ← expect ':' (skip cs)
    let (value, cs) ← readValue fuel (skip cs)
    match skip cs with
    | '}' :: cs => some ([(key, value)], cs)
    | ',' :: cs => (readMembers fuel (skip cs)).map fun read => ((key, value) :: read.1, read.2)
    | _ => none

/-- The items of an array, from the first one on. -/
def readItems : ℕ → List Char → Option (List Json × List Char)
  | 0, _ => none
  | fuel + 1, cs => do
    let (value, cs) ← readValue fuel cs
    match skip cs with
    | ']' :: cs => some ([value], cs)
    | ',' :: cs => (readItems fuel (skip cs)).map fun read => (value :: read.1, read.2)
    | _ => none

end

/-- The value that a text is, which has no byte order mark. -/
def loads (cs : List Char) : Option Json :=
  if cs.head? = some (Char.ofNat 0xFEFF) then none
  else
    match readValue (cs.length + 1) (skip cs) with
    | some (value, rest) => if skip rest = [] then some value else none
    | none => none

/-- The member of an object with a key; the last one counts. -/
def Json.get? (key : List Char) : Json → Option Json
  | .object members => members.reverse.lookup key
  | _ => none

/-! ## Reading strings that were written -/

theorem hexValue_hexDigit {d : ℕ} (h : d < 16) : hexValue (hexDigit d) = some d := by
  have hall : ∀ d : Fin 16, hexValue (hexDigit d) = some d.val := by decide +kernel
  exact hall ⟨d, h⟩

theorem readHex4_hex4 {n : ℕ} (h : n < 0x10000) (cs : List Char) :
    readHex4 (hex4 n ++ cs) = some (n, cs) := by
  have hvalue : n / 4096 % 16 * 4096 + n / 256 % 16 * 256 + n / 16 % 16 * 16 + n % 16 = n := by
    omega
  simp only [hex4, List.cons_append, List.nil_append, readHex4, Option.bind_eq_bind,
    hexValue_hexDigit (Nat.mod_lt _ (show 0 < 16 by norm_num)), Option.bind_some, hvalue]

theorem charOf_toNat (c : Char) : charOf c.toNat = some c := by
  have hvalid : c.toNat.isValidChar := c.valid
  rw [charOf, if_pos hvalid, Char.ofNat_toNat]

/-- The numbers of characters leave the halves of pairs out. -/
theorem not_half (c : Char) : c.toNat < 0xD800 ∨ 0xDFFF < c.toNat ∧ c.toNat < 0x110000 := by
  have hvalid := c.valid
  simp only [UInt32.isValidChar, Nat.isValidChar] at hvalid
  simp only [Char.toNat]
  omega

theorem readUnicode_short {c : Char} (h : c.toNat < 0x10000) (cs : List Char) :
    readUnicode (hex4 c.toNat ++ cs) = some (c, cs) := by
  have hhalf := not_half c
  rw [readUnicode, readHex4_hex4 h]
  simp only [Option.bind_eq_bind, Option.bind_some, charOf_toNat]
  rw [if_neg (by omega)]

theorem readUnicode_high {high : ℕ} (h : 0xD800 ≤ high ∧ high ≤ 0xDBFF) (cs : List Char) :
    readUnicode (hex4 high ++ cs) = readLow high cs := by
  rw [readUnicode, readHex4_hex4 (by omega)]
  simp only [Option.bind_eq_bind, Option.bind_some]
  rw [if_pos h]

theorem readLow_unicodeEscape {low : ℕ} (h : 0xDC00 ≤ low ∧ low ≤ 0xDFFF) (high : ℕ)
    (cs : List Char) :
    readLow high (unicodeEscape low ++ cs) =
      (charOf (0x10000 + (high - 0xD800) * 1024 + (low - 0xDC00))).map (·, cs) := by
  rw [unicodeEscape, List.cons_append, List.cons_append, readLow, readHex4_hex4 (by omega)]
  simp only [Option.bind_eq_bind, Option.bind_some]
  rw [if_pos h]
  cases charOf (0x10000 + (high - 0xD800) * 1024 + (low - 0xDC00)) <;> rfl

/-- Two halves make up the number. -/
theorem halves {n : ℕ} (h : 0x10000 ≤ n) :
    0x10000 + (0xD800 + (n - 0x10000) / 1024 - 0xD800) * 1024 +
      (0xDC00 + (n - 0x10000) % 1024 - 0xDC00) = n := by
  omega

/-- A character that stands as its number is read back. -/
theorem readEscape_escapeLong (c : Char) (cs : List Char) :
    ∃ tail, escapeLong c.toNat ++ cs = '\\' :: tail ∧ readEscape tail = some (c, cs) := by
  have hhalf := not_half c
  unfold escapeLong
  split_ifs with hshort
  · exact ⟨'u' :: (hex4 c.toNat ++ cs), rfl, readUnicode_short hshort cs⟩
  · refine ⟨'u' :: (hex4 (0xD800 + (c.toNat - 0x10000) / 1024) ++
      (unicodeEscape (0xDC00 + (c.toNat - 0x10000) % 1024) ++ cs)), by simp [unicodeEscape], ?_⟩
    rw [readEscape, readUnicode_high (by omega), readLow_unicodeEscape (by omega),
      halves (not_lt.mp hshort), charOf_toNat]
    rfl

/-- How a character stands in a string begins with something other than the closing quote, and
it is read back from there. -/
theorem readChar_escape (c : Char) (cs : List Char) :
    ∃ head tail, escape c ++ cs = head :: tail ∧ head ≠ '"' ∧
      readChar head tail = some (c, cs) := by
  have hback : ∀ tail, readEscape tail = some (c, cs) → readChar '\\' tail = some (c, cs) := by
    intro tail htail
    rw [readChar, if_pos rfl, htail]
  unfold escape
  split_ifs with hquote hslash hnewline hreturn htab hfeed hbell hprint
  · exact ⟨'\\', '"' :: cs, rfl, by simp, hback _ (by rw [hquote, readEscape])⟩
  · exact ⟨'\\', '\\' :: cs, rfl, by simp, hback _ (by rw [hslash, readEscape])⟩
  · exact ⟨'\\', 'n' :: cs, rfl, by simp, hback _ (by rw [hnewline, readEscape])⟩
  · exact ⟨'\\', 'r' :: cs, rfl, by simp, hback _ (by rw [hreturn, readEscape])⟩
  · exact ⟨'\\', 't' :: cs, rfl, by simp, hback _ (by rw [htab, readEscape])⟩
  · refine ⟨'\\', 'f' :: cs, rfl, by simp, hback _ ?_⟩
    rw [readEscape, ← hfeed, Char.ofNat_toNat]
  · refine ⟨'\\', 'b' :: cs, rfl, by simp, hback _ ?_⟩
    rw [readEscape, ← hbell, Char.ofNat_toNat]
  · refine ⟨c, cs, rfl, hquote, ?_⟩
    rw [readChar, if_neg hslash, if_neg (by omega)]
  · obtain ⟨tail, htail, hread⟩ := readEscape_escapeLong c cs
    exact ⟨'\\', tail, htail, by simp, hback tail hread⟩

/-- **A string that was written is read back**, when the fuel is enough for its characters. -/
theorem readString_quote {fuel : ℕ} {text : List Char} (h : text.length < fuel)
    (rest : List Char) :
    readString fuel (text.flatMap escape ++ '"' :: rest) = some (text, rest) := by
  induction text generalizing fuel with
  | nil =>
    obtain ⟨fuel, rfl⟩ := Nat.exists_eq_add_of_le' (Nat.one_le_of_lt h)
    simp [readString]
  | cons c text ih =>
    obtain ⟨fuel, rfl⟩ := Nat.exists_eq_add_of_le' (Nat.one_le_of_lt h)
    obtain ⟨head, tail, htail, hne, hread⟩ :=
      readChar_escape c (text.flatMap escape ++ '"' :: rest)
    have hmore := ih (Nat.lt_of_succ_lt_succ h)
    rw [List.flatMap_cons, List.append_assoc, htail, readString, if_neg hne]
    simp [hread, hmore]

/-! ## Reading objects that were written -/

theorem skip_of_not_blank {c : Char} (h : isBlank c = false) (cs : List Char) :
    skip (c :: cs) = c :: cs :=
  List.dropWhile_cons_of_neg (by simp [h])

theorem skip_space (cs : List Char) : skip (' ' :: cs) = skip cs :=
  List.dropWhile_cons_of_pos (by simp [isBlank])

/-- A text that begins with a quote. -/
theorem skip_quote (text rest : List Char) : skip (quote text ++ rest) = quote text ++ rest :=
  skip_of_not_blank (by simp [isBlank]) _

theorem length_escape_pos (c : Char) : 1 ≤ (escape c).length := by
  obtain ⟨head, tail, htail, -, -⟩ := readChar_escape c []
  rw [List.append_nil] at htail
  simp [htail]

theorem length_le_flatMap_escape (text : List Char) :
    text.length ≤ (text.flatMap escape).length := by
  induction text with
  | nil => simp
  | cons c text ih =>
    have hpos := length_escape_pos c
    rw [List.flatMap_cons, List.length_append, List.length_cons]
    omega

/-- A string is read back with as much fuel as there is text. -/
theorem readString_all (text rest : List Char) :
    readString ((text.flatMap escape ++ '"' :: rest).length + 1)
      (text.flatMap escape ++ '"' :: rest) = some (text, rest) := by
  have hlength := length_le_flatMap_escape text
  apply readString_quote
  rw [List.length_append]
  omega

theorem readValue_quote (fuel : ℕ) (text rest : List Char) :
    readValue (fuel + 1) (quote text ++ rest) = some (.string text, rest) := by
  have hread := readString_all text rest
  simp only [quote, List.cons_append, List.append_assoc, List.nil_append, readValue]
  rw [hread]
  rfl

theorem expect_quote (text rest : List Char) :
    expect '"' (quote text ++ rest) = some (text.flatMap escape ++ '"' :: rest) := by
  simp [expect, quote]

/-- The last member. -/
theorem readMembers_last (fuel : ℕ) (key text : List Char) :
    readMembers (fuel + 2) (quote key ++ ':' :: ' ' :: quote text ++ ['}']) =
      some ([(key, .string text)], []) := by
  have hcolon := skip_of_not_blank (c := ':') (by simp [isBlank]) (' ' :: (quote text ++ ['}']))
  have hbrace := skip_of_not_blank (c := '}') (by simp [isBlank]) []
  rw [readMembers, List.append_assoc, expect_quote]
  simp only [Option.bind_eq_bind, Option.bind_some, List.cons_append, readString_all, hcolon,
    expect, if_true, skip_space, skip_quote, readValue_quote, hbrace]

/-- A member that others follow. -/
theorem readMembers_more (fuel : ℕ) (key text : List Char) {more : List Char}
    (hmore : skip more = more) :
    readMembers (fuel + 2) (quote key ++ ':' :: ' ' :: quote text ++ ',' :: ' ' :: more) =
      (readMembers (fuel + 1) more).map fun read => ((key, .string text) :: read.1, read.2) := by
  have hcolon := skip_of_not_blank (c := ':') (by simp [isBlank])
    (' ' :: (quote text ++ ',' :: ' ' :: more))
  have hcomma := skip_of_not_blank (c := ',') (by simp [isBlank]) (' ' :: more)
  rw [readMembers, List.append_assoc, expect_quote]
  simp only [Option.bind_eq_bind, Option.bind_some, List.cons_append, readString_all, hcolon,
    expect, if_true, skip_space, skip_quote, readValue_quote, hcomma, hmore]

theorem skip_membersText (m : List Char × List Char) (ms : List (List Char × List Char)) :
    skip (membersText (m :: ms)) = membersText (m :: ms) := by
  cases ms with
  | nil => rw [membersText, List.append_assoc, skip_quote]
  | cons m' ms =>
    rw [membersText, List.append_assoc, skip_quote]
    simp

/-- The members are read back, when the fuel is enough for them. -/
theorem readMembers_membersText {fuel : ℕ} (m : List Char × List Char)
    (ms : List (List Char × List Char)) (h : ms.length + 1 < fuel) :
    readMembers fuel (membersText (m :: ms)) =
      some ((m :: ms).map fun m => (m.1, .string m.2), []) := by
  induction ms generalizing fuel m with
  | nil =>
    obtain ⟨fuel, rfl⟩ := Nat.exists_eq_add_of_le' (show 2 ≤ fuel from h)
    exact readMembers_last fuel m.1 m.2
  | cons m' ms ih =>
    rw [List.length_cons] at h
    obtain ⟨fuel, rfl⟩ := Nat.exists_eq_add_of_le' (show 2 ≤ fuel by omega)
    rw [membersText, readMembers_more fuel m.1 m.2 (skip_membersText m' ms), ih m' (by omega)]
    · rfl
    · simp

theorem length_le_membersText (ms : List (List Char × List Char)) :
    ms.length ≤ (membersText ms).length := by
  induction ms with
  | nil => simp
  | cons m ms ih =>
    cases ms with
    | nil =>
      simp only [membersText, List.length_append, List.length_cons]
      omega
    | cons m' ms =>
      rw [membersText, List.length_append, List.length_cons]
      · simp only [List.length_append, List.length_cons] at ih ⊢
        omega
      · simp

/-- The members begin with the quote of a key. -/
theorem membersText_eq_cons (m : List Char × List Char) (ms : List (List Char × List Char)) :
    ∃ tail, membersText (m :: ms) = '"' :: tail := by
  cases ms with
  | nil => exact ⟨_, rfl⟩
  | cons m' ms => exact ⟨_, rfl⟩

theorem readValue_objectText (m : List Char × List Char) (ms : List (List Char × List Char)) :
    readValue ((objectText (m :: ms)).length + 1) (objectText (m :: ms)) =
      some (.object ((m :: ms).map fun m => (m.1, .string m.2)), []) := by
  have hlength := length_le_membersText (m :: ms)
  have hskip := skip_membersText m ms
  have hread : readMembers (objectText (m :: ms)).length (membersText (m :: ms)) =
      some ((m :: ms).map fun m => (m.1, .string m.2), []) := by
    apply readMembers_membersText
    rw [objectText, List.length_cons]
    exact Nat.lt_succ_of_le hlength
  obtain ⟨tail, htail⟩ := membersText_eq_cons m ms
  rw [htail] at hskip
  simp only [objectText, htail] at hread ⊢
  simp only [readValue, hskip]
  split
  · simp_all
  · rw [hread, Option.map_some]

/-- **An object of strings that was written is read back.** -/
theorem loads_objectText (m : List Char × List Char) (ms : List (List Char × List Char)) :
    loads (objectText (m :: ms)) =
      some (.object ((m :: ms).map fun m => (m.1, .string m.2))) := by
  have hskip : skip (objectText (m :: ms)) = objectText (m :: ms) :=
    skip_of_not_blank (by simp [isBlank]) _
  have hmark : (objectText (m :: ms)).head? ≠ some (Char.ofNat 0xFEFF) := by
    simp [objectText]
  rw [loads, if_neg hmark, hskip, readValue_objectText]
  simp [skip]

end Foundation.JsonText
