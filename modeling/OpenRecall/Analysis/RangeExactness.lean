import OpenRecall.Model.RangeServing

/-!
# Which range requests are answered as documented

A single byte range that can be satisfied is to get exactly its bytes, one that cannot is to be
refused, and a header that asks for no single byte range is to get the whole body. The route
answers every header that begins with `bytes=` with a part or a refusal, and it converts numbers
as the language does. `exact_iff` says exactly which headers are answered as documented.
-/

set_option autoImplicit false

namespace OpenRecall.Analysis.RangeExactness

open Foundation OpenRecall.Model OpenRecall.Model.RangeServing

/-! ## Byte ranges -/

/-- A single byte range. -/
inductive ByteRange where
  | firstLast (first last : ℕ)
  | openEnded (first : ℕ)
  | suffix (length : ℕ)

/-- How a single byte range is written. -/
inductive Writes : List Char → ByteRange → Prop
  | firstLast {a b : List Char} (ha : IntText.Numeral a) (hb : IntText.Numeral b) :
      Writes (a ++ '-' :: b) (.firstLast (IntText.numeralValue a) (IntText.numeralValue b))
  | openEnded {a : List Char} (ha : IntText.Numeral a) :
      Writes (a ++ ['-']) (.openEnded (IntText.numeralValue a))
  | suffix {b : List Char} (hb : IntText.Numeral b) :
      Writes ('-' :: b) (.suffix (IntText.numeralValue b))

/-- The header asks for the range. -/
def Requests (header : Option String) (range : ByteRange) : Prop :=
  ∃ text ∈ header, ∃ spec ∈ rangeSpec text, Writes spec range

/-- The first and the last of the bytes that a range selects from a body, if there are any. -/
def selected (total : ℕ) : ByteRange → Option (ℕ × ℕ)
  | .firstLast first last =>
    if first ≤ last ∧ first < total then some (first, min last (total - 1)) else none
  | .openEnded first => if first < total then some (first, total - 1) else none
  | .suffix length =>
    if 0 < length ∧ 0 < total then some (total - length, total - 1) else none

/-- **The documented answer.** A range that selects bytes is answered with 206, these bytes and
their positions; a range that selects none with 416; and a header that asks for no single range
with 200 and the whole body. -/
structure Exact (header : Option String) (body : Bytes) (response : RangeResponse) : Prop where
  partially : ∀ range first last, Requests header range →
    selected body.length range = some (first, last) → response.status = 206 ∧
      response.body = (body.drop first).take (last + 1 - first) ∧
      response.headers.get? "Content-Range" = some s!"bytes {first}-{last}/{body.length}"
  unsatisfiable : ∀ range, Requests header range → selected body.length range = none →
    response.status = 416 ∧
      response.headers.get? "Content-Range" = some s!"bytes */{body.length}"
  otherwise : (¬ ∃ range, Requests header range) → response.status = 200 ∧ response.body = body

/-- The numbers on the two sides of the dash have no more digits than are converted. -/
def Convertible (spec : List Char) : Prop :=
  (partition spec).1.length ≤ maxStrDigits ∧ (partition spec).2.length ≤ maxStrDigits

instance (spec : List Char) : Decidable (Convertible spec) := inferInstanceAs (Decidable (_ ∧ _))

/-- The condition on the header and the length of the body. -/
def Understood (header : Option String) (total : ℕ) : Prop :=
  ∀ text ∈ header, ∀ spec ∈ rangeSpec text, (∃ range, Writes spec range) ∧
    ∀ range, Writes spec range → selected total range = none ∨ Convertible spec

/-! ## What the route makes of a range -/

section

variable (other : Char → Option ℕ) {a b : List Char}

/-- Digits are no spaces. -/
theorem isSpace_eq_false_of_isDigit {c : Char} (h : c.isDigit = true) : isSpace c = false := by
  have hrange : 48 ≤ c.toNat ∧ c.toNat ≤ 57 := by
    simpa [Char.isDigit, UInt32.le_iff_toNat_le] using h
  simp only [isSpace, List.mem_cons, List.not_mem_nil, or_false, decide_eq_false_iff_not]
  omega

/-- A numeral has no space around it. -/
theorem strip_numeral (h : IntText.Numeral a) : rstripList (a.dropWhile isSpace) = a := by
  have hspace := fun c hc => isSpace_eq_false_of_isDigit (h.2 c hc)
  rw [List.dropWhile_eq_self_iff.mpr fun hpos => by simp [hspace _ (List.getElem_mem hpos)],
    rstripList, List.dropWhile_eq_self_iff.mpr, List.reverse_reverse]
  intro hpos
  rw [hspace _ (List.mem_reverse.mp (List.getElem_mem hpos))]
  exact Bool.false_ne_true

theorem int_numeral (h : IntText.Numeral a) :
    int other a =
      if a.length ≤ maxStrDigits then some (IntText.numeralValue a : ℤ) else none := by
  rw [int, strip_numeral h, IntText.readInt_numeral other maxStrDigits h]

theorem partition_append (ha : ∀ c ∈ a, c.isDigit = true) :
    partition (a ++ '-' :: b) = (a, b) := by
  have hdash : ∀ c ∈ a, decide (c ≠ '-') = true := by
    intro c hc
    apply decide_eq_true
    rintro rfl
    exact absurd (ha _ hc) (by decide)
  rw [partition, List.takeWhile_append_of_pos hdash, List.dropWhile_append_of_pos hdash]
  simp

/-- After the dash of a single range there are digits only. -/
theorem Writes.isDigit_of_mem {spec : List Char} {range : ByteRange} (h : Writes spec range)
    (c : Char) (hc : c ∈ (partition spec).2) : c.isDigit = true := by
  cases h with
  | firstLast ha hb =>
    rw [partition_append ha.2] at hc
    exact hb.2 c hc
  | openEnded ha =>
    rw [partition_append ha.2] at hc
    cases hc
  | suffix hb =>
    rw [show '-' :: _ = [] ++ '-' :: _ from rfl, partition_append (by simp)] at hc
    exact hb.2 c hc

/-- What a range asks for, before it is checked. -/
def asked (total : ℕ) : ByteRange → ℤ × ℤ
  | .firstLast first last => (first, last)
  | .openEnded first => (first, (total : ℤ) - 1)
  | .suffix length => (max 0 ((total : ℤ) - length), (total : ℤ) - 1)

/-- SOURCE: http/routes/segments.py:366-375 -/
theorem askedBounds_eq {spec : List Char} {range : ByteRange} (h : Writes spec range)
    (total : ℕ) :
    askedBounds other total spec = if Convertible spec then some (asked total range) else none := by
  cases h with
  | @firstLast a b ha hb =>
    have hpart : partition (a ++ '-' :: b) = (a, b) := partition_append ha.2
    have hconvertible : Convertible (a ++ '-' :: b) ↔
      a.length ≤ maxStrDigits ∧ b.length ≤ maxStrDigits := by rw [Convertible, hpart]
    rw [askedBounds, hpart]
    simp only [hconvertible, int_numeral other ha, int_numeral other hb]
    by_cases hlong : a.length ≤ maxStrDigits <;> by_cases hlong' : b.length ≤ maxStrDigits <;>
      simp [hlong, hlong', ha.1, hb.1, asked]
  | @openEnded a ha =>
    have hpart : partition (a ++ ['-']) = (a, []) := partition_append ha.2
    have hconvertible : Convertible (a ++ ['-']) ↔ a.length ≤ maxStrDigits := by
      rw [Convertible, hpart]
      simp
    rw [askedBounds, hpart]
    simp only [hconvertible, int_numeral other ha]
    by_cases hlong : a.length ≤ maxStrDigits <;> simp [hlong, ha.1, asked]
  | @suffix b hb =>
    have hpart : partition ('-' :: b) = ([], b) := partition_append (a := []) (by simp)
    have hconvertible : Convertible ('-' :: b) ↔ b.length ≤ maxStrDigits := by
      rw [Convertible, hpart]
      simp
    rw [askedBounds, hpart]
    simp only [hconvertible, int_numeral other hb]
    by_cases hlong : b.length ≤ maxStrDigits <;> simp [hlong, hb.1, asked]

/-- The positions a range asks for, checked and cut to the body, are those it selects.
SOURCE: http/routes/segments.py:376-379 -/
theorem checked_asked (total : ℕ) (range : ByteRange) :
    (let (start, last) := asked total range
      let last := if (total : ℤ) ≤ last then (total : ℤ) - 1 else last
      if total = 0 ∨ start < 0 ∨ last < start ∨ (total : ℤ) ≤ start then none
      else some (start.toNat, last.toNat)) = selected total range := by
  cases range with
  | firstLast first last =>
    dsimp only [asked, selected]
    by_cases hsome : first ≤ last ∧ first < total
    · rw [if_pos hsome, if_neg (by split_ifs <;> omega), Option.some.injEq, Prod.mk.injEq]
      exact ⟨by omega, by split_ifs <;> omega⟩
    · rw [if_neg hsome, if_pos (by split_ifs <;> omega)]
  | openEnded first =>
    dsimp only [asked, selected]
    rw [if_neg (by omega : ¬ (total : ℤ) ≤ total - 1)]
    by_cases hsome : first < total
    · rw [if_pos hsome, if_neg (by omega), Option.some.injEq, Prod.mk.injEq]
      omega
    · rw [if_neg hsome, if_pos (by omega)]
  | suffix length =>
    dsimp only [asked, selected]
    rw [if_neg (by omega : ¬ (total : ℤ) ≤ total - 1)]
    by_cases hsome : 0 < length ∧ 0 < total
    · rw [if_pos hsome, if_neg (by omega), Option.some.injEq, Prod.mk.injEq]
      omega
    · rw [if_neg hsome, if_pos (by omega)]

/-- **The bounds of a single range are those of the bytes it selects**, if its numbers are
converted.
SOURCE: http/routes/segments.py:365-378 -/
theorem rangeBounds_eq {spec : List Char} {range : ByteRange} (h : Writes spec range)
    (total : ℕ) :
    rangeBounds other total spec =
      if Convertible spec then selected total range else none := by
  rw [rangeBounds, askedBounds_eq other h]
  split_ifs
  · exact checked_asked total range
  · rfl

/-! ## The answers -/

variable {text : String} {spec : List Char} {range : ByteRange} {body : Bytes}
  {extraHeaders : List (String × String)}

theorem refused (hspec : rangeSpec text = some spec)
    (hbounds : rangeBounds other body.length spec = none) :
    (serveOggRange other (some text) body extraHeaders).status = 416 ∧
      (serveOggRange other (some text) body extraHeaders).headers.get? "Content-Range" =
        some s!"bytes */{body.length}" := by
  simp [serveOggRange, hspec, hbounds]

theorem served (hspec : rangeSpec text = some spec) {first last : ℕ}
    (hbounds : rangeBounds other body.length spec = some (first, last)) :
    (serveOggRange other (some text) body extraHeaders).status = 206 ∧
      (serveOggRange other (some text) body extraHeaders).body =
        (body.drop first).take (last + 1 - first) ∧
      (serveOggRange other (some text) body extraHeaders).headers.get? "Content-Range" =
        some s!"bytes {first}-{last}/{body.length}" := by
  simp [serveOggRange, hspec, hbounds]

/-- A header that begins with the unit never gets the whole body as such. -/
theorem status_ne (hspec : rangeSpec text = some spec) :
    (serveOggRange other (some text) body extraHeaders).status ≠ 200 := by
  cases hbounds : rangeBounds other body.length spec with
  | none =>
    rw [(refused other hspec hbounds).1]
    omega
  | some bounds =>
    rw [(served other hspec hbounds).1]
    omega

/-- The range is the one that the header asks for. -/
theorem requests_iff (hspec : rangeSpec text = some spec) :
    Requests (some text) range ↔ Writes spec range := by
  simp [Requests, hspec]

theorem understood_iff (hspec : rangeSpec text = some spec) (total : ℕ) :
    Understood (some text) total ↔ (∃ range, Writes spec range) ∧
      ∀ range, Writes spec range → selected total range = none ∨ Convertible spec := by
  simp [Understood, hspec]

end

/-- **A header is answered as documented if and only if it does not begin with `bytes=`, or asks
for a single range whose numbers have at most 4300 digits or which selects no byte.**
SOURCE: http/routes/segments.py:343-388 -/
theorem exact_iff (other : Char → Option ℕ) (header : Option String) (body : Bytes)
    (extraHeaders : List (String × String)) :
    Exact header body (serveOggRange other header body extraHeaders) ↔
      Understood header body.length := by
  have hwhole (hspec : header.bind rangeSpec = none) :
      ¬ (∃ range, Requests header range) ∧ Understood header body.length := by
    rw [Option.bind_eq_none_iff] at hspec
    constructor
    · rintro ⟨range, text, htext, spec, hmem, -⟩
      rw [hspec text htext] at hmem
      cases hmem
    · intro text htext spec hmem
      rw [hspec text htext] at hmem
      cases hmem
  cases hbind : header.bind rangeSpec with
  | none =>
    obtain ⟨hnone, hunderstood⟩ := hwhole hbind
    refine iff_of_true ⟨fun range _ _ h => ?_, fun range h => ?_, fun _ => ?_⟩ hunderstood
    · exact absurd ⟨range, h⟩ hnone
    · exact absurd ⟨range, h⟩ hnone
    · simp [serveOggRange, hbind]
  | some spec =>
    obtain ⟨text, rfl, hspec⟩ := Option.bind_eq_some_iff.mp hbind
    rw [understood_iff hspec]
    constructor
    · intro h
      refine ⟨?_, fun range hwrites => ?_⟩
      · by_contra hnone
        simp only [← requests_iff hspec] at hnone
        exact status_ne other hspec (h.otherwise hnone).1
      · by_contra hlong
        push Not at hlong
        obtain ⟨⟨first, last⟩, hselected⟩ := Option.ne_none_iff_exists'.mp hlong.1
        have hbounds : rangeBounds other body.length spec = none := by
          rw [rangeBounds_eq other hwrites, if_neg hlong.2]
        have hpartial := h.partially range first last ((requests_iff hspec).mpr hwrites) hselected
        rw [(refused other hspec hbounds).1] at hpartial
        omega
    · rintro ⟨⟨asked, hasked⟩, h⟩
      refine ⟨fun range first last hrequests hselected => ?_, fun range hrequests hselected => ?_,
        fun hnone => absurd ⟨asked, (requests_iff hspec).mpr hasked⟩ hnone⟩
      · have hwrites := (requests_iff hspec).mp hrequests
        have hconvertible : Convertible spec := by
          rcases h range hwrites with hnone | hconvertible
          · rw [hselected] at hnone
            cases hnone
          · exact hconvertible
        apply served other hspec
        rw [rangeBounds_eq other hwrites, if_pos hconvertible, hselected]
      · have hwrites := (requests_iff hspec).mp hrequests
        apply refused other hspec
        rw [rangeBounds_eq other hwrites, hselected, ite_self]

/-- Two ranges in one header: the whole body is documented, and the request is refused. -/
theorem not_always_exact :
    ¬ ∀ (other : Char → Option ℕ) (header : Option String) (body : Bytes)
      (extraHeaders : List (String × String)),
      Exact header body (serveOggRange other header body extraHeaders) := by
  intro h
  have hspec : rangeSpec "bytes=0-0,1-1" = some "0-0,1-1".toList := by decide
  have hexact := h (fun _ => none) (some "bytes=0-0,1-1") [1, 2] []
  refine status_ne (fun _ => none) hspec (hexact.otherwise ?_).1
  rintro ⟨range, hrequests⟩
  have hdigit := ((requests_iff hspec).mp hrequests).isDigit_of_mem ',' (by decide)
  exact absurd hdigit (by decide)

end OpenRecall.Analysis.RangeExactness
