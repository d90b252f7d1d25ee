import Mathlib

/-!
# Integers in texts

A plain numeral is a run of the digits 0 to 9. A reader of integers also takes a sign, single
underscores between the digits and the decimal digits of other scripts, and may refuse more
than so many digits. On plain numerals all such readers agree.
-/

set_option autoImplicit false

namespace Foundation.IntText

/-- A run of the digits 0 to 9. -/
def Numeral (cs : List Char) : Prop := cs ≠ [] ∧ ∀ c ∈ cs, c.isDigit = true

instance (cs : List Char) : Decidable (Numeral cs) := inferInstanceAs (Decidable (_ ∧ _))

/-- The number of a list of digits, the most significant of them first. -/
def value (ds : List ℕ) : ℕ := Nat.ofDigits 10 ds.reverse

def numeralValue (cs : List Char) : ℕ := value (cs.map fun c => c.toNat - 48)

/-- The value of a decimal digit; `other` tells those that are not ASCII. -/
def digit (other : Char → Option ℕ) (c : Char) : Option ℕ :=
  if c.isDigit then some (c.toNat - 48) else if c.toNat < 128 then none else other c

/-- The digits of a text in which single underscores may stand between digits. -/
def readDigits (other : Char → Option ℕ) : List Char → Option (List ℕ)
  | [] => none
  | [c] => (digit other c).map ([·])
  | c :: '_' :: rest => do
    let d ← digit other c
    let ds ← readDigits other rest
    some (d :: ds)
  | c :: rest => do
    let d ← digit other c
    let ds ← readDigits other rest
    some (d :: ds)

/-- The number of a text of at most so many digits. -/
def readNat (other : Char → Option ℕ) (maxDigits : ℕ) (cs : List Char) : Option ℕ := do
  let ds ← readDigits other cs
  if ds.length ≤ maxDigits then some (value ds) else none

/-- The integer of a text with an optional sign. -/
def readInt (other : Char → Option ℕ) (maxDigits : ℕ) : List Char → Option ℤ
  | '-' :: rest => (readNat other maxDigits rest).map fun n => -(n : ℤ)
  | '+' :: rest => (readNat other maxDigits rest).map fun n => (n : ℤ)
  | cs => (readNat other maxDigits cs).map fun n => (n : ℤ)

section

variable (other : Char → Option ℕ) {cs : List Char}

theorem Numeral.ne (h : Numeral cs) {c d : Char} (hc : c ∈ cs) (hd : d.isDigit = false) :
    c ≠ d := by
  rintro rfl
  rw [h.2 c hc] at hd
  cases hd

theorem digit_eq {c : Char} (h : c.isDigit = true) : digit other c = some (c.toNat - 48) :=
  if_pos h

/-- A plain numeral reads as its digits. -/
theorem readDigits_numeral (h : Numeral cs) :
    readDigits other cs = some (cs.map fun c => c.toNat - 48) := by
  induction cs with
  | nil => exact absurd rfl h.1
  | cons c rest ih =>
    have hc := digit_eq other (h.2 c List.mem_cons_self)
    cases rest with
    | nil => simp [readDigits, hc]
    | cons d rest =>
      have hrest : Numeral (d :: rest) :=
        ⟨List.cons_ne_nil d rest, fun e he => h.2 e (List.mem_cons_of_mem c he)⟩
      have hd : d ≠ '_' := hrest.ne List.mem_cons_self (by decide)
      rw [readDigits.eq_4 other c (d :: rest) (by simp) (by simpa using hd), hc, ih hrest]
      rfl

/-- **A plain numeral reads as its value**, if it does not have too many digits. -/
theorem readInt_numeral (maxDigits : ℕ) (h : Numeral cs) :
    readInt other maxDigits cs =
      if cs.length ≤ maxDigits then some (numeralValue cs : ℤ) else none := by
  have hnat : readNat other maxDigits cs =
      if cs.length ≤ maxDigits then some (numeralValue cs) else none := by
    rw [readNat, readDigits_numeral other h]
    simp [numeralValue]
  obtain ⟨c, rest, rfl⟩ := List.exists_cons_of_ne_nil h.1
  have hminus : c ≠ '-' := h.ne List.mem_cons_self (by decide)
  have hplus : c ≠ '+' := h.ne List.mem_cons_self (by decide)
  rw [readInt.eq_3 other maxDigits (c :: rest) (by simpa using hminus) (by simpa using hplus), hnat]
  split_ifs <;> rfl

end

end Foundation.IntText
