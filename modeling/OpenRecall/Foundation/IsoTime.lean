import OpenRecall.Foundation.Calendar

/-!
# Timestamps as text

A timestamp is a local clock, in microseconds since the beginning of year 1, and how far this
clock is ahead of UTC. `isoText` writes it as ISO 8601 does, with the fraction of a second and the
finer parts of the offset only when they are not zero, and `readIso` reads that back.
-/

set_option autoImplicit false

namespace Foundation.IsoTime

open Calendar

/-- The microseconds of a day. -/
def dayUs : ℕ := 86400000000

structure Stamp where
  clock : ℕ
  offset : ℤ
  deriving DecidableEq

/-- The years have four digits, and the offset is less than a day. -/
structure Stamp.Valid (s : Stamp) : Prop where
  clock : s.clock < 3652059 * dayUs
  offset : s.offset.natAbs < dayUs

/-! ## Digits -/

def digit (d : ℕ) : Char := Char.ofNat (48 + d)

def digitValue (c : Char) : Option ℕ :=
  if 48 ≤ c.toNat ∧ c.toNat ≤ 57 then some (c.toNat - 48) else none

/-- The last `k` digits of a number. -/
def digits : ℕ → ℕ → List Char
  | 0, _ => []
  | k + 1, n => digit (n / 10 ^ k % 10) :: digits k n

/-- Read `k` digits more of a number. -/
def readDigits : ℕ → ℕ → List Char → Option (ℕ × List Char)
  | 0, acc, cs => some (acc, cs)
  | _ + 1, _, [] => none
  | k + 1, acc, c :: cs => do
    let d ← digitValue c
    readDigits k (10 * acc + d) cs

/-- The text after a character that has to come first. -/
def expect (c : Char) : List Char → Option (List Char)
  | [] => none
  | d :: ds => if d = c then some ds else none

theorem digitValue_digit {d : ℕ} (h : d < 10) : digitValue (digit d) = some d := by
  have hall : ∀ d : Fin 10, digitValue (digit d) = some d.val := by decide
  exact hall ⟨d, h⟩

theorem readDigits_digits (k acc n : ℕ) (rest : List Char) :
    readDigits k acc (digits k n ++ rest) = some (acc * 10 ^ k + n % 10 ^ k, rest) := by
  induction k generalizing acc with
  | zero => simp [readDigits, digits, Nat.mod_one]
  | succ k ih =>
    have hvalue : (10 * acc + n / 10 ^ k % 10) * 10 ^ k + n % 10 ^ k =
        acc * 10 ^ (k + 1) + n % 10 ^ (k + 1) := by
      rw [Nat.mod_pow_succ]
      ring
    rw [digits, List.cons_append, readDigits, digitValue_digit (Nat.mod_lt _ (by norm_num))]
    simp [ih, hvalue]

/-- A number that has so many digits is read back. -/
theorem readDigits_of_lt {k n : ℕ} (h : n < 10 ^ k) (rest : List Char) :
    readDigits k 0 (digits k n ++ rest) = some (n, rest) := by
  rw [readDigits_digits, Nat.mod_eq_of_lt h, Nat.zero_mul, Nat.zero_add]

@[simp] theorem expect_cons (c : Char) (rest : List Char) : expect c (c :: rest) = some rest := by
  simp [expect]

/-! ## Writing -/

/-- A fraction of a second. -/
def fraction (us : ℕ) : List Char := if us = 0 then [] else '.' :: digits 6 us

/-- Hours and minutes, with a colon. -/
def hourMinute (us : ℕ) : List Char :=
  digits 2 (us / 3600000000) ++ ':' :: digits 2 (us / 60000000 % 60)

/-- Seconds and their fraction. -/
def seconds (us : ℕ) : List Char := digits 2 (us / 1000000 % 60) ++ fraction (us % 1000000)

def offsetText (offset : ℤ) : List Char :=
  (if offset < 0 then '-' else '+') :: hourMinute offset.natAbs ++
    if offset.natAbs % 60000000 = 0 then [] else ':' :: seconds offset.natAbs

def dateText (d : Date) : List Char :=
  digits 4 d.year ++ '-' :: digits 2 d.month ++ '-' :: digits 2 d.day

def isoText (s : Stamp) : List Char :=
  dateText (dateOf (s.clock / dayUs)) ++ 'T' :: hourMinute (s.clock % dayUs) ++
    ':' :: seconds (s.clock % dayUs) ++ offsetText s.offset

/-! ## Reading -/

def readFraction : List Char → Option (ℕ × List Char)
  | '.' :: cs => readDigits 6 0 cs
  | cs => some (0, cs)

/-- Hours and minutes, in microseconds. -/
def readHourMinute (cs : List Char) : Option (ℕ × List Char) := do
  let (hour, cs) ← readDigits 2 0 cs
  let cs ← expect ':' cs
  let (minute, cs) ← readDigits 2 0 cs
  if hour < 24 ∧ minute < 60 then some (hour * 3600000000 + minute * 60000000, cs) else none

/-- Seconds and their fraction, in microseconds. -/
def readSeconds (cs : List Char) : Option (ℕ × List Char) := do
  let (second, cs) ← readDigits 2 0 cs
  let (us, cs) ← readFraction cs
  if second < 60 then some (second * 1000000 + us, cs) else none

/-- The seconds of an offset, which may be left out. -/
def readMore : List Char → Option (ℕ × List Char)
  | ':' :: cs => readSeconds cs
  | cs => some (0, cs)

def readSign : List Char → Option (Bool × List Char)
  | '+' :: cs => some (false, cs)
  | '-' :: cs => some (true, cs)
  | _ => none

def readOffset (cs : List Char) : Option (ℤ × List Char) := do
  let (negative, cs) ← readSign cs
  let (coarse, cs) ← readHourMinute cs
  let (fine, cs) ← readMore cs
  let size : ℕ := coarse + fine
  some (if negative then -(size : ℤ) else size, cs)

def readDate (cs : List Char) : Option (Date × List Char) := do
  let (year, cs) ← readDigits 4 0 cs
  let cs ← expect '-' cs
  let (month, cs) ← readDigits 2 0 cs
  let cs ← expect '-' cs
  let (day, cs) ← readDigits 2 0 cs
  let date : Date := ⟨year, month, day⟩
  if date.Valid then some (date, cs) else none

/-- The timestamp that a text is, to its end. -/
def readIso (cs : List Char) : Option Stamp := do
  let (date, cs) ← readDate cs
  let cs ← expect 'T' cs
  let (coarse, cs) ← readHourMinute cs
  let cs ← expect ':' cs
  let (fine, cs) ← readSeconds cs
  let (offset, cs) ← readOffset cs
  if cs = [] then some ⟨daysBefore date * dayUs + (coarse + fine), offset⟩ else none

/-! ## Reading what was written -/

theorem readDate_dateText {d : Date} (h : d.Valid) (hyear : d.year < 10000) (rest : List Char) :
    readDate (dateText d ++ rest) = some (d, rest) := by
  have hmonth := h.month.2
  have hday := h.day.2.trans (daysInMonth_le _ _)
  simp only [readDate, dateText, List.append_assoc, List.cons_append, Option.bind_eq_bind,
    readDigits_of_lt (show d.year < 10 ^ 4 from hyear), Option.bind_some, expect_cons,
    readDigits_of_lt (show d.month < 10 ^ 2 by omega),
    readDigits_of_lt (show d.day < 10 ^ 2 by omega)]
  exact if_pos h

theorem readHourMinute_hourMinute {us : ℕ} (h : us < dayUs) (rest : List Char) :
    readHourMinute (hourMinute us ++ rest) = some (us - us % 60000000, rest) := by
  rw [dayUs] at h
  have hhour : us / 3600000000 < 24 := by omega
  have hminute : us / 60000000 % 60 < 60 := by omega
  have hvalue : us / 3600000000 * 3600000000 + us / 60000000 % 60 * 60000000 =
      us - us % 60000000 := by omega
  simp only [readHourMinute, hourMinute, List.append_assoc, List.cons_append,
    Option.bind_eq_bind, Option.bind_some, expect_cons,
    readDigits_of_lt (show us / 3600000000 < 10 ^ 2 by omega),
    readDigits_of_lt (show us / 60000000 % 60 < 10 ^ 2 by omega)]
  rw [if_pos ⟨hhour, hminute⟩, hvalue]

theorem readFraction_fraction {us : ℕ} (h : us < 1000000) {rest : List Char}
    (hrest : rest.head? ≠ some '.') : readFraction (fraction us ++ rest) = some (us, rest) := by
  unfold fraction
  split_ifs with hzero
  · subst hzero
    rw [List.nil_append]
    unfold readFraction
    split
    · simp at hrest
    · rfl
  · rw [List.cons_append]
    exact readDigits_of_lt h rest

theorem readSeconds_seconds (us : ℕ) {rest : List Char} (hrest : rest.head? ≠ some '.') :
    readSeconds (seconds us ++ rest) = some (us % 60000000, rest) := by
  have hsecond : us / 1000000 % 60 < 60 := Nat.mod_lt _ (by norm_num)
  have hvalue : us / 1000000 % 60 * 1000000 + us % 1000000 = us % 60000000 := by omega
  simp only [readSeconds, seconds, List.append_assoc, Option.bind_eq_bind, Option.bind_some,
    readDigits_of_lt (show us / 1000000 % 60 < 10 ^ 2 by omega),
    readFraction_fraction (Nat.mod_lt us (show 0 < 1000000 by norm_num)) hrest]
  rw [if_pos hsecond, hvalue]

theorem readSign_sign (offset : ℤ) (rest : List Char) :
    readSign ((if offset < 0 then '-' else '+') :: rest) = some (decide (offset < 0), rest) := by
  by_cases h : offset < 0
  · simp [readSign, h]
  · simp [readSign, h]

theorem readOffset_offsetText {offset : ℤ} (h : offset.natAbs < dayUs) :
    readOffset (offsetText offset) = some (offset, []) := by
  have hmore : readMore (if offset.natAbs % 60000000 = 0 then [] else ':' :: seconds offset.natAbs)
      = some (offset.natAbs % 60000000, []) := by
    split_ifs with hzero
    · rw [hzero]
      rfl
    · have hread := readSeconds_seconds offset.natAbs (show ([] : List Char).head? ≠ some '.' by simp)
      rw [List.append_nil] at hread
      exact hread
  have hsize : offset.natAbs - offset.natAbs % 60000000 + offset.natAbs % 60000000 =
      offset.natAbs := Nat.sub_add_cancel (Nat.mod_le _ _)
  rw [readOffset, offsetText, List.cons_append, readSign_sign]
  simp only [Option.bind_eq_bind, Option.bind_some, readHourMinute_hourMinute h, hmore, hsize,
    decide_eq_true_eq]
  congr 2
  split_ifs <;> omega

theorem head_offsetText (offset : ℤ) : (offsetText offset).head? ≠ some '.' := by
  simp only [offsetText, List.cons_append, List.head?_cons]
  split_ifs <;> simp

/-- **What was written is read back.** -/
theorem readIso_isoText {s : Stamp} (h : s.Valid) : readIso (isoText s) = some s := by
  have hdate : (dateOf (s.clock / dayUs)).year < 10000 := by
    apply year_lt
    rw [Nat.div_lt_iff_lt_mul (by norm_num [dayUs])]
    exact h.clock
  have htime : s.clock % dayUs < dayUs := Nat.mod_lt _ (by norm_num [dayUs])
  have hparts : s.clock % dayUs - s.clock % dayUs % 60000000 + s.clock % dayUs % 60000000 =
      s.clock % dayUs := Nat.sub_add_cancel (Nat.mod_le _ _)
  simp only [readIso, isoText, List.append_assoc, List.cons_append, Option.bind_eq_bind,
    Option.bind_some, readDate_dateText (valid_dateOf _) hdate, expect_cons,
    readHourMinute_hourMinute htime, readSeconds_seconds _ (head_offsetText s.offset),
    readOffset_offsetText h.offset]
  rw [if_pos trivial, daysBefore_dateOf, hparts, Nat.div_add_mod']

end Foundation.IsoTime
