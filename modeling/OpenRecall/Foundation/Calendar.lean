import Mathlib

/-!
# The calendar

Days of the proleptic Gregorian calendar, counted from 1 January of year 1, and their dates. A
year's number comes out of whole spans of 400, 100 and 4 years and single years, with at most
three of the shorter ones left over (`yearOf`).
-/

set_option autoImplicit false

namespace Foundation.Calendar

def isLeap (year : ℕ) : Bool := year % 4 = 0 ∧ (year % 100 ≠ 0 ∨ year % 400 = 0)

def daysInMonth (leap : Bool) : ℕ → ℕ
  | 2 => if leap then 29 else 28
  | 4 | 6 | 9 | 11 => 30
  | _ => 31

/-- The days of a year before a month. -/
def daysBeforeMonth (leap : Bool) (month : ℕ) : ℕ :=
  ((List.range (month - 1)).map fun i => daysInMonth leap (i + 1)).sum

/-- The days before a year. -/
def daysBeforeYear (year : ℕ) : ℕ :=
  (year - 1) * 365 + (year - 1) / 4 - (year - 1) / 100 + (year - 1) / 400

structure Date where
  year : ℕ
  month : ℕ
  day : ℕ
  deriving DecidableEq

/-- A date that there is. -/
structure Date.Valid (d : Date) : Prop where
  year : 1 ≤ d.year
  month : 1 ≤ d.month ∧ d.month ≤ 12
  day : 1 ≤ d.day ∧ d.day ≤ daysInMonth (isLeap d.year) d.month

instance (d : Date) : Decidable d.Valid :=
  decidable_of_iff (1 ≤ d.year ∧ (1 ≤ d.month ∧ d.month ≤ 12) ∧
      (1 ≤ d.day ∧ d.day ≤ daysInMonth (isLeap d.year) d.month))
    ⟨fun h => ⟨h.1, h.2.1, h.2.2⟩, fun h => ⟨h.year, h.month, h.day⟩⟩

/-- The days before a date. -/
def daysBefore (d : Date) : ℕ :=
  daysBeforeYear d.year + daysBeforeMonth (isLeap d.year) d.month + (d.day - 1)

/-- The spans in a number of days: of 400, 100 and 4 years and of single years, and what is left. -/
structure Spans where
  n400 : ℕ
  n100 : ℕ
  n4 : ℕ
  n1 : ℕ
  left : ℕ

def spans (days : ℕ) : Spans :=
  let r := days % 146097
  let n100 := min 3 (r / 36524)
  let r := r - n100 * 36524
  let n4 := r / 1461
  let r := r % 1461
  let n1 := min 3 (r / 365)
  { n400 := days / 146097, n100 := n100, n4 := n4, n1 := n1, left := r - n1 * 365 }

/-- The year after the spans. -/
def Spans.year (s : Spans) : ℕ := 400 * s.n400 + 100 * s.n100 + 4 * s.n4 + s.n1 + 1

/-- The month that a day of a year is in. -/
def monthOf (leap : Bool) (day : ℕ) : ℕ :=
  (List.range 12).countP fun i => daysBeforeMonth leap (i + 1) ≤ day

/-- The date with so many days before it. -/
def dateOf (days : ℕ) : Date :=
  let s := spans days
  let leap := isLeap s.year
  let month := monthOf leap s.left
  { year := s.year, month := month, day := s.left - daysBeforeMonth leap month + 1 }

/-! ## Years -/

/-- What the spans of a number of days are. -/
structure IsSpans (days : ℕ) (s : Spans) : Prop where
  sum : 146097 * s.n400 + 36524 * s.n100 + 1461 * s.n4 + 365 * s.n1 + s.left = days
  n100 : s.n100 ≤ 3
  n4 : s.n4 ≤ 24
  n1 : s.n1 ≤ 3
  left : s.left < 365 ∨ s.left = 365 ∧ s.n1 = 3 ∧ (s.n4 < 24 ∨ s.n100 = 3)

theorem isSpans (days : ℕ) : IsSpans days (spans days) := by
  obtain ⟨r, hr⟩ : ∃ r, r = days % 146097 := ⟨_, rfl⟩
  obtain ⟨b, hb⟩ : ∃ b, b = min 3 (r / 36524) := ⟨_, rfl⟩
  have hdays : 146097 * (days / 146097) + r = days := by omega
  have hrest : 36524 * b ≤ r ∧ r - b * 36524 ≤ 36524 ∧ (b < 3 → r - b * 36524 < 36524) := by omega
  constructor
  · simp only [spans, ← hr, ← hb]
    omega
  · simp only [spans]
    omega
  · simp only [spans, ← hr, ← hb]
    omega
  · simp only [spans]
    omega
  · simp only [spans, ← hr, ← hb]
    omega

section

variable {days : ℕ} {s : Spans}

/-- The spans make up the days. -/
theorem IsSpans.daysBeforeYear_year (h : IsSpans days s) :
    daysBeforeYear s.year + s.left = days := by
  obtain ⟨hsum, h100, h4, h1, -⟩ := h
  have hyear : s.year - 1 = 400 * s.n400 + 100 * s.n100 + 4 * s.n4 + s.n1 := rfl
  have hfours : (s.year - 1) / 4 = 100 * s.n400 + 25 * s.n100 + s.n4 := by omega
  have hcenturies : (s.year - 1) / 100 = 4 * s.n400 + s.n100 := by omega
  have hcycles : (s.year - 1) / 400 = s.n400 := by omega
  rw [daysBeforeYear, hfours, hcenturies, hcycles, hyear]
  omega

/-- A day is left over in a leap year only. -/
theorem IsSpans.left_lt (h : IsSpans days s) :
    s.left < 365 + if isLeap s.year then 1 else 0 := by
  obtain ⟨-, h100, h4, h1, hleft⟩ := h
  rcases hleft with hleft | ⟨hleft, hlast, hfull⟩
  · exact hleft.trans_le (Nat.le_add_right _ _)
  · have hyear : s.year = 400 * s.n400 + 100 * s.n100 + 4 * s.n4 + 4 := by
      rw [Spans.year, hlast]
    have hleap : isLeap s.year = true := by
      rw [isLeap, decide_eq_true_eq, hyear]
      omega
    rw [hleft, if_pos hleap]
    omega

end

theorem daysBeforeYear_year (days : ℕ) :
    daysBeforeYear (spans days).year + (spans days).left = days :=
  (isSpans days).daysBeforeYear_year

theorem left_lt (days : ℕ) :
    (spans days).left < 365 + if isLeap (spans days).year then 1 else 0 :=
  (isSpans days).left_lt

/-- No year below 10000 begins later than this. -/
theorem year_lt {days : ℕ} (h : days < 3652059) : (spans days).year < 10000 := by
  simp only [Spans.year, spans]
  omega

/-! ## Months -/

/-- What a month of a day is. -/
structure IsMonthOf (leap : Bool) (day month : ℕ) : Prop where
  pos : 1 ≤ month
  le : month ≤ 12
  begun : daysBeforeMonth leap month ≤ day
  within : day < daysBeforeMonth leap month + daysInMonth leap month

/-- Where the numbers below a bound that are counted come first, they are those below their count. -/
theorem iff_lt_countP_range {p : ℕ → Bool} (h : ∀ i, p (i + 1) → p i) (n : ℕ) :
    ∀ i < n, p i ↔ i < (List.range n).countP p := by
  have hbelow {i j : ℕ} (hij : i ≤ j) (hj : p j) : p i := by
    induction j, hij using Nat.le_induction with
    | base => exact hj
    | succ j _ ih => exact ih (h j hj)
  induction n with
  | zero => simp
  | succ n ih =>
    intro i hi
    rw [List.range_succ, List.countP_append]
    by_cases hn : p n
    · have hall : (List.range n).countP p = n := by
        rw [List.countP_eq_length.mpr fun j hj => hbelow (List.mem_range.mp hj).le hn,
          List.length_range]
      simp [hall, hn, hbelow (Nat.lt_succ_iff.mp hi) hn, hi]
    · rcases (Nat.lt_succ_iff.mp hi).lt_or_eq with hlt | rfl
      · simpa [hn] using ih i hlt
      · have hle : (List.range i).countP p ≤ i := List.countP_le_length.trans_eq List.length_range
        simpa [hn] using hle

theorem daysBeforeMonth_succ (leap : Bool) {month : ℕ} (h : 1 ≤ month) :
    daysBeforeMonth leap (month + 1) = daysBeforeMonth leap month + daysInMonth leap month := by
  obtain ⟨month, rfl⟩ := Nat.exists_eq_add_of_le' h
  simp [daysBeforeMonth, List.range_succ]

/-- After twelve months the year is over. -/
theorem daysBeforeMonth_year (leap : Bool) :
    daysBeforeMonth leap 13 = 365 + if leap then 1 else 0 := by
  cases leap <;> rfl

theorem isMonthOf {leap : Bool} {day : ℕ} (h : day < 365 + if leap then 1 else 0) :
    IsMonthOf leap day (monthOf leap day) := by
  have hbegun : ∀ i < 12, daysBeforeMonth leap (i + 1) ≤ day ↔ i < monthOf leap day := by
    have hcount := @iff_lt_countP_range (fun i => daysBeforeMonth leap (i + 1) ≤ day)
      (fun i hi => ?_) 12
    · simpa [monthOf] using hcount
    · rw [decide_eq_true_eq] at hi ⊢
      rw [daysBeforeMonth_succ leap (Nat.le_add_left 1 i)] at hi
      omega
  have hpos : 0 < monthOf leap day := (hbegun 0 (by omega)).mp (Nat.zero_le day)
  have hle : monthOf leap day ≤ 12 := List.countP_le_length.trans_eq List.length_range
  obtain ⟨m, hm⟩ := Nat.exists_eq_add_of_le' hpos
  rw [hm] at hbegun hle ⊢
  refine ⟨Nat.le_add_left 1 m, hle, (hbegun m (by omega)).mpr (Nat.lt_succ_self m), ?_⟩
  rw [← daysBeforeMonth_succ leap (Nat.le_add_left 1 m)]
  rcases hle.lt_or_eq with hlt | hlast
  · exact not_le.mp fun hnext => lt_irrefl _ ((hbegun (m + 1) hlt).mp hnext)
  · rwa [hlast, daysBeforeMonth_year]

theorem daysInMonth_le (leap : Bool) (month : ℕ) : daysInMonth leap month ≤ 31 := by
  unfold daysInMonth
  split
  · split_ifs <;> norm_num
  all_goals norm_num

/-! ## Dates -/

theorem valid_dateOf (days : ℕ) : (dateOf days).Valid := by
  have hmonth := isMonthOf (left_lt days)
  have hbegun := hmonth.begun
  have hwithin := hmonth.within
  refine ⟨?_, ⟨hmonth.pos, hmonth.le⟩, ?_, ?_⟩
  · simp [dateOf, Spans.year]
  · simp [dateOf]
  · simp only [dateOf]
    omega

/-- **The date of a day has the days before it that it should have.** -/
theorem daysBefore_dateOf (days : ℕ) : daysBefore (dateOf days) = days := by
  have hmonth := isMonthOf (left_lt days)
  have hbegun := hmonth.begun
  have hyear := daysBeforeYear_year days
  simp only [daysBefore, dateOf]
  omega

/-! ## The order of dates -/

theorem daysBeforeYear_succ {year : ℕ} (h : 1 ≤ year) :
    daysBeforeYear (year + 1) = daysBeforeYear year + (365 + if isLeap year then 1 else 0) := by
  obtain ⟨y, rfl⟩ := Nat.exists_eq_add_of_le' h
  have hleap : (if isLeap (y + 1) then 1 else 0) + (if 100 ∣ y + 1 then 1 else 0) =
      (if 4 ∣ y + 1 then 1 else 0) + if 400 ∣ y + 1 then 1 else 0 := by
    simp only [isLeap, decide_eq_true_eq]
    split_ifs <;> omega
  have hfours := @Nat.succ_div y 4
  have hcenturies := @Nat.succ_div y 100
  have hcycles := @Nat.succ_div y 400
  have hle : y / 100 ≤ y * 365 := by omega
  simp only [daysBeforeYear, Nat.add_sub_cancel]
  omega

theorem daysBeforeYear_mono {year later : ℕ} (hpos : 1 ≤ year) (h : year ≤ later) :
    daysBeforeYear year ≤ daysBeforeYear later := by
  induction later, h using Nat.le_induction with
  | base => exact le_rfl
  | succ later h ih =>
    rw [daysBeforeYear_succ (hpos.trans h)]
    exact ih.trans (Nat.le_add_right _ _)

/-- A month is over when the year is, and when a later month begins. -/
theorem daysBeforeMonth_add_daysInMonth_le (leap : Bool) {month : ℕ}
    (h : 1 ≤ month ∧ month ≤ 12) :
    daysBeforeMonth leap month + daysInMonth leap month ≤ (365 + if leap then 1 else 0) ∧
      ∀ later ≤ 12, month < later →
        daysBeforeMonth leap month + daysInMonth leap month ≤ daysBeforeMonth leap later := by
  have hover {month later : ℕ} (hpos : 1 ≤ month) (hlater : month < later) :
      daysBeforeMonth leap month + daysInMonth leap month ≤ daysBeforeMonth leap later := by
    rw [← daysBeforeMonth_succ leap hpos]
    induction later, hlater using Nat.le_induction with
    | base => exact le_rfl
    | succ later hlater ih =>
      rw [daysBeforeMonth_succ leap (show 1 ≤ later by omega)]
      exact ih.trans (Nat.le_add_right _ _)
  rw [← daysBeforeMonth_year]
  exact ⟨hover h.1 (by omega), fun later _ hlater => hover h.1 hlater⟩

/-- Which of two dates is first: the years tell, then the months, then the days. -/
def Date.Before (d e : Date) : Prop :=
  d.year < e.year ∨ d.year = e.year ∧ (d.month < e.month ∨ d.month = e.month ∧ d.day < e.day)

theorem Date.Before.daysBefore_lt {d e : Date} (hd : d.Valid) (he : e.Valid) (h : d.Before e) :
    daysBefore d < daysBefore e := by
  obtain ⟨hyear, hmonth⟩ := daysBeforeMonth_add_daysInMonth_le (isLeap d.year) hd.month
  have hday := hd.day
  rcases h with h | ⟨hy, h | ⟨hm, h⟩⟩
  · have hover : daysBeforeYear d.year + (365 + if isLeap d.year then 1 else 0) ≤
        daysBeforeYear e.year := by
      rw [← daysBeforeYear_succ hd.year]
      exact daysBeforeYear_mono (Nat.le_add_left 1 _) h
    unfold daysBefore
    omega
  · have hover := hmonth e.month he.month.2 h
    rw [daysBefore, daysBefore, ← hy]
    omega
  · rw [daysBefore, daysBefore, ← hy, ← hm]
    omega

theorem Date.before_or {d e : Date} (h : d ≠ e) : d.Before e ∨ e.Before d := by
  have hparts : ¬ (d.year = e.year ∧ d.month = e.month ∧ d.day = e.day) := by
    rintro ⟨hy, hm, hday⟩
    apply h
    cases d
    cases e
    simp_all only
  unfold Before
  omega

/-- The first of two dates is the one with fewer days before it. -/
theorem Date.before_iff {d e : Date} (hd : d.Valid) (he : e.Valid) :
    d.Before e ↔ daysBefore d < daysBefore e := by
  refine ⟨Before.daysBefore_lt hd he, fun h => ?_⟩
  by_cases heq : d = e
  · exact absurd h (heq ▸ lt_irrefl _)
  · refine (before_or heq).resolve_right fun hback => ?_
    exact absurd (hback.daysBefore_lt he hd) h.not_gt

end Foundation.Calendar
