import OpenRecall.Foundation.IsoTime

/-!
# The order of timestamps as texts

Texts of timestamps compare character by character. Each number in such a text has a fixed number
of digits, and what may follow where a fraction of a second is left out is less than the point
that begins one. So the local clocks decide, and between equal clocks the texts of the offsets do
(`isoText_lt_iff`), which do not follow the offsets: more ahead of UTC is a greater text, and a
lesser instant (`offsetText_lt_iff`).
-/

set_option autoImplicit false

namespace Foundation.IsoTime

open Calendar

universe u

/-- Before texts of one length decide, what follows them does not count. -/
theorem append_lt_append_iff {α : Type u} [LinearOrder α] {a b : List α}
    (h : a.length = b.length) (x y : List α) :
    a ++ x < b ++ y ↔ a < b ∨ a = b ∧ x < y := by
  induction a generalizing b with
  | nil =>
    obtain rfl := List.length_eq_zero_iff.mp h.symm
    simp
  | cons c a ih =>
    cases b with
    | nil => simp at h
    | cons d b =>
      simp only [List.cons_append, List.cons_lt_cons_iff, ih (Nat.succ.inj h), List.cons.injEq]
      tauto

/-! ## Numbers -/

theorem length_digits (k n : ℕ) : (digits k n).length = k := by
  induction k with
  | zero => rfl
  | succ k ih => rw [digits, List.length_cons, ih]

theorem digit_lt_digit_iff {c d : ℕ} (hc : c < 10) (hd : d < 10) : digit c < digit d ↔ c < d := by
  have hall : ∀ c d : Fin 10, digit c < digit d ↔ c.val < d.val := by decide
  exact hall ⟨c, hc⟩ ⟨d, hd⟩

theorem digit_inj_iff {c d : ℕ} (hc : c < 10) (hd : d < 10) : digit c = digit d ↔ c = d := by
  refine ⟨fun h => ?_, congrArg digit⟩
  have hvalue := digitValue_digit hc
  rw [h, digitValue_digit hd] at hvalue
  exact (Option.some.inj hvalue).symm

/-- The higher parts of two numbers decide before the lower ones. -/
theorem add_mul_lt_add_mul_iff {B q r q' r' : ℕ} (hr : r < B) (hr' : r' < B) :
    r + B * q < r' + B * q' ↔ q < q' ∨ q = q' ∧ r < r' := by
  rcases lt_trichotomy q q' with h | rfl | h
  · have hstep : B * q + B ≤ B * q' := Nat.mul_le_mul_left B h
    exact iff_of_true (by omega) (.inl h)
  · simp
  · have hstep : B * q' + B ≤ B * q := Nat.mul_le_mul_left B h
    exact iff_of_false (by omega) (by omega)

/-- The last digits depend on the last part of a number. -/
theorem digits_mod (k n : ℕ) : digits k (n % 10 ^ k) = digits k n := by
  have hlow : ∀ j ≤ k, digits j (n % 10 ^ k) = digits j n := by
    intro j hj
    induction j with
    | zero => rfl
    | succ j ih =>
      obtain ⟨i, rfl⟩ := Nat.exists_eq_add_of_le hj
      rw [digits, digits, ih (Nat.le_of_succ_le hj), pow_add, pow_succ, mul_assoc,
        Nat.mod_mul_right_div_self]
      simp
  exact hlow k le_rfl

theorem digits_inj {k m n : ℕ} (hm : m < 10 ^ k) (hn : n < 10 ^ k) (h : digits k m = digits k n) :
    m = n := by
  have hread := readDigits_of_lt hm []
  rw [h, readDigits_of_lt hn] at hread
  simpa using hread.symm

/-- Numbers written with the same number of digits are in the order of their texts. -/
theorem digits_lt_digits_iff {k m n : ℕ} (hm : m < 10 ^ k) (hn : n < 10 ^ k) :
    digits k m < digits k n ↔ m < n := by
  induction k generalizing m n with
  | zero =>
    obtain rfl : m = n := by omega
    simp
  | succ k ih =>
    have hpos : 0 < 10 ^ k := by positivity
    have hrest {j : ℕ} : j % 10 ^ k < 10 ^ k := Nat.mod_lt j hpos
    have hfirst {j : ℕ} (hj : j < 10 ^ (k + 1)) : j / 10 ^ k < 10 :=
      Nat.div_lt_of_lt_mul (by rwa [← pow_succ])
    rw [digits, digits, Nat.mod_eq_of_lt (hfirst hm), Nat.mod_eq_of_lt (hfirst hn),
      List.cons_lt_cons_iff, digit_lt_digit_iff (hfirst hm) (hfirst hn), ← digits_mod k m,
      ← digits_mod k n, ih hrest hrest, digit_inj_iff (hfirst hm) (hfirst hn),
      ← add_mul_lt_add_mul_iff hrest hrest, Nat.mod_add_div, Nat.mod_add_div]

theorem digits_append_lt_iff {k m n : ℕ} (hm : m < 10 ^ k) (hn : n < 10 ^ k) (x y : List Char) :
    digits k m ++ x < digits k n ++ y ↔ m < n ∨ m = n ∧ x < y := by
  rw [append_lt_append_iff (by rw [length_digits, length_digits]), digits_lt_digits_iff hm hn,
    show digits k m = digits k n ↔ m = n from ⟨digits_inj hm hn, congrArg _⟩]

/-! ## Times of a day -/

/-- A text that is less than any text with a point. -/
def BelowPoint (x : List Char) : Prop := ∀ c ∈ x.head?, c < '.'

theorem BelowPoint.lt {x : List Char} (h : BelowPoint x) (y : List Char) : x < '.' :: y := by
  cases x with
  | nil => simp
  | cons c x => exact List.cons_lt_cons_iff.mpr (.inl (h c rfl))

theorem fraction_append_lt_iff {m n : ℕ} (hm : m < 1000000) (hn : n < 1000000) {x y : List Char}
    (hx : BelowPoint x) (hy : BelowPoint y) :
    fraction m ++ x < fraction n ++ y ↔ m < n ∨ m = n ∧ x < y := by
  unfold fraction
  split_ifs with hm0 hn0 hn0
  · simp [hm0, hn0]
  · exact iff_of_true (hx.lt _) (.inl (by omega))
  · exact iff_of_false (hy.lt _).not_gt (by omega)
  · rw [List.cons_append, List.cons_append, List.cons_lt_cons_self]
    exact digits_append_lt_iff hm hn x y

theorem seconds_append_lt_iff (m n : ℕ) {x y : List Char} (hx : BelowPoint x)
    (hy : BelowPoint y) :
    seconds m ++ x < seconds n ++ y ↔
      m % 60000000 < n % 60000000 ∨ m % 60000000 = n % 60000000 ∧ x < y := by
  have htwo {j : ℕ} : j / 1000000 % 60 < 10 ^ 2 := by omega
  have hfraction {j : ℕ} : j % 1000000 < 1000000 := Nat.mod_lt j (by norm_num)
  have hparts {j : ℕ} : j % 60000000 = j % 1000000 + 1000000 * (j / 1000000 % 60) := by omega
  rw [seconds, seconds, List.append_assoc, List.append_assoc, digits_append_lt_iff htwo htwo,
    fraction_append_lt_iff hfraction hfraction hx hy, hparts, hparts,
    add_mul_lt_add_mul_iff hfraction hfraction]
  by_cases hxy : x < y
  · simp only [hxy, and_true]
    omega
  · simp only [hxy, and_false, or_false]

theorem hourMinute_append_lt_iff {m n : ℕ} (hm : m < dayUs) (hn : n < dayUs) (x y : List Char) :
    hourMinute m ++ x < hourMinute n ++ y ↔
      m / 60000000 < n / 60000000 ∨ m / 60000000 = n / 60000000 ∧ x < y := by
  rw [dayUs] at hm hn
  have hminute {j : ℕ} : j / 60000000 % 60 < 10 ^ 2 := by omega
  have hparts {j : ℕ} : j / 60000000 = j / 60000000 % 60 + 60 * (j / 3600000000) := by omega
  simp only [hourMinute, List.append_assoc, List.cons_append]
  rw [digits_append_lt_iff (by omega) (by omega), List.cons_lt_cons_self,
    digits_append_lt_iff hminute hminute]
  have hm' := @hparts m
  have hn' := @hparts n
  by_cases hxy : x < y
  · simp only [hxy, and_true]
    omega
  · simp only [hxy, and_false, or_false]
    omega

/-! ## Offsets -/

/-- The texts of offsets, without their signs, are in the order of the offsets' sizes. -/
theorem offsetSize_lt_iff {m n : ℕ} (hm : m < dayUs) (hn : n < dayUs) :
    (hourMinute m ++ if m % 60000000 = 0 then [] else ':' :: seconds m) <
        (hourMinute n ++ if n % 60000000 = 0 then [] else ':' :: seconds n) ↔ m < n := by
  have hfine : (if m % 60000000 = 0 then [] else ':' :: seconds m) <
      (if n % 60000000 = 0 then [] else ':' :: seconds n) ↔ m % 60000000 < n % 60000000 := by
    split_ifs with hm0 hn0 hn0
    · simp [hm0, hn0]
    · exact iff_of_true (List.nil_lt_cons _ _) (by omega)
    · exact iff_of_false (List.not_lt_nil _) (by omega)
    · have hend : BelowPoint [] := fun c hc => by simp at hc
      have hseconds := seconds_append_lt_iff m n hend hend
      rw [List.append_nil, List.append_nil] at hseconds
      simpa using hseconds
  rw [hourMinute_append_lt_iff hm hn, hfine]
  omega

/-- **The order of the texts of offsets.** An offset ahead of UTC comes before one behind it, of
two ahead the smaller comes first, and of two behind the one closer to UTC. -/
theorem offsetText_lt_iff {o p : ℤ} (ho : o.natAbs < dayUs) (hp : p.natAbs < dayUs) :
    offsetText o < offsetText p ↔ 0 ≤ o ∧ (p < 0 ∨ o < p) ∨ p < o ∧ o < 0 := by
  have hsize := offsetSize_lt_iff ho hp
  have hsigns : '+' < '-' := by decide
  rcases lt_or_ge o 0 with ho0 | ho0 <;> rcases lt_or_ge p 0 with hp0 | hp0
  all_goals simp only [offsetText, List.cons_append, List.cons_lt_cons_iff, hsize, ho0,
    ho0.not_gt, hp0, hp0.not_gt, if_true, if_false, lt_irrefl, true_and, false_or, hsigns,
    hsigns.not_gt, true_or, and_true, and_false, or_false]
  · omega
  · exact iff_of_false (by simp) (by omega)
  · omega

/-- The place of an offset in the order of their texts. -/
def offsetRank (o : ℤ) : ℤ := if o < 0 then dayUs - o else o

theorem offsetText_lt_iff_rank {o p : ℤ} (ho : o.natAbs < dayUs) (hp : p.natAbs < dayUs) :
    offsetText o < offsetText p ↔ offsetRank o < offsetRank p := by
  rw [offsetText_lt_iff ho hp, offsetRank, offsetRank]
  split_ifs <;> omega

theorem belowPoint_offsetText (offset : ℤ) : BelowPoint (offsetText offset) := by
  intro c hc
  simp only [offsetText, List.cons_append, List.head?_cons, Option.mem_some_iff] at hc
  subst hc
  split_ifs <;> decide

/-! ## Timestamps -/

theorem dateText_append_lt_iff {d e : Date} (hd : d.Valid) (he : e.Valid) (hdy : d.year < 10000)
    (hey : e.year < 10000) (x y : List Char) :
    dateText d ++ x < dateText e ++ y ↔ d.Before e ∨ d = e ∧ x < y := by
  have htwo {f : Date} (hf : f.Valid) : f.month < 10 ^ 2 ∧ f.day < 10 ^ 2 := by
    have hday := hf.day.2.trans (daysInMonth_le _ _)
    have hmonth := hf.month.2
    omega
  have hparts : d = e ↔ d.year = e.year ∧ d.month = e.month ∧ d.day = e.day := by
    cases d
    cases e
    simp
  simp only [dateText, List.append_assoc, List.cons_append]
  rw [digits_append_lt_iff hdy hey, List.cons_lt_cons_self,
    digits_append_lt_iff (htwo hd).1 (htwo he).1, List.cons_lt_cons_self,
    digits_append_lt_iff (htwo hd).2 (htwo he).2, Date.Before, hparts]
  tauto

/-- The text of a local clock. -/
def clockText (clock : ℕ) : List Char :=
  dateText (dateOf (clock / dayUs)) ++ 'T' :: hourMinute (clock % dayUs) ++
    ':' :: seconds (clock % dayUs)

theorem isoText_eq (s : Stamp) : isoText s = clockText s.clock ++ offsetText s.offset := by
  simp [isoText, clockText]

/-- Local clocks are in the order of their texts. -/
theorem clockText_append_lt_iff {m n : ℕ} (hm : m < 3652059 * dayUs) (hn : n < 3652059 * dayUs)
    {x y : List Char} (hx : BelowPoint x) (hy : BelowPoint y) :
    clockText m ++ x < clockText n ++ y ↔ m < n ∨ m = n ∧ x < y := by
  have hyear {clock : ℕ} (h : clock < 3652059 * dayUs) : (dateOf (clock / dayUs)).year < 10000 := by
    apply year_lt
    rwa [Nat.div_lt_iff_lt_mul (by norm_num [dayUs])]
  have htime {clock : ℕ} : clock % dayUs < dayUs := Nat.mod_lt _ (by norm_num [dayUs])
  have hdate : dateOf (m / dayUs) = dateOf (n / dayUs) ↔ m / dayUs = n / dayUs :=
    ⟨fun h => by rw [← daysBefore_dateOf (m / dayUs), h, daysBefore_dateOf], congrArg _⟩
  simp only [clockText, List.append_assoc, List.cons_append]
  rw [dateText_append_lt_iff (valid_dateOf _) (valid_dateOf _) (hyear hm) (hyear hn),
    Date.before_iff (valid_dateOf _) (valid_dateOf _), daysBefore_dateOf, daysBefore_dateOf, hdate,
    List.cons_lt_cons_self, hourMinute_append_lt_iff htime htime, List.cons_lt_cons_self,
    seconds_append_lt_iff _ _ hx hy]
  have hparts {clock : ℕ} : clock = clock % dayUs + dayUs * (clock / dayUs) :=
    (Nat.mod_add_div _ _).symm
  have hm' := @hparts m
  have hn' := @hparts n
  simp only [dayUs] at *
  by_cases hxy : x < y
  · simp only [hxy, and_true]
    omega
  · simp only [hxy, and_false, or_false]
    omega

theorem clockText_lt_iff {m n : ℕ} (hm : m < 3652059 * dayUs) (hn : n < 3652059 * dayUs) :
    clockText m < clockText n ↔ m < n := by
  have hend : BelowPoint [] := fun c hc => by simp at hc
  have h := clockText_append_lt_iff hm hn hend hend
  rw [List.append_nil, List.append_nil] at h
  simpa using h

/-- **The order of the texts of timestamps.** The local clocks decide, and then the texts of the
offsets. -/
theorem isoText_lt_iff {a b : Stamp} (ha : a.Valid) (hb : b.Valid) :
    isoText a < isoText b ↔
      a.clock < b.clock ∨ a.clock = b.clock ∧ offsetText a.offset < offsetText b.offset := by
  rw [isoText_eq, isoText_eq, clockText_append_lt_iff ha.clock hb.clock
    (belowPoint_offsetText _) (belowPoint_offsetText _)]

end Foundation.IsoTime
