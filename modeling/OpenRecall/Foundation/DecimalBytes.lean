import Mathlib

/-!
# Decimal numbers in bytes

`decimal n` is the text of a number in ASCII, and `value` reads digits. Zeros before a number do not
change its value, and a text of digits ends at the first byte that is none, so two such texts that
go on with the same byte are compared part by part (`append_cons_inj`).
-/

set_option autoImplicit false

namespace Foundation.DecimalBytes

def isDigit (b : UInt8) : Bool := 48 ≤ b ∧ b ≤ 57

/-- The text of a number. -/
def decimal (n : ℕ) : List UInt8 := (Nat.toDigits 10 n).map fun c => c.toNat.toUInt8

/-- The number that digits are. -/
def value (ds : List UInt8) : ℕ := ds.foldl (fun n b => 10 * n + (b.toNat - 48)) 0

theorem toNat_toUInt8 {c : Char} (h : c.toNat < 256) : c.toNat.toUInt8.toNat = c.toNat :=
  Nat.mod_eq_of_lt h

theorem isDigit_decimal {n : ℕ} {b : UInt8} (h : b ∈ decimal n) : isDigit b = true := by
  obtain ⟨c, hc, rfl⟩ := List.mem_map.mp h
  have hdigit : c.isDigit = true := Nat.isDigit_of_mem_toDigits (by norm_num) le_rfl hc
  have hbounds : 48 ≤ c.toNat ∧ c.toNat ≤ 57 := by
    simpa [Char.isDigit, UInt32.le_iff_toNat_le] using hdigit
  have hbyte := toNat_toUInt8 (c := c) (by omega)
  simp only [isDigit, UInt8.le_iff_toNat_le, hbyte, decide_eq_true_eq]
  exact hbounds

theorem decimal_ne_nil (n : ℕ) : decimal n ≠ [] := by
  simp [decimal, Nat.toDigits_ne_nil]

theorem length_decimal_le {n k : ℕ} (hk : 0 < k) (h : n < 10 ^ k) : (decimal n).length ≤ k := by
  rw [decimal, List.length_map]
  exact (Nat.length_toDigits_le_iff (by norm_num) hk).mpr h

/-- **A number is read from its text.** -/
theorem value_decimal (n : ℕ) : value (decimal n) = n := by
  have hread : ∀ (cs : List Char) (acc : ℕ), (∀ c ∈ cs, c.isDigit = true) →
      (cs.map fun c => c.toNat.toUInt8).foldl (fun n b => 10 * n + (b.toNat - 48)) acc =
        Nat.ofDigitChars 10 cs acc := by
    intro cs
    induction cs with
    | nil => intro acc _; simp
    | cons c cs ih =>
      intro acc h
      have hdigit := h c List.mem_cons_self
      have hbounds : 48 ≤ c.toNat ∧ c.toNat ≤ 57 := by
        simpa [Char.isDigit, UInt32.le_iff_toNat_le] using hdigit
      rw [List.map_cons, List.foldl_cons, toNat_toUInt8 (by omega),
        ih _ fun d hd => h d (List.mem_cons_of_mem c hd), Nat.ofDigitChars_cons]
      rfl
  rw [value, decimal, hread _ _ fun c hc => Nat.isDigit_of_mem_toDigits (by norm_num) le_rfl hc]
  exact Nat.ofDigitChars_ten_toDigits

/-- Zeros before a number. -/
theorem value_zeros (k : ℕ) (ds : List UInt8) : value (List.replicate k 48 ++ ds) = value ds := by
  induction k with
  | zero => rfl
  | succ k ih => simpa [value, List.replicate_succ] using ih

/-- Digits, and what goes on with a byte that is none, come apart in one way. -/
theorem append_cons_inj {ds ds' rest rest' : List UInt8} {b : UInt8}
    (hds : ∀ d ∈ ds, isDigit d = true) (hds' : ∀ d ∈ ds', isDigit d = true)
    (hb : isDigit b = false) (h : ds ++ b :: rest = ds' ++ b :: rest') :
    ds = ds' ∧ rest = rest' := by
  have hcut : ∀ (xs ys : List UInt8), (∀ d ∈ xs, isDigit d = true) →
      (xs ++ b :: ys).takeWhile isDigit = xs := by
    intro xs ys hxs
    rw [List.takeWhile_append_of_pos hxs, List.takeWhile_cons_of_neg (by simp [hb]), List.append_nil]
  have hsame : ds = ds' := by rw [← hcut ds rest hds, h, hcut ds' rest' hds']
  subst hsame
  exact ⟨rfl, List.cons_injective (List.append_cancel_left h)⟩

end Foundation.DecimalBytes
