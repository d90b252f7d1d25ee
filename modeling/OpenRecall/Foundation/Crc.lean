import Mathlib

/-!
# Cyclic redundancy checks

The remainder of a byte string under a polynomial, most significant bit first, from a zero
register and with no final complement. `crc` is the definition, a bit at a time; shifting is linear
in exclusive or, so a byte at a time from a table of 256 entries gives the same
(`feed_eq_table`).
-/

set_option autoImplicit false

namespace Foundation.Crc

variable {w : ℕ} (p : BitVec w)

/-- One bit leaves at the top, and the polynomial is taken off when it was set. -/
def shiftBit (r : BitVec w) : BitVec w := if r.msb then (r <<< 1) ^^^ p else r <<< 1

/-- `n` bits leave at the top. -/
def shiftBits : ℕ → BitVec w → BitVec w
  | 0, r => r
  | n + 1, r => shiftBit p (shiftBits n r)

/-- A byte at the top of a register. -/
def atTop (w : ℕ) (b : UInt8) : BitVec w := BitVec.ofNat w b.toNat <<< (w - 8)

/-- The register after another byte. -/
def feed (r : BitVec w) (b : UInt8) : BitVec w := shiftBits p 8 (r ^^^ atTop w b)

/-- The check of a byte string. -/
def crc (data : List UInt8) : BitVec w := data.foldl (feed p) 0

/-! ## Shifting is linear -/

theorem shiftBit_xor (a b : BitVec w) : shiftBit p (a ^^^ b) = shiftBit p a ^^^ shiftBit p b := by
  unfold shiftBit
  rw [BitVec.msb_xor, BitVec.shiftLeft_xor_distrib]
  cases a.msb <;> cases b.msb <;> simp [BitVec.xor_assoc]
  exact BitVec.xor_comm _ _

theorem shiftBits_xor (n : ℕ) (a b : BitVec w) :
    shiftBits p n (a ^^^ b) = shiftBits p n a ^^^ shiftBits p n b := by
  induction n with
  | zero => rfl
  | succ n ih => rw [shiftBits, ih, shiftBit_xor, shiftBits, shiftBits]

/-- While nothing is set at the top, bits just move up. -/
theorem shiftBits_of_lt {n : ℕ} {r : BitVec w} (hn : n ≤ w) (h : r.toNat < 2 ^ (w - n)) :
    shiftBits p n r = r <<< n := by
  induction n with
  | zero => simp [shiftBits]
  | succ n ih =>
    have hweaker : 2 ^ (w - (n + 1)) ≤ 2 ^ (w - n) :=
      Nat.pow_le_pow_right (by norm_num) (by omega)
    have hmsb : (r <<< n).msb = false := by
      have hpow : 2 ^ (w - (n + 1)) * 2 ^ n = 2 ^ (w - 1) := by
        rw [← Nat.pow_add]
        congr 1
        omega
      have hbound : r.toNat <<< n < 2 ^ (w - 1) := by
        rw [Nat.shiftLeft_eq, ← hpow]
        exact Nat.mul_lt_mul_of_pos_right h (by positivity)
      rw [BitVec.msb_eq_decide, BitVec.toNat_shiftLeft, decide_eq_false_iff_not, not_le]
      exact (Nat.mod_le _ _).trans_lt hbound
    rw [shiftBits, ih (by omega) (by omega), shiftBit, hmsb, BitVec.shiftLeft_add]
    rfl

/-! ## A byte at a time -/

/-- The entry of the table for the byte at the top of a register. -/
def entry (b : UInt8) : BitVec w := shiftBits p 8 (atTop w b)

/-- The byte at the top of a register. -/
def top (r : BitVec w) : UInt8 := UInt8.ofNat (r.toNat >>> (w - 8))

theorem atTop_xor (a b : UInt8) : atTop w (a ^^^ b) = atTop w a ^^^ atTop w b := by
  rw [atTop, UInt8.toNat_xor, BitVec.ofNat_xor, BitVec.shiftLeft_xor_distrib, atTop, atTop]

/-- The byte at the top of a register, where it stands in the register. -/
theorem atTop_top (hw : 8 ≤ w) (r : BitVec w) :
    atTop w (top r) = (r >>> (w - 8)) <<< (w - 8) := by
  have hbyte : r.toNat >>> (w - 8) < 2 ^ 8 := by
    rw [Nat.shiftRight_eq_div_pow, Nat.div_lt_iff_lt_mul (by positivity), ← Nat.pow_add]
    have hsum : 8 + (w - 8) = w := by omega
    rw [hsum]
    exact r.isLt
  rw [atTop, top, UInt8.toNat_ofNat', Nat.mod_eq_of_lt hbyte, ← BitVec.toNat_ushiftRight,
    BitVec.ofNat_toNat, BitVec.setWidth_eq]

/-- A register is the byte at its top and the rest. -/
theorem top_xor_rest (hw : 8 ≤ w) (r : BitVec w) :
    atTop w (top r) ^^^ (r <<< 8) >>> 8 = r := by
  rw [atTop_top hw]
  apply BitVec.eq_of_getLsbD_eq
  intro i hi
  rw [BitVec.getLsbD_xor, BitVec.getLsbD_shiftLeft, BitVec.getLsbD_ushiftRight,
    BitVec.getLsbD_ushiftRight, BitVec.getLsbD_shiftLeft]
  by_cases htop : i < w - 8
  · have hin : 8 + i < w := by omega
    simp [htop, hin]
  · have hout : ¬ 8 + i < w := by omega
    have hback : w - 8 + (i - (w - 8)) = i := by omega
    simp [htop, hout, hback, hi]

/-- The rest of a register has nothing at the top. -/
theorem toNat_rest_lt (hw : 8 ≤ w) (r : BitVec w) : ((r <<< 8) >>> 8).toNat < 2 ^ (w - 8) := by
  rw [BitVec.toNat_ushiftRight, Nat.shiftRight_eq_div_pow,
    Nat.div_lt_iff_lt_mul (by positivity), ← Nat.pow_add]
  have hsum : w - 8 + 8 = w := by omega
  rw [hsum]
  exact (r <<< 8).isLt

/-- **A byte at a time from the table**: the check of a byte more is the entry for that byte and
the byte that leaves, and the rest of the register moved up. -/
theorem feed_eq_table (hw : 8 ≤ w) (r : BitVec w) (b : UInt8) :
    feed p r b = (r <<< 8) ^^^ entry p (top r ^^^ b) := by
  have hsplit : r ^^^ atTop w b = (r <<< 8) >>> 8 ^^^ atTop w (top r ^^^ b) := by
    conv_lhs => rw [← top_xor_rest hw r]
    rw [atTop_xor, BitVec.xor_comm (atTop w (top r)), BitVec.xor_assoc]
  have hrest : ((r <<< 8) >>> 8) <<< 8 = r <<< 8 := by
    apply BitVec.eq_of_getLsbD_eq
    intro i hi
    simp only [BitVec.getLsbD_shiftLeft, BitVec.getLsbD_ushiftRight]
    by_cases hlow : i < 8
    · simp [hlow]
    · have hback : 8 + (i - 8) = i := by omega
      simp [hlow, hback]
  rw [feed, hsplit, shiftBits_xor, shiftBits_of_lt p hw (toNat_rest_lt hw r), hrest, entry]

end Foundation.Crc
