import Mathlib

/-!
# Base 64

Three bytes are four characters of six bits each, in the alphabet that is safe in URLs, padded
with "=" to whole groups of four. The decoder is the lenient one: it takes both alphabets, skips
what is in neither, and stops at a complete padding.
-/

set_option autoImplicit false

namespace Foundation.Base64

/-- The character of six bits. -/
def symbol (n : ℕ) : Char :=
  if n < 26 then Char.ofNat (65 + n)
  else if n < 52 then Char.ofNat (71 + n)
  else if n < 62 then Char.ofNat (n - 4)
  else if n = 62 then '-'
  else '_'

/-- The six bits of a character, in either alphabet. -/
def value (c : Char) : Option ℕ :=
  if 65 ≤ c.toNat ∧ c.toNat ≤ 90 then some (c.toNat - 65)
  else if 97 ≤ c.toNat ∧ c.toNat ≤ 122 then some (c.toNat - 71)
  else if 48 ≤ c.toNat ∧ c.toNat ≤ 57 then some (c.toNat + 4)
  else if c = '-' ∨ c = '+' then some 62
  else if c = '_' ∨ c = '/' then some 63
  else none

/-- Groups of three bytes, and the padding. -/
def encode : List UInt8 → List Char
  | [] => []
  | [a] => [symbol (a.toNat / 4), symbol (a.toNat % 4 * 16), '=', '=']
  | [a, b] =>
    [symbol (a.toNat / 4), symbol (a.toNat % 4 * 16 + b.toNat / 16),
      symbol (b.toNat % 16 * 4), '=']
  | a :: b :: c :: bytes =>
    symbol (a.toNat / 4) :: symbol (a.toNat % 4 * 16 + b.toNat / 16) ::
      symbol (b.toNat % 16 * 4 + c.toNat / 64) :: symbol (c.toNat % 64) :: encode bytes

/-- What is left of a group: how many characters of it came, the bits that are no byte yet, and
the padding characters since the last one. -/
structure Group where
  pos : ℕ := 0
  left : ℕ := 0
  pads : ℕ := 0

/-- The bytes of the characters that follow in a group; `none` when they end within a group. -/
def decodeFrom : Group → List Char → Option (List UInt8)
  | g, [] => if g.pos = 0 then some [] else none
  | g, c :: cs =>
    if c = '=' then
      if 2 ≤ g.pos ∧ 4 ≤ g.pos + g.pads + 1 then some []
      else decodeFrom { g with pads := if 2 ≤ g.pos then g.pads + 1 else g.pads } cs
    else
      match value c with
      | none => decodeFrom g cs
      | some v =>
        match g.pos with
        | 0 => decodeFrom { pos := 1, left := v } cs
        | 1 => (decodeFrom { pos := 2, left := v % 16 } cs).map
            (UInt8.ofNat (g.left * 4 + v / 16) :: ·)
        | 2 => (decodeFrom { pos := 3, left := v % 4 } cs).map
            (UInt8.ofNat (g.left * 16 + v / 4) :: ·)
        | _ => (decodeFrom {} cs).map (UInt8.ofNat (g.left * 64 + v) :: ·)

/-- The bytes of a text. -/
def decode (cs : List Char) : Option (List UInt8) := decodeFrom {} cs

/-! ## Decoding what was encoded -/

attribute [local simp] decodeFrom

theorem value_symbol {v : ℕ} (hv : v < 64) : value (symbol v) = some v := by
  have hall : ∀ n : Fin 64, value (symbol n) = some n.val := by decide +kernel
  exact hall ⟨v, hv⟩

theorem symbol_ne_pad {v : ℕ} (hv : v < 64) : symbol v ≠ '=' := by
  have hall : ∀ n : Fin 64, symbol n ≠ '=' := by decide +kernel
  exact hall ⟨v, hv⟩

section

variable {v left : ℕ} (hv : v < 64) (pads : ℕ) (cs : List Char)

include hv

theorem decodeFrom_first :
    decodeFrom ⟨0, left, pads⟩ (symbol v :: cs) = decodeFrom ⟨1, v, 0⟩ cs := by
  simp [symbol_ne_pad hv, value_symbol hv]

theorem decodeFrom_second : decodeFrom ⟨1, left, pads⟩ (symbol v :: cs) =
    (decodeFrom ⟨2, v % 16, 0⟩ cs).map (UInt8.ofNat (left * 4 + v / 16) :: ·) := by
  simp [symbol_ne_pad hv, value_symbol hv]

theorem decodeFrom_third : decodeFrom ⟨2, left, pads⟩ (symbol v :: cs) =
    (decodeFrom ⟨3, v % 4, 0⟩ cs).map (UInt8.ofNat (left * 16 + v / 4) :: ·) := by
  simp [symbol_ne_pad hv, value_symbol hv]

theorem decodeFrom_fourth : decodeFrom ⟨3, left, pads⟩ (symbol v :: cs) =
    (decodeFrom ⟨0, 0, 0⟩ cs).map (UInt8.ofNat (left * 64 + v) :: ·) := by
  simp [symbol_ne_pad hv, value_symbol hv]

end

/-- A complete padding ends the text. -/
theorem decodeFrom_pads {left : ℕ} : decodeFrom ⟨2, left, 0⟩ ['=', '='] = some [] := by
  simp

theorem decodeFrom_pad {left : ℕ} : decodeFrom ⟨3, left, 0⟩ ['='] = some [] := by
  simp

theorem ofNat_eq {n : ℕ} {b : UInt8} (h : n = b.toNat) : UInt8.ofNat n = b := by
  rw [h, UInt8.ofNat_toNat]

/-- **What was encoded is decoded**, group by group. -/
theorem decode_encode (bytes : List UInt8) : decode (encode bytes) = some bytes := by
  unfold decode
  induction bytes using encode.induct with
  | case1 => rfl
  | case2 a =>
    have ha := a.toNat_lt
    rw [encode, decodeFrom_first (by omega), decodeFrom_second (by omega), decodeFrom_pads,
      Option.map_some]
    congr 2
    exact ofNat_eq (by omega)
  | case3 a b =>
    have ha := a.toNat_lt
    have hb := b.toNat_lt
    rw [encode, decodeFrom_first (by omega), decodeFrom_second (by omega),
      decodeFrom_third (by omega), decodeFrom_pad, Option.map_some, Option.map_some]
    congr 2
    · exact ofNat_eq (by omega)
    · congr 1
      exact ofNat_eq (by omega)
  | case4 a b c bytes ih =>
    have ha := a.toNat_lt
    have hb := b.toNat_lt
    have hc := c.toNat_lt
    rw [encode, decodeFrom_first (by omega), decodeFrom_second (by omega),
      decodeFrom_third (by omega), decodeFrom_fourth (by omega), ih]
    simp only [Option.map_some]
    congr 2
    · exact ofNat_eq (by omega)
    · congr 1
      · exact ofNat_eq (by omega)
      · congr 1
        exact ofNat_eq (by omega)

/-- The text is ASCII. -/
theorem toNat_lt_of_mem_encode {bytes : List UInt8} {c : Char} (h : c ∈ encode bytes) :
    c.toNat < 128 := by
  have hsymbol : ∀ v, v < 64 → (symbol v).toNat < 128 := by
    have hall : ∀ n : Fin 64, (symbol n).toNat < 128 := by decide +kernel
    exact fun v hv => hall ⟨v, hv⟩
  have hpad : ('=').toNat < 128 := by simp
  induction bytes using encode.induct with
  | case1 => simp [encode] at h
  | case2 a =>
    have ha := a.toNat_lt
    simp only [encode, List.mem_cons, List.not_mem_nil, or_false] at h
    rcases h with rfl | rfl | rfl | rfl
    · exact hsymbol _ (by omega)
    · exact hsymbol _ (by omega)
    · exact hpad
    · exact hpad
  | case3 a b =>
    have ha := a.toNat_lt
    have hb := b.toNat_lt
    simp only [encode, List.mem_cons, List.not_mem_nil, or_false] at h
    rcases h with rfl | rfl | rfl | rfl
    · exact hsymbol _ (by omega)
    · exact hsymbol _ (by omega)
    · exact hsymbol _ (by omega)
    · exact hpad
  | case4 a b c' bytes ih =>
    have ha := a.toNat_lt
    have hb := b.toNat_lt
    have hc := c'.toNat_lt
    simp only [encode, List.mem_cons] at h
    rcases h with rfl | rfl | rfl | rfl | h
    · exact hsymbol _ (by omega)
    · exact hsymbol _ (by omega)
    · exact hsymbol _ (by omega)
    · exact hsymbol _ (by omega)
    · exact ih h

/-! ## The padding -/

/-- The text without the padding at its end. -/
def strip (cs : List Char) : List Char := cs.rdropWhile (· = '=')

/-- The text filled up to whole groups. -/
def fill (cs : List Char) : List Char := cs ++ List.replicate ((4 - cs.length % 4) % 4) '='

/-- An encoding is its symbols and less than a group of padding, whole groups together. -/
theorem encode_eq (bytes : List UInt8) : ∃ (data : List Char) (k : ℕ),
    encode bytes = data ++ List.replicate k '=' ∧ (∀ c ∈ data, c ≠ '=') ∧ k < 4 ∧
      (data.length + k) % 4 = 0 := by
  induction bytes using encode.induct with
  | case1 => exact ⟨[], 0, by simp [encode]⟩
  | case2 a =>
    have ha := a.toNat_lt
    refine ⟨[symbol (a.toNat / 4), symbol (a.toNat % 4 * 16)], 2, by simp [encode], ?_, by simp⟩
    simp only [List.forall_mem_cons]
    exact ⟨symbol_ne_pad (by omega), symbol_ne_pad (by omega), by simp⟩
  | case3 a b =>
    have ha := a.toNat_lt
    have hb := b.toNat_lt
    refine ⟨[symbol (a.toNat / 4), symbol (a.toNat % 4 * 16 + b.toNat / 16),
      symbol (b.toNat % 16 * 4)], 1, by simp [encode], ?_, by simp⟩
    simp only [List.forall_mem_cons]
    exact ⟨symbol_ne_pad (by omega), symbol_ne_pad (by omega), symbol_ne_pad (by omega), by simp⟩
  | case4 a b c bytes ih =>
    have ha := a.toNat_lt
    have hb := b.toNat_lt
    have hc := c.toNat_lt
    obtain ⟨data, k, hdata, hne, hk, hlength⟩ := ih
    refine ⟨symbol (a.toNat / 4) :: symbol (a.toNat % 4 * 16 + b.toNat / 16) ::
      symbol (b.toNat % 16 * 4 + c.toNat / 64) :: symbol (c.toNat % 64) :: data, k,
      by simp [encode, hdata], ?_, hk, ?_⟩
    · simp only [List.forall_mem_cons]
      exact ⟨symbol_ne_pad (by omega), symbol_ne_pad (by omega), symbol_ne_pad (by omega),
        symbol_ne_pad (by omega), hne⟩
    · simp only [List.length_cons]
      omega

theorem strip_append {data : List Char} (h : ∀ c ∈ data, c ≠ '=') (k : ℕ) :
    strip (data ++ List.replicate k '=') = data := by
  induction k with
  | zero =>
    rw [List.replicate_zero, List.append_nil, strip, List.rdropWhile_eq_self_iff]
    intro hne
    simpa using h _ (List.getLast_mem hne)
  | succ k ih =>
    rw [List.replicate_succ', ← List.append_assoc, strip, List.rdropWhile_concat_pos _ _ _ (by simp)]
    exact ih

/-- Padding that was taken off is put back. -/
theorem fill_strip_encode (bytes : List UInt8) : fill (strip (encode bytes)) = encode bytes := by
  obtain ⟨data, k, hdata, hne, hk, hlength⟩ := encode_eq bytes
  have hstrip : strip (encode bytes) = data := by
    rw [hdata, strip_append hne]
  have hfill : (4 - data.length % 4) % 4 = k := by omega
  rw [hstrip, fill, hfill, hdata]

end Foundation.Base64
