import OpenRecall.Model.EventSearch

/-!
# What the search of the durable store finds

The pattern of a search is the escaped text between two wildcards. Escaping keeps a character that
would be a wildcard for what it is (`likeItems_escaped`), so that the pattern is in a text when the
text is, up to the case of ASCII letters. A NUL ends the pattern before the second wildcard, and
then the text has to end with what is left (`like_patternOf_iff`).
-/

set_option autoImplicit false

namespace OpenRecall.Analysis.LikeSearch

open Foundation
open OpenRecall.Model
open OpenRecall.Model.EventSearch

/-! ## Letters -/

theorem toLower_toLower (c : Char) : c.toLower.toLower = c.toLower := by
  by_cases h : 65 ≤ c.toNat ∧ c.toNat ≤ 90
  · have hlower := toNat_toLower h
    exact toLower_eq_self (by omega)
  · rw [toLower_eq_self h, toLower_eq_self h]

/-- `LIKE` compares the characters that `LOWER` gives. -/
theorem sameLetter_iff (c d : Char) : sameLetter c d = true ↔ c.toLower = d.toLower := by
  rw [sameLetter, decide_eq_true_eq]
  constructor
  · rintro (rfl | ⟨-, -, h⟩)
    · rfl
    · exact h
  · intro h
    by_cases hc : 65 ≤ c.toNat ∧ c.toNat ≤ 90
    · have hlower := toNat_toLower hc
      by_cases hd : 65 ≤ d.toNat ∧ d.toNat ≤ 90
      · exact .inr ⟨by omega, by omega, h⟩
      · rw [toLower_eq_self hd] at h
        exact .inr ⟨by omega, by rw [← h]; omega, by rw [← h, toLower_toLower]⟩
    · rw [toLower_eq_self hc] at h
      by_cases hd : 65 ≤ d.toNat ∧ d.toNat ≤ 90
      · have hlower := toNat_toLower hd
        exact .inr ⟨by rw [h]; omega, by omega, by rw [h, toLower_toLower]⟩
      · rw [toLower_eq_self hd] at h
        exact .inl h

theorem toLower_eq_nul_iff (c : Char) : c.toLower = '\x00' ↔ c = '\x00' := by
  by_cases h : 65 ≤ c.toNat ∧ c.toNat ≤ 90
  · have hlower := toNat_toLower h
    constructor
    · intro heq
      rw [heq] at hlower
      simp at hlower
    · rintro rfl
      simp at h
  · rw [toLower_eq_self h]

/-! ## Escaping -/

def escapeChar (c : Char) : Text := if c = '\\' ∨ c = '%' ∨ c = '_' then ['\\', c] else [c]

/-- The three replacements escape each character once. -/
theorem escaped_eq (needle : Text) : escaped needle = needle.flatMap escapeChar := by
  rw [escaped, replaceChar, replaceChar, replaceChar, List.flatMap_assoc, List.flatMap_assoc]
  congr 1
  funext c
  by_cases hslash : c = '\\'
  · subst hslash
    rfl
  · by_cases hpercent : c = '%'
    · subst hpercent
      rfl
    · by_cases hscore : c = '_'
      · subst hscore
        rfl
      · simp [escapeChar, hslash, hpercent, hscore]

theorem likeItems_cons {c : Char} (h : ¬ (c = '\\' ∨ c = '%' ∨ c = '_')) (cs : Text) :
    likeItems (c :: cs) = (likeItems cs).map (.char c :: ·) := by
  obtain ⟨hslash, hpercent, hscore⟩ := by simpa only [not_or] using h
  rw [likeItems]
  · exact fun _ _ hc _ => hslash hc
  · exact fun hc _ => hslash hc
  · exact hpercent
  · exact hscore

/-- **An escaped text stands for itself.** -/
theorem likeItems_escaped (cs rest : Text) :
    likeItems (cs.flatMap escapeChar ++ rest) =
      (likeItems rest).map (Wildcards.literal cs ++ ·) := by
  induction cs with
  | nil => simp [Wildcards.literal]
  | cons c cs ih =>
    rw [List.flatMap_cons, List.append_assoc, escapeChar]
    split_ifs with h
    · rw [List.cons_append, List.singleton_append, likeItems, ih, Option.map_map]
      rfl
    · rw [List.singleton_append, likeItems_cons h, ih, Option.map_map]
      rfl

/-! ## NULs -/

theorem upToNul_append {xs : Text} (h : '\x00' ∉ xs) (ys : Text) :
    upToNul (xs ++ ys) = xs ++ upToNul ys := by
  apply List.takeWhile_append_of_pos
  intro c hc
  exact decide_eq_true fun heq => h (heq ▸ hc)

theorem nul_notMem_escapeChar {c : Char} (h : c ≠ '\x00') : '\x00' ∉ escapeChar c := by
  unfold escapeChar
  split_ifs <;> simp [h.symm]

/-- A NUL ends a pattern where it ends the text that was escaped. -/
theorem upToNul_flatMap (cs rest : Text) :
    upToNul (cs.flatMap escapeChar ++ rest) =
      if '\x00' ∈ cs then (upToNul cs).flatMap escapeChar
      else cs.flatMap escapeChar ++ upToNul rest := by
  induction cs with
  | nil => simp
  | cons c cs ih =>
    by_cases hc : c = '\x00'
    · subst hc
      simp [upToNul, escapeChar]
    · have hmem : '\x00' ∈ c :: cs ↔ '\x00' ∈ cs := by simp [Ne.symm hc]
      have hcut : upToNul (c :: cs) = c :: upToNul cs := by simp [upToNul, hc]
      rw [List.flatMap_cons, List.append_assoc, upToNul_append (nul_notMem_escapeChar hc), ih,
        hcut]
      simp only [hmem, List.flatMap_cons, List.append_assoc]
      split_ifs <;> rfl

theorem upToNul_sqlLower (text : Text) : upToNul (sqlLower text) = sqlLower (upToNul text) := by
  have hsame : (fun c => decide (c ≠ '\x00')) ∘ Char.toLower = fun c => decide (c ≠ '\x00') := by
    funext c
    simp [toLower_eq_nul_iff]
  rw [upToNul, sqlLower, List.takeWhile_map, hsame]
  rfl

theorem sqlLower_sqlLower (text : Text) : sqlLower (sqlLower text) = sqlLower text := by
  rw [sqlLower, sqlLower, List.map_map]
  exact List.map_congr_left fun c _ => toLower_toLower c

/-! ## What is found -/

/-- The text is found up to its first NUL, and in it the needle, up to the case of ASCII letters.
Of a needle with a NUL it is what is before it, and at the end. -/
def LikeHit (needle text : Text) : Prop :=
  if '\x00' ∈ needle then sqlLower (upToNul needle) <:+ sqlLower (upToNul text)
  else sqlLower needle <:+: sqlLower (upToNul text)

instance (needle text : Text) : Decidable (LikeHit needle text) := by
  unfold LikeHit
  infer_instance

/-- **What the pattern of a search matches.**
SOURCE: events/store.py:295-311 -/
theorem like_patternOf_iff (needle text : Text) :
    like (patternOf needle) (sqlLower text) = true ↔ LikeHit needle text := by
  have hpattern : upToNul (patternOf needle) =
      '%' :: if '\x00' ∈ needle then (upToNul needle).flatMap escapeChar
        else needle.flatMap escapeChar ++ ['%'] := by
    have hcut := upToNul_flatMap needle ['%']
    rw [show upToNul ['%'] = ['%'] by decide] at hcut
    rw [patternOf, escaped_eq, List.cons_append, ← hcut]
    simp [upToNul]
  rw [like, hpattern, LikeHit]
  have hlower (t : Text) : sqlLower (upToNul (sqlLower t)) = sqlLower (upToNul t) := by
    rw [upToNul_sqlLower, sqlLower_sqlLower]
  split_ifs with hnul
  · have hitems := likeItems_escaped (upToNul needle) []
    rw [List.append_nil] at hitems
    simp only [likeItems, hitems, Option.map_some, List.append_nil]
    rw [Wildcards.matches_many_literal sameLetter Char.toLower sameLetter_iff]
    exact iff_of_eq (congrArg _ (hlower text))
  · have hitems := likeItems_escaped needle ['%']
    simp only [likeItems, hitems, Option.map_some]
    rw [Wildcards.matches_many_literal_many sameLetter Char.toLower sameLetter_iff]
    exact iff_of_eq (congrArg _ (hlower text))

end OpenRecall.Analysis.LikeSearch
