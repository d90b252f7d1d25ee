import Mathlib

/-!
# Patterns with wildcards

A pattern is a list of characters, of wildcards for one character, and of wildcards for any number
of them. Which characters match is a parameter. A pattern without wildcards in it matches what it
matches character by character (`matches_literal`), so that one with a wildcard on either side
matches the texts that have a match of it inside (`matches_many_literal_many`).
-/

set_option autoImplicit false

namespace Foundation.Wildcards

universe u v

inductive Item (α : Type u) where
  | char (c : α)
  | one
  | many

variable {α : Type u} (same : α → α → Bool)

/-- The pattern matches the text, to its end. -/
def Matches : List (Item α) → List α → Bool
  | [], text => text.isEmpty
  | .char c :: items, d :: text => same c d && Matches items text
  | .one :: items, _ :: text => Matches items text
  | .char _ :: _, [] => false
  | .one :: _, [] => false
  | .many :: items, text => text.tails.any (Matches items)

/-- A pattern without wildcards. -/
def literal (cs : List α) : List (Item α) := cs.map .char

/-- A wildcard for any number of characters leaves some rest to the pattern after it. -/
theorem matches_many {items : List (Item α)} {text : List α} :
    Matches same (.many :: items) text ↔ ∃ rest, rest <:+ text ∧ Matches same items rest := by
  simp [Matches, List.any_eq_true]

/-- **Characters match one by one**, and the pattern after them matches what is left. -/
theorem matches_literal_append {cs : List α} {items : List (Item α)} {text : List α} :
    Matches same (literal cs ++ items) text ↔
      ∃ found rest, text = found ++ rest ∧ List.Forall₂ (fun c d => same c d) cs found ∧
        Matches same items rest := by
  induction cs generalizing text with
  | nil =>
    constructor
    · exact fun h => ⟨[], text, rfl, .nil, h⟩
    · rintro ⟨found, rest, rfl, hsame, h⟩
      cases hsame
      exact h
  | cons c cs ih =>
    constructor
    · intro h
      cases text with
      | nil => simp [literal, Matches] at h
      | cons d text =>
        rw [literal, List.map_cons, List.cons_append, Matches, Bool.and_eq_true] at h
        obtain ⟨found, rest, rfl, hsame, hrest⟩ := ih.mp h.2
        exact ⟨d :: found, rest, rfl, .cons h.1 hsame, hrest⟩
    · rintro ⟨found, rest, rfl, hsame, h⟩
      cases hsame with
      | cons hc hsame =>
        rw [literal, List.map_cons, List.cons_append, List.cons_append, Matches,
          Bool.and_eq_true]
        exact ⟨hc, ih.mpr ⟨_, rest, rfl, hsame, h⟩⟩

section Folding

variable {β : Type v} (fold : α → β) (hsame : ∀ c d, same c d = true ↔ fold c = fold d)

include hsame

/-- Characters that match when they fold to the same. -/
theorem forall₂_iff_map_eq {cs found : List α} :
    List.Forall₂ (fun c d => same c d) cs found ↔ cs.map fold = found.map fold := by
  induction cs generalizing found with
  | nil => cases found <;> simp
  | cons c cs ih =>
    cases found with
    | nil => simp
    | cons d found =>
      rw [List.forall₂_cons, ih, hsame, List.map_cons, List.map_cons, List.cons.injEq]

/-- Anything, and then some characters: they end the text. -/
theorem matches_many_literal {cs text : List α} :
    Matches same (.many :: literal cs) text ↔ cs.map fold <:+ text.map fold := by
  rw [matches_many]
  constructor
  · rintro ⟨rest, ⟨before, rfl⟩, h⟩
    rw [← List.append_nil (literal cs), matches_literal_append] at h
    obtain ⟨found, left, rfl, hfound, hleft⟩ := h
    obtain rfl : left = [] := by simpa [Matches] using hleft
    rw [(forall₂_iff_map_eq same fold hsame).mp hfound, List.append_nil, List.map_append]
    exact List.suffix_append _ _
  · rintro ⟨before, hbefore⟩
    obtain ⟨before', rest, rfl, -, hrest⟩ := List.map_eq_append_iff.mp hbefore.symm
    refine ⟨rest, List.suffix_append _ _, ?_⟩
    rw [← List.append_nil (literal cs), matches_literal_append]
    exact ⟨rest, [], by simp, (forall₂_iff_map_eq same fold hsame).mpr hrest.symm, rfl⟩

/-- **Some characters between anything and anything**: they are in the text. -/
theorem matches_many_literal_many {cs text : List α} :
    Matches same (.many :: (literal cs ++ [.many])) text ↔ cs.map fold <:+: text.map fold := by
  rw [matches_many]
  constructor
  · rintro ⟨rest, ⟨before, rfl⟩, h⟩
    obtain ⟨found, left, rfl, hfound, -⟩ := (matches_literal_append same).mp h
    rw [(forall₂_iff_map_eq same fold hsame).mp hfound, List.map_append, List.map_append,
      ← List.append_assoc]
    exact List.infix_append _ _ _
  · rintro ⟨before, after, h⟩
    rw [List.append_assoc] at h
    obtain ⟨before', rest, rfl, -, hrest⟩ := List.map_eq_append_iff.mp h.symm
    obtain ⟨found, after', rfl, hfound, -⟩ := List.map_eq_append_iff.mp hrest
    refine ⟨found ++ after', List.suffix_append _ _, (matches_literal_append same).mpr
      ⟨found, after', rfl, (forall₂_iff_map_eq same fold hsame).mpr hfound.symm, ?_⟩⟩
    rw [matches_many]
    exact ⟨[], List.nil_suffix, rfl⟩

end Folding

end Foundation.Wildcards
