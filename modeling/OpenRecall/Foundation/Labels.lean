import Mathlib

/-!
# Labels with a numbered suffix

An id is often a name, a colon and a number. The number has no colon, so the last colon of the
label is the one between them and both parts can be read back.
-/

set_option autoImplicit false

namespace Foundation

universe u

/-- What stands before and after the first occurrence of a separator is determined. -/
theorem append_cons_inj {α : Type u} {c : α} {xs ys as bs : List α} (hx : c ∉ xs) (hy : c ∉ ys)
    (h : xs ++ c :: as = ys ++ c :: bs) : xs = ys ∧ as = bs := by
  induction xs generalizing ys with
  | nil =>
    cases ys with
    | nil => simpa using h
    | cons y ys =>
      rw [List.nil_append, List.cons_append, List.cons.injEq] at h
      exact absurd (h.1 ▸ List.mem_cons_self) hy
  | cons x xs ih =>
    cases ys with
    | nil =>
      rw [List.nil_append, List.cons_append, List.cons.injEq] at h
      exact absurd (h.1 ▸ List.mem_cons_self) hx
    | cons y ys =>
      rw [List.cons_append, List.cons_append, List.cons.injEq] at h
      rw [List.mem_cons, not_or] at hx hy
      obtain ⟨hxs, has⟩ := ih hx.2 hy.2 h.2
      exact ⟨by rw [h.1, hxs], has⟩

/-- A label is determined by its name and a suffix without a colon. -/
theorem label_inj {name name' suffix suffix' : String} (hs : ':' ∉ suffix.toList)
    (hs' : ':' ∉ suffix'.toList) (h : name ++ ":" ++ suffix = name' ++ ":" ++ suffix') :
    name = name' ∧ suffix = suffix' := by
  have hcolon : (":" : String).toList = [':'] := rfl
  have hrev := congrArg (fun s => s.toList.reverse) h
  simp only [String.toList_append, hcolon, List.append_assoc, List.singleton_append,
    List.reverse_append, List.reverse_cons] at hrev
  obtain ⟨hsuffix, hname⟩ := append_cons_inj (by simpa using hs) (by simpa using hs') hrev
  exact ⟨String.toList_inj.mp (List.reverse_injective hname),
    String.toList_inj.mp (List.reverse_injective hsuffix)⟩

theorem colon_notMem_repr (n : ℕ) : ':' ∉ n.repr.toList := by
  intro hmem
  rw [Nat.repr, String.toList_ofList] at hmem
  have := Nat.isDigit_of_mem_toDigits (by decide) (by decide) hmem
  simp at this

/-- A number's text has no colon. -/
theorem colon_notMem_toString (n : ℤ) : ':' ∉ (toString n).toList := by
  rw [Int.toString_eq_repr, Int.repr_eq_if]
  split_ifs
  · exact colon_notMem_repr _
  · have hminus : ("-" : String).toList = ['-'] := rfl
    simpa [hminus] using colon_notMem_repr (-n).toNat

end Foundation
