import Mathlib

/-!
# What a stable sort finds first

In a list without repetition, `[a, b] <+ l` says that `a` stands before `b`. A stable sort puts one
element before another when it is less, or when neither is less and it stood before, and a search
from the front ends at the element that stands before all others that are looked for. Two stable
sorts of a list agree when they agree about its pairs (`insertionSort_eq_insertionSort_iff`).
-/

set_option autoImplicit false

namespace Foundation

universe u

variable {α : Type u}

/-- Of two elements of a list one stands before the other. -/
theorem pair_sublist_or {l : List α} {a b : α} (ha : a ∈ l) (hb : b ∈ l) (hab : a ≠ b) :
    List.Sublist [a, b] l ∨ List.Sublist [b, a] l := by
  induction l with
  | nil => cases ha
  | cons c l ih =>
    rcases List.mem_cons.mp ha with rfl | ha'
    · rcases List.mem_cons.mp hb with rfl | hb'
      · exact absurd rfl hab
      · exact .inl ((List.singleton_sublist.mpr hb').cons_cons a)
    · rcases List.mem_cons.mp hb with rfl | hb'
      · exact .inr ((List.singleton_sublist.mpr ha').cons_cons b)
      · exact (ih ha' hb').imp (fun h => h.cons c) fun h => h.cons c

/-- And not the other before the one. -/
theorem not_pair_sublist {l : List α} (hl : l.Nodup) {a b : α} (h : List.Sublist [a, b] l) :
    ¬ List.Sublist [b, a] l := by
  induction l with
  | nil => cases h
  | cons c l ih =>
    obtain ⟨hc, hl'⟩ := List.nodup_cons.mp hl
    intro h'
    cases h with
    | cons _ h =>
      cases h' with
      | cons _ h' => exact ih hl' h h'
      | cons_cons _ h' => exact hc (h.subset (List.mem_cons_of_mem a List.mem_cons_self))
    | cons_cons _ h =>
      cases h' with
      | cons _ h' => exact hc (h'.subset (List.mem_cons_of_mem b List.mem_cons_self))
      | cons_cons _ h' => exact hc (List.singleton_sublist.mp h)

/-- What a search from the front ends at stands before the others that are looked for. -/
theorem pair_sublist_of_find? {l : List α} {p : α → Bool} {a b : α} (h : l.find? p = some a)
    (hb : b ∈ l) (hpb : p b = true) (hne : b ≠ a) : List.Sublist [a, b] l := by
  obtain ⟨-, before, after, rfl, hbefore⟩ := List.find?_eq_some_iff_append.mp h
  rcases List.mem_append.mp hb with hb | hb
  · have := hbefore b hb
    simp [hpb] at this
  · have hafter := (List.mem_cons.mp hb).resolve_left hne
    exact ((List.singleton_sublist.mpr hafter).cons_cons a).trans (List.sublist_append_right _ _)

section

variable {r : α → α → Prop} [DecidableRel r]

/-- **A stable sort** puts one element before another when it is less, or when neither is less and
it stood before. -/
theorem pair_sublist_insertionSort_iff [Std.Total r] [IsTrans α r] {l : List α} (hl : l.Nodup)
    {a b : α} (ha : a ∈ l) (hb : b ∈ l) (hab : a ≠ b) :
    List.Sublist [a, b] (l.insertionSort r) ↔ r a b ∧ (¬ r b a ∨ List.Sublist [a, b] l) := by
  have hsorted : (l.insertionSort r).Nodup := (List.perm_insertionSort r l).nodup_iff.mpr hl
  have horder : ∀ c d, List.Sublist [c, d] (l.insertionSort r) → r c d := fun c d =>
    (List.pairwise_insertionSort r l).forall_sublist
  constructor
  · intro h
    refine ⟨horder a b h, ?_⟩
    by_contra hnot
    obtain ⟨hba, hbefore⟩ := not_or.mp hnot
    have hother := (pair_sublist_or ha hb hab).resolve_left hbefore
    exact not_pair_sublist hsorted h (List.pair_sublist_insertionSort (not_not.mp hba) hother)
  · rintro ⟨hrab, hless | hbefore⟩
    · have ha' := (List.mem_insertionSort r).mpr ha
      have hb' := (List.mem_insertionSort r).mpr hb
      exact (pair_sublist_or ha' hb' hab).resolve_right fun h => hless (horder b a h)
    · exact List.pair_sublist_insertionSort hrab hbefore

/-! ## Sorting in parts -/

theorem orderedInsert_append_left {a : α} {ys : List α} (h : ∀ b ∈ ys, r a b) (xs : List α) :
    (xs ++ ys).orderedInsert r a = xs.orderedInsert r a ++ ys := by
  induction xs with
  | nil =>
    cases ys with
    | nil => simp
    | cons b ys => simp [h b List.mem_cons_self]
  | cons x xs ih =>
    rw [List.cons_append, List.orderedInsert_cons, List.orderedInsert_cons]
    split_ifs
    · simp
    · simp [ih]

theorem orderedInsert_append_right {a : α} {xs : List α} (h : ∀ b ∈ xs, ¬ r a b) (ys : List α) :
    (xs ++ ys).orderedInsert r a = xs ++ ys.orderedInsert r a := by
  induction xs with
  | nil => simp
  | cons x xs ih =>
    have hx := h x List.mem_cons_self
    simp [hx, ih fun b hb => h b (List.mem_cons_of_mem x hb)]

/-- What may stand after everything that came before it stays last. -/
theorem insertionSort_append {xs ys : List α} (h : ∀ a ∈ xs, ∀ b ∈ ys, r a b) :
    (xs ++ ys).insertionSort r = xs.insertionSort r ++ ys.insertionSort r := by
  induction xs with
  | nil => simp
  | cons x xs ih =>
    have hx : ∀ b ∈ ys.insertionSort r, r x b := fun b hb =>
      h x List.mem_cons_self b ((List.mem_insertionSort r).mp hb)
    rw [List.cons_append, List.insertionSort_cons, List.insertionSort_cons,
      ih fun a ha => h a (List.mem_cons_of_mem x ha), orderedInsert_append_left hx]

/-- **Two parts of a list are sorted one after the other** when whatever is in the one may stand
before whatever is in the other, and must where it came later. -/
theorem insertionSort_eq_append {p : α → Bool} {l : List α}
    (h : l.Pairwise fun a b =>
      (p a = true → p b = false → r a b) ∧ (p a = false → p b = true → ¬ r a b)) :
    l.insertionSort r =
      (l.filter p).insertionSort r ++ (l.filter fun a => !p a).insertionSort r := by
  induction l with
  | nil => simp
  | cons x l ih =>
    obtain ⟨hx, hl⟩ := List.pairwise_cons.mp h
    rw [List.insertionSort_cons, ih hl]
    cases hp : p x with
    | true =>
      have hlater : ∀ b ∈ (l.filter fun a => !p a).insertionSort r, r x b := by
        intro b hb
        obtain ⟨hmem, hpb⟩ := List.mem_filter.mp ((List.mem_insertionSort r).mp hb)
        exact (hx b hmem).1 hp (by simpa using hpb)
      rw [orderedInsert_append_left hlater]
      simp [hp]
    | false =>
      have hearlier : ∀ b ∈ (l.filter p).insertionSort r, ¬ r x b := by
        intro b hb
        obtain ⟨hmem, hpb⟩ := List.mem_filter.mp ((List.mem_insertionSort r).mp hb)
        exact (hx b hmem).2 hp hpb
      rw [orderedInsert_append_right hearlier]
      simp [hp]

theorem filter_orderedInsert [IsTrans α r] (p : α → Bool) (a : α) {l : List α}
    (hl : l.Pairwise r) :
    (l.orderedInsert r a).filter p =
      if p a then (l.filter p).orderedInsert r a else l.filter p := by
  induction l with
  | nil => cases hp : p a <;> simp [hp]
  | cons x l ih =>
    obtain ⟨hx, hl⟩ := List.pairwise_cons.mp hl
    rw [List.orderedInsert_cons]
    split_ifs with hax hp hp
    · -- everything that is left of the list may stand after the element
      have hall : ∀ b ∈ (x :: l).filter p, r a b := by
        intro b hb
        rcases List.mem_cons.mp (List.mem_of_mem_filter hb) with rfl | hmem
        · exact hax
        · exact trans_of r hax (hx b hmem)
      have hfirst := orderedInsert_append_left hall []
      simpa [hp] using hfirst.symm
    · simp [hp]
    · rw [List.filter_cons, List.filter_cons, ih hl, if_pos hp]
      cases hpx : p x <;> simp [hax]
    · rw [List.filter_cons, List.filter_cons, ih hl, if_neg hp]

/-- A stable sort sorts what a filter leaves. -/
theorem filter_insertionSort [Std.Total r] [IsTrans α r] (p : α → Bool) (l : List α) :
    (l.insertionSort r).filter p = (l.filter p).insertionSort r := by
  induction l with
  | nil => simp
  | cons x l ih =>
    rw [List.insertionSort_cons, filter_orderedInsert p x (List.pairwise_insertionSort r l), ih]
    cases hp : p x <;> simp [hp]

end

/-! ## Sorts that agree -/

/-- Lists of the same elements are equal when what stands before another in the one does in the
other. -/
theorem eq_of_pair_sublist {l l' : List α} (hl' : l'.Nodup) (hperm : l.Perm l')
    (h : ∀ a b, List.Sublist [a, b] l → List.Sublist [a, b] l') : l = l' := by
  have hbefore : l.Pairwise fun a b => List.Sublist [a, b] l' :=
    List.pairwise_of_forall_sublist fun hab => h _ _ hab
  have hbefore' : l'.Pairwise fun a b => List.Sublist [a, b] l' :=
    List.pairwise_of_forall_sublist fun hab => hab
  exact List.Perm.eq_of_pairwise (fun a b _ _ hab hba => absurd hba (not_pair_sublist hl' hab))
    hbefore hbefore' hperm

section

variable {r s : α → α → Prop} [DecidableRel r] [DecidableRel s] [Std.Total r] [IsTrans α r]
  [Std.Total s] [IsTrans α s]

theorem ne_of_pair_sublist {l : List α} (hl : l.Nodup) {a b : α} (h : List.Sublist [a, b] l) :
    a ≠ b := by
  rintro rfl
  exact not_pair_sublist hl h h

/-- What stood before is sorted before when it may be. -/
theorem pair_sublist_insertionSort_of_pair {l : List α} (hl : l.Nodup) {a b : α}
    (h : List.Sublist [a, b] l) : List.Sublist [a, b] (l.insertionSort r) ↔ r a b := by
  rw [pair_sublist_insertionSort_iff hl (h.subset List.mem_cons_self)
    (h.subset (List.mem_cons_of_mem a List.mem_cons_self)) (ne_of_pair_sublist hl h)]
  exact ⟨fun hab => hab.1, fun hab => ⟨hab, .inr h⟩⟩

/-- **Two stable sorts of a list agree** exactly when they agree about each element and those after
it. -/
theorem insertionSort_eq_insertionSort_iff {l : List α} (hl : l.Nodup) :
    l.insertionSort r = l.insertionSort s ↔
      ∀ a b, List.Sublist [a, b] l → (r a b ↔ s a b) := by
  constructor
  · intro h a b hab
    rw [← pair_sublist_insertionSort_of_pair (r := r) hl hab,
      ← pair_sublist_insertionSort_of_pair (r := s) hl hab, h]
  · intro h
    have hpermr := List.perm_insertionSort r l
    have hperms := List.perm_insertionSort s l
    refine eq_of_pair_sublist (hperms.nodup_iff.mpr hl) (hpermr.trans hperms.symm) fun a b hab => ?_
    have ha := hpermr.subset (hab.subset List.mem_cons_self)
    have hb := hpermr.subset (hab.subset (List.mem_cons_of_mem a List.mem_cons_self))
    have hne := ne_of_pair_sublist (hpermr.nodup_iff.mpr hl) hab
    rcases pair_sublist_or ha hb hne with hfirst | hfirst
    · rw [pair_sublist_insertionSort_of_pair hl hfirst] at hab ⊢
      exact (h a b hfirst).mp hab
    · -- the two changed places in the one sort, and so they do in the other
      have hback : ¬ List.Sublist [b, a] (l.insertionSort r) :=
        not_pair_sublist (hpermr.nodup_iff.mpr hl) hab
      rw [pair_sublist_insertionSort_of_pair hl hfirst, h b a hfirst,
        ← pair_sublist_insertionSort_of_pair (r := s) hl hfirst] at hback
      exact (pair_sublist_or (hperms.mem_iff.mpr ha) (hperms.mem_iff.mpr hb) hne).resolve_right
        hback

/-- A stable sort of another order of the list is the same when those that tie keep their order. -/
theorem insertionSort_eq_of_perm {l l' : List α} (hl : l.Nodup) (hperm : l.Perm l')
    (h : ∀ a b, r a b → r b a → List.Sublist [a, b] l → List.Sublist [a, b] l') :
    l.insertionSort r = l'.insertionSort r := by
  have hl' := hperm.nodup_iff.mp hl
  have hpermr := List.perm_insertionSort r l
  have hpermr' := List.perm_insertionSort r l'
  refine eq_of_pair_sublist (hpermr'.nodup_iff.mpr hl')
    ((hpermr.trans hperm).trans hpermr'.symm) fun a b hab => ?_
  have ha := hpermr.subset (hab.subset List.mem_cons_self)
  have hb := hpermr.subset (hab.subset (List.mem_cons_of_mem a List.mem_cons_self))
  have hne := ne_of_pair_sublist (hpermr.nodup_iff.mpr hl) hab
  rw [pair_sublist_insertionSort_iff hl ha hb hne] at hab
  rw [pair_sublist_insertionSort_iff hl' (hperm.subset ha) (hperm.subset hb) hne]
  refine ⟨hab.1, or_iff_not_imp_left.mpr fun hties => ?_⟩
  exact h a b hab.1 (not_not.mp hties) (hab.2.resolve_left hties)

end

/-- A list in which what has a property comes first is what has it and then the rest. -/
theorem filter_append_filter_not {p : α → Bool} {l : List α}
    (h : l.Pairwise fun a b => p b = true → p a = true) :
    l.filter p ++ l.filter (fun a => !p a) = l := by
  induction l with
  | nil => simp
  | cons x l ih =>
    obtain ⟨hx, hl⟩ := List.pairwise_cons.mp h
    cases hp : p x with
    | true => simp [hp, ih hl]
    | false =>
      have hnone : ∀ b ∈ l, p b = false := by
        intro b hb
        by_contra hpb
        simp [hx b hb (by simpa using hpb)] at hp
      have hrest : l.filter p = [] := by simpa [List.filter_eq_nil_iff] using hnone
      have hall : (l.filter fun a => !p a) = l := by simpa [List.filter_eq_self] using hnone
      simp [hp, hrest, hall]

end Foundation
