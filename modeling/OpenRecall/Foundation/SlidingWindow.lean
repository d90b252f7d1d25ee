import Mathlib

/-!
# Windows over a stream

A rolling buffer keeps the end of what was put in, however it was cut (`rtake_rtake_append`).

`InTurn` says of a list that each entry has a start and a later stop and that the next entry starts
no earlier than the last one stops. A cursor that stands at such a stop cuts the list in two, with no
entry across it (`InTurn.cut`, `InTurn.filter_append_filter`), so what was taken before the cursor
and some of what comes after it is again a sublist (`InTurn.append_sublist`).
-/

set_option autoImplicit false

namespace Foundation.SlidingWindow

universe u v

/-! ## The buffer -/

section Buffer

variable {α : Type u}

theorem rtake_of_length_le {n : ℕ} {xs : List α} (h : xs.length ≤ n) : xs.rtake n = xs := by
  rw [List.rtake, Nat.sub_eq_zero_of_le h, List.drop_zero]

theorem length_rtake (n : ℕ) (xs : List α) : (xs.rtake n).length = min n xs.length := by
  rw [List.rtake, List.length_drop]
  omega

theorem length_rtake_le (n : ℕ) (xs : List α) : (xs.rtake n).length ≤ n := by
  rw [length_rtake]
  exact min_le_left _ _

theorem map_rtake {β : Type v} (f : α → β) (n : ℕ) (xs : List α) :
    (xs.rtake n).map f = (xs.map f).rtake n := by
  simp [List.rtake, List.map_drop]

/-- A buffer of the last `n` entries may forget the others before the next ones come. -/
theorem rtake_rtake_append (n : ℕ) (xs ys : List α) :
    (xs.rtake n ++ ys).rtake n = (xs ++ ys).rtake n := by
  have hdrop : xs.rtake n ++ ys = (xs ++ ys).drop (xs.length - n) := by
    rw [List.rtake, List.drop_append_of_le_length (by omega)]
  rw [hdrop, List.rtake, List.rtake, List.drop_drop, List.length_drop, List.length_append]
  congr 1
  omega

/-- With one more entry, the window holds that one, if it has room, and a window one shorter. -/
theorem mem_rtake_concat {n : ℕ} {xs : List α} {x y : α} :
    x ∈ (xs ++ [y]).rtake n ↔ 0 < n ∧ x = y ∨ x ∈ xs.rtake (n - 1) := by
  cases n with
  | zero => simp
  | succ n =>
    rw [List.rtake_concat_succ, List.mem_append, List.mem_singleton]
    simp [or_comm]

end Buffer

/-! ## Entries one after the other -/

section InTurn

variable {α : Type u} {β : Type v} [LinearOrder β] {start stop : α → β}

/-- Each entry ends after it starts, and the next ones start no earlier than it ends. -/
structure InTurn (start stop : α → β) (l : List α) : Prop where
  lt : ∀ a ∈ l, start a < stop a
  pairwise : l.Pairwise fun a b => stop a ≤ start b

namespace InTurn

variable {l s : List α}

theorem sublist (h : InTurn start stop l) (hs : s.Sublist l) : InTurn start stop s where
  lt a ha := h.lt a (hs.subset ha)
  pairwise := h.pairwise.sublist hs

theorem stop_lt (h : InTurn start stop l) : l.Pairwise fun a b => stop a < stop b :=
  h.pairwise.imp_of_mem fun _ hb hab => lt_of_le_of_lt hab (h.lt _ hb)

theorem nodup (h : InTurn start stop l) : l.Nodup :=
  h.stop_lt.imp fun {a b} hab (heq : a = b) => lt_irrefl (stop b) (heq ▸ hab)

/-- The stop of an entry cuts no other. -/
theorem cut (h : InTurn start stop l) {a b : α} (ha : a ∈ l) (hb : b ∈ l) :
    stop b ≤ stop a ∨ stop a ≤ start b := by
  induction l with
  | nil => simp at ha
  | cons x l ih =>
    have hpair := List.pairwise_cons.mp h.pairwise
    rcases List.mem_cons.mp ha with rfl | ha' <;> rcases List.mem_cons.mp hb with rfl | hb'
    · exact Or.inl le_rfl
    · exact Or.inr (hpair.1 b hb')
    · exact Or.inl ((hpair.1 a ha').trans (h.lt a ha).le)
    · exact ih (h.sublist (List.sublist_cons_self x l)) ha' hb'

/-- What stops by a time comes before what stops after it. -/
theorem filter_append_filter (h : InTurn start stop l) (c : β) :
    l.filter (fun a => stop a ≤ c) ++ l.filter (fun a => c < stop a) = l := by
  induction l with
  | nil => rfl
  | cons x l ih =>
    have ih := ih (h.sublist (List.sublist_cons_self x l))
    rcases le_or_gt (stop x) c with hx | hx
    · simp [hx, hx.not_gt, ih]
    · have hrest : ∀ a ∈ l, c < stop a := fun a ha =>
        hx.trans (List.rel_of_pairwise_cons h.stop_lt ha)
      have hnil : l.filter (fun a => stop a ≤ c) = [] := by
        simpa [List.filter_eq_nil_iff] using hrest
      have hall : l.filter (fun a => c < stop a) = l := by
        simpa [List.filter_eq_self] using hrest
      simp [hx, hx.not_ge, hnil, hall]

/-- Entries taken up to a cursor, and then some that stop after it, are entries in their order. -/
theorem append_sublist (h : InTurn start stop l) {c : β} {t : List α} (hs : s.Sublist l)
    (hc : ∀ a ∈ s, stop a ≤ c) (ht : t.Sublist (l.filter fun a => c < stop a)) :
    (s ++ t).Sublist l := by
  have hs' : s.Sublist (l.filter fun a => stop a ≤ c) := by
    have hself : s.filter (fun a => stop a ≤ c) = s := by simpa [List.filter_eq_self] using hc
    exact hself ▸ hs.filter _
  exact h.filter_append_filter c ▸ hs'.append ht

/-- No entry stops later than the last one. -/
theorem stop_le_getLast (h : InTurn start stop l) (hne : l ≠ []) {a : α} (ha : a ∈ l) :
    stop a ≤ stop (l.getLast hne) := by
  rw [← List.dropLast_append_getLast hne] at ha h
  rcases List.mem_append.mp ha with ha | ha
  · exact (List.pairwise_append.mp h.stop_lt).2.2 a ha _ (by simp) |>.le
  · rw [List.mem_singleton.mp ha]

/-- A sublist that has just the entries with a property is the filter by it. -/
theorem eq_filter (h : InTurn start stop l) (hs : s.Sublist l) {p : α → Bool}
    (hp : ∀ a ∈ l, a ∈ s ↔ p a = true) : s = l.filter p := by
  have hself : s.filter p = s := by
    rw [List.filter_eq_self]
    exact fun a ha => (hp a (hs.subset ha)).mp ha
  have hsub : s.Sublist (l.filter p) := hself ▸ hs.filter p
  refine hsub.eq_of_length_le ?_
  refine (List.subperm_of_subset ((h.nodup).filter p) fun a ha => ?_).length_le
  rw [List.mem_filter] at ha
  exact (hp a ha.1).mpr ha.2

end InTurn

end InTurn

end Foundation.SlidingWindow
