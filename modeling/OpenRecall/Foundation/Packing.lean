import Mathlib

/-!
# Packing in order

Items with sizes go into packets of at most `budget`, in order: `fit` takes as many as fit, and
`packs` goes on with the rest. An item that does not fit an empty packet is dropped. Every pack
comes with the item that did not fit into it any more, if there is one.

`chunks` are the packets that hold something; their items are among the items, in order
(`flatten_chunks_sublist`). Items of no size make no difference to which of the others fit
(`fit_filter`).
-/

set_option autoImplicit false

namespace Foundation

universe u

variable {α : Type u} (size : α → ℕ) (budget : ℕ)

/-- The items that fit when some of the budget is used, and the rest. -/
def fit : ℕ → List α → List α × List α
  | _, [] => ([], [])
  | used, x :: xs =>
    if used + size x ≤ budget then (x :: (fit (used + size x) xs).1, (fit (used + size x) xs).2)
    else ([], x :: xs)

/-- The items left after a pack; one that no packet holds is dropped. -/
def leftover : List α × List α → List α
  | ([], rest) => rest.tail
  | (_ :: _, rest) => rest

/-- Pack by pack; an item is taken each time, so their number is fuel enough. -/
def packFrom : ℕ → List α → List (List α × Option α)
  | 0, _ => []
  | _ + 1, [] => []
  | fuel + 1, x :: xs =>
    ((fit size budget 0 (x :: xs)).1, (fit size budget 0 (x :: xs)).2.head?) ::
      packFrom fuel (leftover (fit size budget 0 (x :: xs)))

/-- The packs of the items, each with the item that did not fit. -/
def packs (xs : List α) : List (List α × Option α) := packFrom size budget xs.length xs

variable {size budget}

@[simp] theorem fit_nil (used : ℕ) : fit size budget used [] = ([], []) := rfl

theorem fit_cons_of_le {used : ℕ} {x : α} (h : used + size x ≤ budget) (xs : List α) :
    fit size budget used (x :: xs) =
      (x :: (fit size budget (used + size x) xs).1, (fit size budget (used + size x) xs).2) :=
  if_pos h

theorem fit_cons_of_lt {used : ℕ} {x : α} (h : budget < used + size x) (xs : List α) :
    fit size budget used (x :: xs) = ([], x :: xs) :=
  if_neg (not_le.mpr h)

variable (size budget) in
/-- What fits and the rest are the items. -/
theorem fit_append (used : ℕ) (xs : List α) :
    (fit size budget used xs).1 ++ (fit size budget used xs).2 = xs := by
  induction xs generalizing used with
  | nil => rfl
  | cons x xs ih =>
    rw [fit]
    split_ifs
    · exact congrArg (x :: ·) (ih (used + size x))
    · rfl

variable (size) in
/-- What fits is within the budget. -/
theorem sum_fit_le (used : ℕ) (hused : used ≤ budget) (xs : List α) :
    used + ((fit size budget used xs).1.map size).sum ≤ budget := by
  induction xs generalizing used with
  | nil => exact hused
  | cons x xs ih =>
    rw [fit]
    split_ifs with hfits
    · rw [List.map_cons, List.sum_cons, ← Nat.add_assoc]
      exact ih (used + size x) hfits
    · exact hused

/-- The first item of the rest does not fit. -/
theorem lt_of_fit_rest {used : ℕ} {xs rest : List α} {y : α}
    (h : (fit size budget used xs).2 = y :: rest) :
    budget < used + ((fit size budget used xs).1.map size).sum + size y := by
  induction xs generalizing used with
  | nil => cases h
  | cons x xs ih =>
    rw [fit] at h ⊢
    split_ifs at h ⊢ with hfits
    · rw [List.map_cons, List.sum_cons, ← Nat.add_assoc]
      exact ih h
    · obtain ⟨rfl, -⟩ := List.cons.inj h
      exact not_le.mp hfits

variable (size budget) in
/-- An item is taken each time. -/
theorem length_leftover_fit (x : α) (xs : List α) :
    (leftover (fit size budget 0 (x :: xs))).length ≤ xs.length := by
  have hlength := congrArg List.length (fit_append size budget 0 (x :: xs))
  rw [List.length_append, List.length_cons] at hlength
  cases hfit : fit size budget 0 (x :: xs) with
  | mk pack rest =>
    rw [hfit] at hlength
    cases pack with
    | nil => simp only [leftover, List.length_tail, List.length_nil] at hlength ⊢; omega
    | cons y ys => simp only [leftover, List.length_cons] at hlength ⊢; omega

/-- More fuel than there are items changes nothing. -/
theorem packFrom_eq {fuel fuel' : ℕ} {xs : List α} (h : xs.length ≤ fuel)
    (h' : xs.length ≤ fuel') :
    packFrom size budget fuel xs = packFrom size budget fuel' xs := by
  induction fuel generalizing fuel' xs with
  | zero =>
    obtain rfl := List.eq_nil_of_length_eq_zero (Nat.le_zero.mp h)
    cases fuel' <;> rfl
  | succ fuel ih =>
    cases xs with
    | nil => cases fuel' <;> rfl
    | cons x xs =>
      cases fuel' with
      | zero => cases h'
      | succ fuel' =>
        have hleft := length_leftover_fit size budget x xs
        rw [packFrom, packFrom]
        apply congrArg
        apply ih
        · exact hleft.trans (Nat.le_of_succ_le_succ h)
        · exact hleft.trans (Nat.le_of_succ_le_succ h')

@[simp] theorem packs_nil : packs size budget [] = [] := rfl

/-- The first pack, and then those of what is left. -/
theorem packs_cons (x : α) (xs : List α) :
    packs size budget (x :: xs) =
      ((fit size budget 0 (x :: xs)).1, (fit size budget 0 (x :: xs)).2.head?) ::
        packs size budget (leftover (fit size budget 0 (x :: xs))) := by
  rw [packs, List.length_cons, packFrom]
  apply congrArg
  exact packFrom_eq (length_leftover_fit size budget x xs) le_rfl

/-- No pack is over the budget. -/
theorem sum_packs_le {xs : List α} : ∀ p ∈ packs size budget xs, (p.1.map size).sum ≤ budget := by
  induction hn : xs.length using Nat.strong_induction_on generalizing xs with
  | _ n ih =>
    cases xs with
    | nil => simp
    | cons x xs =>
      rw [packs_cons, List.forall_mem_cons]
      have hfirst := sum_fit_le size 0 (Nat.zero_le budget) (x :: xs)
      rw [Nat.zero_add] at hfirst
      refine ⟨hfirst, ih _ ?_ rfl⟩
      have hleft := length_leftover_fit size budget x xs
      rw [← hn, List.length_cons]
      omega

/-! ## What is in the packets -/

variable (size budget) in
/-- The packets that hold something. -/
def chunks (xs : List α) : List (List α) := ((packs size budget xs).map Prod.fst).filter (· ≠ [])

@[simp] theorem chunks_nil : chunks size budget [] = [] := rfl

/-- An item that fits no packet is dropped. -/
theorem chunks_cons_of_nil {x : α} {xs rest : List α}
    (h : fit size budget 0 (x :: xs) = ([], rest)) :
    chunks size budget (x :: xs) = chunks size budget rest.tail := by
  rw [chunks, packs_cons, List.map_cons, h, List.filter_cons_of_neg (by simp)]
  rfl

/-- The first packet, and then those of the rest. -/
theorem chunks_cons_of_cons {x y : α} {xs pack rest : List α}
    (h : fit size budget 0 (x :: xs) = (y :: pack, rest)) :
    chunks size budget (x :: xs) = (y :: pack) :: chunks size budget rest := by
  rw [chunks, packs_cons, List.map_cons, h, List.filter_cons_of_pos (by simp)]
  rfl

/-- Items that fit the budget together fit together. -/
theorem fit_of_sum_le {used : ℕ} {xs : List α} (h : used + (xs.map size).sum ≤ budget) :
    fit size budget used xs = (xs, []) := by
  induction xs generalizing used with
  | nil => rfl
  | cons x xs ih =>
    rw [List.map_cons, List.sum_cons, ← Nat.add_assoc] at h
    rw [fit_cons_of_le (by omega), ih h]

/-- Items that fit the budget together go into one packet. -/
theorem chunks_of_sum_le {xs : List α} (hne : xs ≠ []) (h : (xs.map size).sum ≤ budget) :
    chunks size budget xs = [xs] := by
  cases xs with
  | nil => exact absurd rfl hne
  | cons x xs => rw [chunks_cons_of_cons (fit_of_sum_le (by rwa [Nat.zero_add])), chunks_nil]

/-- An item that is taken is within the budget. -/
theorem size_le_of_mem_fit {used : ℕ} {xs : List α} {x : α}
    (h : x ∈ (fit size budget used xs).1) : used + size x ≤ budget := by
  induction xs generalizing used with
  | nil => cases h
  | cons y ys ih =>
    rw [fit] at h
    split_ifs at h with hfits
    · rcases List.mem_cons.mp h with rfl | hrest
      · exact hfits
      · have hlater := ih hrest
        omega
    · cases h

variable (size budget) in
/-- **The packets have every item that fits the budget**, once and in order. -/
theorem flatten_chunks (xs : List α) :
    (chunks size budget xs).flatten = xs.filter fun x => size x ≤ budget := by
  induction hn : xs.length using Nat.strong_induction_on generalizing xs with
  | _ n ih =>
    cases xs with
    | nil => simp
    | cons x xs =>
      have happend := fit_append size budget 0 (x :: xs)
      have hlength := congrArg List.length happend
      rw [List.length_append, hn] at hlength
      cases hfit : fit size budget 0 (x :: xs) with
      | mk pack rest =>
        have hpack : ∀ y ∈ pack, size y ≤ budget := by
          intro y hy
          have hmem : y ∈ (fit size budget 0 (x :: xs)).1 := by
            rw [hfit]
            exact hy
          have hle := size_le_of_mem_fit hmem
          omega
        have hrest : ∀ y ys, (fit size budget 0 (x :: xs)).2 = y :: ys → _ :=
          fun y ys => lt_of_fit_rest
        rw [hfit] at happend hlength hrest
        dsimp only at happend hlength hrest
        cases pack with
        | nil =>
          obtain rfl : rest = x :: xs := happend
          have hbig := hrest x xs rfl
          rw [List.map_nil, List.sum_nil, Nat.zero_add, Nat.zero_add] at hbig
          rw [chunks_cons_of_nil hfit, List.tail_cons,
            List.filter_cons_of_neg (by simpa using hbig)]
          exact ih xs.length (by rw [← hn]; exact Nat.lt_succ_self _) xs rfl
        | cons y pack =>
          rw [List.length_cons] at hlength
          rw [chunks_cons_of_cons hfit, List.flatten_cons, ← happend, List.filter_append,
            List.filter_eq_self.mpr fun y hy => decide_eq_true (hpack y hy)]
          exact congrArg (_ ++ ·) (ih rest.length (by omega) rest rfl)

variable (size budget) in
/-- The packets, one after the other, are among the items, in order. -/
theorem flatten_chunks_sublist (xs : List α) :
    (chunks size budget xs).flatten.Sublist xs := by
  rw [flatten_chunks]
  exact List.filter_sublist

/-- The items of a packet are among the items, in order. -/
theorem sublist_of_mem_chunks {xs chunk : List α} (h : chunk ∈ chunks size budget xs) :
    chunk.Sublist xs :=
  (List.sublist_flatten_of_mem h).trans (flatten_chunks_sublist size budget xs)

/-- Items are packed by their sizes alone. -/
theorem fit_map {β : Type*} (g : β → α) (used : ℕ) (xs : List β) :
    fit size budget used (xs.map g) =
      ((fit (fun x => size (g x)) budget used xs).1.map g,
        (fit (fun x => size (g x)) budget used xs).2.map g) := by
  induction xs generalizing used with
  | nil => rfl
  | cons x xs ih =>
    rw [List.map_cons, fit, fit]
    split_ifs
    · rw [ih]
      rfl
    · rfl

/-! ## Items of no size -/

section

variable {size' : α → ℕ} {keep : α → Bool}

/-- **Items of no size do not matter** to which of the others fit. -/
theorem fit_filter {used : ℕ} (hused : used ≤ budget) {xs : List α}
    (hsize : ∀ x ∈ xs, size x = if keep x then size' x else 0) :
    fit size' budget used (xs.filter keep) =
      ((fit size budget used xs).1.filter keep, (fit size budget used xs).2.filter keep) := by
  induction xs generalizing used with
  | nil => rfl
  | cons x xs ih =>
    have hrest : ∀ y ∈ xs, size y = if keep y then size' y else 0 :=
      fun y hy => hsize y (List.mem_cons_of_mem x hy)
    have hx := hsize x List.mem_cons_self
    cases hkeep : keep x with
    | false =>
      have hzero : used + size x = used := by simp [hx, hkeep]
      rw [List.filter_cons_of_neg (by simp [hkeep]), ih hused hrest,
        fit_cons_of_le (hzero.symm ▸ hused), hzero, List.filter_cons_of_neg (by simp [hkeep])]
    | true =>
      rw [hkeep, if_pos rfl] at hx
      rw [List.filter_cons_of_pos hkeep, fit, fit, hx]
      split_ifs with hfits
      · rw [ih hfits hrest, List.filter_cons_of_pos hkeep]
      · rw [List.filter_nil, List.filter_cons_of_pos hkeep]

end

end Foundation
