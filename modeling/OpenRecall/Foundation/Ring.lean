import Mathlib

/-!
# Ring buffers

A ring of `n` slots with a head: a push overwrites the slot at the head and advances it.
`Ring.toList` reads the slots oldest first, and `toList_pushAll` says what a ring is for:
after any number of pushes it holds the last `n` of them, preceded by what is left of its
first contents.
-/

set_option autoImplicit false

namespace Foundation

universe u

/-- A ring of `n` slots; the head is the slot that is overwritten next. -/
structure Ring (α : Type u) (n : ℕ) where
  slots : Fin n → α
  head : Fin n

namespace Ring

variable {α : Type u} {n : ℕ} [NeZero n]

/-- A ring whose slots all hold `x`. -/
def fill (x : α) : Ring α n := ⟨fun _ => x, 0⟩

/-- Overwrite the slot at the head and advance it. -/
def push (r : Ring α n) (x : α) : Ring α n where
  slots := Function.update r.slots r.head x
  head := r.head + 1

def pushAll (r : Ring α n) (xs : List α) : Ring α n := xs.foldl push r

theorem pushAll_append_singleton (r : Ring α n) (xs : List α) (x : α) :
    r.pushAll (xs ++ [x]) = (r.pushAll xs).push x := by
  unfold pushAll
  rw [List.foldl_append, List.foldl_cons, List.foldl_nil]

/-- The slots, oldest first. -/
def toList (r : Ring α n) : List α := List.ofFn fun i : Fin n => r.slots (r.head + i)

omit [NeZero n] in
@[simp] theorem length_toList (r : Ring α n) : r.toList.length = n := List.length_ofFn

@[simp] theorem toList_fill (x : α) : (fill x : Ring α n).toList = List.replicate n x :=
  List.ofFn_const n x

/-- A value is in some slot when it is in the list. -/
theorem mem_toList_iff (r : Ring α n) (x : α) : x ∈ r.toList ↔ ∃ i, r.slots i = x := by
  simp only [toList, List.mem_ofFn]
  constructor
  · rintro ⟨i, hi⟩
    exact ⟨r.head + i, hi⟩
  · rintro ⟨i, hi⟩
    refine ⟨i - r.head, ?_⟩
    rw [add_sub_cancel]
    exact hi

/-- A push drops the oldest value and adds the newest. -/
theorem toList_push (r : Ring α n) (x : α) : (r.push x).toList = r.toList.tail ++ [x] := by
  obtain ⟨m, rfl⟩ := Nat.exists_eq_succ_of_ne_zero (NeZero.ne n)
  have hold : ∀ i : Fin m,
      (r.push x).slots ((r.push x).head + i.castSucc) = r.slots (r.head + i.succ) := by
    intro i
    have hshift : r.head + 1 + i.castSucc = r.head + i.succ := by
      rw [add_assoc, add_comm 1, Fin.coeSucc_eq_succ]
    have hne : r.head + i.succ ≠ r.head := by
      intro h
      exact Fin.succ_ne_zero i (add_eq_left.mp h)
    show Function.update r.slots r.head x (r.head + 1 + i.castSucc) = _
    rw [hshift, Function.update_of_ne hne]
  have hnew : (r.push x).slots ((r.push x).head + Fin.last m) = x := by
    have hwrap : r.head + 1 + Fin.last m = r.head := by
      rw [add_assoc, add_comm 1, Fin.last_add_one, add_zero]
    show Function.update r.slots r.head x (r.head + 1 + Fin.last m) = x
    rw [hwrap, Function.update_self]
  unfold toList
  rw [List.ofFn_succ_last, List.ofFn_succ, List.tail_cons, hnew]
  simp only [hold]

/-- The last `n` of a list that one element is added to. -/
theorem rtake_append_singleton (l : List α) (x : α) (h : n ≤ l.length) :
    (l ++ [x]).rtake n = (l.rtake n).tail ++ [x] := by
  have hpos : 0 < n := Nat.pos_of_ne_zero (NeZero.ne n)
  have hdrop : (l ++ [x]).length - n = l.length - n + 1 := by
    simp only [List.length_append, List.length_singleton]
    omega
  unfold List.rtake
  rw [hdrop, List.tail_drop, List.drop_append_of_le_length (by omega)]

/-- **A ring holds its last pushes**, after what is left of its first contents. -/
theorem toList_pushAll (r : Ring α n) (xs : List α) :
    (r.pushAll xs).toList = (r.toList ++ xs).rtake n := by
  induction xs using List.reverseRecOn with
  | nil => simp [pushAll, List.rtake]
  | append_singleton xs x ih =>
    rw [pushAll_append_singleton, toList_push, ih, ← List.append_assoc,
      rtake_append_singleton _ _ (by simp)]

/-- A value other than the one a ring was filled with is in it when it is one of the last
`n` that were pushed. -/
theorem mem_pushAll_fill_iff {d x : α} (hx : x ≠ d) (xs : List α) :
    x ∈ ((fill d : Ring α n).pushAll xs).toList ↔ x ∈ xs.rtake n := by
  rw [toList_pushAll, toList_fill]
  unfold List.rtake
  rw [List.length_append, List.length_replicate, Nat.add_sub_cancel_left, List.drop_append,
    List.length_replicate, List.mem_append]
  constructor
  · rintro (h | h)
    · exact absurd (List.eq_of_mem_replicate (List.mem_of_mem_drop h)) hx
    · exact h
  · exact Or.inr

end Ring

end Foundation
