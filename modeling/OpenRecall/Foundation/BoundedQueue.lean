import Mathlib

/-!
# Bounded queues

A first-in first-out queue with a size limit, which a limit of zero or less lifts. Putting into a
full queue fails, and so does getting from an empty one; neither waits. `Kept` is the law for what
passes through such a queue when some of it is thrown away: what is kept is in order, and every
item is kept or lost exactly once.
-/

set_option autoImplicit false

namespace Foundation

universe u

variable {α : Type u}

/-- A queue that holds no more than its limit. -/
structure BoundedQueue (α : Type u) where
  maxSize : ℤ
  items : List α
  bounded : 0 < maxSize → (items.length : ℤ) ≤ maxSize

namespace BoundedQueue

def empty (maxSize : ℤ) : BoundedQueue α where
  maxSize := maxSize
  items := []
  bounded := fun h => by simpa using h.le

@[simp] theorem empty_items (maxSize : ℤ) : (empty maxSize : BoundedQueue α).items = [] := rfl

@[simp] theorem empty_maxSize (maxSize : ℤ) :
    (empty maxSize : BoundedQueue α).maxSize = maxSize := rfl

/-- There is a limit, and the queue has reached it. -/
def IsFull (q : BoundedQueue α) : Prop := 0 < q.maxSize ∧ q.maxSize ≤ q.items.length

instance (q : BoundedQueue α) : Decidable q.IsFull := inferInstanceAs (Decidable (_ ∧ _))

/-- Put an item at the end, unless the queue is full. -/
def putNowait (x : α) (q : BoundedQueue α) : Option (BoundedQueue α) :=
  if h : q.IsFull then none
  else some
    { maxSize := q.maxSize
      items := q.items ++ [x]
      bounded := by
        intro hpos
        have hlt : (q.items.length : ℤ) < q.maxSize := by
          by_contra hge
          exact h ⟨hpos, not_lt.mp hge⟩
        simp only [List.length_append, List.length_singleton, Nat.cast_add, Nat.cast_one]
        omega }

/-- Take the item at the front, if there is one. -/
def getNowait (q : BoundedQueue α) : Option (α × BoundedQueue α) :=
  match h : q.items with
  | [] => none
  | x :: rest => some
    (x,
      { maxSize := q.maxSize
        items := rest
        bounded := by
          intro hpos
          have hle := q.bounded hpos
          rw [h, List.length_cons] at hle
          push_cast at hle
          omega })

variable {q q' : BoundedQueue α} {x : α}

theorem putNowait_eq_none_iff : q.putNowait x = none ↔ q.IsFull := by
  unfold putNowait
  split_ifs with h <;> simp [h]

/-- What a put leaves. -/
theorem putNowait_eq_some (h : q.putNowait x = some q') :
    ¬ q.IsFull ∧ q'.maxSize = q.maxSize ∧ q'.items = q.items ++ [x] := by
  unfold putNowait at h
  split_ifs at h with hfull
  obtain rfl := Option.some.inj h
  exact ⟨hfull, rfl, rfl⟩

theorem getNowait_eq_none_iff : q.getNowait = none ↔ q.items = [] := by
  unfold getNowait
  split <;> simp_all

/-- What a get takes and leaves. -/
theorem getNowait_eq_some (h : q.getNowait = some (x, q')) :
    q'.maxSize = q.maxSize ∧ q.items = x :: q'.items := by
  unfold getNowait at h
  split at h
  · cases h
  · rename_i hitems
    obtain ⟨rfl, rfl⟩ := Prod.mk.inj (Option.some.inj h)
    exact ⟨rfl, hitems⟩

/-- After a get there is room. -/
theorem not_isFull_of_getNowait (h : q.getNowait = some (x, q')) : ¬ q'.IsFull := by
  rintro ⟨hpos, hfull⟩
  obtain ⟨hsize, hitems⟩ := getNowait_eq_some h
  rw [hsize] at hpos hfull
  have hle := q.bounded hpos
  rw [hitems, List.length_cons] at hle
  push_cast at hle
  omega

/-- An empty queue has room. -/
theorem not_isFull_of_items_eq_nil (h : q.items = []) : ¬ q.IsFull := by
  rintro ⟨hpos, hfull⟩
  rw [h] at hfull
  simp only [List.length_nil, Nat.cast_zero] at hfull
  omega

end BoundedQueue

/-! ## Items that are kept or lost -/

/-- Of all the items, some are kept, in order, and the others are lost. -/
structure Kept (kept lost all : List α) : Prop where
  ordered : kept.Sublist all
  accounted : all.Perm (kept ++ lost)

namespace Kept

variable {kept lost all xs ys : List α} {x : α}

theorem nil : Kept ([] : List α) [] [] := ⟨List.Sublist.refl _, List.Perm.refl _⟩

/-- One more item, which is kept. -/
theorem snoc (h : Kept kept lost all) (x : α) : Kept (kept ++ [x]) lost (all ++ [x]) where
  ordered := h.ordered.append (List.Sublist.refl _)
  accounted := by
    have hend : (kept ++ lost ++ [x]).Perm (kept ++ [x] ++ lost) := by
      rw [List.append_assoc, List.append_assoc]
      exact List.perm_append_comm.append_left kept
    exact (h.accounted.append_right [x]).trans hend

/-- An item that was kept is lost. -/
theorem lose (h : Kept (xs ++ x :: ys) lost all) : Kept (xs ++ ys) (x :: lost) all where
  ordered := by
    apply List.Sublist.trans _ h.ordered
    exact (List.Sublist.refl xs).append (List.sublist_cons_self x ys)
  accounted := by
    have hfront : (xs ++ x :: ys ++ lost).Perm (x :: (xs ++ ys ++ lost)) :=
      List.perm_middle.append_right lost
    exact (h.accounted.trans hfront).trans List.perm_middle.symm

/-- The order of what is lost does not matter. -/
theorem of_perm {lost' : List α} (h : Kept kept lost all) (hperm : lost.Perm lost') :
    Kept kept lost' all where
  ordered := h.ordered
  accounted := h.accounted.trans (hperm.append_left kept)

end Kept

end Foundation
