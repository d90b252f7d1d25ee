import OpenRecall.Foundation.Keyset

/-!
# The first items by a key

The first `n` of some items by their keys, the largest key first, are told by what they are: in
order, as many as there can be, and above every item that is left out. With keys that are pairwise
different there is one such list, whatever order the items stand in, and it stays the same when
items are left out that are not among the first.
-/

set_option autoImplicit false

namespace Foundation.Keyset

universe u v

variable {α : Type u} {κ : Type v} [LinearOrder κ]

/-- `top` is the first `n` of the items, the largest key first. -/
structure IsTop (key : α → κ) (n : ℕ) (items top : List α) : Prop where
  sorted : top.Pairwise fun a b => key b < key a
  mem : ∀ x ∈ top, x ∈ items
  length : top.length = min n items.length
  above : ∀ x ∈ items, x ∉ top → ∀ y ∈ top, key x < key y

variable {key : α → κ} {n : ℕ} {items top : List α}

/-- A sort has the first items in front. -/
theorem isTop_take_newest (h : (items.map key).Nodup) (n : ℕ) :
    IsTop key n items ((newest key items).take n) where
  sorted := (pairwise_rest h none).sublist (List.take_sublist _ _)
  mem _ hx := (List.mem_insertionSort _).mp (List.mem_of_mem_take hx)
  length := by rw [List.length_take, newest, List.length_insertionSort]
  above x hx hnot y hy := by
    have hsorted : (newest key items).Pairwise fun a b => key b < key a := pairwise_rest h none
    rw [← List.take_append_drop n (newest key items), List.pairwise_append] at hsorted
    have hmem : x ∈ (newest key items).take n ++ (newest key items).drop n := by
      rw [List.take_append_drop]
      exact (List.mem_insertionSort _).mpr hx
    exact hsorted.2.2 y hy x ((List.mem_append.mp hmem).resolve_left hnot)

theorem IsTop.nodup (h : IsTop key n items top) : top.Nodup :=
  h.sorted.imp fun hlt heq => hlt.ne (congrArg key heq.symm)

/-- Of two lists of first items neither has what the other has not. -/
theorem IsTop.subset {top' : List α} (h : IsTop key n items top) (h' : IsTop key n items top') :
    top ⊆ top' := by
  intro x hx
  by_contra hnot
  have hless : ∀ y ∈ top', key x < key y := h'.above x (h.mem x hx) hnot
  have hall : x :: top' ⊆ top := by
    intro y hy
    rcases List.mem_cons.mp hy with rfl | hy
    · exact hx
    · by_contra hout
      exact (h.above y (h'.mem y hy) hout x hx).asymm (hless y hy)
  have hlength := ((List.nodup_cons.mpr ⟨hnot, h'.nodup⟩).subperm hall).length_le
  rw [List.length_cons, h.length, h'.length] at hlength
  omega

/-- **There is one list of the first items.** -/
theorem IsTop.unique {top' : List α} (h : IsTop key n items top) (h' : IsTop key n items top') :
    top = top' :=
  eq_of_mem_iff h.sorted h'.sorted fun _ => ⟨fun hx => h.subset h' hx, fun hx => h'.subset h hx⟩

/-- The order in which the items stand does not matter. -/
theorem IsTop.perm {items' : List α} (h : IsTop key n items top) (hperm : items.Perm items') :
    IsTop key n items' top where
  sorted := h.sorted
  mem x hx := hperm.subset (h.mem x hx)
  length := h.length.trans (by rw [hperm.length_eq])
  above x hx := h.above x (hperm.symm.subset hx)

/-- **The first items stay the first** when others are left out. -/
theorem IsTop.of_subperm {some : List α} (h : IsTop key n items top) (hsome : some.Subperm items)
    (hkept : ∀ x ∈ top, x ∈ some) : IsTop key n some top where
  sorted := h.sorted
  mem := hkept
  length := by
    have htop := (h.nodup.subperm hkept).length_le
    have hless := hsome.length_le
    rw [h.length] at htop ⊢
    omega
  above x hx := h.above x (hsome.subset hx)

end Foundation.Keyset
