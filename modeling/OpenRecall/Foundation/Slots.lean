import Mathlib

/-!
# Slotted timelines

A timeline that only grows: its `i`-th entry is what the `i`-th slot holds. Items are placed
at a slot. Ahead of the end the slots in between are filled with a blank; behind the end
nothing is placed, since what is there does not change.

The interface is what a placement leaves (`isPrefix_place`, `length_place_of_le`,
`holdsAt_place`) and that a slice reads what the slots hold (`slice_of_holdsAt`).
-/

set_option autoImplicit false

universe u

namespace Foundation.Slots

variable {α : Type u}

/-- Blanks up to a slot. -/
def padTo (blank : α) (slot : ℕ) (t : List α) : List α :=
  t ++ List.replicate (slot - t.length) blank

/-- Items placed at a slot, unless it is behind the end. -/
def place (blank : α) (slot : ℕ) (items t : List α) : List α :=
  if slot < t.length then t else padTo blank slot t ++ items

/-- What the slots from `first` to before `last` hold. -/
def slice (first last : ℕ) (t : List α) : List α := (t.take last).drop first

/-- The items stand in the timeline, one after the other, from a slot on. -/
def HoldsAt (t : List α) (slot : ℕ) (items : List α) : Prop := items <+: t.drop slot

@[simp] theorem length_padTo (blank : α) (slot : ℕ) (t : List α) :
    (padTo blank slot t).length = max slot t.length := by
  rw [padTo, List.length_append, List.length_replicate]
  omega

theorem place_of_lt {blank : α} {slot : ℕ} {items t : List α} (h : slot < t.length) :
    place blank slot items t = t :=
  if_pos h

theorem place_of_le {blank : α} {slot : ℕ} {items t : List α} (h : t.length ≤ slot) :
    place blank slot items t = padTo blank slot t ++ items :=
  if_neg (Nat.not_lt.mpr h)

theorem length_place_of_le {blank : α} {slot : ℕ} {items t : List α} (h : t.length ≤ slot) :
    (place blank slot items t).length = slot + items.length := by
  rw [place_of_le h, List.length_append, length_padTo]
  omega

/-- A placement keeps what is there. -/
theorem isPrefix_place (blank : α) (slot : ℕ) (items t : List α) :
    t <+: place blank slot items t := by
  unfold place
  split_ifs
  · exact List.prefix_rfl
  · rw [padTo, List.append_assoc]
    exact List.prefix_append _ _

/-- Items that are placed are held. -/
theorem holdsAt_place (blank : α) {slot : ℕ} {items t : List α} (h : t.length ≤ slot) :
    HoldsAt (place blank slot items t) slot items := by
  have hlength : (padTo blank slot t).length = slot := by
    rw [length_padTo]
    omega
  rw [HoldsAt, place_of_le h, List.drop_append_of_le_length hlength.ge,
    List.drop_eq_nil_of_le hlength.le, List.nil_append]

/-- What is held stays so when the timeline grows. -/
theorem HoldsAt.mono {t t' : List α} {slot : ℕ} {items : List α} (h : HoldsAt t slot items)
    (hgrow : t <+: t') : HoldsAt t' slot items := by
  obtain ⟨rest, rfl⟩ := hgrow
  rw [HoldsAt, List.drop_append]
  exact h.trans (List.prefix_append _ _)

/-- Items held one after the other are held together. -/
theorem HoldsAt.append {t : List α} {slot : ℕ} {items more : List α} (h : HoldsAt t slot items)
    (hmore : HoldsAt t (slot + items.length) more) : HoldsAt t slot (items ++ more) := by
  obtain ⟨rest, hrest⟩ := h
  have hdrop : t.drop (slot + items.length) = rest := by
    rw [← List.drop_drop, ← hrest, List.drop_left]
  rw [HoldsAt, hdrop] at hmore
  rw [HoldsAt, ← hrest]
  exact (List.prefix_append_right_inj items).mpr hmore

/-- The first of the items that are held is held. -/
theorem HoldsAt.left {t : List α} {slot : ℕ} {items more : List α}
    (h : HoldsAt t slot (items ++ more)) : HoldsAt t slot items :=
  (List.prefix_append items more).trans h

/-- The items after the first ones that are held are held. -/
theorem HoldsAt.right {t : List α} {slot : ℕ} {items more : List α}
    (h : HoldsAt t slot (items ++ more)) : HoldsAt t (slot + items.length) more := by
  obtain ⟨rest, hrest⟩ := h
  rw [HoldsAt, ← List.drop_drop, ← hrest, List.append_assoc, List.drop_left]
  exact List.prefix_append _ _

/-- Each of the items that are held is held. -/
theorem HoldsAt.getElem? {t : List α} {slot : ℕ} {items : List α} (h : HoldsAt t slot items)
    {i : ℕ} {x : α} (hx : items[i]? = some x) : HoldsAt t (slot + i) [x] := by
  obtain ⟨hlt, rfl⟩ := List.getElem?_eq_some_iff.mp hx
  have hsplit : items.take i ++ ([items[i]] ++ items.drop (i + 1)) = items := by
    rw [List.singleton_append, ← List.drop_eq_getElem_cons hlt, List.take_append_drop]
  rw [← hsplit] at h
  have hright := h.right.left
  rwa [List.length_take, Nat.min_eq_left hlt.le] at hright

/-- A slice of the slots that hold the items is the items. -/
theorem slice_of_holdsAt {t : List α} {slot : ℕ} {items : List α} (h : HoldsAt t slot items) :
    slice slot (slot + items.length) t = items := by
  rw [slice, List.drop_take, Nat.add_sub_cancel_left]
  exact (List.prefix_iff_eq_take.mp h).symm

/-! ## Blanking a range -/

/-- The slots from `first` to before `last` blanked. -/
def blankOut (blank : α) (first last : ℕ) (t : List α) : List α :=
  t.mapIdx fun i x => if first ≤ i ∧ i < last then blank else x

@[simp] theorem length_blankOut (blank : α) (first last : ℕ) (t : List α) :
    (blankOut blank first last t).length = t.length :=
  List.length_mapIdx

theorem getElem?_blankOut (blank : α) (first last : ℕ) (t : List α) (i : ℕ) :
    (blankOut blank first last t)[i]? =
      if first ≤ i ∧ i < last then t[i]?.map fun _ => blank else t[i]? := by
  rw [blankOut, List.getElem?_mapIdx]
  split_ifs <;> simp

theorem blankOut_nil (blank : α) (first last : ℕ) : blankOut blank first last [] = [] := rfl

/-- Blanking a range that starts behind the first entry. -/
theorem blankOut_cons (blank : α) (first last slot : ℕ) (x : α) (t : List α) :
    blankOut blank (first - slot) (last - slot) (x :: t) =
      (if first ≤ slot ∧ slot < last then blank else x) ::
        blankOut blank (first - (slot + 1)) (last - (slot + 1)) t := by
  rw [blankOut, List.mapIdx_cons]
  congr 1
  · apply if_congr _ rfl rfl
    omega
  · apply congrArg (List.mapIdx · t)
    funext i y
    apply if_congr _ rfl rfl
    omega

/-- Blanking a range without entries. -/
theorem blankOut_eq_self (blank : α) {first last : ℕ} {t : List α}
    (h : last ≤ first ∨ t.length ≤ first) : blankOut blank first last t = t := by
  apply List.ext_getElem?
  intro i
  rw [getElem?_blankOut]
  split_ifs with hi
  · rw [List.getElem?_eq_none (by omega)]
    rfl
  · rfl

theorem blankOut_blankOut (blank : α) (first last : ℕ) (t : List α) :
    blankOut blank first last (blankOut blank first last t) = blankOut blank first last t := by
  apply List.ext_getElem?
  intro i
  rw [getElem?_blankOut, getElem?_blankOut]
  split_ifs
  · cases t[i]? <;> rfl
  · rfl

theorem getElem?_slice (first last : ℕ) (t : List α) (i : ℕ) :
    (slice first last t)[i]? = if first + i < last then t[first + i]? else none := by
  rw [slice, List.getElem?_drop, List.getElem?_take]

theorem mem_slice_iff {first last : ℕ} {t : List α} {x : α} :
    x ∈ slice first last t ↔ ∃ i, first ≤ i ∧ i < last ∧ t[i]? = some x := by
  rw [List.mem_iff_getElem?]
  constructor
  · rintro ⟨i, hi⟩
    rw [getElem?_slice] at hi
    split_ifs at hi with hlast
    exact ⟨first + i, Nat.le_add_right _ _, hlast, hi⟩
  · rintro ⟨i, hfirst, hlast, hi⟩
    refine ⟨i - first, ?_⟩
    rw [getElem?_slice, Nat.add_sub_cancel' hfirst, if_pos hlast, hi]

/-- A slice keeps its entries exactly when what it shares with the blanked range is blank. -/
theorem slice_blankOut_eq_iff (blank : α) {first last first' last' : ℕ} {t : List α} :
    slice first' last' (blankOut blank first last t) = slice first' last' t ↔
      ∀ x ∈ slice (max first first') (min last last') t, x = blank := by
  constructor
  · intro h x hx
    obtain ⟨i, hfirst, hlast, hi⟩ := mem_slice_iff.mp hx
    have hat := congrArg (·[i - first']?) h
    simp only [getElem?_slice, Nat.add_sub_cancel' (le_of_max_le_right hfirst),
      getElem?_blankOut, hi, Option.map_some] at hat
    rw [if_pos (by omega), if_pos (by omega), if_pos (by omega)] at hat
    exact (Option.some.inj hat).symm
  · intro h
    apply List.ext_getElem?
    intro i
    rw [getElem?_slice, getElem?_slice, getElem?_blankOut]
    split_ifs with hlast hrange
    · cases hi : t[first' + i]? with
      | none => rfl
      | some x =>
        have hx := h x (mem_slice_iff.mpr ⟨first' + i, by omega, by omega, hi⟩)
        rw [hx, Option.map_some]
    · rfl
    · rfl

/-- Nothing but blanks is left in a slice of the blanked range. -/
theorem eq_blank_of_mem_slice_blankOut {blank : α} {first last last' : ℕ} {t : List α} {x : α}
    (hle : last' ≤ last) (hx : x ∈ slice first last' (blankOut blank first last t)) :
    x = blank := by
  obtain ⟨i, hfirst, hlast, hi⟩ := mem_slice_iff.mp hx
  rw [getElem?_blankOut, if_pos ⟨hfirst, by omega⟩] at hi
  cases hat : t[i]? with
  | none => simp [hat] at hi
  | some y => simpa [hat] using hi.symm

/-! ## Stretches of blanks -/

/-- So many blanks stand next to each other. -/
def HasStretch (blank : α) (n : ℕ) (t : List α) : Prop := List.replicate n blank <:+: t

theorem hasStretch_replicate_iff (blank : α) {n m : ℕ} :
    HasStretch blank n (List.replicate m blank) ↔ n ≤ m := by
  constructor
  · intro h
    simpa using h.length_le
  · intro h
    refine ⟨[], List.replicate (m - n) blank, ?_⟩
    rw [List.nil_append, List.replicate_append_replicate, Nat.add_sub_cancel' h]

/-- Fewer entries have no stretch. -/
theorem not_hasStretch_of_length_lt {blank : α} {n : ℕ} {t : List α} (h : t.length < n) :
    ¬ HasStretch blank n t := by
  intro hstretch
  have hle := hstretch.length_le
  rw [List.length_replicate] at hle
  omega

/-- A stretch of blanks does not go past an entry that is not blank. -/
theorem hasStretch_append_cons_iff {blank x : α} (hx : x ≠ blank) {n : ℕ} (hn : 0 < n)
    {t t' : List α} :
    HasStretch blank n (t ++ x :: t') ↔ HasStretch blank n t ∨ HasStretch blank n t' := by
  constructor
  · rintro ⟨as, bs, h⟩
    rw [List.append_assoc] at h
    obtain ⟨as', ht, htail⟩ | ⟨cs, has, htail⟩ := List.append_eq_append_iff.mp h
    · -- the stretch begins before the entry, so it ends before it
      obtain ⟨as'', has', -⟩ | ⟨cs, hrep, htail'⟩ := List.append_eq_append_iff.mp htail
      · exact Or.inl ⟨as, as'', by rw [ht, has', List.append_assoc]⟩
      · cases cs with
        | nil => exact Or.inl ⟨as, [], by rw [hrep, ht, List.append_nil, List.append_nil]⟩
        | cons y cs =>
          obtain ⟨rfl, -⟩ := List.cons.inj htail'
          have hmem : x ∈ List.replicate n blank := by simp [hrep]
          exact absurd (List.eq_of_mem_replicate hmem) hx
    · cases cs with
      | nil =>
        obtain ⟨k, rfl⟩ := Nat.exists_eq_add_of_lt hn
        simp only [Nat.zero_add, List.replicate_succ, List.nil_append, List.cons_append,
          List.cons.injEq] at htail
        exact absurd htail.1 hx
      | cons y cs =>
        rw [List.cons_append, List.cons.injEq] at htail
        exact Or.inr ⟨cs, bs, by rw [htail.2, List.append_assoc]⟩
  · rintro (⟨as, bs, h⟩ | ⟨as, bs, h⟩)
    · exact ⟨as, bs ++ x :: t', by simp [← h]⟩
    · exact ⟨t ++ x :: as, bs, by simp [← h]⟩

/-- Overwriting a range with blanks. -/
theorem take_append_drop_eq_blankOut (blank : α) {first last : ℕ} {t : List α}
    (hle : first ≤ last) (hfirst : first ≤ t.length) :
    t.take first ++ List.replicate (min last t.length - first) blank ++
      t.drop (min last t.length) = blankOut blank first last t := by
  apply List.ext_getElem?
  intro i
  rw [getElem?_blankOut, List.append_assoc, List.getElem?_append, List.length_take,
    Nat.min_eq_left hfirst, List.getElem?_append, List.length_replicate]
  by_cases hi : i < first
  · rw [if_pos hi, if_neg (by omega), List.getElem?_take_of_lt hi]
  · rw [if_neg hi]
    by_cases hl : i < min last t.length
    · rw [if_pos (by omega), if_pos (by omega), List.getElem?_replicate_of_lt (by omega),
        List.getElem?_eq_getElem (by omega)]
      rfl
    · rw [if_neg (by omega), List.getElem?_drop,
        show min last t.length + (i - first - (min last t.length - first)) = i by omega]
      split_ifs
      · rw [List.getElem?_eq_none (by omega)]
        rfl
      · rfl

/-! ## Placing, entry by entry -/

theorem getElem?_place_of_lt (blank : α) {slot i : ℕ} (items : List α) {t : List α}
    (h : i < t.length) : (place blank slot items t)[i]? = t[i]? := by
  obtain ⟨rest, hrest⟩ := isPrefix_place blank slot items t
  rw [← hrest, List.getElem?_append_left h]

/-- Between the old end and the slot there are blanks. -/
theorem getElem?_place_gap (blank : α) {slot i : ℕ} (items : List α) {t : List α}
    (h : t.length ≤ i) (hi : i < slot) : (place blank slot items t)[i]? = some blank := by
  rw [place_of_le (by omega), List.getElem?_append_left (by rw [length_padTo]; omega), padTo,
    List.getElem?_append_right h, List.getElem?_replicate_of_lt (by omega)]

/-- From the slot on there are the items. -/
theorem getElem?_place_items (blank : α) {slot i : ℕ} (items : List α) {t : List α}
    (h : t.length ≤ slot) (hi : slot ≤ i) :
    (place blank slot items t)[i]? = items[i - slot]? := by
  have hlength : (padTo blank slot t).length = slot := by
    rw [length_padTo]
    omega
  rw [place_of_le h, List.getElem?_append_right (by omega), hlength]

theorem map_place {β : Type u} (f : α → β) (blank : α) (slot : ℕ) (items t : List α) :
    (place blank slot items t).map f = place (f blank) slot (items.map f) (t.map f) := by
  unfold place padTo
  rw [List.length_map]
  split_ifs <;> simp

theorem map_blankOut {β : Type u} (f : α → β) (blank : α) (first last : ℕ) (t : List α) :
    (blankOut blank first last t).map f = blankOut (f blank) first last (t.map f) := by
  apply List.ext_getElem?
  intro i
  rw [List.getElem?_map, getElem?_blankOut, getElem?_blankOut, List.getElem?_map]
  split_ifs
  · cases t[i]? <;> rfl
  · rfl

end Foundation.Slots
