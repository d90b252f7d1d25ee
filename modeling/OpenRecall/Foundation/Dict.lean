import Mathlib

/-!
# Insertion-ordered dictionaries

`Dict κ ν` is a dictionary that remembers the order in which its keys were first
set: setting a present key replaces its value in place, setting an absent one puts
it last. No key occurs twice, which the structure carries as a field.

The lookups after each operation (`get?_set`, `get?_erase`) and the order of the
values (`values_set_of_get?_none`) are the interface; clients do not unfold the
entries.
-/

set_option autoImplicit false

namespace Foundation

universe u v

/-- A new key comes to keys that are all different. -/
theorem nodup_map_concat {κ : Type u} {ν : Type v} {f : ν → κ} {xs : List ν} {x : ν}
    (h : (xs.map f).Nodup) (hx : f x ∉ xs.map f) : ((xs ++ [x]).map f).Nodup := by
  rw [List.map_append, List.map_singleton]
  exact List.nodup_append.mpr ⟨h, List.nodup_singleton _, fun a ha b hb hab =>
    hx (List.mem_singleton.mp hb ▸ hab ▸ ha)⟩

/-- A dictionary with the order in which its keys were first set. -/
structure Dict (κ : Type u) (ν : Type v) where
  entries : List (κ × ν)
  nodup : (entries.map Prod.fst).Nodup

namespace Dict

variable {κ : Type u} {ν : Type v}

instance [DecidableEq κ] [DecidableEq ν] : DecidableEq (Dict κ ν) := fun d e =>
  decidable_of_iff (d.entries = e.entries) (by cases d; cases e; simp)

/-- The dictionary with no keys. -/
def empty : Dict κ ν := ⟨[], List.nodup_nil⟩

/-- The keys, oldest first. -/
def keys (d : Dict κ ν) : List κ := d.entries.map Prod.fst

/-- The values, in the order of their keys. -/
def values (d : Dict κ ν) : List ν := d.entries.map Prod.snd

variable [DecidableEq κ]

/-- The value a key is set to. -/
def get? (d : Dict κ ν) (k : κ) : Option ν :=
  (d.entries.find? fun e => e.1 = k).map Prod.snd

/-- Replace the value of `k` where it stands. -/
def replaceEntries (k : κ) (v : ν) (es : List (κ × ν)) : List (κ × ν) :=
  es.map fun e => if e.1 = k then (k, v) else e

theorem replaceEntries_keys (k : κ) (v : ν) (es : List (κ × ν)) :
    (replaceEntries k v es).map Prod.fst = es.map Prod.fst := by
  rw [replaceEntries, List.map_map]
  apply List.map_congr_left
  intro e _
  by_cases h : e.1 = k <;> simp [h]

/-- Set `k` to `v`: in place when `k` is present, last when it is not. -/
def set (d : Dict κ ν) (k : κ) (v : ν) : Dict κ ν :=
  if h : k ∈ d.keys then
    ⟨replaceEntries k v d.entries, by rw [replaceEntries_keys]; exact d.nodup⟩
  else
    ⟨d.entries ++ [(k, v)], nodup_map_concat d.nodup h⟩

/-- Remove `k`, if it is present. -/
def erase (d : Dict κ ν) (k : κ) : Dict κ ν :=
  ⟨d.entries.filter fun e => e.1 ≠ k, d.nodup.sublist (List.filter_sublist.map Prod.fst)⟩

@[simp] theorem get?_empty (k : κ) : (empty : Dict κ ν).get? k = none := rfl

/-- A lookup finds the entry of a key. -/
theorem get?_eq_some_iff (d : Dict κ ν) (k : κ) (v : ν) :
    d.get? k = some v ↔ (k, v) ∈ d.entries := by
  obtain ⟨es, hnd⟩ := d
  simp only [get?]
  induction es with
  | nil => simp
  | cons e es ih =>
    simp only [List.map_cons, List.nodup_cons] at hnd
    by_cases he : e.1 = k
    · subst he
      rw [List.find?_cons_of_pos (by simp)]
      constructor
      · intro h
        obtain rfl : e.2 = v := by simpa using h
        exact List.mem_cons_self
      · intro h
        rcases List.mem_cons.mp h with h | h
        · simp only [Option.map_some]
          rw [← h]
        · exact absurd (List.mem_map_of_mem (f := Prod.fst) h) hnd.1
    · rw [List.find?_cons_of_neg (by simpa using he), ih hnd.2]
      constructor
      · exact List.mem_cons_of_mem e
      · intro h
        rcases List.mem_cons.mp h with h | h
        · exact absurd (by rw [← h]) he
        · exact h

/-- A key is present when it is among the keys. -/
theorem get?_isSome_iff (d : Dict κ ν) (k : κ) : (d.get? k).isSome ↔ k ∈ d.keys := by
  rw [Option.isSome_iff_exists, keys, List.mem_map]
  simp [get?_eq_some_iff]

/-- A lookup fails for the keys that are not present. -/
theorem get?_eq_none_iff (d : Dict κ ν) (k : κ) : d.get? k = none ↔ k ∉ d.keys := by
  rw [← get?_isSome_iff]
  cases d.get? k <;> simp

/-- The values are what some key is set to. -/
theorem mem_values_iff (d : Dict κ ν) (v : ν) : v ∈ d.values ↔ ∃ k, d.get? k = some v := by
  simp [values, get?_eq_some_iff]

theorem entries_set_of_get?_none {d : Dict κ ν} {k : κ} (v : ν) (h : d.get? k = none) :
    (d.set k v).entries = d.entries ++ [(k, v)] := by
  rw [get?_eq_none_iff] at h
  simp [set, h]

/-- Setting an absent key puts its value last. -/
theorem values_set_of_get?_none {d : Dict κ ν} {k : κ} (v : ν) (h : d.get? k = none) :
    (d.set k v).values = d.values ++ [v] := by
  simp [values, entries_set_of_get?_none v h]

/-- Setting a key that is there replaces its value where it stands. -/
theorem values_set_of_get?_some {d : Dict κ ν} {k : κ} {v w : ν} (h : d.get? k = some w) :
    (d.set k v).values = d.entries.map fun e => if e.1 = k then v else e.2 := by
  have hmem : k ∈ d.keys := by
    rw [← get?_isSome_iff, h]
    rfl
  have hentries : (d.set k v).entries = replaceEntries k v d.entries := by simp [set, hmem]
  rw [values, hentries, replaceEntries, List.map_map]
  apply List.map_congr_left
  intro e _
  by_cases hk : e.1 = k <;> simp [hk]

/-- A lookup after a set. -/
theorem get?_set (d : Dict κ ν) (k k' : κ) (v : ν) :
    (d.set k v).get? k' = if k' = k then some v else d.get? k' := by
  apply Option.ext
  intro w
  rw [get?_eq_some_iff]
  by_cases hk : k ∈ d.keys
  · have hentries : (d.set k v).entries = replaceEntries k v d.entries := by simp [set, hk]
    rw [hentries, replaceEntries, List.mem_map]
    split_ifs with h
    · subst h
      constructor
      · rintro ⟨e, -, he⟩
        split_ifs at he with hek
        · simpa using he
        · exact absurd (by rw [he]) hek
      · intro hw
        obtain ⟨e, he, hek⟩ := List.mem_map.mp hk
        refine ⟨e, he, ?_⟩
        simpa [hek] using hw
    · rw [get?_eq_some_iff]
      constructor
      · rintro ⟨e, hmem, he⟩
        split_ifs at he with hek
        · exact absurd (by simpa using (congrArg Prod.fst he).symm) h
        · exact he ▸ hmem
      · intro hmem
        exact ⟨(k', w), hmem, by simp [h]⟩
  · rw [entries_set_of_get?_none v ((get?_eq_none_iff d k).mpr hk), List.mem_append,
      ← get?_eq_some_iff]
    split_ifs with h
    · subst h
      simp [(get?_eq_none_iff d k').mpr hk, eq_comm]
    · simp [h]

@[simp] theorem get?_set_self (d : Dict κ ν) (k : κ) (v : ν) : (d.set k v).get? k = some v := by
  simp [get?_set]

theorem get?_set_of_ne (d : Dict κ ν) {k k' : κ} (v : ν) (h : k' ≠ k) :
    (d.set k v).get? k' = d.get? k' := by
  simp [get?_set, h]

/-- A lookup after a removal. -/
theorem get?_erase (d : Dict κ ν) (k k' : κ) :
    (d.erase k).get? k' = if k' = k then none else d.get? k' := by
  apply Option.ext
  intro w
  rw [get?_eq_some_iff, erase, List.mem_filter]
  split_ifs with h
  · simp [h]
  · simp [h, get?_eq_some_iff]

theorem mem_keys_erase (d : Dict κ ν) (k k' : κ) :
    k' ∈ (d.erase k).keys ↔ k' ≠ k ∧ k' ∈ d.keys := by
  rw [← get?_isSome_iff, get?_erase, ← get?_isSome_iff]
  split_ifs with h <;> simp [h]

theorem mem_keys_set (d : Dict κ ν) (k k' : κ) (v : ν) :
    k' ∈ (d.set k v).keys ↔ k' = k ∨ k' ∈ d.keys := by
  rw [← get?_isSome_iff, get?_set, ← get?_isSome_iff]
  split_ifs with h <;> simp [h]

omit [DecidableEq κ] in
theorem length_keys (d : Dict κ ν) : d.keys.length = d.values.length := by
  rw [keys, values, List.length_map, List.length_map]

/-- Taking a value out leaves the others. -/
theorem values_perm_erase {d : Dict κ ν} {k : κ} {v : ν} (h : d.get? k = some v) :
    d.values.Perm (v :: (d.erase k).values) := by
  have hmem := (get?_eq_some_iff d k v).mp h
  obtain ⟨es, hnd⟩ := d
  obtain ⟨before, rest, rfl⟩ := List.append_of_mem hmem
  have hkeys : ∀ e ∈ before ++ rest, e.1 ≠ k := by
    intro e he heq
    rw [List.map_append, List.map_cons, List.nodup_middle, List.nodup_cons, ← List.map_append]
      at hnd
    exact hnd.1 (List.mem_map.mpr ⟨e, he, heq⟩)
  have hkeep : (before ++ (k, v) :: rest).filter (fun e => e.1 ≠ k) = before ++ rest := by
    rw [List.filter_append, List.filter_cons_of_neg (by simp), ← List.filter_append,
      List.filter_eq_self]
    intro e he
    simpa using hkeys e he
  show ((before ++ (k, v) :: rest).map Prod.snd).Perm
    (v :: ((before ++ (k, v) :: rest).filter fun e => e.1 ≠ k).map Prod.snd)
  rw [hkeep, List.map_append, List.map_cons, List.map_append]
  exact List.perm_middle

theorem filter_replaceEntries (k : κ) (v : ν) (es : List (κ × ν)) :
    (replaceEntries k v es).filter (fun e => e.1 ≠ k) = es.filter fun e => e.1 ≠ k := by
  rw [replaceEntries]
  induction es with
  | nil => rfl
  | cons e es ih =>
    rw [List.map_cons]
    by_cases he : e.1 = k
    · rw [List.filter_cons_of_neg (by simp [he]), List.filter_cons_of_neg (by simp [he]), ih]
    · rw [if_neg he, List.filter_cons_of_pos (by simp [he]), List.filter_cons_of_pos (by simp [he]),
        ih]

/-- Removing a key forgets what it was set to. -/
theorem values_erase_set (d : Dict κ ν) (k : κ) (v : ν) :
    ((d.set k v).erase k).values = (d.erase k).values := by
  show ((d.set k v).entries.filter fun e => e.1 ≠ k).map Prod.snd =
    (d.entries.filter fun e => e.1 ≠ k).map Prod.snd
  by_cases hk : k ∈ d.keys
  · have hset : (d.set k v).entries = replaceEntries k v d.entries := by simp [set, hk]
    rw [hset, filter_replaceEntries]
  · rw [entries_set_of_get?_none v ((get?_eq_none_iff d k).mpr hk), List.filter_append]
    simp

/-- The values after a set are the new one and those of the other keys. -/
theorem values_set_perm (d : Dict κ ν) (k : κ) (v : ν) :
    (d.set k v).values.Perm (v :: (d.erase k).values) := by
  rw [← values_erase_set d k v]
  exact values_perm_erase (get?_set_self d k v)

/-- Removing a key that is not there changes nothing. -/
theorem erase_eq_self {d : Dict κ ν} {k : κ} (h : d.get? k = none) : d.erase k = d := by
  rw [get?_eq_none_iff] at h
  obtain ⟨es, hnd⟩ := d
  rw [erase, mk.injEq, List.filter_eq_self]
  intro e he
  have hne : e.1 ≠ k := fun hk => h (hk ▸ List.mem_map_of_mem he)
  simpa using hne

/-- An item is added to the list that a key is set to, if there is one, and to a new one if not. -/
theorem flatten_values_set_concat {ν : Type v} (d : Dict κ (List ν)) (k : κ) (x : ν) :
    (d.set k ((d.get? k).getD [] ++ [x])).values.flatten.Perm (x :: d.values.flatten) := by
  have hold : d.values.flatten.Perm ((d.get? k).getD [] ++ (d.erase k).values.flatten) := by
    cases h : d.get? k with
    | none => rw [erase_eq_self h, Option.getD_none, List.nil_append]
    | some xs => exact (values_perm_erase h).flatten
  have hnew := (values_set_perm d k ((d.get? k).getD [] ++ [x])).flatten
  rw [List.flatten_cons, List.append_assoc] at hnew
  exact (hnew.trans List.perm_middle).trans (hold.symm.cons x)

/-- Setting a key to the value it has changes nothing. -/
theorem set_eq_self {d : Dict κ ν} {k : κ} {v : ν} (h : d.get? k = some v) : d.set k v = d := by
  have hmem : k ∈ d.keys := by
    rw [← get?_isSome_iff, h]
    rfl
  obtain ⟨es, hnd⟩ := d
  rw [set, dif_pos hmem, mk.injEq, replaceEntries]
  conv_rhs => rw [← List.map_id es]
  apply List.map_congr_left
  intro e he
  rw [id]
  split_ifs with hk
  · have hget : (⟨es, hnd⟩ : Dict κ ν).get? e.1 = some e.2 := (get?_eq_some_iff _ _ _).mpr he
    rw [hk, h] at hget
    rw [← hk, Option.some.inj hget]
  · rfl

end Dict

end Foundation
