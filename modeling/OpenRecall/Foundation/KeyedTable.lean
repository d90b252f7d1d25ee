import Mathlib

/-!
# Tables with a primary key

A table is a list of rows of which no two have the same key. It mirrors a partial function of the
keys when its rows are the values of the function, each under its key. An insert of a new key, a
replacement, an update in place and a deletion then are updates of the function at one key, wherever
the rows stand in the list.
-/

set_option autoImplicit false

namespace Foundation.KeyedTable

universe u v

variable {ρ : Type u} {κ : Type v} {key : ρ → κ}

/-- The rows are the values of the function, which has each under its key. -/
structure Mirrors (key : ρ → κ) (m : κ → Option ρ) (rows : List ρ) : Prop where
  nodup : (rows.map key).Nodup
  own : ∀ k r, m k = some r → key r = k
  mem_iff : ∀ r, r ∈ rows ↔ m (key r) = some r

namespace Mirrors

variable {m : κ → Option ρ} {rows : List ρ}

theorem nil : Mirrors key (fun _ => none) [] where
  nodup := List.nodup_nil
  own := by simp
  mem_iff := by simp

variable [DecidableEq κ]

/-- What a lookup finds. -/
theorem find?_eq (h : Mirrors key m rows) (k : κ) :
    rows.find? (fun r => key r = k) = m k := by
  cases hfind : rows.find? (fun r => key r = k) with
  | none =>
    rw [List.find?_eq_none] at hfind
    cases hm : m k with
    | none => rfl
    | some r =>
      have hmem : r ∈ rows := (h.mem_iff r).mpr (by rw [h.own k r hm, hm])
      exact absurd (decide_eq_true (h.own k r hm)) (hfind r hmem)
  | some r =>
    have hkey : key r = k := by simpa using List.find?_some hfind
    rw [← hkey]
    exact ((h.mem_iff r).mp (List.mem_of_find?_eq_some hfind)).symm

/-- A row with a key that is new. -/
theorem insert (h : Mirrors key m rows) {r : ρ} (hnew : m (key r) = none) :
    Mirrors key (Function.update m (key r) (some r)) (rows ++ [r]) where
  nodup := by
    rw [List.map_append, List.map_singleton]
    refine h.nodup.append (List.nodup_singleton _) fun k hk hkr => ?_
    obtain ⟨r', hr', rfl⟩ := List.mem_map.mp hk
    have hsame : key r' = key r := List.mem_singleton.mp hkr
    have hm := (h.mem_iff r').mp hr'
    rw [hsame, hnew] at hm
    cases hm
  own k r' hr' := by
    rw [Function.update_apply] at hr'
    split_ifs at hr' with hk
    · rw [hk, Option.some.inj hr']
    · exact h.own k r' hr'
  mem_iff r' := by
    rw [List.mem_append, List.mem_singleton, h.mem_iff, Function.update_apply]
    by_cases hkey : key r' = key r
    · rw [if_pos hkey, hkey, hnew]
      simp [eq_comm]
    · rw [if_neg hkey]
      have hne : r' ≠ r := fun heq => hkey (heq ▸ rfl)
      simp [hne]

/-- The rows of the other keys. -/
theorem erase (h : Mirrors key m rows) (k : κ) :
    Mirrors key (Function.update m k none) (rows.filter fun r => key r ≠ k) where
  nodup := h.nodup.sublist (List.filter_sublist.map key)
  own k' r hr := by
    rw [Function.update_apply] at hr
    split_ifs at hr
    exact h.own k' r hr
  mem_iff r := by
    rw [List.mem_filter, h.mem_iff, Function.update_apply]
    by_cases hkey : key r = k <;> simp [hkey]

/-- A row in the place of the one with its key. -/
theorem replace (h : Mirrors key m rows) (r : ρ) :
    Mirrors key (Function.update m (key r) (some r))
      ((rows.filter fun r' => key r' ≠ key r) ++ [r]) := by
  have hinsert := (h.erase (key r)).insert (Function.update_self _ _ _)
  rwa [Function.update_idem] at hinsert

/-- An update in place. -/
theorem modify (h : Mirrors key m rows) {f : ρ → ρ} (hf : ∀ r, key (f r) = key r) (k : κ) :
    Mirrors key (Function.update m k ((m k).map f))
      (rows.map fun r => if key r = k then f r else r) where
  nodup := by
    have hkeys : (key ∘ fun r => if key r = k then f r else r) = key := by
      funext r
      by_cases hr : key r = k <;> simp [hr, hf]
    rw [List.map_map, hkeys]
    exact h.nodup
  own k' r hr := by
    rw [Function.update_apply] at hr
    split_ifs at hr with hk
    · obtain ⟨r', hr', rfl⟩ := Option.map_eq_some_iff.mp hr
      rw [hf, hk, h.own k r' hr']
    · exact h.own k' r hr
  mem_iff r := by
    rw [List.mem_map, Function.update_apply]
    constructor
    · rintro ⟨r', hr', rfl⟩
      have hm := (h.mem_iff r').mp hr'
      by_cases hk : key r' = k
      · rw [if_pos hk, hf, if_pos hk, ← hk, hm, Option.map_some]
      · rw [if_neg hk, if_neg hk, hm]
    · intro hr
      by_cases hk : key r = k
      · rw [if_pos hk, Option.map_eq_some_iff] at hr
        obtain ⟨r', hr', rfl⟩ := hr
        have hk' : key r' = k := (hf r').symm.trans hk
        exact ⟨r', (h.mem_iff r').mpr (hk' ▸ hr'), if_pos hk'⟩
      · rw [if_neg hk] at hr
        exact ⟨r, (h.mem_iff r).mpr hr, if_neg hk⟩

/-- How many rows have a key. -/
theorem countP_eq (h : Mirrors key m rows) (k : κ) :
    rows.countP (fun r => key r = k) = if (m k).isSome then 1 else 0 := by
  have hcount : rows.countP (fun r => key r = k) = (rows.map key).count k := by
    rw [List.count, List.countP_map]
    exact List.countP_congr fun r _ => by simp
  have hmem : k ∈ rows.map key ↔ (m k).isSome := by
    rw [List.mem_map, Option.isSome_iff_exists]
    constructor
    · rintro ⟨r, hr, rfl⟩
      exact ⟨r, (h.mem_iff r).mp hr⟩
    · rintro ⟨r, hr⟩
      exact ⟨r, (h.mem_iff r).mpr (by rw [h.own k r hr, hr]), h.own k r hr⟩
  rw [hcount, h.nodup.count]
  exact if_congr hmem rfl rfl

end Mirrors

end Foundation.KeyedTable
