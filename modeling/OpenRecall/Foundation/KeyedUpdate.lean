import Mathlib

/-!
# Updating the rows of one key after another

A store files rows under keys, and an update changes the rows of one key. Sweeping the update over
a list of keys changes the rows of these keys, each once, however often a key is listed, when
changing a row twice is changing it once. Rows under a key that is not listed stay as they are.
-/

set_option autoImplicit false

namespace Foundation

universe u v w

/-- A store's rows under each key, and an update that changes the rows of one key. -/
structure KeyedUpdate (σ : Type u) (κ : Type v) (ρ : Type w) [DecidableEq κ] where
  rows : σ → κ → List ρ
  update : κ → σ → σ
  change : ρ → ρ
  change_change : ∀ r, change (change r) = change r
  rows_update : ∀ k s k',
    rows (update k s) k' = if k' = k then (rows s k').map change else rows s k'

namespace KeyedUpdate

variable {σ : Type u} {κ : Type v} {ρ : Type w} [DecidableEq κ] (U : KeyedUpdate σ κ ρ)

/-- The update of one key after the other. -/
def sweep (keys : List κ) (s : σ) : σ := keys.foldl (fun s k => U.update k s) s

@[simp] theorem sweep_nil (s : σ) : U.sweep [] s = s := rfl

@[simp] theorem sweep_cons (k : κ) (keys : List κ) (s : σ) :
    U.sweep (k :: keys) s = U.sweep keys (U.update k s) := rfl

/-- Changing the rows of a list twice is changing them once. -/
theorem map_change_change (rows : List ρ) :
    (rows.map U.change).map U.change = rows.map U.change := by
  rw [List.map_map]
  apply List.map_congr_left
  intro r _
  exact U.change_change r

/-- **The rows after a sweep**: changed under the listed keys, and the same under the others. -/
theorem rows_sweep (keys : List κ) (s : σ) (k : κ) :
    U.rows (U.sweep keys s) k =
      if k ∈ keys then (U.rows s k).map U.change else U.rows s k := by
  induction keys generalizing s with
  | nil => simp
  | cons k₀ keys ih =>
    rw [sweep_cons, ih, U.rows_update]
    by_cases hhead : k = k₀
    · subst hhead
      simp [U.map_change_change]
    · simp [hhead]

/-- A sweep over keys that include every key with rows changes every row. -/
theorem rows_sweep_of_covers {keys : List κ} {s : σ} {k : κ}
    (h : U.rows s k ≠ [] → k ∈ keys) :
    U.rows (U.sweep keys s) k = (U.rows s k).map U.change := by
  rw [rows_sweep]
  split_ifs with hk
  · rfl
  · have hnil : U.rows s k = [] := by
      by_contra hne
      exact hk (h hne)
    simp [hnil]

/-- A row after such a sweep is a changed row. -/
theorem exists_of_mem_sweep {keys : List κ} {s : σ} {k : κ} {r : ρ}
    (h : U.rows s k ≠ [] → k ∈ keys) (hr : r ∈ U.rows (U.sweep keys s) k) :
    ∃ r₀ ∈ U.rows s k, U.change r₀ = r := by
  rw [U.rows_sweep_of_covers h] at hr
  exact List.mem_map.mp hr

/-- A sweep leaves the rows of a key that is not listed. -/
theorem rows_sweep_of_notMem {keys : List κ} {k : κ} (h : k ∉ keys) (s : σ) :
    U.rows (U.sweep keys s) k = U.rows s k := by
  rw [rows_sweep, if_neg h]

end KeyedUpdate

end Foundation
