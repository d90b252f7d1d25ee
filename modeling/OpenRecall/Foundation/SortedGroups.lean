import Mathlib

/-!
# Groups of a sorted list

A list that is sorted by a key is cut where the key changes. Every group then has all the items of its
key, and the groups' keys go up.
-/

set_option autoImplicit false

namespace Foundation.SortedGroups

universe u v

variable {α : Type u} {β : Type v} [LinearOrder β] {key : α → β}

/-- The longest runs of one key. -/
def groups (key : α → β) (l : List α) : List (List α) := l.splitBy fun a b => key a == key b

/-- The keys go up from a group to each that comes after it. -/
def Ascending (key : α → β) (gs : List (List α)) : Prop :=
  gs.Pairwise fun g g' => ∀ a ∈ g, ∀ b ∈ g', key a < key b

/-- A group has one key. -/
theorem key_eq {l g : List α} (hg : g ∈ groups key l) {a b : α} (ha : a ∈ g) (hb : b ∈ g) :
    key a = key b := by
  have hchain : g.IsChain fun x y => key x = key y :=
    (List.isChain_of_mem_splitBy hg).imp fun x y hxy => by simpa using hxy
  have : Trans (fun x y : α => key x = key y) (fun x y => key x = key y) fun x y => key x = key y :=
    ⟨Eq.trans⟩
  have : Std.Symm fun x y : α => key x = key y := ⟨fun _ _ => Eq.symm⟩
  have hpair : g.Pairwise fun x y => key x = key y := List.isChain_iff_pairwise.mp hchain
  exact List.Pairwise.forall_of_forall (R := fun x y => key x = key y) (fun _ _ => rfl) hpair ha hb

/-- Groups of one key each, each cut off from the next by its key and none after a larger one. -/
theorem ascending_of_isChain {gs : List (List α)} (hne : ∀ g ∈ gs, g ≠ [])
    (hkey : ∀ g ∈ gs, ∀ a ∈ g, ∀ b ∈ g, key a = key b)
    (hcut : gs.IsChain fun g g' => ∃ a ∈ g, ∃ b ∈ g', key a ≠ key b)
    (hle : gs.Pairwise fun g g' => ∀ a ∈ g, ∀ b ∈ g', key a ≤ key b) : Ascending key gs := by
  induction gs with
  | nil => exact List.Pairwise.nil
  | cons g gs ih =>
    obtain ⟨hfirst, hrest⟩ := List.pairwise_cons.mp hle
    have hlater : Ascending key gs :=
      ih (fun g' hg' => hne g' (List.mem_cons_of_mem g hg'))
        (fun g' hg' => hkey g' (List.mem_cons_of_mem g hg')) hcut.tail hrest
    refine List.pairwise_cons.mpr ⟨?_, hlater⟩
    cases gs with
    | nil => simp
    | cons next gs =>
      have hnext : ∀ a ∈ g, ∀ b ∈ next, key a < key b := by
        intro a ha b hb
        obtain ⟨⟨c, hc, d, hd, hcd⟩, -⟩ := List.isChain_cons_cons.mp hcut
        refine lt_of_le_of_ne (hfirst next List.mem_cons_self a ha b hb) fun hab => hcd ?_
        rw [hkey g List.mem_cons_self c hc a ha, hab,
          hkey next (List.mem_cons_of_mem g List.mem_cons_self) b hb d hd]
      intro g' hg' a ha b hb
      rcases List.mem_cons.mp hg' with rfl | hg'
      · exact hnext a ha b hb
      · obtain ⟨c, hc⟩ := List.exists_mem_of_ne_nil next (hne next (by simp))
        exact (hnext a ha c hc).trans ((List.pairwise_cons.mp hlater).1 g' hg' c hc b hb)

/-- **The keys of the groups of a sorted list go up.** -/
theorem ascending_groups {l : List α} (hl : l.Pairwise fun a b => key a ≤ key b) :
    Ascending key (groups key l) := by
  have hflatten : (groups key l).flatten = l := List.flatten_splitBy _ l
  refine ascending_of_isChain (fun g hg => List.ne_nil_of_mem_splitBy hg)
    (fun g hg a ha b hb => key_eq hg ha hb) ?_ (List.pairwise_flatten.mp (hflatten.symm ▸ hl)).2
  refine (List.isChain_getLast_head_splitBy _ l).imp ?_
  rintro g g' ⟨hg, hg', hcut⟩
  exact ⟨g.getLast hg, List.getLast_mem hg, g'.head hg', List.head_mem hg', by simpa using hcut⟩

/-- **A group of a sorted list has all the items of its key.** -/
theorem filter_key {l g : List α} (hl : l.Pairwise fun a b => key a ≤ key b) (hg : g ∈ groups key l)
    {a : α} (ha : a ∈ g) : l.filter (fun b => key b = key a) = g := by
  have hflatten : (groups key l).flatten = l := List.flatten_splitBy _ l
  have hall : ∀ gs : List (List α), Ascending key gs → (∀ g ∈ gs, ∀ x ∈ g, ∀ y ∈ g, key x = key y) →
      g ∈ gs → gs.flatten.filter (fun b => key b = key a) = g := by
    intro gs hup hkey hmem
    induction gs with
    | nil => cases hmem
    | cons first gs ih =>
      obtain ⟨hfirst, hrest⟩ := List.pairwise_cons.mp hup
      rw [List.flatten_cons, List.filter_append]
      rcases List.mem_cons.mp hmem with rfl | hmem
      · have hnone : gs.flatten.filter (fun b => key b = key a) = [] := by
          refine List.filter_eq_nil_iff.mpr fun b hb => ?_
          obtain ⟨g', hg', hb⟩ := List.mem_flatten.mp hb
          simpa using (hfirst g' hg' a ha b hb).ne'
        rw [hnone, List.append_nil]
        refine List.filter_eq_self.mpr fun b hb => ?_
        simpa using hkey g List.mem_cons_self b hb a ha
      · have hnone : first.filter (fun b => key b = key a) = [] := by
          refine List.filter_eq_nil_iff.mpr fun b hb => ?_
          simpa using (hfirst g hmem b hb a ha).ne
        rw [hnone, List.nil_append]
        exact ih hrest (fun g' hg' => hkey g' (List.mem_cons_of_mem first hg')) hmem
  rw [← hflatten]
  exact hall _ (ascending_groups hl) (fun g hg x hx y hy => key_eq hg hx hy) hg

end Foundation.SortedGroups
