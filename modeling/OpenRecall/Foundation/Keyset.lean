import Mathlib

/-!
# Keyset paging

Items have keys in a linear order. A page is the first items, the largest key first, below an
anchor, and its last key is the anchor of the next page. The store that is paged over may be
another one at every fetch.

A `Walk` follows the anchors to the end. `visitsOnce` says that it comes by every key that is
there throughout exactly once, in order, and that it ends when the keys are finitely many.
-/

set_option autoImplicit false

namespace Foundation.Keyset

universe u v w

variable {α : Type u} {κ : Type v} [LinearOrder κ] (key : α → κ)

/-- The items by their keys, the largest first. -/
def newest (items : List α) : List α := items.insertionSort fun a b => key b ≤ key a

/-- The items below the anchor, when there is one. -/
def after (before : Option κ) (items : List α) : List α :=
  match before with
  | none => items
  | some anchor => items.filter fun x => key x < anchor

/-- The items that a page is cut from. -/
def rest (before : Option κ) (items : List α) : List α := after key before (newest key items)

/-- A page, and the anchor of the next one when there are more items. -/
def page (limit : ℕ) (before : Option κ) (items : List α) : List α × Option κ :=
  ((rest key before items).take limit,
    if limit < (rest key before items).length then
      ((rest key before items).take limit).getLast?.map key
    else none)

/-- The key is below the anchor, when there is one. -/
def Below (before : Option κ) (k : κ) : Prop := ∀ anchor, before = some anchor → k < anchor

variable {key}

theorem mem_rest {before : Option κ} {items : List α} {x : α} :
    x ∈ rest key before items ↔ x ∈ items ∧ Below before (key x) := by
  cases before <;> simp [rest, after, newest, Below]

/-- With keys that are pairwise different, a page's items come in strict order. -/
theorem pairwise_rest {items : List α} (h : (items.map key).Nodup) (before : Option κ) :
    (rest key before items).Pairwise fun a b => key b < key a := by
  have hsorted : (newest key items).Pairwise fun a b => key b ≤ key a :=
    List.pairwise_insertionSort _ items
  have hnodup : ((newest key items).map key).Nodup :=
    ((List.perm_insertionSort _ items).map key).nodup_iff.mpr h
  have hstrict : (newest key items).Pairwise fun a b => key b < key a := by
    rw [List.Nodup, List.pairwise_map] at hnodup
    refine (hsorted.and hnodup).imp ?_
    rintro a b ⟨hle, hne⟩
    exact lt_of_le_of_ne hle (Ne.symm hne)
  cases before with
  | none => exact hstrict
  | some anchor => exact hstrict.filter _

/-- Items in strict order are known by what they are. -/
theorem eq_of_mem_iff {xs ys : List α} (hx : xs.Pairwise fun a b => key b < key a)
    (hy : ys.Pairwise fun a b => key b < key a) (h : ∀ x, x ∈ xs ↔ x ∈ ys) : xs = ys := by
  have hperm : xs.Perm ys :=
    (List.perm_ext_iff_of_nodup (hx.imp (fun hlt heq => hlt.ne (congrArg key heq.symm)))
      (hy.imp (fun hlt heq => hlt.ne (congrArg key heq.symm)))).mpr h
  exact hperm.eq_of_pairwise (fun a b _ _ hab hba => absurd hab hba.asymm) hx hy

/-- Two strict orders that rank the same list agree on its items. -/
theorem lt_iff_of_pairwise {ρ : Type w} [LinearOrder ρ] {other : α → ρ} {xs : List α}
    (h : xs.Pairwise fun a b => key b < key a) (h' : xs.Pairwise fun a b => other b < other a)
    {x y : α} (hx : x ∈ xs) (hy : y ∈ xs) : key x < key y ↔ other x < other y := by
  obtain ⟨i, rfl⟩ := List.get_of_mem hx
  obtain ⟨j, rfl⟩ := List.get_of_mem hy
  rw [List.pairwise_iff_get] at h h'
  rcases lt_trichotomy i j with hlt | rfl | hgt
  · exact iff_of_false (h i j hlt).asymm (h' i j hlt).asymm
  · simp
  · exact iff_of_true (h j i hgt) (h' j i hgt)

/-! ## One page -/

section

variable {limit : ℕ} {before : Option κ} {items : List α}

/-- The last page holds everything that is left. -/
theorem page_eq_rest (hlimit : 0 < limit) (h : (page key limit before items).2 = none) :
    (page key limit before items).1 = rest key before items := by
  rw [page] at h ⊢
  dsimp only at h ⊢
  split_ifs at h with hmore
  · rw [Option.map_eq_none_iff, List.getLast?_eq_none_iff, List.take_eq_nil_iff] at h
    rcases h with h | h
    · omega
    · simp [h] at hmore
  · exact List.take_of_length_le (not_lt.mp hmore)

/-- An anchor is the key of an item on the page, and parts the page from what is left. -/
theorem page_anchor (hkeys : (items.map key).Nodup) {anchor : κ}
    (h : (page key limit before items).2 = some anchor) :
    (∃ x ∈ (page key limit before items).1, key x = anchor) ∧
      (∀ x ∈ (page key limit before items).1, anchor ≤ key x) ∧
      ∀ x ∈ rest key before items, anchor ≤ key x → x ∈ (page key limit before items).1 := by
  rw [page] at h ⊢
  dsimp only at h ⊢
  split_ifs at h with hmore
  rw [Option.map_eq_some_iff] at h
  obtain ⟨last, hlast, rfl⟩ := h
  have hordered := pairwise_rest hkeys before
  have hsplit := List.take_append_drop limit (rest key before items)
  obtain ⟨front, hfront⟩ := List.getLast?_eq_some_iff.mp hlast
  rw [← hsplit, List.pairwise_append, hfront, List.pairwise_append] at hordered
  obtain ⟨⟨-, -, hpage⟩, -, hcross⟩ := hordered
  refine ⟨⟨last, List.mem_of_getLast? hlast, rfl⟩, ?_, ?_⟩
  · intro x hx
    rw [hfront, List.mem_append, List.mem_singleton] at hx
    rcases hx with hx | rfl
    · exact (hpage x hx last (by simp)).le
    · exact le_rfl
  · intro x hx hle
    rw [← hsplit, List.mem_append] at hx
    rcases hx with hx | hx
    · exact hx
    · exact absurd (hcross last (by simp) x hx) (not_lt.mpr hle)

theorem mem_rest_of_mem_page {x : α} (h : x ∈ (page key limit before items).1) :
    x ∈ rest key before items :=
  List.mem_of_mem_take h

end

/-- Keys that agree on the items make the same pages. -/
theorem page_congr {other : α → κ} {items : List α} (hkeys : (items.map key).Nodup)
    (h : ∀ x ∈ items, key x = other x) (limit : ℕ) (before : Option κ) :
    page key limit before items = page other limit before items := by
  have hother : (items.map other).Nodup := by rwa [← List.map_congr_left h]
  have hrest : rest key before items = rest other before items := by
    apply eq_of_mem_iff (pairwise_rest hkeys before)
    · refine (pairwise_rest hother before).imp_of_mem fun hx hy hlt => ?_
      rwa [h _ (mem_rest.mp hx).1, h _ (mem_rest.mp hy).1]
    · intro x
      rw [mem_rest, mem_rest]
      exact and_congr_right fun hx => by rw [h x hx]
  have hlast : ((rest key before items).take limit).getLast?.map key =
      ((rest key before items).take limit).getLast?.map other := by
    apply Option.map_congr
    intro x hx
    exact h x (mem_rest.mp (List.mem_of_mem_take (List.mem_of_getLast? hx))).1
  rw [page, page, hlast, hrest]

/-! ## A list that pages are added to -/

section

/-- The items are at the anchor or above it; without an anchor there are none. -/
def Above (key : α → κ) (before : Option κ) (items : List α) : Prop :=
  match before with
  | none => items = []
  | some anchor => ∀ x ∈ items, anchor ≤ key x

variable {limit : ℕ} {before : Option κ} {items loaded : List α}

theorem Above.sublist {fewer : List α} (h : Above key before loaded)
    (hless : fewer.Sublist loaded) : Above key before fewer := by
  cases before with
  | none =>
    obtain rfl : loaded = [] := h
    exact List.sublist_nil.mp hless
  | some anchor => exact fun x hx => h x (hless.subset hx)

/-- What is below the anchor is below what is above it. -/
theorem Above.lt_of_below (h : Above key before loaded) {x y : α} (hx : x ∈ loaded)
    (hy : Below before (key y)) : key y < key x := by
  cases before with
  | none =>
    obtain rfl : loaded = [] := h
    simp at hx
  | some anchor => exact (hy anchor rfl).trans_le (h x hx)

/-- A page goes behind what is loaded. -/
theorem Above.pairwise_append_page (h : Above key before loaded) (hkeys : (items.map key).Nodup)
    (hloaded : loaded.Pairwise fun a b => key b < key a) :
    (loaded ++ (page key limit before items).1).Pairwise fun a b => key b < key a := by
  rw [List.pairwise_append]
  refine ⟨hloaded, (pairwise_rest hkeys before).sublist (List.take_sublist _ _), ?_⟩
  intro x hx y hy
  exact h.lt_of_below hx (mem_rest.mp (mem_rest_of_mem_page hy)).2

/-- The next anchor is below what is loaded and at the end of the page. -/
theorem Above.append_page (h : Above key before loaded) (hkeys : (items.map key).Nodup)
    {anchor : κ} (hnext : (page key limit before items).2 = some anchor) :
    Above key (some anchor) (loaded ++ (page key limit before items).1) := by
  obtain ⟨⟨last, hlast, rfl⟩, hpage, -⟩ := page_anchor hkeys hnext
  intro x hx
  rw [List.mem_append] at hx
  rcases hx with hx | hx
  · exact (h.lt_of_below hx (mem_rest.mp (mem_rest_of_mem_page hlast)).2).le
  · exact hpage x hx

end

/-! ## Walks -/

section

universe x y

variable {σ : Type w} {χ : Type x} {ε : Type y}

/-- The items that a client sees who follows the cursors from a given one to the end, where the
`i`-th page is fetched from the `i`-th store. -/
inductive Walk (fetch : Option χ → σ → Except ε (List α × Option χ)) :
    Option χ → List σ → List α → Prop where
  | last {before : Option χ} {s : σ} {page : List α} :
      fetch before s = .ok (page, none) → Walk fetch before [s] page
  | next {before : Option χ} {s : σ} {page : List α} {cursor : χ} {more : List σ}
      {visited : List α} : fetch before s = .ok (page, some cursor) →
      Walk fetch (some cursor) more visited → Walk fetch before (s :: more) (page ++ visited)

/-- A paging endpoint: what it lists, by which keys, and how it writes the anchors. The spec is
for stores that are `good`, whose keys are all `valid`. -/
structure Endpoint (key : α → κ) (fetch : Option χ → σ → Except ε (List α × Option χ))
    (items : σ → List α) (good : σ → Prop) where
  limit : ℕ
  code : κ → χ
  valid : κ → Prop
  pos : 0 < limit
  keys : ∀ s, good s → ((items s).map key).Nodup
  valid_key : ∀ s, good s → ∀ x ∈ items s, valid (key x)
  spec : ∀ s, good s → ∀ before : Option κ, (∀ anchor, before = some anchor → valid anchor) →
    fetch (before.map code) s =
      .ok ((page key limit before (items s)).1, (page key limit before (items s)).2.map code)

/-- An endpoint pages as well by other keys that its items have, in fewer stores. -/
def Endpoint.withKey {fetch : Option χ → σ → Except ε (List α × Option χ)} {items : σ → List α}
    {good : σ → Prop} (E : Endpoint key fetch items good) {other : α → κ} {fewer : σ → Prop}
    (hgood : ∀ s, fewer s → good s) (hother : ∀ s, fewer s → ∀ x ∈ items s, key x = other x) :
    Endpoint other fetch items fewer where
  limit := E.limit
  code := E.code
  valid := E.valid
  pos := E.pos
  keys s hs := by
    rw [← List.map_congr_left (hother s hs)]
    exact E.keys s (hgood s hs)
  valid_key s hs x hx := by
    rw [← hother s hs x hx]
    exact E.valid_key s (hgood s hs) x hx
  spec s hs before hvalid := by
    rw [E.spec s (hgood s hs) before hvalid,
      page_congr (E.keys s (hgood s hs)) (hother s hs)]

/-- **Every item is visited exactly once**, in order, whatever happens between the pages, as long
as it is there throughout. -/
structure VisitsOnce (key : α → κ) (fetch : Option χ → σ → Except ε (List α × Option χ))
    (items : σ → List α) (good : σ → Prop) : Prop where
  /-- The visited items are in strict order. -/
  order : ∀ {stores : List σ} {visited : List α}, (∀ s ∈ stores, good s) →
    Walk fetch none stores visited → visited.Pairwise fun a b => key b < key a
  /-- What is there throughout is visited once. -/
  once : ∀ {stores : List σ} {visited : List α}, (∀ s ∈ stores, good s) →
    Walk fetch none stores visited → ∀ k, (∀ s ∈ stores, k ∈ (items s).map key) →
      ∃! i : Fin visited.length, key (visited.get i) = k
  /-- What is visited was there when its page was fetched. -/
  sound : ∀ {stores : List σ} {visited : List α}, (∀ s ∈ stores, good s) →
    Walk fetch none stores visited → ∀ x ∈ visited, ∃ s ∈ stores, x ∈ items s
  /-- The walk ends when only finitely many keys ever occur. -/
  ends : ∀ stores : ℕ → σ, (∀ i, good (stores i)) → ∀ keys : Finset κ,
    (∀ i, ∀ x ∈ items (stores i), key x ∈ keys) →
      ∃ n visited, Walk fetch none ((List.range (n + 1)).map stores) visited

variable {fetch : Option χ → σ → Except ε (List α × Option χ)} {items : σ → List α}
  {good : σ → Prop} (E : Endpoint key fetch items good)

/-- What a walk visits below its anchor. -/
structure Visits (items : σ → List α) (key : α → κ) (before : Option κ) (stores : List σ)
    (visited : List α) : Prop where
  below : ∀ x ∈ visited, Below before (key x)
  order : visited.Pairwise fun a b => key b < key a
  complete : ∀ k, Below before k → (∀ s ∈ stores, k ∈ (items s).map key) → k ∈ visited.map key
  sound : ∀ x ∈ visited, ∃ s ∈ stores, x ∈ items s

include E in
/-- One page, and a walk from its anchor. -/
theorem Visits.cons {before : Option κ} {s : σ} {anchor : κ} {more : List σ} {visited : List α}
    (hs : good s) (hanchor : (page key E.limit before (items s)).2 = some anchor)
    (h : Visits items key (some anchor) more visited) :
    Visits items key before (s :: more)
      ((page key E.limit before (items s)).1 ++ visited) := by
  obtain ⟨⟨last, hlast, rfl⟩, hpage, hleft⟩ := page_anchor (E.keys s hs) hanchor
  have hbelow : Below before (key last) := (mem_rest.mp (mem_rest_of_mem_page hlast)).2
  refine ⟨?_, ?_, ?_, ?_⟩
  · intro x hx
    rw [List.mem_append] at hx
    rcases hx with hx | hx
    · exact (mem_rest.mp (mem_rest_of_mem_page hx)).2
    · intro anchor hbefore
      exact (h.below x hx _ rfl).trans (hbelow anchor hbefore)
  · rw [List.pairwise_append]
    refine ⟨(pairwise_rest (E.keys s hs) before).sublist (List.take_sublist _ _), h.order, ?_⟩
    intro x hx y hy
    exact (h.below y hy _ rfl).trans_le (hpage x hx)
  · intro k hk hstores
    rw [List.forall_mem_cons] at hstores
    obtain ⟨hhere, hmore⟩ := hstores
    rw [List.map_append, List.mem_append]
    rcases lt_or_ge k (key last) with hlt | hge
    · right
      apply h.complete k _ hmore
      rintro _ ⟨rfl⟩
      exact hlt
    · left
      obtain ⟨x, hx, rfl⟩ := List.mem_map.mp hhere
      exact List.mem_map.mpr ⟨x, hleft x (mem_rest.mpr ⟨hx, hk⟩) hge, rfl⟩
  · intro x hx
    rw [List.mem_append] at hx
    rcases hx with hx | hx
    · exact ⟨s, List.mem_cons_self, (mem_rest.mp (mem_rest_of_mem_page hx)).1⟩
    · obtain ⟨s', hs', hmem⟩ := h.sound x hx
      exact ⟨s', List.mem_cons_of_mem s hs', hmem⟩

include E in
/-- The last page. -/
theorem Visits.last {before : Option κ} {s : σ} (hs : good s)
    (h : (page key E.limit before (items s)).2 = none) :
    Visits items key before [s] (page key E.limit before (items s)).1 := by
  rw [page_eq_rest E.pos h]
  refine ⟨fun x hx => (mem_rest.mp hx).2, pairwise_rest (E.keys s hs) before, ?_, ?_⟩
  · intro k hk hstores
    obtain ⟨x, hx, rfl⟩ := List.mem_map.mp (hstores s List.mem_cons_self)
    exact List.mem_map.mpr ⟨x, mem_rest.mpr ⟨hx, hk⟩, rfl⟩
  · intro x hx
    exact ⟨s, List.mem_cons_self, (mem_rest.mp hx).1⟩

include E in
/-- **What a walk visits**, by induction on the walk. -/
theorem visits_of_walk {cursor : Option χ} {stores : List σ} {visited : List α}
    (h : Walk fetch cursor stores visited) {before : Option κ}
    (hcursor : cursor = before.map E.code)
    (hvalid : ∀ anchor, before = some anchor → E.valid anchor) (hgood : ∀ s ∈ stores, good s) :
    Visits items key before stores visited := by
  induction h generalizing before with
  | @last c s first hfetch =>
    subst hcursor
    have hs := hgood s List.mem_cons_self
    rw [E.spec s hs before hvalid, Except.ok.injEq, Prod.mk.injEq,
      Option.map_eq_none_iff] at hfetch
    obtain ⟨rfl, hnone⟩ := hfetch
    exact Visits.last E hs hnone
  | @next c s first cursor more visited hfetch hwalk ih =>
    subst hcursor
    obtain ⟨hs, hmore⟩ := List.forall_mem_cons.mp hgood
    rw [E.spec s hs before hvalid, Except.ok.injEq, Prod.mk.injEq,
      Option.map_eq_some_iff] at hfetch
    obtain ⟨rfl, anchor, hanchor, rfl⟩ := hfetch
    apply Visits.cons E hs hanchor
    apply ih rfl ?_ hmore
    rintro _ ⟨rfl⟩
    obtain ⟨⟨x, hx, rfl⟩, -, -⟩ := page_anchor (E.keys s hs) hanchor
    exact E.valid_key s hs x (mem_rest.mp (mem_rest_of_mem_page hx)).1

include E in
/-- A walk that is at page `i` ends, since the anchors go down among finitely many keys. -/
theorem exists_walk {stores : ℕ → σ} (hgood : ∀ i, good (stores i)) {keys : Finset κ}
    (hkeys : ∀ i, ∀ x ∈ items (stores i), key x ∈ keys) (before : Option κ)
    (hvalid : ∀ anchor, before = some anchor → E.valid anchor) (i : ℕ) :
    ∃ n visited,
      Walk fetch (before.map E.code) ((List.range' i (n + 1)).map stores) visited := by
  classical
  induction hcard : (keys.filter (Below before)).card using Nat.strong_induction_on
    generalizing before i with
  | _ card ih =>
    have hfetch := E.spec (stores i) (hgood i) before hvalid
    cases hnext : (page key E.limit before (items (stores i))).2 with
    | none =>
      rw [hnext] at hfetch
      exact ⟨0, _, .last hfetch⟩
    | some anchor =>
      rw [hnext] at hfetch
      obtain ⟨⟨last, hlast, rfl⟩, -, -⟩ := page_anchor (E.keys _ (hgood i)) hnext
      obtain ⟨hmem, hbelow⟩ := mem_rest.mp (mem_rest_of_mem_page hlast)
      have hfewer : (keys.filter (Below (some (key last)))).card < card := by
        rw [← hcard]
        apply Finset.card_lt_card
        rw [Finset.ssubset_iff_of_subset]
        · refine ⟨key last, ?_, ?_⟩
          · exact Finset.mem_filter.mpr ⟨hkeys i last hmem, hbelow⟩
          · rw [Finset.mem_filter, not_and]
            exact fun _ h => lt_irrefl _ (h _ rfl)
        · apply Finset.monotone_filter_right
          intro k _ hk anchor hanchor
          exact (hk _ rfl).trans (hbelow anchor hanchor)
      have hlastValid : ∀ anchor, some (key last) = some anchor → E.valid anchor := by
        rintro _ ⟨rfl⟩
        exact E.valid_key _ (hgood i) last hmem
      obtain ⟨n, visited, hwalk⟩ := ih _ hfewer (some (key last)) hlastValid (i + 1) rfl
      refine ⟨n + 1, (page key E.limit before (items (stores i))).1 ++ visited, ?_⟩
      rw [List.range'_succ, List.map_cons]
      exact .next hfetch hwalk

include E in
/-- **Paging by keyset visits every item exactly once.** -/
theorem visitsOnce : VisitsOnce key fetch items good := by
  have hnone : ∀ anchor : κ, none = some anchor → E.valid anchor := by simp
  have hall : ∀ k : κ, Below none k := by simp [Below]
  refine ⟨?_, ?_, ?_, ?_⟩
  · intro stores visited hgood hwalk
    exact (visits_of_walk E hwalk rfl hnone hgood).order
  · intro stores visited hgood hwalk k hk
    have hvisits := visits_of_walk E hwalk rfl hnone hgood
    have horder := List.pairwise_iff_get.mp hvisits.order
    obtain ⟨x, hx, rfl⟩ := List.mem_map.mp (hvisits.complete k (hall k) hk)
    obtain ⟨i, rfl⟩ := List.get_of_mem hx
    refine ⟨i, rfl, ?_⟩
    intro j hj
    rcases lt_trichotomy j i with hlt | heq | hgt
    · exact absurd hj (horder j i hlt).ne'
    · exact heq
    · exact absurd hj (horder i j hgt).ne
  · intro stores visited hgood hwalk
    exact (visits_of_walk E hwalk rfl hnone hgood).sound
  · intro stores hgood keys hkeys
    simp only [List.range_eq_range']
    exact exists_walk E hgood hkeys none hnone 0

end

end Foundation.Keyset
