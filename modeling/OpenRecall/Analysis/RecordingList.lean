import OpenRecall.Model.SegmentRepository
import OpenRecall.Foundation.Run
import OpenRecall.Analysis.CursorPaging

/-!
# The order of the app's list of recordings

The server pages through its segments by a key of the segment, newest first. A page that is loaded
goes behind what is on screen, and stays behind it whatever was deleted meanwhile. A first page that
is folded in puts what is not on screen in front, newer or not: a segment that moved up into the
first page because others were deleted, or one whose delete came between the answer and its use. The
list is in order exactly as long as no such segment is folded in.
-/

set_option autoImplicit false

namespace OpenRecall.Analysis.RecordingList

open Foundation OpenRecall.Model

universe u v w x y

variable {σ : Type x} {α : Type u} {χ : Type v} {ε : Type w} {κ : Type y} [LinearOrder κ]

/-! ## What is asked of the list -/

section

variable (id : α → String) (keyOf : String → κ)

/-- While nothing is searched for, no id is twice in the list, and the newest segment is first. -/
def Tidy (r : SegmentRepository α χ ε) : Prop :=
  r.query = "" → (r.accumulated.map id).Nodup ∧
    r.accumulated.Pairwise fun a b => keyOf (id b) ≤ keyOf (id a)

/-- A first page that is folded into the list has nothing that is not on screen but what is newer
than everything on screen. -/
def FirstPageNewer (w : RecordingsWorld σ α χ ε) : RecordingsEvent σ ε → Prop
  | .resume => ∀ c page, w.call = some c → c.merges = true → c.response = some (.ok page) →
    w.repo.query = "" → ∀ x ∈ page.1, id x ∉ w.repo.accumulated.map id →
      ∀ y ∈ w.repo.accumulated, keyOf (id y) < keyOf (id x)
  | _ => True

/-- The server's states are those that the endpoint pages through. -/
def Allowed (good : σ → Prop) (_ : RecordingsWorld σ α χ ε) : RecordingsEvent σ ε → Prop
  | .server s => good s
  | _ => True

variable {id keyOf}

/-- Two segments with one key are one. -/
theorem pairwise_lt_iff (hkey : Function.Injective keyOf) (items : List α) :
    (items.Pairwise fun a b => keyOf (id b) < keyOf (id a)) ↔
      (items.map id).Nodup ∧ items.Pairwise fun a b => keyOf (id b) ≤ keyOf (id a) := by
  rw [List.Nodup, List.pairwise_map, ← List.pairwise_and_iff]
  apply List.Pairwise.iff
  intro a b
  constructor
  · intro hlt
    exact ⟨fun heq => hlt.ne (congrArg keyOf heq.symm), hlt.le⟩
  · rintro ⟨hne, hle⟩
    exact lt_of_le_of_ne hle fun heq => hne (hkey heq.symm)

end

/-! ## Folding a page in -/

section

variable {id : α → String} {keyOf : String → κ}

theorem id_freshCopy (fresh : List α) (it : α) :
    id (SegmentRepository.freshCopy id fresh it) = id it := by
  unfold SegmentRepository.freshCopy
  cases hfound : fresh.reverse.find? fun s => id s = id it with
  | none => simp
  | some s => simpa using List.find?_some hfound

/-- The list after a merge is in order if and only if what is put in front is newer. -/
theorem pairwise_merged_iff (fresh accumulated : List α) :
    ((SegmentRepository.merged id fresh accumulated).Pairwise fun a b =>
        keyOf (id b) < keyOf (id a)) ↔
      ((fresh.filter fun s => id s ∉ accumulated.map id).Pairwise fun a b =>
        keyOf (id b) < keyOf (id a)) ∧
      (accumulated.Pairwise fun a b => keyOf (id b) < keyOf (id a)) ∧
      ∀ x ∈ fresh, id x ∉ accumulated.map id →
        ∀ y ∈ accumulated, keyOf (id y) < keyOf (id x) := by
  unfold SegmentRepository.merged
  rw [List.pairwise_append, List.pairwise_map]
  simp only [id_freshCopy, List.mem_filter, decide_eq_true_eq, List.forall_mem_map, and_imp]

end

/-! ## Deleting -/

section

variable (id : α → String) (segmentId : String) (r : SegmentRepository α χ ε)

theorem accumulated_removeFromPage : (r.removeFromPage id segmentId).accumulated =
    r.accumulated.filter fun s => id s ≠ segmentId := by
  unfold SegmentRepository.removeFromPage
  split_ifs with hany
  · unfold SegmentRepository.republish
    split <;> simp
  · rw [List.filter_eq_self.mpr]
    intro s hs
    simp only [List.any_eq_true, decide_eq_true_eq, not_exists, not_and] at hany
    simpa using hany s hs

/-- A delete leaves the paging as it is. -/
theorem paging_removeFromPage : (r.removeFromPage id segmentId).query = r.query ∧
    (r.removeFromPage id segmentId).exhausted = r.exhausted ∧
    (r.removeFromPage id segmentId).requestCursor = r.requestCursor := by
  unfold SegmentRepository.removeFromPage
  split_ifs
  · unfold SegmentRepository.republish
    split <;> simp [SegmentRepository.requestCursor]
  · simp

end

/-! ## The invariant -/

section

variable {id : α → String} {keyOf : String → κ} {api : SegmentApi σ α χ ε} {items : σ → List α}
  {good : σ → Prop}
  (E : Keyset.Endpoint (fun s => keyOf (id s))
    (fun before s => api.listSegments SegmentRepository.pageSize before none s) items good)

/-- The anchor, if there is one, can be written as a cursor. -/
def ValidAnchor (before : Option κ) : Prop := ∀ anchor, before = some anchor → E.valid anchor

/-- A page that the server answered in one of its states, from an anchor. -/
def Answered (before : Option κ) (page : List α × Option χ) : Prop :=
  ∃ s, good s ∧ page = ((Keyset.page (fun s => keyOf (id s)) E.limit before (items s)).1,
    (Keyset.page (fun s => keyOf (id s)) E.limit before (items s)).2.map E.code)

/-- What is on screen goes on from the cursor. -/
def Resumes (cursor : Option χ) (accumulated : List α) : Prop :=
  ∃ before, ValidAnchor E before ∧ cursor = before.map E.code ∧
    Keyset.Above (fun s => keyOf (id s)) before accumulated

/-- A call awaits a page for the list on screen. -/
structure Awaits (c : ListCall α χ ε) (accumulated : List α) : Prop where
  browses : c.query = none
  merges : c.merges = true → c.cursor = none ∧
    ∀ page, c.response = some (.ok page) → Answered E none page
  fetches : c.merges = false → ∃ before, ValidAnchor E before ∧ c.cursor = before.map E.code ∧
    Keyset.Above (fun s => keyOf (id s)) before accumulated ∧
    ∀ page, c.response = some (.ok page) → Answered E before page

/-- The list is in order, the rest of it is below, and so is what is on its way. -/
structure InOrder (w : RecordingsWorld σ α χ ε) : Prop where
  good : good w.server
  sorted : w.repo.query = "" →
    w.repo.accumulated.Pairwise fun a b => keyOf (id b) < keyOf (id a)
  resumes : w.repo.query = "" → w.repo.exhausted = false →
    Resumes E w.repo.requestCursor w.repo.accumulated
  call : w.repo.query = "" → ∀ c, w.call = some c → Awaits E c w.repo.accumulated

variable {E} {w : RecordingsWorld σ α χ ε}

theorem requestQuery_of_browsing {r : SegmentRepository α χ ε} (h : r.query = "") :
    r.requestQuery = none := by
  simp [SegmentRepository.requestQuery, h]

theorem InOrder.fetchPage (h : InOrder E w) (hmore : w.repo.exhausted = false) :
    InOrder E w.fetchPage := by
  refine ⟨h.good, h.sorted, h.resumes, ?_⟩
  rintro hquery c hc
  obtain rfl := Option.some.inj hc
  obtain ⟨before, hvalid, hcursor, habove⟩ := h.resumes hquery hmore
  exact ⟨requestQuery_of_browsing hquery, by simp,
    fun _ => ⟨before, hvalid, hcursor, habove, by simp⟩⟩

theorem InOrder.mergeFirstPage (h : InOrder E w) : InOrder E w.mergeFirstPage := by
  refine ⟨h.good, h.sorted, h.resumes, ?_⟩
  rintro hquery c hc
  obtain rfl := Option.some.inj hc
  exact ⟨requestQuery_of_browsing hquery, by simp, by simp⟩

/-- Starting over needs nothing of the list. -/
theorem inOrder_reload (hgood : good w.server) : InOrder E w.reload := by
  have hresumes : Resumes E none ([] : List α) :=
    ⟨none, by simp [ValidAnchor], by simp, by simp [Keyset.Above]⟩
  have hreset : InOrder E { w with repo := w.repo.reset, call := none } := by
    refine ⟨hgood, ?_, ?_, by simp⟩
    · simp [SegmentRepository.reset]
    · intro _ _
      simpa [SegmentRepository.reset, SegmentRepository.requestCursor] using hresumes
  exact hreset.fetchPage (by simp [SegmentRepository.reset])

/-- A call that gets the mutex. -/
theorem InOrder.begin_ (h : InOrder E w) (e : RecordingsEvent σ ε) : InOrder E (w.begin_ e) := by
  cases e with
  | loadMore =>
    unfold RecordingsWorld.begin_
    dsimp only
    split_ifs with hexhausted
    · exact h
    · exact h.fetchPage (by simpa using hexhausted)
  | refresh silent =>
    unfold RecordingsWorld.begin_
    dsimp only
    split_ifs
    · exact h.mergeFirstPage
    · exact inOrder_reload h.good
  | setQuery query =>
    unfold RecordingsWorld.begin_
    dsimp only
    split_ifs
    · exact h
    · exact inOrder_reload h.good
  | _ => exact h

/-- What the server answers to a request that browses. -/
theorem answered_listSegments {s : σ} (hgood : good s) {before : Option κ}
    (hvalid : ValidAnchor E before) {page : List α × Option χ}
    (h : api.listSegments SegmentRepository.pageSize (before.map E.code) none s = .ok page) :
    Answered E before page := by
  have hspec := E.spec s hgood before hvalid
  rw [hspec, Except.ok.injEq] at h
  exact ⟨s, hgood, h.symm⟩

/-- A request is answered, from the server's present state, or fails. -/
theorem InOrder.respond {response : ListCall α χ ε → Except ε (List α × Option χ)}
    (h : InOrder E w) (hresponse : ∀ c page, response c = .ok page → c.query = none →
      ∀ before, ValidAnchor E before → c.cursor = before.map E.code → Answered E before page) :
    InOrder E (w.respond response) := by
  unfold RecordingsWorld.respond
  cases hcall : w.call with
  | none => exact h
  | some c =>
    dsimp only
    split_ifs with hopen
    · refine ⟨h.good, h.sorted, h.resumes, ?_⟩
      rintro hquery _ hc
      obtain rfl := Option.some.inj hc
      obtain ⟨hbrowses, hmerges, hfetches⟩ := h.call hquery c hcall
      refine ⟨hbrowses, fun hm => ⟨(hmerges hm).1, fun page hpage => ?_⟩, fun hm => ?_⟩
      · exact hresponse c page (Option.some.inj hpage) hbrowses none (by simp [ValidAnchor])
          (by simpa using (hmerges hm).1)
      · obtain ⟨before, hvalid, hcursor, habove, -⟩ := hfetches hm
        exact ⟨before, hvalid, hcursor, habove, fun page hpage =>
          hresponse c page (Option.some.inj hpage) hbrowses before hvalid hcursor⟩
    · exact h

/-- A page goes behind what is on screen, and the next one behind both. -/
theorem Answered.append {before : Option κ} {page : List α × Option χ}
    (h : Answered E before page) {accumulated : List α}
    (habove : Keyset.Above (fun s => keyOf (id s)) before accumulated)
    (hsorted : accumulated.Pairwise fun a b => keyOf (id b) < keyOf (id a)) :
    ((accumulated ++ page.1).Pairwise fun a b => keyOf (id b) < keyOf (id a)) ∧
      ∀ cursor, page.2 = some cursor → Resumes E (some cursor) (accumulated ++ page.1) := by
  obtain ⟨s, hgood, rfl⟩ := h
  refine ⟨habove.pairwise_append_page (E.keys s hgood) hsorted, fun cursor hcursor => ?_⟩
  obtain ⟨anchor, hanchor, rfl⟩ := Option.map_eq_some_iff.mp hcursor
  refine ⟨some anchor, ?_, by simp, habove.append_page (E.keys s hgood) hanchor⟩
  rintro _ ⟨rfl⟩
  obtain ⟨⟨x, hx, rfl⟩, -, -⟩ := Keyset.page_anchor (E.keys s hgood) hanchor
  exact E.valid_key s hgood x (Keyset.mem_rest.mp (Keyset.mem_rest_of_mem_page hx)).1

/-- A first page is in order, and the next page goes behind it. -/
theorem Answered.first {page : List α × Option χ} (h : Answered E none page) :
    (page.1.Pairwise fun a b => keyOf (id b) < keyOf (id a)) ∧
      ∀ cursor, page.2 = some cursor → Resumes E (some cursor) page.1 := by
  have hnil : Keyset.Above (fun s => keyOf (id s)) none ([] : List α) := by simp [Keyset.Above]
  exact h.append hnil List.Pairwise.nil

end

/-! ### What a call leaves -/

section

variable (id : α → String) (page : List α × Option χ) (r : SegmentRepository α χ ε)

theorem accumulated_onFetched : (r.onFetched page).accumulated = r.accumulated ++ page.1 := by
  unfold SegmentRepository.onFetched
  split_ifs with hlast
  · simp [List.isEmpty_iff.mp hlast.1]
  · simp [List.isEmpty_iff.mp hlast.1]
  · simp

theorem query_onFetched : (r.onFetched page).query = r.query := by
  unfold SegmentRepository.onFetched
  split_ifs <;> simp

/-- The list goes on after a fetch with the page's cursor. -/
theorem cursor_of_onFetched (h : (r.onFetched page).exhausted = false) :
    ∃ cursor, page.2 = some cursor ∧ (r.onFetched page).requestCursor = some cursor := by
  unfold SegmentRepository.onFetched at h ⊢
  split_ifs at h ⊢
  simp only [Bool.or_eq_false_iff, Option.isNone_eq_false_iff] at h
  obtain ⟨cursor, hcursor⟩ := Option.isSome_iff_exists.mp h.1.2
  exact ⟨cursor, hcursor, by simp [SegmentRepository.requestCursor, hcursor]⟩

theorem paging_onFetchFailed (cause : ε) :
    (r.onFetchFailed cause).query = r.query ∧
      (r.onFetchFailed cause).exhausted = r.exhausted ∧
      (r.onFetchFailed cause).requestCursor = r.requestCursor ∧
      (r.onFetchFailed cause).accumulated = r.accumulated := by
  unfold SegmentRepository.onFetchFailed
  split_ifs <;> simp [SegmentRepository.requestCursor]

theorem query_onMerged : (r.onMerged id page).query = r.query := by
  unfold SegmentRepository.onMerged
  split_ifs <;> simp

/-- A first page on an empty screen is the list. -/
theorem accumulated_onMerged_of_empty (h : r.accumulated = []) :
    (r.onMerged id page).accumulated = page.1 := by
  unfold SegmentRepository.onMerged
  rw [if_pos (by simp [h])]
  split_ifs with hlast
  · simp [h, List.isEmpty_iff.mp hlast.1]
  · simp

/-- It goes on with the page's cursor. -/
theorem cursor_of_onMerged (hempty : r.accumulated = [])
    (h : (r.onMerged id page).exhausted = false) :
    ∃ cursor, page.2 = some cursor ∧ (r.onMerged id page).requestCursor = some cursor := by
  unfold SegmentRepository.onMerged at h ⊢
  rw [if_pos (by simp [hempty])] at h ⊢
  split_ifs at h ⊢
  simp only [Bool.or_eq_false_iff, Option.isNone_eq_false_iff] at h
  obtain ⟨cursor, hcursor⟩ := Option.isSome_iff_exists.mp h.1
  exact ⟨cursor, hcursor, by simp [SegmentRepository.requestCursor, hcursor]⟩

/-- On any other screen the page is folded in, and the list goes on as before. -/
theorem onMerged_of_ne_nil (h : r.accumulated ≠ []) :
    (r.onMerged id page).accumulated =
        SegmentRepository.merged id page.1 r.accumulated ∧
      (r.onMerged id page).exhausted = r.exhausted ∧
      (r.onMerged id page).requestCursor = r.requestCursor := by
  unfold SegmentRepository.onMerged
  rw [if_neg (by simpa using h)]
  simp [SegmentRepository.requestCursor]

end

/-! ## The invariant on a run -/

section

variable {id : α → String} {keyOf : String → κ} {api : SegmentApi σ α χ ε} {items : σ → List α}
  {good : σ → Prop}
  {E : Keyset.Endpoint (fun s => keyOf (id s))
    (fun before s => api.listSegments SegmentRepository.pageSize before none s) items good}
  {w : RecordingsWorld σ α χ ε} {page : List α × Option χ}

/-- A page that is fetched for the list on screen. -/
theorem InOrder.onFetched (h : InOrder E w) {before : Option κ}
    (hpage : w.repo.query = "" → Answered E before page)
    (habove : w.repo.query = "" →
      Keyset.Above (fun s => keyOf (id s)) before w.repo.accumulated) :
    InOrder E { w with repo := w.repo.onFetched page, call := none } := by
  refine ⟨h.good, fun hquery => ?_, fun hquery hmore => ?_, by simp⟩
  · rw [query_onFetched] at hquery
    rw [accumulated_onFetched]
    exact ((hpage hquery).append (habove hquery) (h.sorted hquery)).1
  · rw [query_onFetched] at hquery
    obtain ⟨cursor, hcursor, hrequest⟩ := cursor_of_onFetched page w.repo hmore
    rw [hrequest, accumulated_onFetched]
    exact ((hpage hquery).append (habove hquery) (h.sorted hquery)).2 cursor hcursor

/-- A first page that is folded in, when it brings only what is newer. -/
theorem InOrder.onMerged (h : InOrder E w) (hpage : w.repo.query = "" → Answered E none page)
    (hnewer : w.repo.query = "" → ∀ x ∈ page.1, id x ∉ w.repo.accumulated.map id →
      ∀ y ∈ w.repo.accumulated, keyOf (id y) < keyOf (id x)) :
    InOrder E { w with repo := w.repo.onMerged id page, call := none } := by
  refine ⟨h.good, fun hquery => ?_, fun hquery hmore => ?_, by simp⟩
  · rw [query_onMerged] at hquery
    have hfirst := (hpage hquery).first
    by_cases hempty : w.repo.accumulated = []
    · rw [accumulated_onMerged_of_empty id page w.repo hempty]
      exact hfirst.1
    · rw [(onMerged_of_ne_nil id page w.repo hempty).1]
      exact (pairwise_merged_iff page.1 w.repo.accumulated).mpr
        ⟨hfirst.1.filter _, h.sorted hquery, hnewer hquery⟩
  · rw [query_onMerged] at hquery
    have hfirst := (hpage hquery).first
    by_cases hempty : w.repo.accumulated = []
    · obtain ⟨cursor, hcursor, hrequest⟩ := cursor_of_onMerged id page w.repo hempty hmore
      rw [hrequest, accumulated_onMerged_of_empty id page w.repo hempty]
      exact hfirst.2 cursor hcursor
    · obtain ⟨haccumulated, hexhausted, hrequest⟩ := onMerged_of_ne_nil id page w.repo hempty
      rw [hexhausted] at hmore
      rw [haccumulated, hrequest]
      obtain ⟨before, hvalid, hcursor, habove⟩ := h.resumes hquery hmore
      refine ⟨before, hvalid, hcursor, ?_⟩
      cases before with
      | none => exact absurd habove hempty
      | some anchor =>
        intro x hx
        rcases List.mem_append.mp hx with hx | hx
        · obtain ⟨hx, hunknown⟩ := List.mem_filter.mp hx
          obtain ⟨y, hy⟩ := List.exists_mem_of_ne_nil _ hempty
          exact (habove y hy).trans (hnewer hquery x hx (by simpa using hunknown) y hy).le
        · obtain ⟨y, hy, rfl⟩ := List.mem_map.mp hx
          simpa only [id_freshCopy] using habove y hy

/-- A first page that is folded in brings only what is newer, when the list is in order after it. -/
theorem firstPageNewer_of_tidy (hkey : Function.Injective keyOf) {e : RecordingsEvent σ ε}
    (h : Tidy id keyOf (w.step api id e).repo) : FirstPageNewer id keyOf w e := by
  cases e with
  | resume =>
    rintro ⟨merges, cursor, query, response⟩ page hcall hmerges hresponse hquery x hx hunknown y hy
    dsimp only at hmerges hresponse
    subst hmerges hresponse
    have hrepo : (w.step api id .resume).repo = w.repo.onMerged id page := by
      simp [RecordingsWorld.step, RecordingsWorld.resume, hcall]
    have hshown : w.repo.accumulated ≠ [] := List.ne_nil_of_mem hy
    rw [hrepo] at h
    have hsorted := (pairwise_lt_iff hkey _).mpr (h (by rw [query_onMerged, hquery]))
    rw [(onMerged_of_ne_nil id page w.repo hshown).1, pairwise_merged_iff] at hsorted
    exact hsorted.2.2 x hx hunknown y hy
  | _ => trivial

/-- The call that has the mutex goes on. -/
theorem InOrder.resume (h : InOrder E w) (hnewer : FirstPageNewer id keyOf w .resume) :
    InOrder E (w.resume id) := by
  unfold RecordingsWorld.resume
  split
  · rename_i cursor query page hcall
    by_cases hquery : w.repo.query = ""
    · obtain ⟨before, -, -, habove, hpage⟩ := (h.call hquery _ hcall).fetches (by simp)
      exact h.onFetched (fun _ => hpage page (by simp)) (fun _ => habove)
    · have hnone : w.repo.query = "" → Answered E none page := fun hq => absurd hq hquery
      exact h.onFetched hnone fun hq => absurd hq hquery
  · rename_i cursor query cause hcall
    obtain ⟨hquery, hexhausted, hcursor, haccumulated⟩ := paging_onFetchFailed w.repo cause
    refine ⟨h.good, ?_, ?_, by simp⟩
    · rw [hquery, haccumulated]
      exact h.sorted
    · rw [hquery, hexhausted, hcursor, haccumulated]
      exact h.resumes
  · rename_i cursor query page hcall
    apply h.onMerged
    · intro hquery
      exact ((h.call hquery _ hcall).merges (by simp)).2 page (by simp)
    · exact hnewer _ page hcall (by simp) (by simp)
  · exact ⟨h.good, h.sorted, h.resumes, by simp⟩
  · exact h

/-- One event keeps the list in order. -/
theorem InOrder.step (h : InOrder E w) {e : RecordingsEvent σ ε} (hallowed : Allowed good w e)
    (hnewer : FirstPageNewer id keyOf w e) : InOrder E (w.step api id e) := by
  have hbegin : InOrder E (if w.call.isSome then w else w.begin_ e) := by
    split_ifs
    · exact h
    · exact h.begin_ e
  cases e with
  | loadMore => exact hbegin
  | refresh silent => exact hbegin
  | setQuery query => exact hbegin
  | answer =>
    refine h.respond fun c page hpage hbrowses before hvalid hcursor => ?_
    rw [hbrowses, hcursor] at hpage
    exact answered_listSegments h.good hvalid hpage
  | fail cause => exact h.respond fun c page hpage => by simp at hpage
  | resume => exact h.resume hnewer
  | cancel => exact ⟨h.good, h.sorted, h.resumes, by simp [RecordingsWorld.step]⟩
  | server s => exact ⟨hallowed, h.sorted, h.resumes, h.call⟩
  | deleted segmentId =>
    obtain ⟨hquery, hexhausted, hcursor⟩ := paging_removeFromPage id segmentId w.repo
    have hless : (w.repo.accumulated.filter fun s => id s ≠ segmentId).Sublist
        w.repo.accumulated := List.filter_sublist
    refine ⟨h.good, ?_, ?_, ?_⟩
    · simp only [RecordingsWorld.step]
      rw [hquery, accumulated_removeFromPage]
      exact fun hq => (h.sorted hq).sublist hless
    · simp only [RecordingsWorld.step]
      rw [hquery, hexhausted, hcursor, accumulated_removeFromPage]
      intro hq hmore
      obtain ⟨before, hvalid, hbefore, habove⟩ := h.resumes hq hmore
      exact ⟨before, hvalid, hbefore, habove.sublist hless⟩
    · simp only [RecordingsWorld.step]
      rw [hquery, accumulated_removeFromPage]
      intro hq c hc
      obtain ⟨hbrowses, hmerges, hfetches⟩ := h.call hq c hc
      refine ⟨hbrowses, hmerges, fun hm => ?_⟩
      obtain ⟨before, hvalid, hbefore, habove, hpage⟩ := hfetches hm
      exact ⟨before, hvalid, hbefore, habove.sublist hless, hpage⟩

end

/-! ## Every run -/

/-- The repository before its first call. -/
def opening (s : σ) : RecordingsWorld σ α χ ε where
  server := s

/-- **The list is in order in every state of a run exactly when no first page that is folded in
brings what is not on screen and not newer**, for every server that pages newest first by a key of
the segment.
SOURCE: data/SegmentRepository.kt:127-312, sessions/segments.py:302-335 -/
theorem tidy_iff {id : α → String} {keyOf : String → κ} (hkey : Function.Injective keyOf)
    {api : SegmentApi σ α χ ε} {items : σ → List α} {good : σ → Prop}
    (E : Keyset.Endpoint (fun s => keyOf (id s))
      (fun before s => api.listSegments SegmentRepository.pageSize before none s) items good)
    {s : σ} (hs : good s) {events : List (RecordingsEvent σ ε)}
    (hallowed : EveryStep (RecordingsWorld.step api id) (Allowed good) (opening s) events) :
    (∀ before, before <+: events →
        Tidy id keyOf (run (RecordingsWorld.step api id) (opening s) before).repo) ↔
      EveryStep (RecordingsWorld.step api id) (FirstPageNewer id keyOf) (opening s) events := by
  constructor
  · intro h
    rw [everyStep_iff_at_split]
    rintro xs e ys rfl
    apply firstPageNewer_of_tidy hkey
    have hafter := h (xs ++ [e]) ⟨ys, by simp⟩
    rwa [run_append] at hafter
  · rintro h before ⟨rest, rfl⟩
    have hopening : InOrder E (opening s) :=
      ⟨hs, by simp [opening],
        fun _ _ => ⟨none, by simp [ValidAnchor], by simp [opening, SegmentRepository.requestCursor],
          by simp [opening, Keyset.Above]⟩,
        by simp [opening]⟩
    have horder : InOrder E (run (RecordingsWorld.step api id) (opening s) before) :=
      EveryStep.invariant (P := fun w e => Allowed good w e ∧ FirstPageNewer id keyOf w e)
        (fun w e hw he => hw.step he.1 he.2) hopening (hallowed.prefix_of.and h.prefix_of)
    exact fun hquery => (pairwise_lt_iff hkey _).mp (horder.sorted hquery)

/-! ## The server's segments -/

open OpenRecall.Model.Paging OpenRecall.Analysis.CursorPaging

/-- The list endpoint over the index of segments, and whatever searches it.
SOURCE: data/SegmentApi.kt:19-25, sessions/segments.py:302-335 -/
def segmentApi (py : CursorReaders)
    (search : String → SegmentIndex →
      Except ListError (List SessionSegment × Option String)) :
    SegmentApi SegmentIndex SessionSegment String ListError where
  listSegments limit before query idx :=
    match query with
    | none => idx.list py limit before none
    | some query => search query idx

/-- The key of a segment: when it started, which does not change, and its id. -/
def startKey (startedAt : String → Time) (id : String) : RowKey := toLex (startedAt id, id)

theorem startKey_injective (startedAt : String → Time) :
    Function.Injective (startKey startedAt) :=
  fun _ _ h => congrArg (fun k : RowKey => (ofLex k).2) h

/-- The segments of an index started when they are said to have. -/
structure StartedAs (startedAt : String → Time) (idx : SegmentIndex) : Prop where
  good : GoodSegments idx
  started : ∀ s ∈ idx.segments.values, s.startedAt = startedAt s.id

/-- The server pages through its segments by these keys.
SOURCE: sessions/segments.py:302-335 -/
def startEndpoint (py : CursorReaders)
    (search : String → SegmentIndex → Except ListError (List SessionSegment × Option String))
    (startedAt : String → Time) :
    Keyset.Endpoint (fun s : SessionSegment => startKey startedAt s.id)
      (fun before idx =>
        (segmentApi py search).listSegments SegmentRepository.pageSize before none idx)
      (segmentsOf none) (StartedAs startedAt) :=
  (segmentEndpoint py (show (0 : ℤ) < (SegmentRepository.pageSize : ℤ) by
    norm_num [SegmentRepository.pageSize]) none).withKey
    (fun _ h => h.good)
    (fun idx h s hs => congrArg (fun t => (toLex (t, s.id) : RowKey)) (h.started s hs))

section

variable {startedAt : String → Time} {idx : SegmentIndex}

/-- What is asked of an index is asked of each of its segments. -/
theorem startedAs_iff (startedAt : String → Time) (idx : SegmentIndex) :
    StartedAs startedAt idx ↔ ∀ k s, idx.segments.get? k = some s →
      s.id = k ∧ IsDatetime s.startedAt ∧ s.startedAt = startedAt s.id := by
  constructor
  · intro h k s hget
    have hmem : s ∈ idx.segments.values := (Dict.mem_values_iff _ _).mpr ⟨k, hget⟩
    exact ⟨h.good.keyed k s hget, h.good.datetime s hmem, h.started s hmem⟩
  · intro h
    refine ⟨⟨fun k s hget => (h k s hget).1, fun s hs => ?_⟩, fun s hs => ?_⟩
    · obtain ⟨k, hget⟩ := (Dict.mem_values_iff _ _).mp hs
      exact (h k s hget).2.1
    · obtain ⟨k, hget⟩ := (Dict.mem_values_iff _ _).mp hs
      exact (h k s hget).2.2

theorem StartedAs.put (h : StartedAs startedAt idx) {s : SessionSegment}
    (htime : IsDatetime s.startedAt) (hstarted : s.startedAt = startedAt s.id) :
    StartedAs startedAt (idx.put s) := by
  rw [startedAs_iff] at h ⊢
  intro k s' hget
  rw [SegmentIndex.put, Dict.get?_set] at hget
  split_ifs at hget with heq
  · obtain rfl := Option.some.inj hget
    exact ⟨heq.symm, htime, hstarted⟩
  · exact h k s' hget

theorem StartedAs.delete (h : StartedAs startedAt idx) (id : String) :
    StartedAs startedAt (idx.delete id).2 := by
  rw [startedAs_iff] at h ⊢
  intro k s hget
  rw [SegmentIndex.get?_delete] at hget
  split_ifs at hget
  exact h k s hget

end

/-! ## A segment that moves up -/

/-- The `n`-th segment, which started at `n`. -/
def numbered (n : ℕ) : SessionSegment where
  id := String.ofList (List.replicate n 'a')
  sessionId := "s"
  startedAt := n
  endedAt := n
  firstSeq := n
  lastSeq := n
  startMs := 0
  endMs := 0

/-- A segment started at the length of its id. -/
def lengthOf (id : String) : Time := id.toList.length

/-- As many segments as fill a page, and one more. -/
def pageAndOne : SegmentIndex :=
  (List.range (SegmentRepository.pageSize + 1)).foldl (fun idx n => idx.put (numbered n)) {}

theorem startedAs_numbered (ns : List ℕ) (hns : ∀ n ∈ ns, n < 100) {idx : SegmentIndex}
    (h : StartedAs lengthOf idx) :
    StartedAs lengthOf (ns.foldl (fun idx n => idx.put (numbered n)) idx) := by
  induction ns generalizing idx with
  | nil => exact h
  | cons n ns ih =>
    rw [List.forall_mem_cons] at hns
    apply ih hns.2
    apply h.put
    · have hlow : (0 : ℤ) ≤ n := by simp
      have hhigh : (n : ℤ) < 100 := by exact_mod_cast hns.1
      constructor
      · norm_num [numbered, epochUs, IsoTime.dayUs]
        linarith
      · norm_num [numbered, epochUs, IsoTime.dayUs]
        linarith
    · simp [numbered, lengthOf]

theorem startedAs_empty (startedAt : String → Time) : StartedAs startedAt {} := by
  rw [startedAs_iff]
  intro k s hget
  simp at hget

theorem startedAs_pageAndOne : StartedAs lengthOf pageAndOne :=
  startedAs_numbered _ (by simp [SegmentRepository.pageSize]; omega) (startedAs_empty lengthOf)

/-- A search that finds nothing. -/
def findNothing (_ : String) (_ : SegmentIndex) :
    Except ListError (List SessionSegment × Option String) :=
  .ok ([], none)

/-- The first page of all is loaded. -/
def firstLoad : List (RecordingsEvent SegmentIndex ListError) := [.loadMore, .answer, .resume]

/-- The newest segment is deleted, and the list refreshes itself. -/
def deleteNewest : List (RecordingsEvent SegmentIndex ListError) :=
  [.server (pageAndOne.delete (numbered 20).id).2, .deleted (numbered 20).id, .refresh true,
    .answer, .resume]

/-- `tidy_iff` when the first page is loaded. -/
theorem tidy_firstLoad :
    Tidy SessionSegment.id (startKey lengthOf) (run (RecordingsWorld.step
      (segmentApi plainReaders findNothing) SessionSegment.id) (opening pageAndOne)
        firstLoad).repo :=
  (tidy_iff (startKey_injective lengthOf) (startEndpoint plainReaders findNothing lengthOf)
    startedAs_pageAndOne (by simp [firstLoad, Allowed])).mpr
    (by simp [firstLoad, FirstPageNewer, opening, RecordingsWorld.step, RecordingsWorld.begin_,
      RecordingsWorld.fetchPage, RecordingsWorld.respond]) firstLoad List.prefix_rfl

/-- The oldest segment, which is on no page yet, moves up into the first page when the newest one is
deleted, and is put in front of the list. -/
theorem not_always_tidy : ¬ ∀ (py : CursorReaders)
    (search : String → SegmentIndex → Except ListError (List SessionSegment × Option String))
    (startedAt : String → Time) (idx : SegmentIndex)
    (events : List (RecordingsEvent SegmentIndex ListError)), StartedAs startedAt idx →
    EveryStep (RecordingsWorld.step (segmentApi py search) SessionSegment.id)
      (Allowed (StartedAs startedAt)) (opening idx) events →
    ∀ before, before <+: events → Tidy SessionSegment.id (startKey startedAt)
      (run (RecordingsWorld.step (segmentApi py search) SessionSegment.id) (opening idx)
        before).repo := by
  intro h
  have hallowed : EveryStep (RecordingsWorld.step (segmentApi plainReaders findNothing)
      SessionSegment.id) (Allowed (StartedAs lengthOf)) (opening pageAndOne)
      (firstLoad ++ deleteNewest) := by
    simp [firstLoad, deleteNewest, Allowed, startedAs_pageAndOne.delete]
  obtain ⟨-, hsorted⟩ := h plainReaders findNothing lengthOf pageAndOne _ startedAs_pageAndOne
    hallowed _ List.prefix_rfl (by decide +kernel)
  revert hsorted
  decide +kernel

end OpenRecall.Analysis.RecordingList
