import OpenRecall.Foundation.Labels
import OpenRecall.Model.Segments

/-!
# What the segment index holds of a session

The segments of one session, newest first, are a list that an event extends at its head and that
the closing operations touch only there: `recordIn` and `closeIf` say what happens to that list.
The index of many sessions refines these lists: each operation changes the list of the session it
is about as the abstract one does, and leaves the others alone.
-/

set_option autoImplicit false

namespace OpenRecall.Model

open Foundation

/-! ## One session's segments -/

/-- What an event does to the segments of its session, newest first. -/
def recordIn (idleMs maxMs : ℤ) (e : CaptureEvent) : List SessionSegment → List SessionSegment
  | [] => [SessionSegment.ofEvent e]
  | s :: rest =>
    if s.closed then SessionSegment.ofEvent e :: s :: rest
    else if SegmentIndex.shouldClose idleMs maxMs s e then
      SessionSegment.ofEvent e :: s.close :: rest
    else s.extend e :: rest

/-- The newest segment is closed if the test says so. -/
def closeIf (p : SessionSegment → Bool) : List SessionSegment → List SessionSegment
  | [] => []
  | s :: rest => (if p s then s.close else s) :: rest

/-- The id of the newest segment while it is open. -/
def openOf : List SessionSegment → Option String
  | [] => none
  | s :: _ => if s.closed then none else some s.id

/-- Closing the newest segment if it is closed changes nothing. -/
theorem closeIf_of_openOf_eq_none {l : List SessionSegment} (h : openOf l = none)
    (p : SessionSegment → Bool) : closeIf p l = l := by
  cases l with
  | nil => rfl
  | cons s rest =>
    have hclosed : s.closed = true := by
      by_contra hopen
      simp [openOf, hopen] at h
    have hclose : s.close = s := by
      rw [SessionSegment.close, ← hclosed]
    simp [closeIf, hclose]

/-- What the segments of a session are like, newest first: each has its id from its first event,
the older ones are closed, and they follow one another. -/
structure Chain (sessionId : String) (l : List SessionSegment) : Prop where
  session : ∀ s ∈ l, s.sessionId = sessionId
  id : ∀ s ∈ l, s.id = segmentId sessionId s.firstSeq
  span : ∀ s ∈ l, s.firstSeq ≤ s.lastSeq
  older : ∀ s ∈ l.tail, s.closed = true
  sorted : l.Pairwise fun a b => b.lastSeq < a.firstSeq

theorem chain_nil (sessionId : String) : Chain sessionId [] := by
  constructor <;> simp

namespace Chain

variable {sessionId : String} {l rest : List SessionSegment} {s : SessionSegment}

theorem tail (h : Chain sessionId (s :: rest)) : Chain sessionId rest where
  session t ht := h.session t (List.mem_cons_of_mem s ht)
  id t ht := h.id t (List.mem_cons_of_mem s ht)
  span t ht := h.span t (List.mem_cons_of_mem s ht)
  older t ht := h.older t (List.mem_of_mem_tail ht)
  sorted := h.sorted.of_cons

/-- A segment like the newest may stand in its place. -/
theorem replace (h : Chain sessionId (s :: rest)) {t : SessionSegment}
    (hsession : t.sessionId = s.sessionId) (hid : t.id = s.id)
    (hfirst : t.firstSeq = s.firstSeq) (hlast : s.lastSeq ≤ t.lastSeq) :
    Chain sessionId (t :: rest) where
  session := by
    simpa [hsession] using h.session
  id := by
    simpa [hid, hfirst] using h.id
  span := by
    have hspan := h.span s List.mem_cons_self
    have hrest := h.tail.span
    rw [List.forall_mem_cons]
    exact ⟨by omega, hrest⟩
  older := h.older
  sorted := by
    rw [List.pairwise_cons, hfirst]
    exact List.pairwise_cons.mp h.sorted

/-- A new segment comes after closed ones. -/
theorem push (h : Chain sessionId l) (hclosed : ∀ s ∈ l, s.closed = true) {e : CaptureEvent}
    (hsession : e.sessionId = sessionId) (hseq : ∀ s ∈ l, s.lastSeq < e.seq) :
    Chain sessionId (SessionSegment.ofEvent e :: l) where
  session := by
    simpa [hsession] using h.session
  id := by
    simpa [hsession] using h.id
  span := by
    simpa using h.span
  older := hclosed
  sorted := List.pairwise_cons.mpr ⟨hseq, h.sorted⟩

theorem closed_of_closed (h : Chain sessionId (s :: rest)) (hs : s.closed = true) :
    ∀ t ∈ s :: rest, t.closed = true := by
  rw [List.forall_mem_cons]
  exact ⟨hs, h.older⟩

theorem closeIf (h : Chain sessionId l) (p : SessionSegment → Bool) :
    Chain sessionId (closeIf p l) := by
  cases l with
  | nil => exact h
  | cons s rest =>
    simp only [Model.closeIf]
    split_ifs
    · exact h.replace rfl rfl rfl le_rfl
    · exact h

/-- SOURCE: sessions/segments.py:144-173 -/
theorem recordIn (h : Chain sessionId l) {e : CaptureEvent} (hsession : e.sessionId = sessionId)
    (hseq : ∀ s ∈ l, s.lastSeq < e.seq) (idleMs maxMs : ℤ) :
    Chain sessionId (recordIn idleMs maxMs e l) := by
  cases l with
  | nil => exact h.push (by simp) hsession hseq
  | cons s rest =>
    simp only [Model.recordIn]
    split_ifs with hclosed hcut
    · exact h.push (h.closed_of_closed hclosed) hsession hseq
    · have hclose : Chain sessionId (s.close :: rest) := h.replace rfl rfl rfl le_rfl
      exact hclose.push (hclose.closed_of_closed rfl) hsession (by simpa using hseq)
    · exact h.replace rfl rfl rfl (le_max_left s.lastSeq e.seq)

/-- The ids tell the segments of a session apart. -/
theorem firstSeq_ne (h : Chain sessionId l) :
    l.Pairwise fun a b => b.firstSeq < a.firstSeq := by
  apply h.sorted.imp_of_mem
  intro a b _ hb hlt
  exact (h.span b hb).trans_lt hlt

/-- A number is in the range of one segment at most. -/
theorem eq_of_range (h : Chain sessionId l) {t : SessionSegment} (hs : s ∈ l) (ht : t ∈ l) {seq : ℤ}
    (hsseq : s.firstSeq ≤ seq ∧ seq ≤ s.lastSeq) (htseq : t.firstSeq ≤ seq ∧ seq ≤ t.lastSeq) :
    s = t := by
  have hapart : l.Pairwise fun a b => (a.firstSeq ≤ seq ∧ seq ≤ a.lastSeq) →
      (b.firstSeq ≤ seq ∧ seq ≤ b.lastSeq) → a = b :=
    h.sorted.imp fun {a b} hlt ha hb => by omega
  have hflip : l.Pairwise fun a b => (b.firstSeq ≤ seq ∧ seq ≤ b.lastSeq) →
      (a.firstSeq ≤ seq ∧ seq ≤ a.lastSeq) → b = a :=
    h.sorted.imp fun {a b} hlt hb ha => by omega
  exact hapart.forall_of_forall_of_flip (fun _ _ _ _ => rfl) hflip hs ht hsseq htseq

end Chain

/-! ## The index refines the lists -/

theorem segmentId_inj {sessionId sessionId' : String} {seq seq' : ℤ}
    (h : segmentId sessionId seq = segmentId sessionId' seq') :
    sessionId = sessionId' ∧ seq = seq' := by
  obtain ⟨hid, hseq⟩ := label_inj (colon_notMem_toString seq) (colon_notMem_toString seq') h
  exact ⟨hid, Int.repr_injective hseq⟩

namespace SegmentIndex

/-- The segments of a session, newest first. -/
def newest (sessionId : String) (idx : SegmentIndex) : List SessionSegment :=
  (idx.segments.values.filter fun s => s.sessionId = sessionId).reverse

theorem mem_newest {sessionId : String} {idx : SegmentIndex} {s : SessionSegment} :
    s ∈ idx.newest sessionId ↔ s ∈ idx.segments.values ∧ s.sessionId = sessionId := by
  simp [newest]

/-- The invariant of the index: segments stand under their ids, the open one of a session is its
newest, and the segments of each session are a chain. -/
structure Valid (idx : SegmentIndex) : Prop where
  key : ∀ k s, idx.segments.get? k = some s → s.id = k
  opens : ∀ sessionId, idx.openIds.get? sessionId = openOf (idx.newest sessionId)
  chain : ∀ sessionId, Chain sessionId (idx.newest sessionId)

/-- An index without segments. -/
theorem valid_of_empty {idx : SegmentIndex} (hsegments : idx.segments = .empty)
    (hopen : idx.openIds = .empty) : idx.Valid where
  key := by simp [hsegments]
  opens sessionId := by
    rw [hopen, Dict.get?_empty]
    simp [hsegments, newest, Dict.values, Dict.empty, openOf]
  chain sessionId := by
    have hnil : idx.newest sessionId = [] := by simp [hsegments, newest, Dict.values, Dict.empty]
    rw [hnil]
    exact chain_nil sessionId

namespace Valid

variable {idx : SegmentIndex} {sessionId : String} {s t : SessionSegment}
  {rest : List SessionSegment}

/-- A segment is found under its id. -/
theorem get?_of_mem (h : idx.Valid) (hs : s ∈ idx.segments.values) :
    idx.segments.get? s.id = some s := by
  obtain ⟨k, hk⟩ := (idx.segments.mem_values_iff s).mp hs
  rwa [h.key k s hk]

theorem get?_newest (h : idx.Valid) (hs : s ∈ idx.newest sessionId) :
    idx.segments.get? s.id = some s :=
  h.get?_of_mem (mem_newest.mp hs).1

/-- The open segment of a session is its newest one, if that is open.
SOURCE: sessions/segments.py:145-146 -/
theorem current_eq (h : idx.Valid) (sessionId : String) :
    idx.current sessionId = (idx.newest sessionId).head?.filter fun s => !s.closed := by
  unfold current
  rw [h.opens sessionId]
  cases hnewest : idx.newest sessionId with
  | nil => simp [openOf]
  | cons s rest =>
    have hmem : s ∈ idx.newest sessionId := by simp [hnewest]
    have hget := h.get?_newest hmem
    cases hclosed : s.closed <;> simp [openOf, hclosed, hget, Option.filter]

/-- Putting a segment under a new id. -/
theorem newest_put_of_fresh (s : SessionSegment) (hfresh : idx.segments.get? s.id = none)
    (sessionId : String) :
    (idx.put s).newest sessionId =
      if sessionId = s.sessionId then s :: idx.newest sessionId else idx.newest sessionId := by
  unfold newest put
  rw [Dict.values_set_of_get?_none s hfresh, List.filter_append, List.reverse_append]
  split_ifs with hs
  · simp [hs]
  · simp [Ne.symm hs]

/-- Putting a segment in the place of its session's newest. -/
theorem newest_put_of_newest (h : idx.Valid) (hnewest : idx.newest sessionId = t :: rest)
    (hid : s.id = t.id) (hsession : s.sessionId = t.sessionId) (sessionId' : String) :
    (idx.put s).newest sessionId' =
      if sessionId' = sessionId then s :: rest else idx.newest sessionId' := by
  have ht : t ∈ idx.newest sessionId := by simp [hnewest]
  have hget : idx.segments.get? t.id = some t := h.get?_newest ht
  have hsame : ∀ u ∈ idx.segments.values, u.id = s.id → u = t := by
    intro u hu huid
    have hu' := h.get?_of_mem hu
    rw [huid, hid, hget] at hu'
    exact (Option.some.inj hu').symm
  have hvalues : (idx.put s).segments.values =
      idx.segments.values.map fun u => if u.id = s.id then s else u := by
    rw [put, hid, Dict.values_set_of_get?_some hget, Dict.values, List.map_map]
    apply List.map_congr_left
    intro e he
    have hkey := h.key e.1 e.2 ((Dict.get?_eq_some_iff _ _ _).mpr he)
    simp [hkey]
  have hmap : (idx.put s).newest sessionId' =
      (idx.newest sessionId').map fun u => if u.id = s.id then s else u := by
    rw [newest, hvalues, List.filter_map, newest, List.map_reverse]
    congr 2
    apply List.filter_congr
    intro u hu
    by_cases huid : u.id = s.id
    · have hut := hsame u hu huid
      subst hut
      simp [huid, hsession]
    · simp [huid]
  have hkeep : ∀ l : List SessionSegment, (∀ u ∈ l, u.id ≠ s.id) →
      l.map (fun u => if u.id = s.id then s else u) = l := by
    intro l hl
    exact (List.map_congr_left fun u hu => if_neg (hl u hu)).trans (List.map_id l)
  rw [hmap]
  split_ifs with hsid
  · subst hsid
    rw [hnewest, List.map_cons, if_pos hid.symm, hkeep]
    intro u hu huid
    have hmem : u ∈ idx.newest sessionId' := by simp [hnewest, hu]
    have hchain := hnewest ▸ h.chain sessionId'
    -- The older segments begin before the newest, which is not among them.
    have hlt := (List.pairwise_cons.mp hchain.firstSeq_ne).1 u hu
    rw [hsame u (mem_newest.mp hmem).1 huid] at hlt
    exact lt_irrefl _ hlt
  · apply hkeep
    intro u hu huid
    obtain ⟨hvalue, husid⟩ := mem_newest.mp hu
    rw [hsame u hvalue huid, (mem_newest.mp ht).2] at husid
    exact hsid husid.symm

/-- The segments of a session are read off the segments. -/
theorem newest_congr {idx idx' : SegmentIndex} (h : idx'.segments = idx.segments)
    (sessionId : String) : idx'.newest sessionId = idx.newest sessionId := by
  rw [newest, newest, h]

/-- An index whose open segments are the newest ones is valid when what it holds is. -/
theorem of_newest {idx' : SegmentIndex} (hkey : ∀ k u, idx'.segments.get? k = some u → u.id = k)
    (hopens : ∀ sessionId', sessionId' ≠ sessionId →
      idx'.openIds.get? sessionId' = idx.openIds.get? sessionId')
    (h : idx.Valid) {l : List SessionSegment} (hchain : Chain sessionId l)
    (hopen : idx'.openIds.get? sessionId = openOf l)
    (hnewest : ∀ sessionId', idx'.newest sessionId' =
      if sessionId' = sessionId then l else idx.newest sessionId') : idx'.Valid where
  key := hkey
  opens sessionId' := by
    rw [hnewest]
    split_ifs with hsid
    · rw [hsid]
      exact hopen
    · rw [hopens sessionId' hsid]
      exact h.opens sessionId'
  chain sessionId' := by
    rw [hnewest]
    split_ifs with hsid
    · rw [hsid]
      exact hchain
    · exact h.chain sessionId'

theorem key_put (h : idx.Valid) (s : SessionSegment) (k : String) (u : SessionSegment)
    (hget : (idx.put s).segments.get? k = some u) : u.id = k := by
  rw [put, Dict.get?_set] at hget
  split_ifs at hget with hk
  · rw [← Option.some.inj hget, hk]
  · exact h.key k u hget

/-- A session's newest segment is closed, and the session has no open one. -/
theorem closeNewest (h : idx.Valid) (hnewest : idx.newest sessionId = t :: rest) :
    ((idx.put t.close).dropOpen sessionId).Valid ∧ ∀ sessionId',
      ((idx.put t.close).dropOpen sessionId).newest sessionId' =
        if sessionId' = sessionId then t.close :: rest else idx.newest sessionId' := by
  have hview : ∀ sessionId', ((idx.put t.close).dropOpen sessionId).newest sessionId' =
      if sessionId' = sessionId then t.close :: rest else idx.newest sessionId' :=
    fun sessionId' => h.newest_put_of_newest (s := t.close) hnewest rfl rfl sessionId'
  have hchain : Chain sessionId (t.close :: rest) :=
    (hnewest ▸ h.chain sessionId).replace rfl rfl rfl le_rfl
  refine ⟨of_newest (h.key_put t.close) ?_ h hchain ?_ hview, hview⟩
  · intro sessionId' hne
    simp [dropOpen, put, Dict.get?_erase, hne]
  · simp [dropOpen, Dict.get?_erase, openOf]

/-- A new segment begins, after closed ones.
SOURCE: sessions/segments.py:151-172 -/
theorem beginWith (h : idx.Valid) {e : CaptureEvent}
    (hclosed : ∀ s ∈ idx.newest e.sessionId, s.closed = true)
    (hseq : ∀ s ∈ idx.newest e.sessionId, s.lastSeq < e.seq) :
    (idx.beginWith e).2.Valid ∧ ∀ sessionId', (idx.beginWith e).2.newest sessionId' =
      if sessionId' = e.sessionId then SessionSegment.ofEvent e :: idx.newest e.sessionId
      else idx.newest sessionId' := by
  have hfresh : idx.segments.get? (SessionSegment.ofEvent e).id = none := by
    by_contra hsome
    obtain ⟨u, hu⟩ := Option.ne_none_iff_exists'.mp hsome
    have hmem : u ∈ idx.newest u.sessionId :=
      mem_newest.mpr ⟨(Dict.mem_values_iff _ _).mpr ⟨_, hu⟩, rfl⟩
    have hchain := h.chain u.sessionId
    have hid := (hchain.id u hmem).symm.trans (h.key _ u hu)
    obtain ⟨hsession, hfirst⟩ := segmentId_inj hid
    have hlt := hseq u (hsession ▸ hmem)
    have hspan := hchain.span u hmem
    omega
  have hview : ∀ sessionId', (idx.beginWith e).2.newest sessionId' =
      if sessionId' = e.sessionId then SessionSegment.ofEvent e :: idx.newest e.sessionId
      else idx.newest sessionId' := by
    intro sessionId'
    have hsame : (idx.beginWith e).2.newest sessionId' =
        (idx.put (SessionSegment.ofEvent e)).newest sessionId' := newest_congr rfl sessionId'
    rw [hsame, newest_put_of_fresh _ hfresh, SessionSegment.ofEvent_sessionId]
    split_ifs with hsid
    · rw [hsid]
    · rfl
  refine ⟨of_newest (h.key_put (SessionSegment.ofEvent e)) ?_ h
    ((h.chain e.sessionId).push hclosed rfl hseq) ?_ hview, hview⟩
  · intro sessionId' hne
    simp [SegmentIndex.beginWith, put, Dict.get?_set_of_ne _ _ hne]
  · simp [SegmentIndex.beginWith, openOf]

/-- **Recording refines `recordIn`.** An event later than those of its session changes the
segments of the session as the list says, and no others.
SOURCE: sessions/segments.py:144-173 -/
theorem record (h : idx.Valid) {e : CaptureEvent}
    (hseq : ∀ s ∈ idx.newest e.sessionId, s.lastSeq < e.seq) :
    (idx.record e).2.Valid ∧ ∀ sessionId', (idx.record e).2.newest sessionId' =
      if sessionId' = e.sessionId then recordIn idx.idleMs idx.maxMs e (idx.newest e.sessionId)
      else idx.newest sessionId' := by
  have hchain := h.chain e.sessionId
  unfold SegmentIndex.record
  rw [h.current_eq e.sessionId]
  cases hnewest : idx.newest e.sessionId with
  | nil =>
    simpa [hnewest, recordIn] using h.beginWith (e := e) (by simp [hnewest]) (by simp [hnewest])
  | cons t rest =>
    rw [hnewest] at hchain hseq
    cases hclosed : t.closed with
    | true =>
      have hbegin := h.beginWith (e := e) (hnewest ▸ hchain.closed_of_closed hclosed)
        (hnewest ▸ hseq)
      simpa [hclosed, recordIn, hnewest, Option.filter] using hbegin
    | false =>
      cases hcut : shouldClose idx.idleMs idx.maxMs t e with
      | true =>
        obtain ⟨hvalid, hview⟩ := h.closeNewest hnewest
        have hhead := hview e.sessionId
        rw [if_pos rfl] at hhead
        have hclose : Chain e.sessionId (t.close :: rest) := hchain.replace rfl rfl rfl le_rfl
        have hbegin := hvalid.beginWith (e := e)
          (by rw [hhead]; exact hclose.closed_of_closed rfl) (by rw [hhead]; simpa using hseq)
        rw [hhead] at hbegin
        simp only [List.head?_cons, Option.filter, hclosed, Bool.not_false, if_true, hcut, recordIn,
          Bool.false_eq_true, if_false]
        refine ⟨hbegin.1, fun sessionId' => ?_⟩
        rw [hbegin.2 sessionId', hview sessionId']
        split_ifs <;> rfl
      | false =>
        simp only [List.head?_cons, Option.filter, hclosed, Bool.not_false, if_true, hcut, recordIn,
          Bool.false_eq_true, if_false]
        have hview := h.newest_put_of_newest (s := t.extend e) hnewest rfl rfl
        have hextend : Chain e.sessionId (t.extend e :: rest) :=
          hchain.replace rfl rfl rfl (le_max_left t.lastSeq e.seq)
        have hopens : ∀ sessionId',
            (idx.put (t.extend e)).openIds.get? sessionId' = idx.openIds.get? sessionId' :=
          fun _ => rfl
        refine ⟨of_newest (h.key_put (t.extend e)) (fun sid _ => hopens sid) h hextend ?_ hview,
          hview⟩
        rw [hopens, h.opens e.sessionId, hnewest, openOf, openOf, SessionSegment.extend_closed,
          SessionSegment.extend_id]

/-- A session without an open segment has nothing to close. -/
theorem closeIf_newest (h : idx.Valid) (hopen : idx.openIds.get? sessionId = none)
    (p : SessionSegment → Bool) : closeIf p (idx.newest sessionId) = idx.newest sessionId :=
  closeIf_of_openOf_eq_none ((h.opens sessionId).symm.trans hopen) p

/-- The open segment of a session is its newest.
SOURCE: sessions/segments.py:145-146 -/
theorem newest_of_open (h : idx.Valid) {id : String}
    (hopen : idx.openIds.get? sessionId = some id) :
    ∃ t rest, idx.newest sessionId = t :: rest ∧ t.id = id ∧
      idx.segments.get? id = some t := by
  have hopenOf := (h.opens sessionId).symm.trans hopen
  cases hnewest : idx.newest sessionId with
  | nil => simp [hnewest, openOf] at hopenOf
  | cons t rest =>
    have hmem : t ∈ idx.newest sessionId := by simp [hnewest]
    have hget := h.get?_newest hmem
    rw [hnewest, openOf] at hopenOf
    split_ifs at hopenOf
    rw [Option.some.injEq] at hopenOf
    exact ⟨t, rest, rfl, hopenOf, hopenOf ▸ hget⟩

/-- **The end of a session refines `closeIf`.**
SOURCE: sessions/segments.py:212-227 -/
theorem closeSession (h : idx.Valid) (sessionId : String) :
    (idx.closeSession sessionId).2.Valid ∧ ∀ sessionId',
      (idx.closeSession sessionId).2.newest sessionId' =
        if sessionId' = sessionId then closeIf (fun _ => true) (idx.newest sessionId)
        else idx.newest sessionId' := by
  unfold SegmentIndex.closeSession
  cases hopen : idx.openIds.get? sessionId with
  | none =>
    refine ⟨h, fun sessionId' => ?_⟩
    split_ifs with hsid
    · rw [hsid, h.closeIf_newest hopen]
    · rfl
  | some id =>
    obtain ⟨t, rest, hnewest, rfl, hget⟩ := h.newest_of_open hopen
    simpa [hget, hnewest, closeIf] using h.closeNewest hnewest

/-- One session of the sweep.
SOURCE: sessions/segments.py:199-207 -/
theorem sweepOne (h : idx.Valid) {id : String} (hopen : idx.openIds.get? sessionId = some id)
    (cutoff : Time) (closed : List SessionSegment) :
    (SegmentIndex.sweepOne cutoff (closed, idx) (sessionId, id)).2.Valid ∧
      (∀ sessionId', (SegmentIndex.sweepOne cutoff (closed, idx) (sessionId, id)).2.newest
        sessionId' = if sessionId' = sessionId then
          closeIf (fun s => s.endedAt ≤ cutoff) (idx.newest sessionId)
          else idx.newest sessionId') ∧
      ∀ sessionId', sessionId' ≠ sessionId →
        (SegmentIndex.sweepOne cutoff (closed, idx) (sessionId, id)).2.openIds.get? sessionId' =
          idx.openIds.get? sessionId' := by
  obtain ⟨t, rest, hnewest, rfl, hget⟩ := h.newest_of_open hopen
  unfold SegmentIndex.sweepOne
  simp only [hget]
  by_cases hold : t.endedAt ≤ cutoff
  · obtain ⟨hvalid, hview⟩ := h.closeNewest hnewest
    simp only [hold, if_true, hnewest, closeIf, decide_true]
    refine ⟨hvalid, hview, fun sessionId' hne => ?_⟩
    simp [dropOpen, put, Dict.get?_erase, hne]
  · simp only [hold, if_false, hnewest, closeIf, decide_false, Bool.false_eq_true]
    refine ⟨h, fun sessionId' => ?_, fun _ _ => trivial⟩
    split_ifs with hsid
    · rw [hsid, hnewest]
    · rfl

/-- The loop of the sweep, over sessions that each have an open segment. -/
theorem sweep (cutoff : Time) (entries : List (String × String)) {idx : SegmentIndex}
    (h : idx.Valid) (hnodup : (entries.map Prod.fst).Nodup)
    (hopen : ∀ e ∈ entries, idx.openIds.get? e.1 = some e.2) (closed : List SessionSegment) :
    (entries.foldl (SegmentIndex.sweepOne cutoff) (closed, idx)).2.Valid ∧ ∀ sessionId',
      (entries.foldl (SegmentIndex.sweepOne cutoff) (closed, idx)).2.newest sessionId' =
        if sessionId' ∈ entries.map Prod.fst then
          closeIf (fun s => s.endedAt ≤ cutoff) (idx.newest sessionId')
        else idx.newest sessionId' := by
  induction entries generalizing idx closed with
  | nil => simpa using h
  | cons entry entries ih =>
    obtain ⟨sessionId, id⟩ := entry
    rw [List.map_cons, List.nodup_cons] at hnodup
    have hhere : idx.openIds.get? sessionId = some id := hopen _ List.mem_cons_self
    obtain ⟨hvalid, hview, hothers⟩ := h.sweepOne hhere cutoff closed
    have hne : ∀ e ∈ entries, e.1 ≠ sessionId := by
      intro e he heq
      have hmem : e.1 ∈ entries.map Prod.fst := List.mem_map_of_mem he
      rw [heq] at hmem
      exact hnodup.1 hmem
    obtain ⟨hvalid', hview'⟩ := ih hvalid hnodup.2
      (fun e he => (hothers e.1 (hne e he)).trans (hopen e (List.mem_cons_of_mem _ he)))
      (SegmentIndex.sweepOne cutoff (closed, idx) (sessionId, id)).1
    rw [List.foldl_cons]
    refine ⟨hvalid', fun sessionId' => ?_⟩
    rw [hview' sessionId', hview sessionId', List.map_cons]
    by_cases hsid : sessionId' = sessionId
    · subst hsid
      simp [hnodup.1]
    · simp only [hsid, if_false, List.mem_cons, false_or]

/-- **The idle sweep refines `closeIf`** in every session.
SOURCE: sessions/segments.py:188-210 -/
theorem closeIdle (h : idx.Valid) (now : Time) :
    (idx.closeIdle now).2.Valid ∧ ∀ sessionId', (idx.closeIdle now).2.newest sessionId' =
      closeIf (fun s => s.endedAt ≤ now - idx.idleMs * 1000) (idx.newest sessionId') := by
  have hopen : ∀ e ∈ idx.openIds.entries, idx.openIds.get? e.1 = some e.2 :=
    fun e he => (Dict.get?_eq_some_iff _ _ _).mpr he
  obtain ⟨hvalid, hview⟩ :=
    sweep (now - idx.idleMs * 1000) idx.openIds.entries h idx.openIds.nodup hopen []
  refine ⟨hvalid, fun sessionId' => ?_⟩
  unfold SegmentIndex.closeIdle
  rw [hview sessionId']
  split_ifs with hmem
  · rfl
  · exact (h.closeIf_newest ((Dict.get?_eq_none_iff _ _).mpr hmem) _).symm

/-- The segments of a session are its newest ones the other way round.
SOURCE: sessions/segments.py:279-284 -/
theorem forSession_eq (h : idx.Valid) (sessionId : String) :
    idx.forSession sessionId = (idx.newest sessionId).reverse := by
  unfold forSession newest
  rw [List.reverse_reverse]
  apply List.Pairwise.insertionSort_eq
  have hsorted := (h.chain sessionId).firstSeq_ne
  rw [newest, List.pairwise_reverse] at hsorted
  exact hsorted.imp le_of_lt

end Valid

/-! ## The thresholds stay -/

/-- The thresholds of the two are the same. -/
def SameThresholds (idx idx' : SegmentIndex) : Prop :=
  idx.idleMs = idx'.idleMs ∧ idx.maxMs = idx'.maxMs

theorem sameThresholds_record (e : CaptureEvent) (idx : SegmentIndex) :
    SameThresholds (idx.record e).2 idx := by
  unfold record
  split
  · exact ⟨rfl, rfl⟩
  · split_ifs <;> exact ⟨rfl, rfl⟩

theorem sameThresholds_closeSession (sessionId : String) (idx : SegmentIndex) :
    SameThresholds (idx.closeSession sessionId).2 idx := by
  unfold closeSession
  split
  · exact ⟨rfl, rfl⟩
  · split <;> exact ⟨rfl, rfl⟩

theorem sameThresholds_sweepOne (cutoff : Time) (acc : List SessionSegment × SegmentIndex)
    (entry : String × String) : SameThresholds (sweepOne cutoff acc entry).2 acc.2 := by
  unfold sweepOne
  split
  · exact ⟨rfl, rfl⟩
  · split_ifs <;> exact ⟨rfl, rfl⟩

theorem sameThresholds_closeIdle (now : Time) (idx : SegmentIndex) :
    SameThresholds (idx.closeIdle now).2 idx := by
  unfold closeIdle
  have hfold : ∀ (entries : List (String × String)) (acc : List SessionSegment × SegmentIndex),
      SameThresholds (entries.foldl (sweepOne (now - idx.idleMs * 1000)) acc).2 acc.2 := by
    intro entries
    induction entries with
    | nil => exact fun _ => ⟨rfl, rfl⟩
    | cons entry entries ih =>
      intro acc
      have hone := sameThresholds_sweepOne (now - idx.idleMs * 1000) acc entry
      obtain ⟨hidle, hmax⟩ := ih (sweepOne (now - idx.idleMs * 1000) acc entry)
      exact ⟨hidle.trans hone.1, hmax.trans hone.2⟩
  exact hfold idx.openIds.entries ([], idx)

end SegmentIndex

/-! ## The runs -/

/-- The index and the store of the events it is derived from. -/
structure SegmentWorld where
  index : SegmentIndex := {}
  store : InMemoryEventStore := {}

inductive SegmentStep where
  | record (e : CaptureEvent)
  | closeIdle (now : Time)
  | closeSession (sessionId : String)

namespace SegmentWorld

/-- An event goes into the index when the store takes it; sessions end and sweeps come at any
time.
SOURCE: gateway/core.py:600-606, gateway/core.py:511-514, sessions/sweeper.py:59 -/
def step (w : SegmentWorld) : SegmentStep → SegmentWorld
  | .record e =>
    { index := if (w.store.append e).1 then (w.index.record e).2 else w.index
      store := (w.store.append e).2 }
  | .closeIdle now => { w with index := (w.index.closeIdle now).2 }
  | .closeSession sessionId => { w with index := (w.index.closeSession sessionId).2 }

/-- A server that starts with these thresholds. -/
def init (idleMs maxMs : ℤ) : SegmentWorld where
  index := { idleMs := idleMs, maxMs := maxMs }

/-- An event comes after those of its session. -/
def InOrder (w : SegmentWorld) : SegmentStep → Prop
  | .record e => ∀ r ∈ w.store.rows e.sessionId, r.seq < e.seq
  | .closeIdle _ | .closeSession _ => True

instance (w : SegmentWorld) (s : SegmentStep) : Decidable (w.InOrder s) :=
  match s with
  | .record e => inferInstanceAs (Decidable (∀ r ∈ w.store.rows e.sessionId, r.seq < e.seq))
  | .closeIdle _ | .closeSession _ => inferInstanceAs (Decidable True)

/-- The invariant of runs in order: the index is valid, no segment ends after the events of its
session, and these are stored in order under their session. -/
structure Ordered (w : SegmentWorld) : Prop where
  valid : w.index.Valid
  bound : ∀ sessionId, ∀ s ∈ w.index.newest sessionId,
    ∃ r ∈ w.store.rows sessionId, s.lastSeq ≤ r.seq
  sorted : ∀ sessionId, (w.store.rows sessionId).Pairwise fun a b => a.seq < b.seq
  session : ∀ sessionId, ∀ r ∈ w.store.rows sessionId, r.sessionId = sessionId

theorem ordered_init (idleMs maxMs : ℤ) : Ordered (init idleMs maxMs) where
  valid := SegmentIndex.valid_of_empty rfl rfl
  bound := by simp [init, SegmentIndex.newest, Dict.values, Dict.empty]
  sorted := by simp [init, InMemoryEventStore.rows]
  session := by simp [init, InMemoryEventStore.rows]

/-- Closing moves no end. -/
theorem forall_mem_closeIf {p : SessionSegment → Bool} {l : List SessionSegment}
    {P : SessionSegment → Prop} (hclose : ∀ s, P s → P s.close) (h : ∀ s ∈ l, P s) :
    ∀ s ∈ closeIf p l, P s := by
  cases l with
  | nil => exact h
  | cons s rest =>
    rw [List.forall_mem_cons] at h
    simp only [closeIf]
    rw [List.forall_mem_cons]
    refine ⟨?_, h.2⟩
    split_ifs
    · exact hclose s h.1
    · exact h.1

/-- What an event adds to the segments ends with it. -/
theorem forall_mem_recordIn {idleMs maxMs : ℤ} {e : CaptureEvent} {l : List SessionSegment}
    {P : SessionSegment → Prop} (hclose : ∀ s, P s → P s.close)
    (hnew : P (SessionSegment.ofEvent e))
    (hextend : ∀ s ∈ l, P s → P (s.extend e)) (h : ∀ s ∈ l, P s) :
    ∀ s ∈ recordIn idleMs maxMs e l, P s := by
  cases l with
  | nil => simpa [recordIn] using hnew
  | cons s rest =>
    have hs := hextend s List.mem_cons_self
    rw [List.forall_mem_cons] at h
    simp only [recordIn]
    split_ifs
    · simpa [hnew] using h
    · simpa [hnew, hclose s h.1] using h.2
    · simpa [hs h.1] using h.2

variable {w : SegmentWorld} {e : CaptureEvent}

/-- In order, an event comes after the segments of its session. -/
theorem Ordered.lastSeq_lt (h : w.Ordered) (he : w.InOrder (.record e)) :
    ∀ s ∈ w.index.newest e.sessionId, s.lastSeq < e.seq := by
  intro s hs
  obtain ⟨r, hr, hle⟩ := h.bound e.sessionId s hs
  exact hle.trans_lt (he r hr)

/-- The segments of each session after a step.
SOURCE: sessions/segments.py:133-227 -/
theorem Ordered.newest_record (h : w.Ordered) (he : w.InOrder (.record e))
    (hstored : (w.store.append e).1 = true) (sessionId : String) :
    (w.step (.record e)).index.newest sessionId =
      if sessionId = e.sessionId then
        recordIn w.index.idleMs w.index.maxMs e (w.index.newest e.sessionId)
      else w.index.newest sessionId := by
  rw [step, hstored, if_pos rfl]
  exact (h.valid.record (h.lastSeq_lt he)).2 sessionId

/-- The events of each session after one more. -/
theorem rows_record (hstored : (w.store.append e).1 = true) (sessionId : String) :
    (w.step (.record e)).store.rows sessionId =
      if sessionId = e.sessionId then w.store.rows e.sessionId ++ [e]
      else w.store.rows sessionId := by
  have hnew : e.eventId ∉ w.store.seen := by
    intro hseen
    simp [InMemoryEventStore.append, hseen] at hstored
  rw [step, InMemoryEventStore.rows_append]
  split_ifs with hsid hsid' hsid'
  · rw [hsid.2]
  · exact absurd hsid.2.symm hsid'
  · exact absurd ⟨hnew, hsid'.symm⟩ hsid
  · rfl

/-- An event that the store refuses changes nothing. -/
theorem step_record_of_refused (hrefused : (w.store.append e).1 = false) :
    w.step (.record e) = w := by
  have hsame : (w.store.append e).2 = w.store := by
    unfold InMemoryEventStore.append at hrefused ⊢
    split_ifs at hrefused ⊢ with hseen
    · rfl
  rw [step, hrefused, hsame]
  rfl

theorem Ordered.record (h : w.Ordered) (he : w.InOrder (.record e)) :
    (w.step (.record e)).Ordered := by
  cases hstored : (w.store.append e).1 with
  | false =>
    rw [step_record_of_refused hstored]
    exact h
  | true =>
    refine ⟨?_, fun sessionId => ?_, fun sessionId => ?_, fun sessionId => ?_⟩
    · rw [step, hstored, if_pos rfl]
      exact (h.valid.record (h.lastSeq_lt he)).1
    · rw [h.newest_record he hstored, rows_record hstored]
      split_ifs with hsid
      · apply forall_mem_recordIn
          (P := fun s => ∃ r ∈ w.store.rows e.sessionId ++ [e], s.lastSeq ≤ r.seq) fun _ hs => hs
        · exact ⟨e, by simp, by simp⟩
        · intro s hs _
          refine ⟨e, by simp, ?_⟩
          exact max_le (h.lastSeq_lt he s hs).le le_rfl
        · intro s hs
          obtain ⟨r, hr, hle⟩ := h.bound e.sessionId s hs
          exact ⟨r, List.mem_append_left _ hr, hle⟩
      · exact h.bound sessionId
    · rw [rows_record hstored]
      split_ifs with hsid
      · rw [List.pairwise_append]
        have hlast : ∀ r ∈ w.store.rows e.sessionId, r.seq < e.seq := he
        exact ⟨h.sorted e.sessionId, List.pairwise_singleton _ _, by simpa using hlast⟩
      · exact h.sorted sessionId
    · rw [rows_record hstored]
      split_ifs with hsid
      · rw [hsid]
        intro r hr
        obtain hr | hr := List.mem_append.mp hr
        · exact h.session e.sessionId r hr
        · rw [List.mem_singleton.mp hr]
      · exact h.session sessionId

/-- A step that only closes segments. -/
theorem Ordered.closing (h : w.Ordered) {index : SegmentIndex} (hvalid : index.Valid)
    (hview : ∀ sessionId, ∃ p, index.newest sessionId = closeIf p (w.index.newest sessionId)) :
    Ordered ⟨index, w.store⟩ where
  valid := hvalid
  bound sessionId := by
    obtain ⟨p, hp⟩ := hview sessionId
    rw [hp]
    exact forall_mem_closeIf (fun _ hs => hs) (h.bound sessionId)
  sorted := h.sorted
  session := h.session

/-- What the end of a session does, in any session. -/
theorem newest_closeSession (h : w.Ordered) (sessionId sessionId' : String) :
    (w.step (.closeSession sessionId)).index.newest sessionId' =
      closeIf (fun _ => sessionId' = sessionId) (w.index.newest sessionId') := by
  rw [step, (h.valid.closeSession sessionId).2 sessionId']
  split_ifs with hsid
  · simp [hsid]
  · cases w.index.newest sessionId' <;> simp [closeIf, hsid]

theorem newest_closeIdle (h : w.Ordered) (now : Time) (sessionId : String) :
    (w.step (.closeIdle now)).index.newest sessionId =
      closeIf (fun s => s.endedAt ≤ now - w.index.idleMs * 1000) (w.index.newest sessionId) :=
  (h.valid.closeIdle now).2 sessionId

/-- **Runs in order keep the invariant.** -/
theorem Ordered.step (h : w.Ordered) (s : SegmentStep) (hs : w.InOrder s) :
    (w.step s).Ordered := by
  cases s with
  | record e => exact h.record hs
  | closeIdle now =>
    exact h.closing (h.valid.closeIdle now).1 fun sid => ⟨_, newest_closeIdle h now sid⟩
  | closeSession sessionId =>
    exact h.closing (h.valid.closeSession sessionId).1
      fun sid => ⟨_, newest_closeSession h sessionId sid⟩

theorem sameThresholds_step (w : SegmentWorld) (s : SegmentStep) :
    SegmentIndex.SameThresholds (w.step s).index w.index := by
  cases s with
  | record e =>
    unfold SegmentWorld.step
    simp only
    split_ifs
    · exact SegmentIndex.sameThresholds_record e w.index
    · exact ⟨rfl, rfl⟩
  | closeIdle now => exact SegmentIndex.sameThresholds_closeIdle now w.index
  | closeSession sessionId => exact SegmentIndex.sameThresholds_closeSession sessionId w.index

end SegmentWorld

end OpenRecall.Model
