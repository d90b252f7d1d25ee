import OpenRecall.Foundation.Run
import OpenRecall.Analysis.SegmentRuns

/-!
# Rebuilding the segment index

A restart replays the stored events. The replay cuts by silence and length alone; the live index
also closes a segment when its session ends or when the sweep comes. The two agree as long as an
event that comes after such a close would have been cut off anyway; an event within the idle gap
after a `bye` opens a new segment in the live index, and is glued to the old one by the rebuild, so
a title under the new segment's id is lost.
-/

set_option autoImplicit false

namespace OpenRecall.Analysis.SegmentRebuild

open Foundation OpenRecall.Model OpenRecall.Model.SegmentIndex OpenRecall.Model.SegmentWorld

/-! ## Replaying a session -/

/-- The segments that events are cut into when nothing else closes one, newest first. -/
def cut (idleMs maxMs : ℤ) (events : List CaptureEvent) (l : List SessionSegment) :
    List SessionSegment :=
  events.foldl (fun l e => recordIn idleMs maxMs e l) l

theorem cut_append (idleMs maxMs : ℤ) (events : List CaptureEvent) (e : CaptureEvent) :
    cut idleMs maxMs (events ++ [e]) [] =
      recordIn idleMs maxMs e (cut idleMs maxMs events []) := by
  simp [cut]

/-- The segment of the last event is open. -/
theorem openNewest_recordIn (idleMs maxMs : ℤ) (e : CaptureEvent) (l : List SessionSegment) :
    ∃ s rest, recordIn idleMs maxMs e l = s :: rest ∧ s.closed = false := by
  cases l with
  | nil => exact ⟨_, _, rfl, rfl⟩
  | cons s rest =>
    simp only [recordIn]
    split_ifs with hclosed
    · exact ⟨_, _, rfl, rfl⟩
    · exact ⟨_, _, rfl, rfl⟩
    · exact ⟨_, _, rfl, by simpa using hclosed⟩

theorem openNewest_cut (idleMs maxMs : ℤ) (events : List CaptureEvent) :
    cut idleMs maxMs events [] = [] ∨
      ∃ s rest, cut idleMs maxMs events [] = s :: rest ∧ s.closed = false := by
  rcases List.eq_nil_or_concat events with rfl | ⟨events, e, rfl⟩
  · exact .inl rfl
  · rw [List.concat_eq_append, cut_append]
    exact .inr (openNewest_recordIn idleMs maxMs e _)

/-- Replaying the events of one session.
SOURCE: sessions/segments.py:257-258 -/
theorem replay (sessionId : String) (events : List CaptureEvent) {idx : SegmentIndex}
    (h : idx.Valid) (hsession : ∀ e ∈ events, e.sessionId = sessionId)
    (hsorted : events.Pairwise fun a b => a.seq < b.seq)
    (hbound : ∀ s ∈ idx.newest sessionId, ∀ e ∈ events, s.lastSeq < e.seq) :
    (events.foldl (fun idx e => (idx.record e).2) idx).Valid ∧
      SameThresholds (events.foldl (fun idx e => (idx.record e).2) idx) idx ∧
      ∀ sessionId', (events.foldl (fun idx e => (idx.record e).2) idx).newest sessionId' =
        if sessionId' = sessionId then cut idx.idleMs idx.maxMs events (idx.newest sessionId)
        else idx.newest sessionId' := by
  induction events generalizing idx with
  | nil =>
    refine ⟨h, ⟨rfl, rfl⟩, fun sessionId' => ?_⟩
    split_ifs with hsid
    · rw [hsid]
      rfl
    · rfl
  | cons e events ih =>
    have hsid : e.sessionId = sessionId := hsession e List.mem_cons_self
    subst hsid
    rw [List.pairwise_cons] at hsorted
    obtain ⟨hvalid, hview⟩ := h.record fun s hs => hbound s hs e List.mem_cons_self
    have hsame := sameThresholds_record e idx
    have hhead := hview e.sessionId
    rw [if_pos rfl] at hhead
    have hbound' : ∀ s ∈ (idx.record e).2.newest e.sessionId, ∀ e' ∈ events,
        s.lastSeq < e'.seq := by
      intro s hs e' he'
      have hlt := hsorted.1 e' he'
      rw [hhead] at hs
      revert s
      apply forall_mem_recordIn (P := fun s => s.lastSeq < e'.seq) fun _ hs => hs
      · simpa using hlt
      · exact fun s _ hs => max_lt hs hlt
      · exact fun s hs => hbound s hs e' (List.mem_cons_of_mem e he')
    obtain ⟨hvalid', hsame', hview'⟩ :=
      ih hvalid (fun e' he' => hsession e' (List.mem_cons_of_mem e he')) hsorted.2 hbound'
    rw [List.foldl_cons]
    refine ⟨hvalid', ⟨hsame'.1.trans hsame.1, hsame'.2.trans hsame.2⟩, fun sessionId' => ?_⟩
    rw [hview' sessionId', hview sessionId', hhead, hsame.1, hsame.2, cut, cut, List.foldl_cons]
    split_ifs <;> rfl

/-- Replaying session after session.
SOURCE: sessions/segments.py:255-264 -/
theorem replayAll {st : InMemoryEventStore}
    (hsession : ∀ sessionId, ∀ r ∈ st.rows sessionId, r.sessionId = sessionId)
    (hsorted : ∀ sessionId, (st.rows sessionId).Pairwise fun a b => a.seq < b.seq)
    (sessionIds : List String) (hnodup : sessionIds.Nodup) {idx : SegmentIndex} (h : idx.Valid)
    (hempty : ∀ sessionId ∈ sessionIds, idx.newest sessionId = []) :
    (sessionIds.foldl (fun idx sessionId =>
      (st.events sessionId).foldl (fun idx e => (idx.record e).2) idx) idx).Valid ∧
      ∀ sessionId', (sessionIds.foldl (fun idx sessionId =>
        (st.events sessionId).foldl (fun idx e => (idx.record e).2) idx) idx).newest sessionId' =
          if sessionId' ∈ sessionIds then cut idx.idleMs idx.maxMs (st.rows sessionId') []
          else idx.newest sessionId' := by
  induction sessionIds generalizing idx with
  | nil => simpa using h
  | cons sessionId sessionIds ih =>
    rw [List.nodup_cons] at hnodup
    have hnil := hempty sessionId List.mem_cons_self
    have hevents : st.events sessionId = st.rows sessionId :=
      InMemoryEventStore.events_eq_rows (hsorted sessionId)
    rw [List.foldl_cons, hevents]
    obtain ⟨hvalid, hsame, hview⟩ := replay sessionId (st.rows sessionId) h (hsession sessionId)
      (hsorted sessionId) (by simp [hnil])
    rw [hnil] at hview
    have hempty' : ∀ sessionId' ∈ sessionIds, ((st.rows sessionId).foldl
        (fun idx e => (idx.record e).2) idx).newest sessionId' = [] := by
      intro sessionId' hmem
      rw [hview, if_neg (by rintro rfl; exact hnodup.1 hmem)]
      exact hempty sessionId' (List.mem_cons_of_mem _ hmem)
    obtain ⟨hvalid', hview'⟩ := ih hnodup.2 hvalid hempty'
    refine ⟨hvalid', fun sessionId' => ?_⟩
    rw [hview' sessionId', hview sessionId', hsame.1, hsame.2]
    by_cases hsid : sessionId' = sessionId
    · subst hsid
      simp [hnodup.1]
    · simp only [hsid, if_false, List.mem_cons, false_or]

/-- **What a rebuild computes**: each session's events, cut.
SOURCE: sessions/segments.py:239-264 -/
theorem newest_rebuild {w : SegmentWorld} (h : w.Ordered) :
    (w.index.rebuildFromStore w.store).Valid ∧ ∀ sessionId,
      (w.index.rebuildFromStore w.store).newest sessionId =
        cut w.index.idleMs w.index.maxMs (w.store.rows sessionId) [] := by
  have hstart : SegmentIndex.Valid { w.index with segments := .empty, openIds := .empty } :=
    valid_of_empty rfl rfl
  have hempty : ∀ sessionId, SegmentIndex.newest sessionId
      { w.index with segments := .empty, openIds := .empty } = [] := by
    simp [newest, Dict.values, Dict.empty]
  have hnodup : (w.store.sessions.insertionSort (· ≤ ·)).Nodup :=
    (List.perm_insertionSort _ _).nodup_iff.mpr w.store.bySession.nodup
  obtain ⟨hvalid, hview⟩ := replayAll h.session h.sorted _ hnodup hstart
    fun sessionId _ => hempty sessionId
  refine ⟨hvalid, fun sessionId => ?_⟩
  unfold rebuildFromStore
  rw [hview sessionId]
  split_ifs with hmem
  · rfl
  · rw [List.mem_insertionSort] at hmem
    have hnone := (Dict.get?_eq_none_iff _ _).mpr hmem
    rw [hempty, InMemoryEventStore.rows, hnone]
    rfl

/-! ## Agreement -/

/-- The segments of a session with the last one closed. -/
def settle (l : List SessionSegment) : List SessionSegment :=
  (closeIf (fun _ => true) l.reverse).reverse

/-- The two indexes hold the same segments, up to whether the last one of a session is open. -/
def SameSegments (idx idx' : SegmentIndex) : Prop :=
  ∀ sessionId, settle (idx.forSession sessionId) = settle (idx'.forSession sessionId)

/-- A rebuild from the stored events computes the segments of the live index. -/
def Rebuildable (w : SegmentWorld) : Prop :=
  SameSegments (w.index.rebuildFromStore w.store) w.index

/-- An event whose session has its last segment closed is cut off from it anyway, by the time that
has passed or by the length. -/
def Rolls (w : SegmentWorld) : SegmentStep → Prop
  | .record e => (w.store.append e).1 = true →
      ∀ s, (w.index.forSession e.sessionId).getLast? = some s → s.closed = true →
        shouldClose w.index.idleMs w.index.maxMs s e = true
  | .closeIdle _ | .closeSession _ => True

/-- In terms of the segments, newest first. -/
theorem rebuildable_iff {w : SegmentWorld} (h : w.Ordered) :
    Rebuildable w ↔ ∀ sessionId,
      closeIf (fun _ => true) (cut w.index.idleMs w.index.maxMs (w.store.rows sessionId) []) =
        closeIf (fun _ => true) (w.index.newest sessionId) := by
  obtain ⟨hvalid, hview⟩ := newest_rebuild h
  unfold Rebuildable SameSegments settle
  simp only [hvalid.forSession_eq, h.valid.forSession_eq, hview, List.reverse_reverse,
    List.reverse_inj]

/-- Closing the newest segment twice is closing it. -/
theorem closeIf_closeIf (p : SessionSegment → Bool) (l : List SessionSegment) :
    closeIf (fun _ => true) (closeIf p l) = closeIf (fun _ => true) l := by
  cases l with
  | nil => rfl
  | cons s rest =>
    simp only [closeIf]
    split_ifs <;> rfl

/-- The cut depends only on what closing leaves. -/
theorem shouldClose_congr {s t : SessionSegment} (h : s.close = t.close) (idleMs maxMs : ℤ)
    (e : CaptureEvent) : shouldClose idleMs maxMs s e = shouldClose idleMs maxMs t e := by
  have hend : s.close.endedAt = t.close.endedAt := by rw [h]
  have hstart : s.close.startMs = t.close.startMs := by rw [h]
  rw [SessionSegment.close, SessionSegment.close] at hend hstart
  rw [shouldClose, shouldClose, hend, hstart]

/-- **One event.** A list whose newest segment is open and one that is the same up to closing
become the same up to closing exactly when the event is cut off from a closed one. -/
theorem settled_recordIn_iff (idleMs maxMs : ℤ) {l r : List SessionSegment}
    (hopen : r = [] ∨ ∃ s rest, r = s :: rest ∧ s.closed = false)
    (h : closeIf (fun _ => true) r = closeIf (fun _ => true) l) (e : CaptureEvent) :
    closeIf (fun _ => true) (recordIn idleMs maxMs e r) =
        closeIf (fun _ => true) (recordIn idleMs maxMs e l) ↔
      ∀ s, l.head? = some s → s.closed = true → shouldClose idleMs maxMs s e = true := by
  obtain rfl | ⟨t, rest, rfl, ht⟩ := hopen
  · cases l with
    | nil => simp
    | cons s rest => simp [closeIf] at h
  · cases l with
    | nil => simp [closeIf] at h
    | cons s rest' =>
      simp only [closeIf, if_true, List.cons.injEq] at h
      obtain ⟨hclose, rfl⟩ := h
      rw [List.head?_cons]
      have hcut := shouldClose_congr hclose idleMs maxMs e
      cases hs : s.closed with
      | false =>
        have hst : t = s := by
          obtain ⟨⟩ := s
          obtain ⟨⟩ := t
          simp_all [SessionSegment.close]
        simp [hst, hs]
      | true =>
        have hself : s.close = s := by rw [SessionSegment.close, ← hs]
        cases hshould : shouldClose idleMs maxMs s e with
        | true =>
          simp [recordIn, ht, hs, hcut, hshould, hclose, hself]
        | false =>
          refine iff_of_false (fun heq => ?_) (by simp [hs, hshould])
          have hlength := congrArg List.length heq
          simp [recordIn, ht, hs, hcut, hshould, closeIf] at hlength

/-- A step keeps the index rebuildable exactly when it is no event that joins a closed segment in
the rebuild. -/
theorem rebuildable_step_iff {w : SegmentWorld} (h : w.Ordered) (hbuild : Rebuildable w)
    {s : SegmentStep} (hs : w.InOrder s) : Rebuildable (w.step s) ↔ Rolls w s := by
  rw [rebuildable_iff h] at hbuild
  rw [rebuildable_iff (h.step s hs), (sameThresholds_step w s).1, (sameThresholds_step w s).2]
  cases s with
  | closeIdle now =>
    refine iff_of_true (fun sessionId => ?_) trivial
    rw [newest_closeIdle h, closeIf_closeIf]
    exact hbuild sessionId
  | closeSession sessionId =>
    refine iff_of_true (fun sessionId' => ?_) trivial
    rw [newest_closeSession h, closeIf_closeIf]
    exact hbuild sessionId'
  | record e =>
    cases hstored : (w.store.append e).1 with
    | false =>
      rw [step_record_of_refused hstored]
      refine iff_of_true hbuild fun htrue => ?_
      simp [hstored] at htrue
    | true =>
      have hopen := openNewest_cut w.index.idleMs w.index.maxMs (w.store.rows e.sessionId)
      have hone := settled_recordIn_iff w.index.idleMs w.index.maxMs hopen (hbuild e.sessionId) e
      have hlast : (w.index.forSession e.sessionId).getLast? =
          (w.index.newest e.sessionId).head? := by
        rw [h.valid.forSession_eq, List.getLast?_reverse]
      rw [Rolls, hlast, forall_prop_of_true hstored, ← hone]
      constructor
      · intro hall
        have hhere := hall e.sessionId
        rw [rows_record hstored, if_pos rfl, cut_append, h.newest_record hs hstored, if_pos rfl]
          at hhere
        exact hhere
      · intro hhere sessionId
        rw [rows_record hstored, h.newest_record hs hstored]
        split_ifs with hsid
        · rw [cut_append]
          exact hhere
        · exact hbuild sessionId

/-- **Rebuild and live index.** In a run of events in order, closes and sweeps, a rebuild computes
the live segments at every point if and only if every event that comes after its session's last
segment was closed is cut off from that segment by the idle gap or the length.
SOURCE: sessions/segments.py:133-227, sessions/segments.py:239-267 -/
theorem always_rebuildable_iff {idleMs maxMs : ℤ} {steps : List SegmentStep}
    (horder : EveryStep SegmentWorld.step InOrder (init idleMs maxMs) steps) :
    (∀ done, done <+: steps → Rebuildable (run SegmentWorld.step (init idleMs maxMs) done)) ↔
      EveryStep SegmentWorld.step Rolls (init idleMs maxMs) steps := by
  have hstart : Rebuildable (init idleMs maxMs) := by
    rw [rebuildable_iff (ordered_init idleMs maxMs)]
    intro sessionId
    simp [init, InMemoryEventStore.rows, newest, Dict.values, cut]
    rfl
  exact forall_prefix_iff_everyStep_of_allowed (I := Rebuildable) (J := Ordered)
    (fun _ s h hs => h.step s hs) (fun _ _ h hbuild hs => rebuildable_step_iff h hbuild hs)
    (ordered_init idleMs maxMs) hstart horder

/-- A transcript that was said at a second of the session. -/
def saidAt (seq second : ℤ) : CaptureEvent where
  eventId := segmentId "s" seq
  sessionId := "s"
  seq := seq
  kind := .transcript
  createdAt := second * 1000000
  text := "Hello."
  durationMs := 2000
  startMs := second * 1000

/-- The relay drops the connection after one transcript and is back within ten seconds. -/
def briefDrop : List SegmentStep :=
  [.record (saidAt 0 0), .closeSession "s", .record (saidAt 1 10)]

theorem briefDrop_inOrder :
    EveryStep SegmentWorld.step InOrder (init 300000 3600000) briefDrop := by
  decide +kernel

/-- The live index has two recordings, and a rebuild has one. -/
theorem not_always_rebuildable :
    ¬ Rebuildable (run SegmentWorld.step (init 300000 3600000) briefDrop) := by
  intro h
  exact absurd (h "s") (by decide +kernel)

/-- The relay is back after six minutes. -/
def longDrop : List SegmentStep :=
  [.record (saidAt 0 0), .closeSession "s", .record (saidAt 1 360), .closeIdle 400000000]

theorem longDrop_inOrder :
    EveryStep SegmentWorld.step InOrder (init 300000 3600000) longDrop := by
  decide +kernel

theorem always_rebuildable_iff_longDrop :
    (∀ done, done <+: longDrop →
        Rebuildable (run SegmentWorld.step (init 300000 3600000) done)) ↔
      EveryStep SegmentWorld.step Rolls (init 300000 3600000) longDrop :=
  always_rebuildable_iff longDrop_inOrder

end OpenRecall.Analysis.SegmentRebuild
