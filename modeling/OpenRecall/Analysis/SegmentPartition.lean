import OpenRecall.Foundation.Run
import OpenRecall.Analysis.SegmentRuns

/-!
# Segments partition the events

The events of a session come in groups, one for each of its segments: a segment is what its group
makes of it. The groups in a row are the stored events, so every event is in one segment, the
sequence ranges are disjoint, and the lookup by number finds the segment of the event. Within a
group no gap reaches the idle threshold, and a group of several events stays under the length.
-/

set_option autoImplicit false

namespace OpenRecall.Analysis.SegmentPartition

open Foundation OpenRecall.Model OpenRecall.Model.SegmentIndex OpenRecall.Model.SegmentWorld

/-- When each group meets its own test and no two tests are met together, a test picks its group
out of all. -/
theorem filter_flatten_of_disjoint {α β : Type} {p : β → α → Bool} {groups : List (β × List α)}
    (hgroups : ∀ g ∈ groups, ∀ a ∈ g.2, p g.1 a = true)
    (hdisjoint : groups.Pairwise fun g g' => ∀ a, p g.1 a = true → p g'.1 a = false) :
    ∀ g ∈ groups, (groups.map Prod.snd).flatten.filter (p g.1) = g.2 := by
  induction groups with
  | nil => simp
  | cons first rest ih =>
    rw [List.forall_mem_cons] at hgroups ⊢
    rw [List.pairwise_cons] at hdisjoint
    rw [List.map_cons, List.flatten_cons]
    constructor
    · have hrest : (rest.map Prod.snd).flatten.filter (p first.1) = [] := by
        rw [List.filter_eq_nil_iff]
        intro a ha hfirst
        obtain ⟨es, hes, hmem⟩ := List.mem_flatten.mp ha
        obtain ⟨g, hg, rfl⟩ := List.mem_map.mp hes
        have hnot := hdisjoint.1 g hg a hfirst
        rw [hgroups.2 g hg a hmem] at hnot
        exact Bool.noConfusion hnot
      rw [List.filter_append, List.filter_eq_self.mpr hgroups.1, hrest, List.append_nil]
    · intro g hg
      have hfirst : first.2.filter (p g.1) = [] := by
        rw [List.filter_eq_nil_iff]
        intro a ha
        simp [hdisjoint.1 g hg a (hgroups.1 a ha)]
      rw [List.filter_append, hfirst, List.nil_append]
      exact ih hgroups.2 hdisjoint.2 g hg

/-! ## The group of a segment -/

/-- A segment is what its events make of it, newest first: it begins with the oldest and ends with
the newest, no gap between two of them is idle, and if there are several its span is under the
maximum. -/
structure Holds (idleMs maxMs : ℤ) (s : SessionSegment) (es : List CaptureEvent) : Prop where
  newest : ∃ e, es.head? = some e ∧ s.lastSeq = e.seq ∧ s.endedAt = e.createdAt ∧
    s.endMs = e.startMs + e.durationMs
  oldest : ∃ e, es.getLast? = some e ∧ s.firstSeq = e.seq ∧ s.startedAt = e.createdAt ∧
    s.startMs = e.startMs
  gaps : es.IsChain fun b a => b.createdAt - a.createdAt < idleMs * 1000
  span : es.length = 1 ∨ s.endMs - s.startMs < maxMs

/-- What the gateway assigns to an event: a duration, and a number, a time and a place on the
timeline after those of the session's previous event.
SOURCE: gateway/core.py:591-600, ingest/pipeline.py:484-486 -/
def Assigned (w : SegmentWorld) : SegmentStep → Prop
  | .record e => 0 ≤ e.durationMs ∧ ∀ prev, (w.store.rows e.sessionId).getLast? = some prev →
      prev.seq < e.seq ∧ prev.createdAt ≤ e.createdAt ∧ prev.startMs + prev.durationMs ≤ e.startMs
  | .closeIdle _ | .closeSession _ => True

instance (w : SegmentWorld) (s : SegmentStep) : Decidable (Assigned w s) :=
  match s with
  | .record e => decidable_of_iff (0 ≤ e.durationMs ∧
      ∀ prev ∈ (w.store.rows e.sessionId).getLast?, prev.seq < e.seq ∧
        prev.createdAt ≤ e.createdAt ∧ prev.startMs + prev.durationMs ≤ e.startMs) Iff.rfl
  | .closeIdle _ | .closeSession _ => inferInstanceAs (Decidable True)

/-- What is assigned is in order. -/
theorem inOrder_of_assigned {w : SegmentWorld} (h : w.Ordered) {s : SegmentStep}
    (hs : Assigned w s) : w.InOrder s := by
  cases s with
  | closeIdle | closeSession => trivial
  | record e =>
    intro r hr
    obtain ⟨before, last, hrows⟩ : ∃ before last, w.store.rows e.sessionId = before ++ [last] := by
      obtain hnil | ⟨before, last, hlast⟩ := List.eq_nil_or_concat (w.store.rows e.sessionId)
      · simp [hnil] at hr
      · exact ⟨before, last, by rw [hlast, List.concat_eq_append]⟩
    have hlt := (hs.2 last (by simp [hrows])).1
    have hsorted := h.sorted e.sessionId
    rw [hrows, List.pairwise_append] at hsorted
    rw [hrows, List.mem_append, List.mem_singleton] at hr
    obtain hr | rfl := hr
    · exact (hsorted.2.2 r hr last (by simp)).trans hlt
    · exact hlt

variable {idleMs maxMs : ℤ} {s : SessionSegment} {es : List CaptureEvent} {e : CaptureEvent}

theorem Holds.close (h : Holds idleMs maxMs s es) : Holds idleMs maxMs s.close es :=
  ⟨h.newest, h.oldest, h.gaps, h.span⟩

/-- A new segment holds its event. -/
theorem holds_ofEvent (hduration : 0 ≤ e.durationMs) :
    Holds idleMs maxMs (SessionSegment.ofEvent e) [e] where
  newest := by
    refine ⟨e, rfl, max_self _, max_self _, ?_⟩
    exact max_eq_right (by simp [SessionSegment.beginAt, hduration])
  oldest := ⟨e, rfl, rfl, rfl, rfl⟩
  gaps := List.isChain_singleton e
  span := .inl rfl

/-- A segment that is not closed by an event holds it too.
SOURCE: sessions/segments.py:164-186 -/
theorem Holds.extend (h : Holds idleMs maxMs s es) (hduration : 0 ≤ e.durationMs)
    (hprev : ∀ prev, es.head? = some prev → prev.seq < e.seq ∧ prev.createdAt ≤ e.createdAt ∧
      prev.startMs + prev.durationMs ≤ e.startMs)
    (hkeep : shouldClose idleMs maxMs s e = false) : Holds idleMs maxMs (s.extend e) (e :: es) := by
  obtain ⟨prev, hhead, hseq, hended, hend⟩ := h.newest
  obtain ⟨hlt, hcreated, hstart⟩ := hprev prev hhead
  rw [shouldClose, decide_eq_false_iff_not, not_or, not_le, not_le] at hkeep
  have hendMs : (s.extend e).endMs = e.startMs + e.durationMs := by
    apply max_eq_right
    omega
  refine ⟨⟨e, rfl, ?_, ?_, hendMs⟩, ?_, ?_, .inr ?_⟩
  · apply max_eq_right
    omega
  · apply max_eq_right
    rw [hended]
    exact hcreated
  · obtain ⟨first, hlast, hfirst⟩ := h.oldest
    refine ⟨first, ?_, hfirst⟩
    rw [List.getLast?_cons, hlast]
    rfl
  · obtain ⟨rest, rfl⟩ : ∃ rest, es = prev :: rest := by
      cases es with
      | nil => simp at hhead
      | cons a rest => exact ⟨rest, by simpa using hhead⟩
    rw [List.isChain_cons_cons, ← hended]
    exact ⟨hkeep.1, h.gaps⟩
  · rw [hendMs]
    exact hkeep.2

/-! ## The groups of a session -/

/-- The events of a session in groups, newest first, one for each segment. -/
def Grouped (w : SegmentWorld) (sessionId : String) : Prop :=
  ∃ groups : List (SessionSegment × List CaptureEvent),
    groups.map Prod.fst = w.index.newest sessionId ∧
      (groups.map Prod.snd).flatten = (w.store.rows sessionId).reverse ∧
      ∀ g ∈ groups, Holds w.index.idleMs w.index.maxMs g.1 g.2

/-- Closing the newest segment leaves the groups. -/
theorem groups_closeIf {p : SessionSegment → Bool} {l : List SessionSegment}
    {evs : List CaptureEvent}
    (h : ∃ groups : List (SessionSegment × List CaptureEvent), groups.map Prod.fst = l ∧
      (groups.map Prod.snd).flatten = evs ∧ ∀ g ∈ groups, Holds idleMs maxMs g.1 g.2) :
    ∃ groups : List (SessionSegment × List CaptureEvent), groups.map Prod.fst = closeIf p l ∧
      (groups.map Prod.snd).flatten = evs ∧ ∀ g ∈ groups, Holds idleMs maxMs g.1 g.2 := by
  obtain ⟨groups, rfl, hevs, hholds⟩ := h
  cases groups with
  | nil => exact ⟨[], rfl, hevs, hholds⟩
  | cons g groups =>
    rw [List.forall_mem_cons] at hholds
    refine ⟨(if p g.1 then g.1.close else g.1, g.2) :: groups, ?_, hevs, ?_⟩
    · simp [closeIf]
    · rw [List.forall_mem_cons]
      refine ⟨?_, hholds.2⟩
      split_ifs
      · exact hholds.1.close
      · exact hholds.1

/-- An event joins the newest group or begins one. -/
theorem groups_recordIn {l : List SessionSegment} {evs : List CaptureEvent}
    (h : ∃ groups : List (SessionSegment × List CaptureEvent), groups.map Prod.fst = l ∧
      (groups.map Prod.snd).flatten = evs ∧ ∀ g ∈ groups, Holds idleMs maxMs g.1 g.2)
    (hduration : 0 ≤ e.durationMs)
    (hprev : ∀ prev, evs.head? = some prev → prev.seq < e.seq ∧ prev.createdAt ≤ e.createdAt ∧
      prev.startMs + prev.durationMs ≤ e.startMs) :
    ∃ groups : List (SessionSegment × List CaptureEvent),
      groups.map Prod.fst = recordIn idleMs maxMs e l ∧
        (groups.map Prod.snd).flatten = e :: evs ∧ ∀ g ∈ groups, Holds idleMs maxMs g.1 g.2 := by
  obtain ⟨groups, rfl, rfl, hholds⟩ := h
  cases groups with
  | nil =>
    refine ⟨[(SessionSegment.ofEvent e, [e])], rfl, by simp, ?_⟩
    simpa using holds_ofEvent hduration
  | cons g groups =>
    obtain ⟨s, es⟩ := g
    rw [List.forall_mem_cons] at hholds
    simp only [List.map_cons, recordIn]
    split_ifs with hclosed hcut
    · refine ⟨(SessionSegment.ofEvent e, [e]) :: (s, es) :: groups, rfl, rfl, ?_⟩
      simp only [List.forall_mem_cons]
      exact ⟨holds_ofEvent hduration, hholds⟩
    · refine ⟨(SessionSegment.ofEvent e, [e]) :: (s.close, es) :: groups, rfl, rfl, ?_⟩
      simp only [List.forall_mem_cons]
      exact ⟨holds_ofEvent hduration, hholds.1.close, hholds.2⟩
    · refine ⟨(s.extend e, e :: es) :: groups, rfl, rfl, ?_⟩
      rw [List.forall_mem_cons]
      refine ⟨hholds.1.extend hduration (fun prev hhead => hprev prev ?_) (by simpa using hcut),
        hholds.2⟩
      rw [List.map_cons, List.flatten_cons, List.head?_append, hhead]
      rfl

/-- **Every step keeps the groups.** -/
theorem grouped_step {w : SegmentWorld} (h : w.Ordered) (hgrouped : ∀ sid, Grouped w sid)
    {st : SegmentStep} (hst : Assigned w st) : ∀ sid, Grouped (w.step st) sid := by
  intro sid
  unfold Grouped
  rw [(sameThresholds_step w st).1, (sameThresholds_step w st).2]
  cases st with
  | closeIdle now =>
    rw [newest_closeIdle h]
    exact groups_closeIf (hgrouped sid)
  | closeSession sessionId =>
    rw [newest_closeSession h]
    exact groups_closeIf (hgrouped sid)
  | record e =>
    cases hstored : (w.store.append e).1 with
    | false =>
      rw [step_record_of_refused hstored]
      exact hgrouped sid
    | true =>
      rw [h.newest_record (inOrder_of_assigned h hst) hstored, rows_record hstored]
      split_ifs with hsid
      · rw [List.reverse_append, List.reverse_singleton, List.singleton_append]
        apply groups_recordIn (hgrouped e.sessionId) hst.1
        intro prev hprev
        rw [List.head?_reverse] at hprev
        exact hst.2 prev hprev
      · exact hgrouped sid

/-! ## The partition -/

/-- The events in the sequence range of a segment. -/
def eventsOf (w : SegmentWorld) (sessionId : String) (s : SessionSegment) : List CaptureEvent :=
  (w.store.rows sessionId).filter fun e => s.firstSeq ≤ e.seq ∧ e.seq ≤ s.lastSeq

/-- **The segments of a session partition its events**: in a row they give the events back, their
ranges are disjoint and in order, only the last may be open, the lookup of an event finds the one
segment whose range has it, within a segment no gap is idle, and one with several events is
shorter than the maximum. -/
structure Partitioned (w : SegmentWorld) (sessionId : String) : Prop where
  covers : (w.index.forSession sessionId).flatMap (eventsOf w sessionId) =
    w.store.rows sessionId
  disjoint : (w.index.forSession sessionId).Pairwise fun s t => s.lastSeq < t.firstSeq
  closed : ∀ s ∈ (w.index.forSession sessionId).dropLast, s.closed = true
  lookup : ∀ e ∈ w.store.rows sessionId, ∃ s ∈ w.index.forSession sessionId,
    w.index.segmentForEvent sessionId e.seq = some s ∧
      ∀ t ∈ w.index.forSession sessionId, t.firstSeq ≤ e.seq ∧ e.seq ≤ t.lastSeq ↔ t = s
  gaps : ∀ s ∈ w.index.forSession sessionId, (eventsOf w sessionId s).IsChain
    fun a b => b.createdAt - a.createdAt < w.index.idleMs * 1000
  span : ∀ s ∈ w.index.forSession sessionId,
    (eventsOf w sessionId s).length = 1 ∨ s.endMs - s.startMs < w.index.maxMs

/-- The events of a group are in the range of its segment. -/
theorem Holds.range (h : Holds idleMs maxMs s es) (hsorted : es.Pairwise fun b a => a.seq < b.seq) :
    ∀ a ∈ es, s.firstSeq ≤ a.seq ∧ a.seq ≤ s.lastSeq := by
  obtain ⟨last, hhead, hlast, -⟩ := h.newest
  obtain ⟨first, hgetLast, hfirst, -⟩ := h.oldest
  intro a ha
  rw [hlast, hfirst]
  constructor
  · obtain ⟨before, hes⟩ := List.getLast?_eq_some_iff.mp hgetLast
    rw [hes, List.pairwise_append] at hsorted
    rw [hes, List.mem_append, List.mem_singleton] at ha
    obtain ha | rfl := ha
    · exact (hsorted.2.2 a ha first (by simp)).le
    · exact le_rfl
  · obtain ⟨rest, hes⟩ := List.head?_eq_some_iff.mp hhead
    rw [hes, List.pairwise_cons] at hsorted
    rw [hes, List.mem_cons] at ha
    obtain rfl | ha := ha
    · exact le_rfl
    · exact (hsorted.1 a ha).le

/-- The lookup of an event finds a segment of its session whose range has it.
SOURCE: sessions/segments.py:286-296 -/
theorem segmentForEvent_eq {w : SegmentWorld} {sessionId : String} (h : w.Ordered) {seq : ℤ}
    (hs : s ∈ w.index.newest sessionId) (hrange : s.firstSeq ≤ seq ∧ seq ≤ s.lastSeq) :
    w.index.segmentForEvent sessionId seq = some s := by
  unfold segmentForEvent
  obtain ⟨hvalue, hsession⟩ := mem_newest.mp hs
  have hsome : (w.index.segments.values.find? fun t => t.sessionId = sessionId ∧
      t.firstSeq ≤ seq ∧ seq ≤ t.lastSeq).isSome := by
    rw [List.find?_isSome]
    exact ⟨s, hvalue, by simpa [hsession] using hrange⟩
  obtain ⟨t, ht⟩ := Option.isSome_iff_exists.mp hsome
  have htest := List.find?_some ht
  simp only [decide_eq_true_eq] at htest
  have hmem : t ∈ w.index.newest sessionId :=
    mem_newest.mpr ⟨List.mem_of_find?_eq_some ht, htest.1⟩
  rw [ht, (h.valid.chain sessionId).eq_of_range hmem hs htest.2 hrange]

/-- The groups give the partition. -/
theorem partitioned_of_grouped {w : SegmentWorld} {sessionId : String} (h : w.Ordered)
    (hgrouped : Grouped w sessionId) : Partitioned w sessionId := by
  obtain ⟨groups, hsegments, hevents, hholds⟩ := hgrouped
  have hchain := h.valid.chain sessionId
  have hforSession := h.valid.forSession_eq sessionId
  have hsorted : ((groups.map Prod.snd).flatten).Pairwise fun b a => a.seq < b.seq := by
    rw [hevents, List.pairwise_reverse]
    exact h.sorted sessionId
  have hrange : ∀ g ∈ groups, ∀ a ∈ g.2, g.1.firstSeq ≤ a.seq ∧ a.seq ≤ g.1.lastSeq := by
    intro g hg
    apply (hholds g hg).range
    exact (List.pairwise_flatten.mp hsorted).1 g.2 (List.mem_map_of_mem hg)
  -- The test of a segment picks its group out of all events.
  have hfilter : ∀ g ∈ groups, eventsOf w sessionId g.1 = g.2.reverse := by
    intro g hg
    have hpick := filter_flatten_of_disjoint
      (p := fun s (a : CaptureEvent) => decide (s.firstSeq ≤ a.seq ∧ a.seq ≤ s.lastSeq))
      (fun g hg a ha => by simpa using hrange g hg a ha) ?_ g hg
    · rw [hevents, List.filter_reverse] at hpick
      rw [← hpick, List.reverse_reverse]
      rfl
    · have hpairs := hchain.sorted
      rw [← hsegments, List.pairwise_map] at hpairs
      apply hpairs.imp
      intro b c hlt a hin
      simp only [decide_eq_true_eq, decide_eq_false_iff_not] at hin ⊢
      omega
  have hmem : ∀ s, s ∈ w.index.forSession sessionId ↔ ∃ g ∈ groups, g.1 = s := by
    intro s
    rw [hforSession, List.mem_reverse, ← hsegments, List.mem_map]
  refine ⟨?_, ?_, ?_, ?_, ?_, ?_⟩
  · rw [hforSession, ← hsegments, ← List.map_reverse, List.flatMap_map, List.flatMap_congr
      (g := fun g => g.2.reverse) fun g hg => hfilter g (List.mem_reverse.mp hg)]
    rw [← List.reverse_reverse (w.store.rows sessionId), ← hevents, List.reverse_flatten,
      List.map_map, ← List.map_reverse, List.flatMap_def]
    rfl
  · rw [hforSession, List.pairwise_reverse]
    exact hchain.sorted
  · rw [hforSession, List.dropLast_reverse]
    intro s hs
    exact hchain.older s (List.mem_reverse.mp hs)
  · intro e he
    rw [← List.mem_reverse, ← hevents, List.mem_flatten] at he
    obtain ⟨es, hes, hmem'⟩ := he
    obtain ⟨g, hg, rfl⟩ := List.mem_map.mp hes
    have hin := hrange g hg e hmem'
    have hnewest : g.1 ∈ w.index.newest sessionId := hsegments ▸ List.mem_map_of_mem hg
    refine ⟨g.1, (hmem g.1).mpr ⟨g, hg, rfl⟩, ?_, fun t ht => ⟨fun htin => ?_, ?_⟩⟩
    · exact segmentForEvent_eq h hnewest hin
    · rw [hforSession, List.mem_reverse] at ht
      exact hchain.eq_of_range ht hnewest htin hin
    · rintro rfl
      exact hin
  · intro s hs
    obtain ⟨g, hg, rfl⟩ := (hmem s).mp hs
    rw [hfilter g hg, List.isChain_reverse]
    exact (hholds g hg).gaps
  · intro s hs
    obtain ⟨g, hg, rfl⟩ := (hmem s).mp hs
    rw [hfilter g hg, List.length_reverse]
    exact (hholds g hg).span

/-- The server starts without groups. -/
theorem grouped_init (idleMs maxMs : ℤ) (sessionId : String) :
    Grouped (init idleMs maxMs) sessionId :=
  ⟨[], rfl, rfl, by simp⟩

/-- **Segments partition the events of every session**, after any run of events as the gateway
assigns them, sweeps and ends of sessions, with any thresholds.
SOURCE: sessions/segments.py:133-227, sessions/segments.py:286-296 -/
theorem partitioned_run {idleMs maxMs : ℤ} {steps : List SegmentStep}
    (hsteps : EveryStep SegmentWorld.step Assigned (init idleMs maxMs) steps)
    (sessionId : String) :
    Partitioned (run SegmentWorld.step (init idleMs maxMs) steps) sessionId := by
  have hrun : Ordered (run SegmentWorld.step (init idleMs maxMs) steps) ∧
      ∀ sid, Grouped (run SegmentWorld.step (init idleMs maxMs) steps) sid := by
    apply hsteps.invariant (I := fun w => Ordered w ∧ ∀ sid, Grouped w sid)
    · intro w st h hst
      exact ⟨h.1.step st (inOrder_of_assigned h.1 hst), grouped_step h.1 h.2 hst⟩
    · exact ⟨ordered_init idleMs maxMs, grouped_init idleMs maxMs⟩
  exact partitioned_of_grouped hrun.1 (hrun.2 sessionId)

/-- A transcript of two seconds, which was said at a second of its session. -/
def saidAt (sessionId : String) (seq second : ℤ) : CaptureEvent where
  eventId := segmentId sessionId seq
  sessionId := sessionId
  seq := seq
  kind := .transcript
  createdAt := second * 1000000
  text := "Hello."
  durationMs := 2000
  startMs := second * 1000

/-- Two sessions that are cut by silence, by a sweep and by a `bye`. -/
def twoSessions : List SegmentStep :=
  [.record (saidAt "a" 0 0), .record (saidAt "b" 0 5), .record (saidAt "a" 1 10),
    .record (saidAt "a" 2 400), .closeIdle 320000000, .closeSession "a",
    .record (saidAt "b" 1 410), .record (saidAt "a" 3 420)]

theorem twoSessions_assigned :
    EveryStep SegmentWorld.step Assigned (init 300000 3600000) twoSessions := by
  decide +kernel

theorem partitioned_run_twoSessions :
    Partitioned (run SegmentWorld.step (init 300000 3600000) twoSessions) "a" ∧
      Partitioned (run SegmentWorld.step (init 300000 3600000) twoSessions) "b" :=
  ⟨partitioned_run twoSessions_assigned "a", partitioned_run twoSessions_assigned "b"⟩

end OpenRecall.Analysis.SegmentPartition
