import OpenRecall.Model.SessionActivity

/-!
# The session index as a function of the log

The summary of a session is a function of its events and of when it was closed since the last of
them. Folding in one more event computes that function of one more event, and so does replaying all
events after a restart. What a count of the recent events forgets, no later count asks for.
-/

set_option autoImplicit false

namespace OpenRecall.Analysis.SessionSummaries

open Foundation OpenRecall.Model

/-! ## Summaries of events -/

/-- The first preview of a transcript. -/
def previewOfEvents (events : List CaptureEvent) : Option String :=
  events.findSome? fun e => if e.kind = .transcript then previewOf e.text else none

/-- The summary of a session with these events, which was closed at a time or is open. -/
def summaryOf (sessionId : String) (endedAt : Option Time) :
    List CaptureEvent → Option SessionSummary
  | [] => none
  | e :: events => some
    { id := sessionId
      startedAt := e.createdAt
      endedAt := endedAt
      eventCount := (e :: events).length
      transcriptCount := (e :: events).countP fun e => e.kind = .transcript
      preview := previewOfEvents (e :: events)
      closed := endedAt.isSome }

theorem summaryOf_eq_none_iff {sessionId : String} {endedAt : Option Time}
    {events : List CaptureEvent} : summaryOf sessionId endedAt events = none ↔ events = [] := by
  cases events <;> simp [summaryOf]

/-- One more event opens the session again. -/
theorem summaryOf_concat (endedAt : Option Time) (events : List CaptureEvent) (e : CaptureEvent) :
    summaryOf e.sessionId none (events ++ [e]) =
      some (match summaryOf e.sessionId endedAt events with
        | none => .ofEvent e
        | some s => s.extend e) := by
  cases events with
  | nil =>
    by_cases htranscript : e.kind = .transcript
    · simp [summaryOf, previewOfEvents, SessionSummary.ofEvent, htranscript]
    · simp [summaryOf, previewOfEvents, SessionSummary.ofEvent, htranscript]
  | cons first events =>
    have hpreview : previewOfEvents (first :: events ++ [e]) =
        if e.kind = .transcript ∧ previewOfEvents (first :: events) = none then previewOf e.text
        else previewOfEvents (first :: events) := by
      rw [previewOfEvents, List.findSome?_append]
      cases h : previewOfEvents (first :: events) with
      | none =>
        rw [previewOfEvents] at h
        rw [h]
        by_cases htranscript : e.kind = .transcript <;> simp [htranscript]
      | some preview =>
        rw [previewOfEvents] at h
        rw [h]
        simp
    have hcount : (first :: events ++ [e]).countP (fun e => e.kind = .transcript) =
        (first :: events).countP (fun e => e.kind = .transcript) +
          if e.kind = .transcript then 1 else 0 := by
      rw [List.countP_append, List.countP_singleton]
      simp
    rw [List.cons_append] at hpreview hcount
    cases endedAt with
    | none => simp [summaryOf, SessionSummary.extend, SessionSummary.reopen, hpreview, hcount]
    | some at_ => simp [summaryOf, SessionSummary.extend, SessionSummary.reopen, hpreview, hcount]

/-- The first close after the last event counts. -/
theorem markClosed_summaryOf {sessionId : String} {endedAt : Option Time}
    {events : List CaptureEvent} {s : SessionSummary}
    (hs : summaryOf sessionId endedAt events = some s) (at_ : Time) :
    summaryOf sessionId (endedAt.or (some at_)) events = some (s.markClosed at_) := by
  cases events with
  | nil => cases hs
  | cons e events =>
    obtain rfl := Option.some.inj hs
    cases endedAt <;> rfl

/-! ## An index that describes events -/

/-- The index has the summaries of the events, has counted them, and remembers those that are newer
than a day before some time. -/
structure Describes (events : String → List CaptureEvent) (all : List CaptureEvent)
    (endedAt : String → Option Time) (since : Time) (a : SessionActivity) : Prop where
  summary : ∀ sessionId, a.index.summary sessionId =
    summaryOf sessionId (endedAt sessionId) (events sessionId)
  eventCount : a.eventCount = all.length
  recent : ∀ cutoff, since - SessionActivity.oneDay ≤ cutoff →
    a.recentTimestamps.countP (fun t => cutoff < t) = all.countP fun e => cutoff < e.createdAt

namespace Describes

variable {events : String → List CaptureEvent} {all : List CaptureEvent}
  {endedAt : String → Option Time} {since : Time} {a : SessionActivity}

theorem empty (endedAt : String → Option Time) (since : Time) :
    Describes (fun _ => []) [] endedAt since {} where
  summary _ := rfl
  eventCount := rfl
  recent _ _ := rfl

/-- SOURCE: sessions/index.py:137-169 -/
theorem record (h : Describes events all endedAt since a) (e : CaptureEvent) :
    Describes (Function.update events e.sessionId (events e.sessionId ++ [e])) (all ++ [e])
      (Function.update endedAt e.sessionId none) since (a.record e) where
  summary sessionId := by
    have hput : (a.index.record e).summary sessionId =
        if sessionId = e.sessionId then some (match a.index.summary e.sessionId with
          | none => .ofEvent e
          | some s => s.extend e)
        else a.index.summary sessionId := by
      unfold SessionIndex.record
      cases a.index.summary e.sessionId with
      | none => exact Dict.get?_set _ _ _ _
      | some s => exact Dict.get?_set _ _ _ _
    show (a.index.record e).summary sessionId = _
    rw [hput, h.summary e.sessionId]
    by_cases hid : sessionId = e.sessionId
    · rw [if_pos hid, hid, Function.update_self, Function.update_self, ← summaryOf_concat]
    · rw [if_neg hid, Function.update_of_ne hid, Function.update_of_ne hid, h.summary]
  eventCount := by
    show a.eventCount + 1 = _
    rw [h.eventCount, List.length_append, List.length_singleton]
  recent cutoff hcutoff := by
    show (a.recentTimestamps ++ [e.createdAt]).countP _ = _
    rw [List.countP_append, List.countP_append, h.recent cutoff hcutoff, List.countP_singleton,
      List.countP_singleton]

/-- SOURCE: sessions/index.py:171-183 -/
theorem markClosed (h : Describes events all endedAt since a) (sessionId : String) (at_ : Time) :
    Describes events all
      (Function.update endedAt sessionId ((endedAt sessionId).or (some at_))) since
      (a.markClosed sessionId at_) where
  summary k := by
    show (a.index.markClosed sessionId at_).summary k = _
    unfold SessionIndex.markClosed
    cases hs : a.index.summary sessionId with
    | none =>
      rw [h.summary] at hs
      have hnil := summaryOf_eq_none_iff.mp hs
      by_cases hk : k = sessionId
      · rw [h.summary, hk, Function.update_self, hnil]
        rfl
      · rw [h.summary, Function.update_of_ne hk]
    | some s =>
      have hput : (a.index.put sessionId (s.markClosed at_)).summary k =
          if k = sessionId then some (s.markClosed at_) else a.index.summary k :=
        Dict.get?_set _ _ _ _
      rw [hput]
      by_cases hk : k = sessionId
      · rw [if_pos hk, hk, Function.update_self]
        exact (markClosed_summaryOf ((h.summary sessionId).symm.trans hs) at_).symm
      · rw [if_neg hk, h.summary, Function.update_of_ne hk]
  eventCount := h.eventCount
  recent := h.recent

/-- **A count of the recent events** counts all of the last day. What it forgets stays old.
SOURCE: sessions/index.py:238-259 -/
theorem count (h : Describes events all endedAt since a) {now : Time} (hnow : since ≤ now) :
    (a.recentEvents24h now).1 = all.countP (fun e => now - SessionActivity.oneDay < e.createdAt) ∧
      Describes events all endedAt now (a.recentEvents24h now).2 := by
  refine ⟨?_, h.summary, h.eventCount, fun cutoff hcutoff => ?_⟩
  · rw [← h.recent _ (sub_le_sub_right hnow _), List.countP_eq_length_filter]
    rfl
  · rw [← h.recent cutoff ((sub_le_sub_right hnow _).trans hcutoff)]
    show (a.recentTimestamps.filter _).countP _ = _
    rw [List.countP_filter]
    refine List.countP_congr fun t _ => ?_
    simp only [Bool.and_eq_true, decide_eq_true_eq]
    exact and_iff_left_of_imp hcutoff.trans_lt

end Describes

/-! ## Replaying -/

/-- All events of a store, by session. -/
def allOf (st : InMemoryEventStore) : List CaptureEvent := st.bySession.values.flatten

theorem keys_flatMap_get? {κ ν : Type} [DecidableEq κ] (d : Dict κ (List ν)) :
    (d.keys.flatMap fun k => (d.get? k).getD []) = d.values.flatten := by
  rw [Dict.keys, Dict.values, List.flatMap_map, ← List.flatMap_def]
  refine List.flatMap_congr fun entry hentry => ?_
  rw [(d.get?_eq_some_iff entry.1 entry.2).mpr hentry, Option.getD_some]

theorem nodup_sessions (st : InMemoryEventStore) : st.sessions.Nodup := st.bySession.nodup

/-- The replayed events are those of the store. -/
theorem replayed_perm (st : InMemoryEventStore) :
    (SessionActivity.replayed st).Perm (allOf st) := by
  rw [allOf, ← keys_flatMap_get?]
  refine ((List.perm_insertionSort _ _).flatMap_right _).trans ?_
  exact List.Perm.flatMap_left _ fun sessionId _ => List.perm_insertionSort _ _

/-- Of the replayed events those of a session are its events. -/
theorem filter_replayed {st : InMemoryEventStore}
    (hown : ∀ sessionId, ∀ e ∈ st.rows sessionId, e.sessionId = sessionId) (sessionId : String) :
    ((SessionActivity.replayed st).filter fun e => e.sessionId = sessionId) =
      st.events sessionId := by
  have hone : ∀ sessions : List String, sessions.Nodup →
      ((sessions.flatMap fun k => st.events k).filter fun e => e.sessionId = sessionId) =
        if sessionId ∈ sessions then st.events sessionId else [] := by
    intro sessions hnodup
    induction sessions with
    | nil => rfl
    | cons k sessions ih =>
      obtain ⟨hk, hnodup⟩ := List.nodup_cons.mp hnodup
      have hevents : ∀ e ∈ st.events k, e.sessionId = k := fun e he =>
        hown k e ((st.mem_events_iff k e).mp he)
      rw [List.flatMap_cons, List.filter_append, ih hnodup]
      by_cases hid : k = sessionId
      · rw [List.filter_eq_self.mpr fun e he => decide_eq_true ((hevents e he).trans hid),
          if_neg (hid ▸ hk), if_pos (hid ▸ List.mem_cons_self), List.append_nil, hid]
      · rw [List.filter_eq_nil_iff.mpr fun e he hsession =>
          hid ((hevents e he).symm.trans (of_decide_eq_true hsession)), List.nil_append]
        exact if_congr (by simp [Ne.symm hid]) rfl rfl
  rw [SessionActivity.replayed, hone _
    ((List.perm_insertionSort _ _).nodup_iff.mpr (nodup_sessions st))]
  split_ifs with hmem
  · rfl
  · rw [List.mem_insertionSort, InMemoryEventStore.sessions, ← Dict.get?_eq_none_iff] at hmem
    rw [InMemoryEventStore.events, InMemoryEventStore.rows, hmem]
    rfl

theorem Describes.congr {events events' : String → List CaptureEvent} {all all' : List CaptureEvent}
    {endedAt endedAt' : String → Option Time} {since : Time} {a : SessionActivity}
    (h : Describes events all endedAt since a) (hall : all.Perm all')
    (hevents : events = events') (hended : endedAt = endedAt') :
    Describes events' all' endedAt' since a where
  summary := hevents ▸ hended ▸ h.summary
  eventCount := h.eventCount.trans hall.length_eq
  recent cutoff hcutoff := (h.recent cutoff hcutoff).trans (hall.countP_eq _)

/-- An index that is told of events one by one describes them. -/
theorem describes_foldl (since : Time) (all : List CaptureEvent) :
    Describes (fun sessionId => all.filter fun e => e.sessionId = sessionId) all (fun _ => none)
      since (all.foldl (fun a e => a.record e) {}) := by
  induction all using List.reverseRecOn with
  | nil => exact Describes.empty _ since
  | append_singleton all e ih =>
    rw [List.foldl_concat]
    refine (ih.record e).congr (List.Perm.refl _) ?_ ?_
    · funext k
      rw [List.filter_append]
      by_cases hk : k = e.sessionId
      · rw [hk, Function.update_self]
        simp
      · rw [Function.update_of_ne hk]
        simp [Ne.symm hk]
    · funext k
      rw [Function.update_apply, ite_self]

/-- **A rebuild describes the events of the store**, none of whose sessions is closed.
SOURCE: sessions/index.py:185-226 -/
theorem describes_rebuild {st : InMemoryEventStore}
    (hown : ∀ sessionId, ∀ e ∈ st.rows sessionId, e.sessionId = sessionId) (since : Time) :
    Describes (fun sessionId => st.events sessionId) (allOf st) (fun _ => none) since
      (.rebuildFromStore st) :=
  (describes_foldl since (SessionActivity.replayed st)).congr (replayed_perm st)
    (funext (filter_replayed hown)) rfl

/-! ## Runs -/

/-- The events of a session are stored in the order of `seq`, and the clock of the counts does not
go back. -/
def InOrder (w : SummaryWorld) : SummaryStep → Prop
  | .emit e => e.eventId ∉ w.store.seen → ∀ e' ∈ w.store.rows e.sessionId, e'.seq < e.seq
  | .count now => w.countedAt ≤ now
  | .close _ _ | .restart => True

instance (w : SummaryWorld) : ∀ st, Decidable (InOrder w st)
  | .emit e => inferInstanceAs (Decidable (_ → ∀ e' ∈ w.store.rows e.sessionId, e'.seq < e.seq))
  | .count now => inferInstanceAs (Decidable (w.countedAt ≤ now))
  | .close _ _ | .restart => inferInstanceAs (Decidable True)

/-- When each session was closed since its last event, after one more step. -/
def endedAfter (w : SummaryWorld) (endedAt : String → Option Time) :
    SummaryStep → String → Option Time
  | .emit e => if e.eventId ∈ w.store.seen then endedAt else Function.update endedAt e.sessionId none
  | .close sessionId at_ =>
    Function.update endedAt sessionId ((endedAt sessionId).or (some at_))
  | .count _ => endedAt
  | .restart => fun _ => none

/-- And after a run. -/
def endedOf (endedAt : String → Option Time) : SummaryWorld → List SummaryStep → String → Option Time
  | _, [] => endedAt
  | w, st :: steps => endedOf (endedAfter w endedAt st) (w.step st) steps

/-- What the index and its store keep. -/
structure Kept (w : SummaryWorld) (endedAt : String → Option Time) : Prop where
  own : ∀ sessionId, ∀ e ∈ w.store.rows sessionId, e.sessionId = sessionId
  sorted : ∀ sessionId, (w.store.rows sessionId).Pairwise fun a b => a.seq < b.seq
  describes : Describes (fun sessionId => w.store.rows sessionId) (allOf w.store) endedAt
    w.countedAt w.activity

theorem allOf_append {st : InMemoryEventStore} {e : CaptureEvent} (h : e.eventId ∉ st.seen) :
    (allOf st ++ [e]).Perm (allOf (st.append e).2) := by
  rw [InMemoryEventStore.append, if_neg h]
  exact List.perm_append_singleton e _ |>.trans
    (Dict.flatten_values_set_concat st.bySession e.sessionId e).symm

theorem Kept.emit {w : SummaryWorld} {endedAt : String → Option Time} (h : Kept w endedAt)
    (e : CaptureEvent) (horder : InOrder w (.emit e)) :
    Kept (w.emit e) (endedAfter w endedAt (.emit e)) := by
  rw [endedAfter]
  by_cases hseen : e.eventId ∈ w.store.seen
  · have hdup : w.store.append e = (false, w.store) := by
      rw [InMemoryEventStore.append, if_pos hseen]
    rw [if_pos hseen, SummaryWorld.emit, hdup]
    exact h
  · have hnew : (w.store.append e).1 = true := by
      rw [InMemoryEventStore.append, if_neg hseen]
    have hrows : ∀ k, (w.store.append e).2.rows k =
        Function.update (fun k => w.store.rows k) e.sessionId (w.store.rows e.sessionId ++ [e]) k := by
      intro k
      rw [InMemoryEventStore.rows_append, Function.update_apply]
      by_cases hk : k = e.sessionId
      · rw [if_pos hk, if_pos ⟨hseen, hk.symm⟩, hk]
      · rw [if_neg hk, if_neg fun hboth => hk hboth.2.symm]
    rw [if_neg hseen, SummaryWorld.emit]
    refine ⟨fun k e' he' => ?_, fun k => ?_, ?_⟩
    · rw [hrows, Function.update_apply] at he'
      split_ifs at he' with hk
      · rcases List.mem_append.mp he' with hold | hlast
        · exact (h.own e.sessionId e' hold).trans hk.symm
        · rw [List.mem_singleton.mp hlast, hk]
      · exact h.own k e' he'
    · rw [hrows, Function.update_apply]
      split_ifs with hk
      · refine List.pairwise_append.mpr ⟨h.sorted _, List.pairwise_singleton _ _, ?_⟩
        intro e' he' last hlast
        rw [List.mem_singleton.mp hlast]
        exact horder hseen e' he'
      · exact h.sorted k
    · dsimp only
      rw [if_pos hnew]
      exact (h.describes.record e).congr (allOf_append hseen) (funext hrows).symm rfl

/-- **Every step** of the server. -/
theorem Kept.step {w : SummaryWorld} {endedAt : String → Option Time} (h : Kept w endedAt)
    (st : SummaryStep) (horder : InOrder w st) : Kept (w.step st) (endedAfter w endedAt st) := by
  cases st with
  | emit e => exact h.emit e horder
  | close sessionId at_ => exact ⟨h.own, h.sorted, h.describes.markClosed sessionId at_⟩
  | count now => exact ⟨h.own, h.sorted, (h.describes.count horder).2⟩
  | restart =>
    refine ⟨h.own, h.sorted, (describes_rebuild h.own w.countedAt).congr (List.Perm.refl _) ?_ rfl⟩
    funext sessionId
    exact InMemoryEventStore.events_eq_rows (h.sorted sessionId)

/-- A count says how many stored events are newer than a day. -/
def CountsRight (w : SummaryWorld) : SummaryStep → Prop
  | .count now => (w.activity.recentEvents24h now).1 =
      (allOf w.store).countP fun e => now - SessionActivity.oneDay < e.createdAt
  | _ => True

theorem Kept.run {w : SummaryWorld} {endedAt : String → Option Time} (h : Kept w endedAt)
    {steps : List SummaryStep} (horder : EveryStep SummaryWorld.step InOrder w steps) :
    EveryStep SummaryWorld.step CountsRight w steps ∧
      Kept (Foundation.run SummaryWorld.step w steps) (endedOf endedAt w steps) := by
  induction steps generalizing w endedAt with
  | nil => exact ⟨trivial, h⟩
  | cons st steps ih =>
    obtain ⟨hrest, hkept⟩ := ih (h.step st horder.1) horder.2
    refine ⟨⟨?_, hrest⟩, hkept⟩
    cases st with
    | count now => exact (h.describes.count horder.1).1
    | emit e => trivial
    | close sessionId at_ => trivial
    | restart => trivial

/-- **The session index describes the log.** Over any run of events that are stored in the order of
`seq`, ends of sessions, counts on a clock that does not go back, and restarts: the summary of every
session is that of its stored events, with the first close since the last of them and since the last
restart; all stored events are counted; and each count of the recent events has been right.
SOURCE: sessions/index.py:47-84, sessions/index.py:126-259 -/
theorem summaries_describe_log (start : Time) (steps : List SummaryStep)
    (horder : EveryStep SummaryWorld.step InOrder { countedAt := start } steps) :
    let w := Foundation.run SummaryWorld.step { countedAt := start } steps
    EveryStep SummaryWorld.step CountsRight { countedAt := start } steps ∧
      w.activity.eventCount = (allOf w.store).length ∧
      ∀ sessionId, w.activity.index.summary sessionId =
        summaryOf sessionId (endedOf (fun _ => none) { countedAt := start } steps sessionId)
          (w.store.rows sessionId) := by
  have hnew : Kept { countedAt := start } fun _ => none := by
    refine ⟨fun _ e he => ?_, fun _ => List.Pairwise.nil, Describes.empty _ start⟩
    cases he
  obtain ⟨hcounts, hkept⟩ := hnew.run horder
  exact ⟨hcounts, hkept.describes.eventCount, hkept.describes.summary⟩

/-- A transcript of a session. -/
def spoken (eventId : String) (seq : ℤ) (createdAt : Time) : CaptureEvent :=
  { eventId, sessionId := "s1", seq, kind := .transcript, createdAt, text := "hello",
    durationMs := 0, startMs := 0 }

/-- A session that is closed, goes on after a restart, and is counted a day later. -/
theorem summaries_describe_log_restarted :
    let steps : List SummaryStep := [.emit (spoken "s1:0" 0 5), .close "s1" 9, .restart,
      .emit (spoken "s1:1" 1 86400000000), .count 86400000006]
    EveryStep SummaryWorld.step CountsRight { countedAt := 0 } steps :=
  (summaries_describe_log 0 [.emit (spoken "s1:0" 0 5), .close "s1" 9, .restart,
    .emit (spoken "s1:1" 1 86400000000), .count 86400000006] (by decide +kernel)).1

end OpenRecall.Analysis.SessionSummaries
