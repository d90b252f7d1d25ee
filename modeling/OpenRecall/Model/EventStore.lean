import OpenRecall.Model.Command

/-!
# Capture events and their store

A capture event is what the wearable said at one moment of a session; the store keeps the
events of each session, refuses an event id it has seen, and gives a session back in
`seq` order. This is the in-memory store; the durable one dedups by the same key.
-/

set_option autoImplicit false

namespace OpenRecall.Model

open Foundation

inductive EventKind where
  | transcript
  | moment
  deriving DecidableEq

/-- One captured event; confidences are exact rationals.
SOURCE: events/model.py:20-33 -/
structure CaptureEvent where
  eventId : String
  sessionId : String
  seq : ℤ
  kind : EventKind
  createdAt : Time
  text : String
  durationMs : ℤ
  startMs : ℤ
  speaker : Option String := none
  speakerConfidence : Option ℚ := none
  speakerAssignment : Option String := none
  deriving DecidableEq

/-- SOURCE: ingest/speaker_identifier.py:43-47 -/
structure SpeakerAssignment where
  speakerId : String
  confidence : ℚ
  assignment : Option String
  deriving DecidableEq

/-- SOURCE: events/store.py:107-109 -/
structure InMemoryEventStore where
  seen : Finset String := ∅
  bySession : Dict String (List CaptureEvent) := .empty
  deriving DecidableEq

namespace InMemoryEventStore

/-- The events of a session in the order of their appends. -/
def rows (sessionId : String) (st : InMemoryEventStore) : List CaptureEvent :=
  (st.bySession.get? sessionId).getD []

/-- Store an event unless its id was seen; the first component says whether it was stored.
SOURCE: events/store.py:111-116 -/
def append (event : CaptureEvent) (st : InMemoryEventStore) : Bool × InMemoryEventStore :=
  if event.eventId ∈ st.seen then (false, st)
  else (true,
    { seen := insert event.eventId st.seen
      bySession := st.bySession.set event.sessionId (st.rows event.sessionId ++ [event]) })

/-- The events of a session ordered by `seq`; the sort is stable.
SOURCE: events/store.py:118-119 -/
def events (sessionId : String) (st : InMemoryEventStore) : List CaptureEvent :=
  (st.rows sessionId).insertionSort fun a b => a.seq ≤ b.seq

/-- The event with the highest `seq`, the first of them if there are several.
SOURCE: events/store.py:121-126 -/
def lastEvent (sessionId : String) (st : InMemoryEventStore) : Option CaptureEvent :=
  (st.rows sessionId).maxOn? CaptureEvent.seq

/-- The sessions that were ever appended to.
SOURCE: events/store.py:128-129 -/
def sessions (st : InMemoryEventStore) : List String := st.bySession.keys

/-- Delete the events of an inclusive `seq` range; the first component is how many.
SOURCE: events/store.py:155-165 -/
def deleteRange (sessionId : String) (firstSeq lastSeq : ℤ) (st : InMemoryEventStore) :
    ℕ × InMemoryEventStore :=
  let rows := st.rows sessionId
  if rows = [] then (0, st)
  else
    let doomed := rows.filter fun e => firstSeq ≤ e.seq ∧ e.seq ≤ lastSeq
    let keep := rows.filter fun e => ¬ (firstSeq ≤ e.seq ∧ e.seq ≤ lastSeq)
    (doomed.length,
      { seen := st.seen \ (doomed.map CaptureEvent.eventId).toFinset
        bySession := st.bySession.set sessionId keep })

/-! ## What the operations leave -/

/-- The events of a session after an append. -/
theorem rows_append (event : CaptureEvent) (st : InMemoryEventStore) (sessionId : String) :
    (st.append event).2.rows sessionId =
      if event.eventId ∉ st.seen ∧ event.sessionId = sessionId then
        st.rows sessionId ++ [event] else st.rows sessionId := by
  unfold append
  by_cases hseen : event.eventId ∈ st.seen
  · simp [hseen]
  · rw [if_neg hseen]
    by_cases hsid : event.sessionId = sessionId
    · subst hsid
      simp [rows, hseen]
    · simp [rows, hsid, Dict.get?_set_of_ne _ _ (Ne.symm hsid)]

/-- The events of a session after a deletion. -/
theorem rows_deleteRange (sid sessionId : String) (firstSeq lastSeq : ℤ)
    (st : InMemoryEventStore) : (st.deleteRange sid firstSeq lastSeq).2.rows sessionId =
      if sid = sessionId then
        (st.rows sessionId).filter fun e => ¬ (firstSeq ≤ e.seq ∧ e.seq ≤ lastSeq)
      else st.rows sessionId := by
  unfold deleteRange
  by_cases hnil : st.rows sid = []
  · by_cases hsid : sid = sessionId
    · subst hsid
      simp [hnil]
    · simp [hnil, hsid]
  · simp only [hnil, if_false]
    by_cases hsid : sid = sessionId
    · subst hsid
      simp [rows]
    · simp [rows, hsid, Dict.get?_set_of_ne _ _ (Ne.symm hsid)]

theorem lastEvent_eq_none_iff (st : InMemoryEventStore) (sessionId : String) :
    st.lastEvent sessionId = none ↔ st.rows sessionId = [] := by
  rw [← Option.not_isSome_iff_eq_none, lastEvent, List.isSome_maxOn?_iff, not_not]

theorem lastEvent_mem {st : InMemoryEventStore} {sessionId : String} {e : CaptureEvent}
    (h : st.lastEvent sessionId = some e) : e ∈ st.rows sessionId :=
  List.maxOn?_mem h

/-- No event of the session comes after the last one. -/
theorem le_lastEvent {st : InMemoryEventStore} {sessionId : String} {e last : CaptureEvent}
    (hlast : st.lastEvent sessionId = some last) (h : e ∈ st.rows sessionId) :
    e.seq ≤ last.seq := by
  have hle : e.seq ≤ _ := List.le_apply_get_maxOn?_of_mem (f := CaptureEvent.seq) h
  unfold lastEvent at hlast
  simpa only [hlast, Option.get_some] using hle

/-- Sorting keeps the events of a session. -/
theorem mem_events_iff (st : InMemoryEventStore) (sessionId : String) (e : CaptureEvent) :
    e ∈ st.events sessionId ↔ e ∈ st.rows sessionId :=
  List.mem_insertionSort _

/-- Events that were appended in `seq` order come back as they are. -/
theorem events_eq_rows {st : InMemoryEventStore} {sessionId : String}
    (h : (st.rows sessionId).Pairwise fun a b => a.seq < b.seq) :
    st.events sessionId = st.rows sessionId :=
  (h.imp fun hab => hab.le).insertionSort_eq

/-! ## The event ids -/

/-- The store keeps an event id once: it has seen every id it holds, and no two of its events, of
one session or of two, share one. -/
structure Distinct (st : InMemoryEventStore) : Prop where
  seen : ∀ sid, ∀ e ∈ st.rows sid, e.eventId ∈ st.seen
  nodup : ∀ sid, ((st.rows sid).map CaptureEvent.eventId).Nodup
  across : ∀ sid sid', ∀ e ∈ st.rows sid, ∀ e' ∈ st.rows sid', e.eventId = e'.eventId → sid = sid'

theorem distinct_empty : Distinct {} where
  seen := by simp [rows]
  nodup := by simp [rows]
  across := by simp [rows]

theorem Distinct.append {st : InMemoryEventStore} (h : st.Distinct) (event : CaptureEvent) :
    (st.append event).2.Distinct := by
  by_cases hseen : event.eventId ∈ st.seen
  · have hsame : (st.append event).2 = st := by simp [InMemoryEventStore.append, hseen]
    rwa [hsame]
  · have hrows : ∀ sid, (st.append event).2.rows sid =
        if event.sessionId = sid then st.rows sid ++ [event] else st.rows sid := by
      intro sid
      rw [rows_append]
      simp [hseen]
    have hmem : ∀ sid, ∀ e ∈ (st.append event).2.rows sid,
        e ∈ st.rows sid ∨ e = event ∧ event.sessionId = sid := by
      intro sid e he
      rw [hrows] at he
      split_ifs at he with hsid
      · simpa [hsid] using he
      · exact Or.inl he
    have hseen' : (st.append event).2.seen = insert event.eventId st.seen := by
      simp [InMemoryEventStore.append, hseen]
    have hfresh : ∀ sid, ∀ e ∈ st.rows sid, e.eventId ≠ event.eventId :=
      fun sid e he heq => hseen (heq ▸ h.seen sid e he)
    refine ⟨fun sid e he => ?_, fun sid => ?_, fun sid sid' e he e' he' heq => ?_⟩
    · rw [hseen', Finset.mem_insert]
      rcases hmem sid e he with hold | ⟨rfl, -⟩
      · exact Or.inr (h.seen sid e hold)
      · exact Or.inl rfl
    · rw [hrows]
      split_ifs
      · refine nodup_map_concat (h.nodup sid) fun hmem => ?_
        obtain ⟨e, he, heq⟩ := List.mem_map.mp hmem
        exact hfresh sid e he heq
      · exact h.nodup sid
    · rcases hmem sid e he with hold | ⟨rfl, hsid⟩
      · rcases hmem sid' e' he' with hold' | ⟨rfl, hsid'⟩
        · exact h.across sid sid' e hold e' hold' heq
        · exact absurd heq (hfresh sid e hold)
      · rcases hmem sid' e' he' with hold' | ⟨rfl, hsid'⟩
        · exact absurd heq.symm (hfresh sid' e' hold')
        · exact hsid.symm.trans hsid'

theorem Distinct.deleteRange {st : InMemoryEventStore} (h : st.Distinct) (sessionId : String)
    (firstSeq lastSeq : ℤ) : (st.deleteRange sessionId firstSeq lastSeq).2.Distinct := by
  have hsub : ∀ sid, ((st.deleteRange sessionId firstSeq lastSeq).2.rows sid).Sublist
      (st.rows sid) := by
    intro sid
    rw [rows_deleteRange]
    split_ifs
    · exact List.filter_sublist
    · exact List.Sublist.refl _
  refine ⟨fun sid e he => ?_, fun sid => (h.nodup sid).sublist ((hsub sid).map _),
    fun sid sid' e he e' he' heq =>
      h.across sid sid' e ((hsub sid).subset he) e' ((hsub sid').subset he') heq⟩
  have hold := h.seen sid e ((hsub sid).subset he)
  by_cases hnil : st.rows sessionId = []
  · simpa [InMemoryEventStore.deleteRange, hnil] using hold
  · -- an event that was deleted has another id, as no event of its session shares its id
    have hseen : (st.deleteRange sessionId firstSeq lastSeq).2.seen =
        st.seen \ (((st.rows sessionId).filter fun e =>
          firstSeq ≤ e.seq ∧ e.seq ≤ lastSeq).map CaptureEvent.eventId).toFinset := by
      simp [InMemoryEventStore.deleteRange, hnil]
    rw [hseen, Finset.mem_sdiff, List.mem_toFinset]
    refine ⟨hold, fun hdoomed => ?_⟩
    obtain ⟨d, hd, heq⟩ := List.mem_map.mp hdoomed
    obtain ⟨hdrow, hdrange⟩ := List.mem_filter.mp hd
    obtain rfl := h.across sessionId sid d hdrow e ((hsub sid).subset he) heq
    obtain rfl := List.inj_on_of_nodup_map (h.nodup sessionId) hdrow ((hsub _).subset he) heq
    rw [rows_deleteRange, if_pos rfl, List.mem_filter] at he
    simp_all

end InMemoryEventStore

end OpenRecall.Model
