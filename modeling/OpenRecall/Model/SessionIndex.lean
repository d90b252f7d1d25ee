import OpenRecall.Model.Segments

/-!
# The session index

What is known of each session: when its first event was, when it was closed, how many events and
transcripts it has and a preview. The index is derived from the event store, event by event, and a
closed session that gets an event is open again.
-/

set_option autoImplicit false

namespace OpenRecall.Model

open Foundation

/-- SOURCE: sessions/index.py:47-66 -/
structure SessionSummary where
  id : String
  startedAt : Time
  endedAt : Option Time := none
  eventCount : ℕ
  transcriptCount : ℕ
  preview : Option String
  closed : Bool := false
  deriving DecidableEq

namespace SessionSummary

/-- The first close counts.
SOURCE: sessions/index.py:68-77 -/
def markClosed (at_ : Time) (s : SessionSummary) : SessionSummary :=
  if s.closed then s else { s with closed := true, endedAt := some at_ }

/-- SOURCE: sessions/index.py:79-84 -/
def reopen (s : SessionSummary) : SessionSummary :=
  if s.closed then { s with closed := false, endedAt := none } else s

/-- The summary of a session with one event.
SOURCE: sessions/index.py:155-163 -/
def ofEvent (e : CaptureEvent) : SessionSummary where
  id := e.sessionId
  startedAt := e.createdAt
  eventCount := 1
  transcriptCount := if e.kind = .transcript then 1 else 0
  preview := if e.kind = .transcript then previewOf e.text else none

/-- The summary with one more event.
SOURCE: sessions/index.py:158-169 -/
def extend (s : SessionSummary) (e : CaptureEvent) : SessionSummary :=
  { s.reopen with
    eventCount := s.eventCount + 1
    transcriptCount := s.transcriptCount + if e.kind = .transcript then 1 else 0
    preview := if e.kind = .transcript ∧ s.preview = none then previewOf e.text else s.preview }

@[simp] theorem markClosed_id (at_ : Time) (s : SessionSummary) : (s.markClosed at_).id = s.id := by
  unfold markClosed
  split_ifs <;> simp

@[simp] theorem markClosed_startedAt (at_ : Time) (s : SessionSummary) :
    (s.markClosed at_).startedAt = s.startedAt := by
  unfold markClosed
  split_ifs <;> simp

@[simp] theorem extend_id (s : SessionSummary) (e : CaptureEvent) : (s.extend e).id = s.id := by
  unfold extend reopen
  split_ifs <;> simp

@[simp] theorem extend_startedAt (s : SessionSummary) (e : CaptureEvent) :
    (s.extend e).startedAt = s.startedAt := by
  unfold extend reopen
  split_ifs <;> simp

@[simp] theorem ofEvent_id (e : CaptureEvent) : (ofEvent e).id = e.sessionId := rfl

@[simp] theorem ofEvent_startedAt (e : CaptureEvent) : (ofEvent e).startedAt = e.createdAt := rfl

end SessionSummary

/-- The summaries by session. -/
structure SessionIndex where
  summaries : Dict String SessionSummary := .empty

namespace SessionIndex

/-- SOURCE: sessions/index.py:230-232 -/
def summary (sessionId : String) (idx : SessionIndex) : Option SessionSummary :=
  idx.summaries.get? sessionId

/-- Put a summary under a session. -/
def put (sessionId : String) (s : SessionSummary) (idx : SessionIndex) : SessionIndex :=
  ⟨idx.summaries.set sessionId s⟩

/-- Fold a stored event into the summary of its session.
SOURCE: sessions/index.py:137-169 -/
def record (e : CaptureEvent) (idx : SessionIndex) : SessionIndex :=
  match idx.summary e.sessionId with
  | none => idx.put e.sessionId (.ofEvent e)
  | some s => idx.put e.sessionId (s.extend e)

/-- SOURCE: sessions/index.py:171-183 -/
def markClosed (sessionId : String) (at_ : Time) (idx : SessionIndex) : SessionIndex :=
  match idx.summary sessionId with
  | none => idx
  | some s => idx.put sessionId (s.markClosed at_)

/-- Replay the events of every session of a store.
SOURCE: sessions/index.py:185-226 -/
def rebuildFromStore (st : InMemoryEventStore) : SessionIndex :=
  (st.sessions.insertionSort (· ≤ ·)).foldl
    (fun idx sessionId => (st.events sessionId).foldl (fun idx e => idx.record e) idx) {}

/-- Every summary is under its own id. -/
def Keyed (idx : SessionIndex) : Prop :=
  ∀ sessionId s, idx.summary sessionId = some s → s.id = sessionId

theorem Keyed.put {idx : SessionIndex} (h : idx.Keyed) {sessionId : String} {s : SessionSummary}
    (hs : s.id = sessionId) : (idx.put sessionId s).Keyed := by
  intro other s' hs'
  rw [summary, SessionIndex.put, Dict.get?_set] at hs'
  split_ifs at hs' with heq
  · obtain rfl := Option.some.inj hs'
    rw [hs, heq]
  · exact h other s' hs'

/-- SOURCE: sessions/index.py:137-169 -/
theorem Keyed.record {idx : SessionIndex} (h : idx.Keyed) (e : CaptureEvent) :
    (idx.record e).Keyed := by
  unfold SessionIndex.record
  cases hs : idx.summary e.sessionId with
  | none => exact h.put (SessionSummary.ofEvent_id e)
  | some s => exact h.put (by rw [SessionSummary.extend_id, h _ s hs])

/-- SOURCE: sessions/index.py:171-183 -/
theorem Keyed.markClosed {idx : SessionIndex} (h : idx.Keyed) (sessionId : String) (at_ : Time) :
    (idx.markClosed sessionId at_).Keyed := by
  unfold SessionIndex.markClosed
  cases hs : idx.summary sessionId with
  | none => exact h
  | some s => exact h.put (by rw [SessionSummary.markClosed_id, h _ s hs])

end SessionIndex

end OpenRecall.Model
