import OpenRecall.Model.EventStore

/-!
# Segments

A segment is a run of a session's events without a long silence and without exceeding a length:
what the app shows as a recording. The index folds each stored event into the open segment of its
session, or opens a new one under the id of the event; segments are also closed by the idle sweep
and when the session ends. The wall clock decides about silence, the audio timeline about length.
-/

set_option autoImplicit false

namespace OpenRecall.Model

open Foundation

/-! ## Previews -/

/-- What `str.strip` takes for whitespace. -/
def isSpace (c : Char) : Bool :=
  c.toNat ∈ [0x09, 0x0a, 0x0b, 0x0c, 0x0d, 0x1c, 0x1d, 0x1e, 0x1f, 0x20, 0x85, 0xa0, 0x1680, 0x2028,
    0x2029, 0x202f, 0x205f, 0x3000] ∨ 0x2000 ≤ c.toNat ∧ c.toNat ≤ 0x200a

def rstripList (cs : List Char) : List Char := (cs.reverse.dropWhile isSpace).reverse

/-- `str.strip`. -/
def strip (text : String) : String := String.ofList (rstripList (text.toList.dropWhile isSpace))

/-- SOURCE: sessions/segments.py:63, sessions/index.py:39 -/
def previewMaxChars : ℕ := 80

/-- SOURCE: sessions/segments.py:70-73, sessions/index.py:94-97 -/
def truncate (text : String) : String :=
  if text.length ≤ previewMaxChars then text
  else String.ofList (rstripList (text.toList.take previewMaxChars)) ++ "…"

/-- The preview of a text that is not blank.
SOURCE: sessions/segments.py:169-172, sessions/index.py:100-105 -/
def previewOf (text : String) : Option String :=
  if strip text = "" then none else some (truncate (strip text))

/-! ## Segments -/

/-- SOURCE: sessions/segments.py:76-98 -/
structure SessionSegment where
  id : String
  sessionId : String
  startedAt : Time
  endedAt : Time
  firstSeq : ℤ
  lastSeq : ℤ
  transcriptCount : ℕ := 0
  preview : Option String := none
  startMs : ℤ
  endMs : ℤ
  closed : Bool := false
  deriving DecidableEq

/-- SOURCE: sessions/segments.py:153 -/
def segmentId (sessionId : String) (seq : ℤ) : String := sessionId ++ ":" ++ toString seq

namespace SessionSegment

/-- A segment that begins at an event and does not have it yet.
SOURCE: sessions/segments.py:152-161 -/
def beginAt (e : CaptureEvent) : SessionSegment where
  id := segmentId e.sessionId e.seq
  sessionId := e.sessionId
  startedAt := e.createdAt
  endedAt := e.createdAt
  firstSeq := e.seq
  lastSeq := e.seq
  startMs := e.startMs
  endMs := e.startMs

/-- The segment with one more event.
SOURCE: sessions/segments.py:164-172 -/
def extend (s : SessionSegment) (e : CaptureEvent) : SessionSegment :=
  { s with
    lastSeq := max s.lastSeq e.seq
    endedAt := max s.endedAt e.createdAt
    endMs := max s.endMs (e.startMs + e.durationMs)
    transcriptCount := s.transcriptCount + if e.kind = .transcript then 1 else 0
    preview := if e.kind = .transcript ∧ s.preview = none then previewOf e.text else s.preview }

/-- The segment of one event. -/
def ofEvent (e : CaptureEvent) : SessionSegment := (beginAt e).extend e

def close (s : SessionSegment) : SessionSegment := { s with closed := true }

/-- SOURCE: sessions/segments.py:100-101 -/
def durationMs (s : SessionSegment) : ℤ := max 0 (s.endMs - s.startMs)

@[simp] theorem extend_id (s : SessionSegment) (e : CaptureEvent) : (s.extend e).id = s.id := rfl
@[simp] theorem extend_sessionId (s : SessionSegment) (e : CaptureEvent) :
    (s.extend e).sessionId = s.sessionId := rfl
@[simp] theorem extend_firstSeq (s : SessionSegment) (e : CaptureEvent) :
    (s.extend e).firstSeq = s.firstSeq := rfl
@[simp] theorem extend_closed (s : SessionSegment) (e : CaptureEvent) :
    (s.extend e).closed = s.closed := rfl
@[simp] theorem close_id (s : SessionSegment) : s.close.id = s.id := rfl
@[simp] theorem close_sessionId (s : SessionSegment) : s.close.sessionId = s.sessionId := rfl
@[simp] theorem close_firstSeq (s : SessionSegment) : s.close.firstSeq = s.firstSeq := rfl
@[simp] theorem close_lastSeq (s : SessionSegment) : s.close.lastSeq = s.lastSeq := rfl
@[simp] theorem close_closed (s : SessionSegment) : s.close.closed = true := rfl
@[simp] theorem ofEvent_id (e : CaptureEvent) : (ofEvent e).id = segmentId e.sessionId e.seq := rfl
@[simp] theorem ofEvent_sessionId (e : CaptureEvent) : (ofEvent e).sessionId = e.sessionId := rfl
@[simp] theorem ofEvent_firstSeq (e : CaptureEvent) : (ofEvent e).firstSeq = e.seq := rfl
@[simp] theorem ofEvent_closed (e : CaptureEvent) : (ofEvent e).closed = false := rfl

/-- A segment of one event ends with it. -/
@[simp] theorem ofEvent_lastSeq (e : CaptureEvent) : (ofEvent e).lastSeq = e.seq :=
  max_self e.seq

end SessionSegment

/-! ## The index -/

/-- The segments by id, the open one of each session, and the two thresholds.
SOURCE: sessions/segments.py:58-61, sessions/segments.py:116-129 -/
structure SegmentIndex where
  segments : Dict String SessionSegment := .empty
  openIds : Dict String String := .empty
  idleMs : ℤ := 300000
  maxMs : ℤ := 3600000

namespace SegmentIndex

/-- Whether an event belongs to a new segment.
SOURCE: sessions/segments.py:175-186 -/
def shouldClose (idleMs maxMs : ℤ) (s : SessionSegment) (e : CaptureEvent) : Bool :=
  e.createdAt - s.endedAt ≥ idleMs * 1000 ∨ e.startMs + e.durationMs - s.startMs ≥ maxMs

/-- The open segment of a session.
SOURCE: sessions/segments.py:145-146 -/
def current (sessionId : String) (idx : SegmentIndex) : Option SessionSegment :=
  (idx.openIds.get? sessionId).bind idx.segments.get?

/-- Put a segment under its id. -/
def put (s : SessionSegment) (idx : SegmentIndex) : SegmentIndex :=
  { idx with segments := idx.segments.set s.id s }

/-- A session has no open segment. -/
def dropOpen (sessionId : String) (idx : SegmentIndex) : SegmentIndex :=
  { idx with openIds := idx.openIds.erase sessionId }

/-- A new segment for an event, which is the open one.
SOURCE: sessions/segments.py:151-172 -/
def beginWith (e : CaptureEvent) (idx : SegmentIndex) : SessionSegment × SegmentIndex :=
  (SessionSegment.ofEvent e,
    { idx.put (SessionSegment.ofEvent e) with
      openIds := idx.openIds.set e.sessionId (SessionSegment.ofEvent e).id })

/-- Fold a stored event into its segment, which is returned.
SOURCE: sessions/segments.py:144-173 -/
def record (e : CaptureEvent) (idx : SegmentIndex) : SessionSegment × SegmentIndex :=
  match idx.current e.sessionId with
  | none => idx.beginWith e
  | some s =>
    if shouldClose idx.idleMs idx.maxMs s e then
      ((idx.put s.close).dropOpen e.sessionId).beginWith e
    else (s.extend e, idx.put (s.extend e))

/-- One session of the idle sweep: its open segment is closed if it ended before the cutoff.
SOURCE: sessions/segments.py:199-207 -/
def sweepOne (cutoff : Time) (acc : List SessionSegment × SegmentIndex) (entry : String × String) :
    List SessionSegment × SegmentIndex :=
  match acc.2.segments.get? entry.2 with
  | none => (acc.1, acc.2.dropOpen entry.1)
  | some s =>
    if s.endedAt ≤ cutoff then (acc.1 ++ [s.close], (acc.2.put s.close).dropOpen entry.1)
    else acc

/-- Close the segments whose last event is older than the idle threshold; they are returned.
SOURCE: sessions/segments.py:188-210 -/
def closeIdle (now : Time) (idx : SegmentIndex) : List SessionSegment × SegmentIndex :=
  idx.openIds.entries.foldl (sweepOne (now - idx.idleMs * 1000)) ([], idx)

/-- Close the open segment of a session that ends.
SOURCE: sessions/segments.py:212-227 -/
def closeSession (sessionId : String) (idx : SegmentIndex) : Option SessionSegment × SegmentIndex :=
  match idx.openIds.get? sessionId with
  | none => (none, idx)
  | some id =>
    match idx.segments.get? id with
    | none => (none, idx.dropOpen sessionId)
    | some s => (some s.close, (idx.put s.close).dropOpen sessionId)

/-- Drop a segment, and the mark that it is the open one; the first component says whether there
was one.
SOURCE: sessions/segments.py:229-237 -/
def delete (id : String) (idx : SegmentIndex) : Bool × SegmentIndex :=
  match idx.segments.get? id with
  | none => (false, idx)
  | some s =>
    let idx := { idx with segments := idx.segments.erase id }
    (true, if idx.openIds.get? s.sessionId = some id then idx.dropOpen s.sessionId else idx)

/-- Replay the events of every session of a store.
SOURCE: sessions/segments.py:239-264 -/
def rebuildFromStore (st : InMemoryEventStore) (idx : SegmentIndex) : SegmentIndex :=
  (st.sessions.insertionSort (· ≤ ·)).foldl
    (fun idx sessionId => (st.events sessionId).foldl (fun idx e => (idx.record e).2) idx)
    { idx with segments := .empty, openIds := .empty }

/-- The segments of a session by their first event.
SOURCE: sessions/segments.py:279-284 -/
def forSession (sessionId : String) (idx : SegmentIndex) : List SessionSegment :=
  (idx.segments.values.filter fun s => s.sessionId = sessionId).insertionSort
    fun a b => a.firstSeq ≤ b.firstSeq

/-- The segment that has an event.
SOURCE: sessions/segments.py:286-296 -/
def segmentForEvent (sessionId : String) (seq : ℤ) (idx : SegmentIndex) : Option SessionSegment :=
  idx.segments.values.find? fun s =>
    s.sessionId = sessionId ∧ s.firstSeq ≤ seq ∧ seq ≤ s.lastSeq

/-- The segments after a deletion. -/
theorem get?_delete (id id' : String) (idx : SegmentIndex) :
    (idx.delete id).2.segments.get? id' = if id' = id then none else idx.segments.get? id' := by
  unfold delete
  cases hget : idx.segments.get? id with
  | none =>
    split_ifs with heq
    · rw [heq]
      exact hget
    · rfl
  | some s =>
    dsimp only
    split_ifs <;> simp [dropOpen, Dict.get?_erase, *]

end SegmentIndex

end OpenRecall.Model
