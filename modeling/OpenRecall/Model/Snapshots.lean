import OpenRecall.Model.SessionIndex
import OpenRecall.Model.DirectWriters

/-!
# Placing a snapshot in time

A snapshot carries the device's own clock. To give it a wall-clock time, the server keeps the range
of device timestamps of each session's packets, and adds the distance from the first of them to
the start of the session.
-/

set_option autoImplicit false

namespace OpenRecall.Model

open Foundation

/-- The least and the greatest device timestamp of each session.
SOURCE: sessions/timeline.py:22-25 -/
structure SessionTimelineIndex where
  ranges : Dict String (ℤ × ℤ) := .empty

namespace SessionTimelineIndex

/-- SOURCE: sessions/timeline.py:27-30 -/
def record (sessionId : String) (relTsMs : ℤ) (tl : SessionTimelineIndex) :
    SessionTimelineIndex :=
  let (lo, hi) := (tl.ranges.get? sessionId).getD (relTsMs, relTsMs)
  ⟨tl.ranges.set sessionId (min lo relTsMs, max hi relTsMs)⟩

/-- SOURCE: sessions/timeline.py:32-34 -/
def relRange (sessionId : String) (tl : SessionTimelineIndex) : Option (ℤ × ℤ) :=
  tl.ranges.get? sessionId

/-- The best session so far and its least timestamp, after one more session.
SOURCE: sessions/timeline.py:45-47 -/
def closest (relTsMs : ℤ) (best : Option String × ℤ) (e : String × ℤ × ℤ) :
    Option String × ℤ :=
  if e.2.1 ≤ relTsMs ∧ relTsMs ≤ e.2.2 ∧ best.2 < e.2.1 then (some e.1, e.2.1) else best

/-- The session whose range contains the timestamp, the one that began last if there are several.
SOURCE: sessions/timeline.py:36-48 -/
def sessionForRelTs (relTsMs : ℤ) (tl : SessionTimelineIndex) : Option String :=
  (tl.ranges.entries.foldl (closest relTsMs) (none, -1)).1

end SessionTimelineIndex

/-- An uploaded snapshot; a device timestamp that is no int is read as none.
SOURCE: http/routes/media.py:27-34, 48-54 -/
structure SnapshotUpload where
  image : Bytes
  relTsMs : Option ℤ
  sessionId : Option String
  mediaType : String := "image/jpeg"

/-- What the upload route reads of the sessions. -/
structure SessionClocks where
  timeline : SessionTimelineIndex := {}
  index : SessionIndex := {}

namespace SnapshotUpload

/-- The session an upload is attributed to.
SOURCE: http/routes/media.py:62-65 -/
def session (clocks : SessionClocks) (u : SnapshotUpload) : Option String :=
  match u.sessionId with
  | some sessionId => some sessionId
  | none => u.relTsMs.bind fun relTsMs => clocks.timeline.sessionForRelTs relTsMs

/-- When an upload was taken. The route adds seconds in doubles, whose error is below the
microsecond it rounds to.
SOURCE: http/routes/media.py:63, 66-73 -/
def occurredAt (clocks : SessionClocks) (now : Time) (u : SnapshotUpload) : Time :=
  match u.session clocks, u.relTsMs with
  | some sessionId, some relTsMs =>
    match clocks.timeline.relRange sessionId, clocks.index.summary sessionId with
    | some rng, some summary => summary.startedAt + (relTsMs - rng.1) * 1000
    | _, _ => now
  | _, _ => now

/-- What the route asks of the vision pipeline.
SOURCE: http/routes/media.py:75-79 -/
def toCapture (clocks : SessionClocks) (now : Time) (u : SnapshotUpload) : Capture where
  sessionId := u.session clocks
  image := u.image
  capturedAtMs := u.relTsMs.getD 0
  mediaType := u.mediaType
  occurredAt := some (u.occurredAt clocks now)

end SnapshotUpload

/-! ## What feeds the two clocks -/

/-- What happens to a session: a packet is persisted, an event is stored, or it is closed. -/
inductive SessionStep where
  | packet (sessionId : String) (relTsMs : ℕ)
  | event (e : CaptureEvent)
  | closed (sessionId : String) (at_ : Time)

/-- SOURCE: ingest/pipeline.py:296-300, gateway/core.py:646-647, sessions/index.py:171-183 -/
def SessionClocks.step (clocks : SessionClocks) : SessionStep → SessionClocks
  | .packet sessionId relTsMs =>
    { clocks with timeline := clocks.timeline.record sessionId relTsMs }
  | .event e => { clocks with index := clocks.index.record e }
  | .closed sessionId at_ => { clocks with index := clocks.index.markClosed sessionId at_ }

/-- The clocks after a run from the start of the server. -/
def clocksAfter (steps : List SessionStep) : SessionClocks := run SessionClocks.step {} steps

end OpenRecall.Model
