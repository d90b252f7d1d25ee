import OpenRecall.Foundation.Run
import OpenRecall.Model.SessionIndex

/-!
# The session index with its counters

Beside the summaries the index counts events, and keeps when the recent ones were created. Counting
those of the last day forgets the older ones. The index lives in memory: a restart replays the
stored events into a new one, which knows of no session that it was closed.
-/

set_option autoImplicit false

namespace OpenRecall.Model

open Foundation

/-- SOURCE: sessions/index.py:126-133 -/
structure SessionActivity where
  index : SessionIndex := {}
  eventCount : ℕ := 0
  recentTimestamps : List Time := []

namespace SessionActivity

/-- SOURCE: sessions/index.py:308 -/
def oneDay : Time := 86400000000

/-- SOURCE: sessions/index.py:137-169 -/
def record (e : CaptureEvent) (a : SessionActivity) : SessionActivity where
  index := a.index.record e
  eventCount := a.eventCount + 1
  recentTimestamps := a.recentTimestamps ++ [e.createdAt]

/-- SOURCE: sessions/index.py:171-183 -/
def markClosed (sessionId : String) (at_ : Time) (a : SessionActivity) : SessionActivity :=
  { a with index := a.index.markClosed sessionId at_ }

/-- The events that are replayed, session by session.
SOURCE: sessions/index.py:213-216 -/
def replayed (st : InMemoryEventStore) : List CaptureEvent :=
  (st.sessions.insertionSort (· ≤ ·)).flatMap fun sessionId => st.events sessionId

/-- SOURCE: sessions/index.py:185-226 -/
def rebuildFromStore (st : InMemoryEventStore) : SessionActivity :=
  (replayed st).foldl (fun a e => a.record e) {}

/-- How many events are newer than a day, and the index that has forgotten the others.
SOURCE: sessions/index.py:238-259 -/
def recentEvents24h (now : Time) (a : SessionActivity) : ℕ × SessionActivity :=
  let kept := a.recentTimestamps.filter fun t => now - oneDay < t
  (kept.length, { a with recentTimestamps := kept })

end SessionActivity

/-! ## The index beside the store -/

/-- The event store, the index over it, and when the recent events were counted last. -/
structure SummaryWorld where
  store : InMemoryEventStore := {}
  activity : SessionActivity := {}
  countedAt : Time

/-- An event is given to the store, a session ends, the recent events are counted, or the server is
started anew. -/
inductive SummaryStep where
  | emit (event : CaptureEvent)
  | close (sessionId : String) (at_ : Time)
  | count (now : Time)
  | restart

namespace SummaryWorld

/-- The store takes an event once, and the index is told of what it takes.
SOURCE: gateway/core.py:602-604, gateway/core.py:645-647 -/
def emit (e : CaptureEvent) (w : SummaryWorld) : SummaryWorld :=
  let appended := w.store.append e
  { w with
    store := appended.2
    activity := if appended.1 then w.activity.record e else w.activity }

def step (w : SummaryWorld) : SummaryStep → SummaryWorld
  | .emit e => w.emit e
  | .close sessionId at_ => { w with activity := w.activity.markClosed sessionId at_ }
  | .count now => { w with activity := (w.activity.recentEvents24h now).2, countedAt := now }
  | .restart => { w with activity := .rebuildFromStore w.store }

end SummaryWorld

end OpenRecall.Model
