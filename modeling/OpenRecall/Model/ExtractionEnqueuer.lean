import OpenRecall.Foundation.BoundedQueue

/-!
# The extraction enqueuer

The gateway enqueues a session for extraction after each transcript it stores, and once more, to
finalize it, when the session ends; the worker takes the requests off one by one. All calls on the
queue run on the event loop's thread, in the order in which they were scheduled.
-/

set_option autoImplicit false

namespace OpenRecall.Model

open Foundation

/-- A request to extract a session, and whether its trailing window is extracted too. -/
abbrev ExtractionRequest := String × Bool

/-- The queue, and how often it overflowed.
SOURCE: memory/extraction_worker.py:102-121 -/
structure ExtractionEnqueuer where
  queue : BoundedQueue ExtractionRequest
  overflows : ℕ := 0

namespace ExtractionEnqueuer

/-- An enqueuer, unless the capacity is refused.
SOURCE: memory/extraction_worker.py:102-121 -/
def new (capacity : ℤ) : Option ExtractionEnqueuer :=
  if capacity ≤ 0 then none else some { queue := .empty capacity }

/-- Put a request; a full queue drops it and counts it.
SOURCE: memory/extraction_worker.py:203-223 -/
def enqueueOnLoop (request : ExtractionRequest) (e : ExtractionEnqueuer) : ExtractionEnqueuer :=
  match e.queue.putNowait request with
  | some queue => { e with queue := queue }
  | none => { e with overflows := e.overflows + 1 }

/-- Enqueue a session for a live pass.
SOURCE: memory/extraction_worker.py:164-179 -/
def enqueue (sessionId : String) : ExtractionEnqueuer → ExtractionEnqueuer :=
  enqueueOnLoop (sessionId, false)

/-- Enqueue a session for its last pass.
SOURCE: memory/extraction_worker.py:181-187 -/
def enqueueFinalize (sessionId : String) : ExtractionEnqueuer → ExtractionEnqueuer :=
  enqueueOnLoop (sessionId, true)

/-- Take a request; on an empty queue the caller waits, and nothing happens.
SOURCE: memory/extraction_worker.py:232-233 -/
def get (e : ExtractionEnqueuer) : Option ExtractionRequest × ExtractionEnqueuer :=
  match e.queue.getNowait with
  | some (request, queue) => (some request, { e with queue := queue })
  | none => (none, e)

/-- The sessions that are pending, as often as they are queued. -/
def pending (e : ExtractionEnqueuer) : List String := e.queue.items.map Prod.fst

end ExtractionEnqueuer

end OpenRecall.Model
