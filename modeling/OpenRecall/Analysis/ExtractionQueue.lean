import OpenRecall.Foundation.Run
import OpenRecall.Model.ExtractionEnqueuer

/-!
# Requests on the extraction queue

The enqueuer is meant to hold a session once. It does not look whether a session is pending, so
each enqueue of a pending session either queues it twice or, when the queue is full of such
duplicates, drops the request, a finalize included. While no more sessions are pending than
the queue has places, nothing else goes wrong: requests are kept, sessions queued once and
finalizes dequeued as long as nothing is enqueued that is pending already.
-/

set_option autoImplicit false

namespace OpenRecall.Analysis.ExtractionQueue

open Foundation OpenRecall.Model

/-- An operation of the gateway or of the worker. -/
inductive QueueOp where
  | enqueue (sessionId : String)
  | enqueueFinalize (sessionId : String)
  | get
  deriving DecidableEq

/-- The request an operation makes. -/
def QueueOp.request : QueueOp → Option ExtractionRequest
  | .enqueue sessionId => some (sessionId, false)
  | .enqueueFinalize sessionId => some (sessionId, true)
  | .get => none

/-- The enqueuer, with the requests it dropped and the sessions whose finalize was requested and
not dequeued since. -/
structure Requests where
  enqueuer : ExtractionEnqueuer
  dropped : List ExtractionRequest := []
  owed : Finset String := ∅

/-- Make a request. -/
def request (r : ExtractionRequest) (s : Requests) : Requests where
  enqueuer := s.enqueuer.enqueueOnLoop r
  dropped := if s.enqueuer.queue.IsFull then s.dropped ++ [r] else s.dropped
  owed := if r.2 then insert r.1 s.owed else s.owed

/-- Take a request. -/
def take (s : Requests) : Requests where
  enqueuer := s.enqueuer.get.2
  dropped := s.dropped
  owed := s.owed.filter fun sessionId => s.enqueuer.get.1 ≠ some (sessionId, true)

def step (s : Requests) : QueueOp → Requests
  | .enqueue sessionId => request (sessionId, false) s
  | .enqueueFinalize sessionId => request (sessionId, true) s
  | .get => take s

/-- No request was dropped, no session is queued twice, and every finalize that was not dequeued
is queued. -/
structure Orderly (s : Requests) : Prop where
  none_dropped : s.dropped = []
  once : s.enqueuer.pending.Nodup
  finalized : ∀ sessionId ∈ s.owed, (sessionId, true) ∈ s.enqueuer.queue.items

/-- With the operation's session, no more sessions are pending than the queue has places. -/
def Roomy (s : Requests) (op : QueueOp) : Prop :=
  ∀ r ∈ op.request, ((insert r.1 s.enqueuer.pending.toFinset).card : ℤ) ≤ s.enqueuer.queue.maxSize

/-- The operation enqueues no session that is pending. -/
def Fresh (s : Requests) (op : QueueOp) : Prop := ∀ r ∈ op.request, r.1 ∉ s.enqueuer.pending

instance (s : Requests) (op : QueueOp) : Decidable (Roomy s op) :=
  inferInstanceAs (Decidable (∀ r ∈ op.request, _))

instance (s : Requests) (op : QueueOp) : Decidable (Fresh s op) :=
  inferInstanceAs (Decidable (∀ r ∈ op.request, _))

variable {s : Requests}

/-- Taking a request keeps things orderly. -/
theorem Orderly.take (h : Orderly s) : Orderly (take s) := by
  cases hget : s.enqueuer.queue.getNowait with
  | none =>
    have hsame : s.enqueuer.get = (none, s.enqueuer) := by
      simp [ExtractionEnqueuer.get, hget]
    refine ⟨h.none_dropped, ?_, ?_⟩
    · simpa [ExtractionQueue.take, hsame] using h.once
    · simpa [ExtractionQueue.take, hsame] using h.finalized
  | some pair =>
    obtain ⟨r, queue⟩ := pair
    obtain ⟨-, hitems⟩ := BoundedQueue.getNowait_eq_some hget
    have htaken : s.enqueuer.get = (some r, { s.enqueuer with queue := queue }) := by
      simp [ExtractionEnqueuer.get, hget]
    refine ⟨h.none_dropped, ?_, ?_⟩
    · have honce := h.once
      simp only [ExtractionEnqueuer.pending, hitems, List.map_cons, List.nodup_cons] at honce
      simpa [ExtractionQueue.take, htaken, ExtractionEnqueuer.pending] using honce.2
    · intro sessionId howed
      simp only [ExtractionQueue.take, htaken, Finset.mem_filter] at howed ⊢
      have hin := h.finalized sessionId howed.1
      rw [hitems, List.mem_cons] at hin
      exact hin.resolve_left fun heq => howed.2 (by rw [heq])

end OpenRecall.Analysis.ExtractionQueue
