import OpenRecall.Foundation.BoundedQueue
import OpenRecall.Model.AudioPacket

/-!
# The inference worker

The socket's receive loop enqueues frames, text and binary, on a bounded queue, and one worker
thread takes them off and handles them. The two threads meet in the queue only, and each of its
operations is atomic; `InferenceStep` is one of them, so that a run is an interleaving of the two.
The lists at the end of the state keep what became of every frame; no step reads them.

The failure log of the worker, which decides nothing, is left out.
-/

set_option autoImplicit false

namespace OpenRecall.Model

open Foundation

/-- A message of the socket: a control message, or an audio packet. -/
inductive Frame where
  | text (s : String)
  | binary (bytes : Bytes)
  deriving DecidableEq

/-- What handling a frame comes to: replies, a violation of the protocol, or any other
exception. -/
inductive Handling where
  | replies (messages : List String)
  | gatewayError (message : String)
  | exception
  deriving DecidableEq

/-- Where an `enqueue` is: not called, after a put that found the queue full (with what it held),
before the second put, or raising because that one failed too.
SOURCE: gateway/inference_worker.py:151-183 -/
inductive EnqueueAt where
  | idle
  | full (message : Frame) (found : List Frame)
  | retry (message : Frame)
  | raised (message : Frame)
  deriving DecidableEq

/-- The frame in an `enqueue`'s hands. -/
def EnqueueAt.held : EnqueueAt → List Frame
  | .idle => []
  | .full message _ | .retry message | .raised message => [message]

/-- Where the worker thread is: at the top of its loop, at the `get`, with a frame, or gone.
SOURCE: gateway/inference_worker.py:185-205 -/
inductive WorkerAt where
  | top
  | getting
  | holding (message : Frame)
  | exited
  deriving DecidableEq

/-- The frame in the worker's hands. -/
def WorkerAt.held : WorkerAt → List Frame
  | .holding message => [message]
  | .top | .getting | .exited => []

/-- A frame that was dropped, and what the queue held when the put found it full. -/
structure Eviction where
  dropped : Frame
  found : List Frame
  deriving DecidableEq

/-- The worker and its queue, with what it posted to the event loop.
SOURCE: gateway/inference_worker.py:116-145 -/
structure InferenceWorker (σ : Type) where
  queue : BoundedQueue Frame
  core : σ
  enqueueAt : EnqueueAt := .idle
  workerAt : WorkerAt := .top
  stopped : Bool := false
  posted : List (Except String (List String)) := []
  enqueued : List Frame := []
  handled : List Frame := []
  evictions : List Eviction := []
  discarded : List Frame := []

namespace InferenceWorker

variable {σ : Type}

/-- A worker that has just been made. -/
def fresh (core : σ) (maxQueue : ℤ) : InferenceWorker σ where
  queue := .empty maxQueue
  core := core

/-- Call `enqueue`, up to its first put. The receive loop makes one call at a time.
SOURCE: gateway/inference_worker.py:151-171 -/
def enqueue (message : Frame) (w : InferenceWorker σ) : InferenceWorker σ :=
  match w.enqueueAt with
  | .full _ _ | .retry _ | .raised _ => w
  | .idle =>
    let w := { w with enqueued := w.enqueued ++ [message] }
    match w.queue.putNowait message with
    | some queue => { w with queue := queue }
    | none => { w with enqueueAt := .full message w.queue.items }

/-- The next queue operation of an `enqueue` that found the queue full.
SOURCE: gateway/inference_worker.py:172-183 -/
def enqueueNext (w : InferenceWorker σ) : InferenceWorker σ :=
  match w.enqueueAt with
  | .idle | .raised _ => w
  | .full message found =>
    match w.queue.getNowait with
    | some (dropped, queue) =>
      { w with
        queue := queue
        enqueueAt := .retry message
        evictions := w.evictions ++ [⟨dropped, found⟩] }
    | none => { w with enqueueAt := .retry message }
  | .retry message =>
    match w.queue.putNowait message with
    | some queue => { w with queue := queue, enqueueAt := .idle }
    | none => { w with enqueueAt := .raised message }

/-- Hand a frame to the core, and post what comes of it.
SOURCE: gateway/inference_worker.py:194-205 -/
def handleFrame (handle : σ → Frame → σ × Handling) (message : Frame) (w : InferenceWorker σ) :
    InferenceWorker σ :=
  { w with
    core := (handle w.core message).1
    workerAt := .top
    posted := match (handle w.core message).2 with
      | .replies messages => w.posted ++ [.ok messages]
      | .gatewayError error => w.posted ++ [.error error]
      | .exception => w.posted
    handled := w.handled ++ [message] }

/-- One step of the worker's loop. A `get` that times out goes back to the top.
SOURCE: gateway/inference_worker.py:185-205 -/
def runStep (handle : σ → Frame → σ × Handling) (w : InferenceWorker σ) : InferenceWorker σ :=
  match w.workerAt with
  | .exited => w
  | .top => { w with workerAt := if w.stopped then .exited else .getting }
  | .getting =>
    match w.queue.getNowait with
    | some (message, queue) => { w with queue := queue, workerAt := .holding message }
    | none => { w with workerAt := .top }
  | .holding message =>
    if w.stopped then { w with workerAt := .exited, discarded := w.discarded ++ [message] }
    else w.handleFrame handle message

/-- SOURCE: gateway/inference_worker.py:272-278 -/
def stop (w : InferenceWorker σ) : InferenceWorker σ := { w with stopped := true }

end InferenceWorker

/-- One atomic step of the receive loop's thread or of the worker's. -/
inductive InferenceStep where
  | enqueue (message : Frame)
  | enqueueNext
  | run
  | stop
  deriving DecidableEq

def InferenceWorker.step {σ : Type} (handle : σ → Frame → σ × Handling) (w : InferenceWorker σ) :
    InferenceStep → InferenceWorker σ
  | .enqueue message => w.enqueue message
  | .enqueueNext => w.enqueueNext
  | .run => w.runStep handle
  | .stop => w.stop

end OpenRecall.Model
