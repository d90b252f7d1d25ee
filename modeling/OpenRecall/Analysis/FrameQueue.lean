import OpenRecall.Foundation.Run
import OpenRecall.Model.InferenceWorker

/-!
# What becomes of an inbound frame

The handled frames are a subsequence of the enqueued ones, and no frame is handled twice. A frame
that is neither handled nor on its way is lost in one of two ways: an `enqueue` that found the queue
full dropped it, or the worker held it when it was told to stop. The queue drops its oldest frame
whatever its kind, so a control frame is dropped like an audio packet.
-/

set_option autoImplicit false

namespace OpenRecall.Analysis.FrameQueue

open Foundation OpenRecall.Model

variable {σ : Type}

/-- The frames on their way, in the order in which they were enqueued, after those handled. -/
def inOrder (w : InferenceWorker σ) : List Frame :=
  w.handled ++ w.workerAt.held ++ w.queue.items ++ w.enqueueAt.held

/-- The frames that were dropped from the queue. -/
def evicted (w : InferenceWorker σ) : List Frame := w.evictions.map Eviction.dropped

/-- Every frame dropped was in a queue that a put found full. -/
def DroppedWhenFull (w : InferenceWorker σ) : Prop :=
  ∀ e ∈ w.evictions, 0 < w.queue.maxSize ∧ w.queue.maxSize ≤ e.found.length ∧ e.dropped ∈ e.found

/-- What an `enqueue` knows of the queue between its operations: it was full when the first put
failed, and only the worker has taken from it since; before the second put it has room. -/
def EnqueueKnows (w : InferenceWorker σ) : Prop :=
  match w.enqueueAt with
  | .idle => True
  | .full _ found =>
    0 < w.queue.maxSize ∧ w.queue.maxSize ≤ found.length ∧ w.queue.items <:+ found
  | .retry _ => ¬ w.queue.IsFull
  | .raised _ => False

/-- The state of the threads and the queue after any interleaving from a fresh worker. -/
structure Accounted (handle : σ → Frame → σ × Handling) (core : σ) (w : InferenceWorker σ) :
    Prop where
  kept : Kept (inOrder w) (evicted w ++ w.discarded) w.enqueued
  full : DroppedWhenFull w
  knows : EnqueueKnows w
  core_eq : w.core = w.handled.foldl (fun core frame => (handle core frame).1) core
  discards : w.discarded ≠ [] → w.stopped = true ∧ w.workerAt = .exited ∧ w.discarded.length = 1

variable {handle : σ → Frame → σ × Handling} {core : σ} {w : InferenceWorker σ}

theorem accounted_fresh (maxQueue : ℤ) :
    Accounted handle core (InferenceWorker.fresh core maxQueue) where
  kept := Kept.nil
  full := by simp [DroppedWhenFull, InferenceWorker.fresh]
  knows := trivial
  core_eq := rfl
  discards := by simp [InferenceWorker.fresh]

/-! ## The receive loop's thread -/

theorem Accounted.enqueue (h : Accounted handle core w) (message : Frame) :
    Accounted handle core (w.enqueue message) := by
  obtain ⟨hkept, hfull, hknows, hcore, hdiscards⟩ := h
  unfold InferenceWorker.enqueue
  cases hat : w.enqueueAt with
  | full m found => exact ⟨hkept, hfull, hknows, hcore, hdiscards⟩
  | retry m => exact ⟨hkept, hfull, hknows, hcore, hdiscards⟩
  | raised m => exact ⟨hkept, hfull, hknows, hcore, hdiscards⟩
  | idle =>
    dsimp only
    have hsnoc := hkept.snoc message
    simp only [inOrder, hat, EnqueueAt.held, List.append_nil] at hsnoc
    cases hput : w.queue.putNowait message with
    | some queue =>
      obtain ⟨-, hsize, hitems⟩ := BoundedQueue.putNowait_eq_some hput
      refine ⟨?_, ?_, ?_, hcore, hdiscards⟩
      · simpa [inOrder, hat, EnqueueAt.held, hitems, evicted] using hsnoc
      · simpa [DroppedWhenFull, hsize] using hfull
      · simp [EnqueueKnows]
    | none =>
      refine ⟨?_, hfull, ?_, hcore, hdiscards⟩
      · simpa [inOrder, EnqueueAt.held, evicted] using hsnoc
      · obtain ⟨hpos, hge⟩ := BoundedQueue.putNowait_eq_none_iff.mp hput
        exact ⟨hpos, hge, List.suffix_refl _⟩

/-- The oldest frame of a queue that was full is dropped. -/
theorem Accounted.drop (h : Accounted handle core w) {message dropped : Frame}
    {found : List Frame} {queue : BoundedQueue Frame} (hat : w.enqueueAt = .full message found)
    (hget : w.queue.getNowait = some (dropped, queue)) :
    Accounted handle core { w with
      queue := queue
      enqueueAt := .retry message
      evictions := w.evictions ++ [⟨dropped, found⟩] } := by
  obtain ⟨hkept, hfull, hknows, hcore, hdiscards⟩ := h
  obtain ⟨hsize, hitems⟩ := BoundedQueue.getNowait_eq_some hget
  simp only [EnqueueKnows, hat] at hknows
  obtain ⟨hpos, hge, hsuffix⟩ := hknows
  refine ⟨?_, ?_, ?_, hcore, hdiscards⟩
  · simp only [inOrder, hat, hitems, EnqueueAt.held, List.append_assoc, List.cons_append] at hkept
    rw [← List.append_assoc] at hkept
    have hlost : (dropped :: (evicted w ++ w.discarded)).Perm
        (evicted w ++ dropped :: w.discarded) := List.perm_middle.symm
    simpa [inOrder, EnqueueAt.held, evicted] using hkept.lose.of_perm hlost
  · intro e he
    rw [hsize]
    rcases List.mem_append.mp he with he | he
    · exact hfull e he
    · rw [List.mem_singleton.mp he]
      refine ⟨hpos, hge, hsuffix.subset ?_⟩
      rw [hitems]
      exact List.mem_cons_self
  · exact BoundedQueue.not_isFull_of_getNowait hget

theorem Accounted.enqueueNext (h : Accounted handle core w) :
    Accounted handle core w.enqueueNext := by
  unfold InferenceWorker.enqueueNext
  cases hat : w.enqueueAt with
  | idle => exact h
  | raised m => exact h
  | full message found =>
    dsimp only
    cases hget : w.queue.getNowait with
    | some pair => exact h.drop hat hget
    | none =>
      -- the worker emptied the queue in between
      refine ⟨?_, h.full, ?_, h.core_eq, h.discards⟩
      · simpa [inOrder, hat, EnqueueAt.held, evicted] using h.kept
      · exact BoundedQueue.not_isFull_of_items_eq_nil
          (BoundedQueue.getNowait_eq_none_iff.mp hget)
  | retry message =>
    dsimp only
    have hroom : ¬ w.queue.IsFull := by
      have hknows := h.knows
      simpa only [EnqueueKnows, hat] using hknows
    cases hput : w.queue.putNowait message with
    | some queue =>
      obtain ⟨-, hsize, hitems⟩ := BoundedQueue.putNowait_eq_some hput
      refine ⟨?_, ?_, ?_, h.core_eq, h.discards⟩
      · simpa [inOrder, hat, EnqueueAt.held, hitems, evicted] using h.kept
      · simpa [DroppedWhenFull, hsize] using h.full
      · simp [EnqueueKnows]
    | none => exact absurd (BoundedQueue.putNowait_eq_none_iff.mp hput) hroom

/-! ## The worker's thread -/

/-- What an `enqueue` knows is not disturbed by the worker's taking a frame. -/
theorem EnqueueKnows.get (h : EnqueueKnows w) {message : Frame} {queue : BoundedQueue Frame}
    (hget : w.queue.getNowait = some (message, queue)) (workerAt : WorkerAt) :
    EnqueueKnows { w with queue := queue, workerAt := workerAt } := by
  obtain ⟨hsize, hitems⟩ := BoundedQueue.getNowait_eq_some hget
  unfold EnqueueKnows at h ⊢
  cases hat : w.enqueueAt with
  | idle => simp
  | raised m => simp [hat] at h
  | retry m =>
    dsimp only
    exact BoundedQueue.not_isFull_of_getNowait hget
  | full m found =>
    simp only [hat, hsize] at h ⊢
    obtain ⟨hpos, hge, hsuffix⟩ := h
    refine ⟨hpos, hge, ?_⟩
    rw [hitems] at hsuffix
    exact (List.suffix_cons message queue.items).trans hsuffix

/-- A worker that goes on has discarded nothing. -/
theorem Accounted.discarded_eq_nil (h : Accounted handle core w) (hat : w.workerAt ≠ .exited) :
    w.discarded = [] := by
  by_contra hne
  exact hat (h.discards hne).2.1

theorem Accounted.runStep (h : Accounted handle core w) :
    Accounted handle core (w.runStep handle) := by
  unfold InferenceWorker.runStep
  cases hat : w.workerAt with
  | exited => exact h
  | top =>
    have hnone := h.discarded_eq_nil (by simp [hat])
    refine ⟨?_, h.full, h.knows, h.core_eq, fun hne => absurd hnone hne⟩
    have hkept := h.kept
    simp only [inOrder, hat, WorkerAt.held] at hkept
    split_ifs <;> simpa [inOrder, WorkerAt.held, evicted] using hkept
  | getting =>
    dsimp only
    have hnone := h.discarded_eq_nil (by simp [hat])
    cases hget : w.queue.getNowait with
    | some pair =>
      obtain ⟨message, queue⟩ := pair
      obtain ⟨hsize, hitems⟩ := BoundedQueue.getNowait_eq_some hget
      refine ⟨?_, ?_, h.knows.get hget _, h.core_eq, fun hne => absurd hnone hne⟩
      · have hkept := h.kept
        simp only [inOrder, hat, WorkerAt.held, hitems] at hkept
        simpa [inOrder, WorkerAt.held, evicted] using hkept
      · simpa [DroppedWhenFull, hsize] using h.full
    | none =>
      refine ⟨?_, h.full, h.knows, h.core_eq, fun hne => absurd hnone hne⟩
      have hkept := h.kept
      simp only [inOrder, hat, WorkerAt.held] at hkept
      simpa [inOrder, WorkerAt.held, evicted] using hkept
  | holding message =>
    dsimp only
    have hnone := h.discarded_eq_nil (by simp [hat])
    have hkept := h.kept
    simp only [inOrder, hat, WorkerAt.held, hnone, List.append_nil] at hkept
    split_ifs with hstopped
    · refine ⟨?_, h.full, h.knows, h.core_eq, ?_⟩
      · simp only [List.append_assoc, List.cons_append, List.nil_append] at hkept
        have hlost : (message :: evicted w).Perm (evicted w ++ [message]) :=
          (List.perm_append_singleton _ _).symm
        simpa [inOrder, WorkerAt.held, hnone, evicted] using hkept.lose.of_perm hlost
      · simp [hstopped, hnone]
    · refine ⟨?_, h.full, h.knows, ?_, fun hne => absurd hnone hne⟩
      · simpa [InferenceWorker.handleFrame, inOrder, WorkerAt.held, hnone, evicted] using hkept
      · simp [InferenceWorker.handleFrame, h.core_eq]

theorem Accounted.stop (h : Accounted handle core w) : Accounted handle core w.stop where
  kept := h.kept
  full := h.full
  knows := h.knows
  core_eq := h.core_eq
  discards := fun hne => ⟨rfl, (h.discards hne).2⟩

/-- Every atomic step accounts for every frame. -/
theorem Accounted.step (h : Accounted handle core w) (s : InferenceStep) :
    Accounted handle core (w.step handle s) := by
  cases s with
  | enqueue message => exact h.enqueue message
  | enqueueNext => exact h.enqueueNext
  | run => exact h.runStep
  | stop => exact h.stop

/-! ## Interleavings -/

/-- No step changes the limit of the queue. -/
theorem step_maxSize (handle : σ → Frame → σ × Handling) (w : InferenceWorker σ)
    (s : InferenceStep) : (w.step handle s).queue.maxSize = w.queue.maxSize := by
  cases s with
  | enqueue message =>
    unfold InferenceWorker.step InferenceWorker.enqueue
    cases hat : w.enqueueAt with
    | idle =>
      dsimp only
      cases hput : w.queue.putNowait message with
      | some queue => exact (BoundedQueue.putNowait_eq_some hput).2.1
      | none => simp
    | full m found => simp
    | retry m => simp
    | raised m => simp
  | enqueueNext =>
    unfold InferenceWorker.step InferenceWorker.enqueueNext
    cases hat : w.enqueueAt with
    | idle => simp
    | raised m => simp
    | full message found =>
      dsimp only
      cases hget : w.queue.getNowait with
      | some pair => exact (BoundedQueue.getNowait_eq_some hget).1
      | none => simp
    | retry message =>
      dsimp only
      cases hput : w.queue.putNowait message with
      | some queue => exact (BoundedQueue.putNowait_eq_some hput).2.1
      | none => simp
  | run =>
    unfold InferenceWorker.step InferenceWorker.runStep
    cases hat : w.workerAt with
    | exited => simp
    | top => simp
    | getting =>
      dsimp only
      cases hget : w.queue.getNowait with
      | some pair => exact (BoundedQueue.getNowait_eq_some hget).1
      | none => simp
    | holding message =>
      dsimp only
      split_ifs <;> simp [InferenceWorker.handleFrame]
  | stop => simp [InferenceWorker.step, InferenceWorker.stop]

/-- The state after an interleaving from a fresh worker. -/
def after (handle : σ → Frame → σ × Handling) (core : σ) (maxQueue : ℤ)
    (steps : List InferenceStep) : InferenceWorker σ :=
  run (InferenceWorker.step handle) (InferenceWorker.fresh core maxQueue) steps

/-- **What becomes of the enqueued frames, in every interleaving.** The handled ones and then those
on their way are a subsequence of the enqueued ones; every enqueued frame is one of these, once,
or was dropped, or discarded; `enqueue` does not raise; what is dropped, control frames included, was
in the queue when a put found it full; and only a worker that was told to stop discards a frame,
the one it holds.
SOURCE: gateway/inference_worker.py:151-205 -/
theorem frames_accounted (handle : σ → Frame → σ × Handling) (core : σ) (maxQueue : ℤ)
    (steps : List InferenceStep) :
    (inOrder (after handle core maxQueue steps)).Sublist
        (after handle core maxQueue steps).enqueued ∧
      (after handle core maxQueue steps).enqueued.Perm
        (inOrder (after handle core maxQueue steps) ++
          (evicted (after handle core maxQueue steps) ++
            (after handle core maxQueue steps).discarded)) ∧
      (∀ message, (after handle core maxQueue steps).enqueueAt ≠ .raised message) ∧
      (∀ e ∈ (after handle core maxQueue steps).evictions,
        0 < maxQueue ∧ maxQueue ≤ e.found.length ∧ e.dropped ∈ e.found) ∧
      ((after handle core maxQueue steps).discarded ≠ [] →
        (after handle core maxQueue steps).stopped = true ∧
          (after handle core maxQueue steps).discarded.length = 1) ∧
      (after handle core maxQueue steps).core =
        (after handle core maxQueue steps).handled.foldl
          (fun core frame => (handle core frame).1) core := by
  have hrun : Accounted handle core (after handle core maxQueue steps) ∧
      (after handle core maxQueue steps).queue.maxSize = maxQueue := by
    apply run_invariant (I := fun w => Accounted handle core w ∧ w.queue.maxSize = maxQueue)
    · rintro w s ⟨haccounted, hsize⟩
      exact ⟨haccounted.step s, (step_maxSize handle w s).trans hsize⟩
    · exact ⟨accounted_fresh maxQueue, by simp [InferenceWorker.fresh]⟩
  generalize after handle core maxQueue steps = w at hrun ⊢
  obtain ⟨haccounted, hsize⟩ := hrun
  refine ⟨haccounted.kept.ordered, haccounted.kept.accounted, ?_, ?_, ?_, haccounted.core_eq⟩
  · intro message hraised
    have hknows := haccounted.knows
    simp [EnqueueKnows, hraised] at hknows
  · intro e he
    rw [← hsize]
    exact haccounted.full e he
  · intro hne
    exact ⟨(haccounted.discards hne).1, (haccounted.discards hne).2.2⟩

/-- Two frames for a queue of one, with no step of the worker in between. -/
def helloThenAudio : List InferenceStep :=
  [.enqueue (.text "hello"), .enqueue (.binary [198, 0]), .enqueueNext, .enqueueNext]

/-- **A control frame can be dropped**: the oldest frame goes, whatever its kind. -/
theorem not_always_handled_or_queued :
    ¬ ∀ (handle : Unit → Frame → Unit × Handling) (maxQueue : ℤ) (steps : List InferenceStep)
      (s : String), .text s ∈ (after handle () maxQueue steps).enqueued →
      .text s ∈ inOrder (after handle () maxQueue steps) := by
  intro h
  have hhello := h (fun _ _ => ((), .replies [])) 1 helloThenAudio "hello" (by decide +kernel)
  exact absurd hhello (by decide +kernel)

end OpenRecall.Analysis.FrameQueue
