import OpenRecall.Foundation.Run
import OpenRecall.Model.RelayService

/-!
# Drops of the relay's link

A drop handler stops the link the service holds and schedules one reconnect. The flag it holds
keeps a second handler out while it runs, and no longer: the service asks of a callback only that
it is of this generation, which every reconnect shares. So the `onClosed` that follows the
service's own close of a socket starts a second handler. Before the backoff ends that raises the
attempt twice for one failure, and after it stops the link that was built since.
-/

set_option autoImplicit false

namespace OpenRecall.Analysis.RelayDrops

open Foundation OpenRecall.Model RelayService

/-- The current link fails: its sensor disconnects, its socket closes, or its socket does not take
a frame. -/
def Fails (s : RelayService) : RelayEvent → Prop
  | .sensorDisconnected sensor handle _ =>
    s.sensor.running ∧ sensor = s.sensor.id ∧ handle = s.sensor.handles
  | .socketClosed socket _ => s.socket = some socket
  | .send _ sent => s.socket.isSome ∧ ¬ sent
  | _ => False

instance (s : RelayService) (e : RelayEvent) : Decidable (Fails s e) :=
  match e with
  | .sensorDisconnected sensor handle _ =>
    inferInstanceAs (Decidable (_ ∧ sensor = s.sensor.id ∧ handle = s.sensor.handles))
  | .socketClosed socket _ => inferInstanceAs (Decidable (s.socket = some socket))
  | .send _ sent => inferInstanceAs (Decidable (_ ∧ ¬ sent = true))
  | .scanResult _ _ | .sensorConnected _ _ | .socketOpen _ | .handlerRuns _ | .backoffExpired =>
    inferInstanceAs (Decidable False)

/-- The event asks for a drop: a sensor disconnects or a socket closes, whichever it is, or the
socket does not take a frame. -/
def Drops (s : RelayService) : RelayEvent → Prop
  | .sensorDisconnected _ _ _ | .socketClosed _ _ => True
  | .send _ sent => s.socket.isSome ∧ ¬ sent
  | _ => False

/-- The body of a drop handler runs. -/
def Runs : RelayEvent → Prop
  | .handlerRuns _ => True
  | _ => False

/-- The service holds a link that is not stopped. -/
def Up (s : RelayService) : Prop := s.socket.isSome ∨ s.sensor.running

/-- The event stops the link of the service. -/
def Stops (s : RelayService) (e : RelayEvent) : Prop :=
  (s.socket.isSome ∧ (s.step e).socket = none) ∨
    (s.sensor.running ∧ (s.step e).sensor.running = false)

/-- One reconnect comes of the drop, and one attempt is counted; or the attempts are used up, and
that is published. -/
def Reconnects (s s' : RelayService) (reason : String) : Prop :=
  if Backoff.shouldGiveUp s.reconnectAttempt then
    s'.connection = .failed reason ∧ s'.scheduled = s.scheduled ∧
      s'.reconnectAttempt = s.reconnectAttempt
  else
    s'.connection = .reconnecting (Backoff.nextBackoffMs s.reconnectAttempt) ∧
      s'.scheduled = s.scheduled + 1 ∧ s'.reconnectAttempt = s.reconnectAttempt + 1 ∧
      s'.reconnectJob = some (Backoff.nextBackoffMs s.reconnectAttempt)

/-- **One reconnect for each failure**, at one event. A failure of the current link has a handler
for that link, a handler starts for nothing else, what is stopped is a link that failed, and a
handler schedules one reconnect where no other event does. -/
structure OneReconnect (s : RelayService) (e : RelayEvent) : Prop where
  handled : Fails s e → ∃ handler ∈ (s.step e).dropping, handler.link = s.link
  quiet : ¬ Fails s e → s.dropping = none → (s.step e).dropping = none
  own : Stops s e → ∃ handler ∈ s.dropping, handler.link = s.link
  once : Runs e → ∀ handler ∈ s.dropping, Reconnects s (s.step e) handler.reason
  only : ¬ Runs e → (s.step e).scheduled = s.scheduled ∧
    (s.step e).reconnectAttempt ≤ s.reconnectAttempt

/-- The event is in time. What starts a handler is a failure of the current link, and no callback
of an earlier one; and the link of a running handler is not replaced before the handler stops it
or the link fails again. -/
structure InTime (s : RelayService) (e : RelayEvent) : Prop where
  notLate : Drops s e → s.dropping = none → Fails s e
  notReplaced : Fails s e ∨ Runs e → ∀ handler ∈ s.dropping, handler.link = s.link

/-- The link of a service that handles a drop is not stopped yet. -/
def DropsWhileUp (s : RelayService) : Prop := s.dropping.isSome → Up s

/-! ## What an event does -/

theorem softDrop_dropping (s : RelayService) (reason : String) :
    ∃ handler, (s.softDrop reason).dropping = some handler ∧
      (s.dropping = none → handler.link = s.link) ∧
      (∀ running ∈ s.dropping, handler = running) := by
  unfold softDrop
  cases h : s.dropping with
  | none => exact ⟨_, rfl, fun _ => rfl, by simp⟩
  | some handler => exact ⟨handler, h, by simp, by simp⟩

theorem softDrop_fields (s : RelayService) (reason : String) :
    (s.softDrop reason).socket = s.socket ∧ (s.softDrop reason).sensor = s.sensor ∧
      (s.softDrop reason).scheduled = s.scheduled ∧
      (s.softDrop reason).reconnectAttempt = s.reconnectAttempt := by
  unfold softDrop
  cases s.dropping <;> simp

/-- An event that asks for a drop calls `softDrop`. -/
theorem step_of_drops {s : RelayService} {e : RelayEvent} (h : Drops s e) :
    ∃ reason, s.step e = s.softDrop reason := by
  cases e with
  | sensorDisconnected sensor handle reason => exact ⟨reason, rfl⟩
  | socketClosed socket reason => exact ⟨reason, rfl⟩
  | send frame sent => exact ⟨frame.sendFailed, if_pos h⟩
  | _ => exact h.elim

theorem drops_of_fails {s : RelayService} {e : RelayEvent} (h : Fails s e) : Drops s e := by
  cases e with
  | send frame sent => exact h
  | sensorDisconnected sensor handle reason => trivial
  | socketClosed socket reason => trivial
  | _ => exact h.elim

/-- An event that is neither a drop nor a handler leaves what the drops are about, but that it may
put a new socket or sensor in place. -/
theorem step_of_calm {s : RelayService} {e : RelayEvent} (hdrops : ¬ Drops s e)
    (hruns : ¬ Runs e) :
    (s.step e).dropping = s.dropping ∧ (s.step e).scheduled = s.scheduled ∧
      (s.step e).reconnectAttempt ≤ s.reconnectAttempt ∧
      (s.socket.isSome → (s.step e).socket.isSome) ∧
      (s.sensor.running → (s.step e).sensor.running) := by
  cases e with
  | scanResult sensor address =>
    by_cases h : sensor = s.sensor.id
    · simp [RelayService.step, onScanResult, h]
    · simp [RelayService.step, onScanResult, h]
  | sensorConnected sensor handle => simp [RelayService.step, onConnected]
  | sensorDisconnected sensor handle reason => exact absurd trivial hdrops
  | socketOpen socket => simp [RelayService.step, onOpen]
  | socketClosed socket reason => exact absurd trivial hdrops
  | send frame sent =>
    have hstep : s.step (.send frame sent) = s := if_neg hdrops
    simp [hstep]
  | handlerRuns byeSent => exact absurd trivial hruns
  | backoffExpired =>
    cases h : s.reconnectJob with
    | none => simp [RelayService.step, h]
    | some delay => simp [RelayService.step, h, reconnect]

/-- The goodbye of a drop handler starts no second one, sent or not. -/
theorem execute_of_dropping {s : RelayService} (h : s.dropping.isSome) (frame : ServerFrame)
    (sent : Bool) : s.execute frame sent = s := by
  obtain ⟨handler, hd⟩ := Option.isSome_iff_exists.mp h
  unfold execute softDrop
  simp [hd]

/-- What the body of a drop handler does. -/
theorem step_of_runs {s : RelayService} {e : RelayEvent} (hruns : Runs e) {handler : DropHandler}
    (hd : handler ∈ s.dropping) :
    (s.step e).dropping = none ∧ (s.step e).socket = none ∧
      (s.step e).sensor.running = false ∧ Reconnects s (s.step e) handler.reason := by
  cases e with
  | handlerRuns byeSent =>
    have hd' : s.dropping = some handler := hd
    have hexecute := execute_of_dropping (Option.isSome_of_eq_some hd') .text byeSent
    have hstep : s.step (.handlerRuns byeSent) = s.finishDrop byeSent handler.reason := by
      simp [RelayService.step, hd']
    rw [hstep]
    unfold finishDrop scheduleReconnect Reconnects
    rw [hexecute]
    by_cases hgive : Backoff.shouldGiveUp s.reconnectAttempt = true
    · simp [hgive]
    · simp [hgive]
  | _ => exact hruns.elim

theorem step_of_runs_none {s : RelayService} {e : RelayEvent} (hruns : Runs e)
    (hd : s.dropping = none) : s.step e = s := by
  cases e with
  | handlerRuns byeSent => simp [RelayService.step, hd]
  | _ => exact hruns.elim

/-! ## One event -/

/-- A link that is up stops exactly when a handler runs. -/
theorem stops_iff {s : RelayService} (hs : DropsWhileUp s) (e : RelayEvent) :
    Stops s e ↔ Runs e ∧ s.dropping.isSome := by
  by_cases hruns : Runs e
  · cases hd : s.dropping with
    | none => simp [Stops, step_of_runs_none hruns hd, Option.isSome_iff_ne_none]
    | some handler =>
      obtain ⟨-, hsocket, hsensor, -⟩ := step_of_runs hruns hd
      have hup := hs (Option.isSome_of_eq_some hd)
      simpa [Stops, Up, hsocket, hsensor, hruns] using hup
  · refine iff_of_false ?_ fun h => hruns h.1
    rintro (⟨hsome, hnone⟩ | ⟨hsome, hnone⟩)
    · by_cases hdrops : Drops s e
      · obtain ⟨reason, hstep⟩ := step_of_drops hdrops
        rw [hstep, (softDrop_fields s reason).1] at hnone
        simp [hnone] at hsome
      · have := (step_of_calm hdrops hruns).2.2.2.1 hsome
        simp [hnone] at this
    · by_cases hdrops : Drops s e
      · obtain ⟨reason, hstep⟩ := step_of_drops hdrops
        rw [hstep, (softDrop_fields s reason).2.1] at hnone
        simp [hnone] at hsome
      · have := (step_of_calm hdrops hruns).2.2.2.2 hsome
        simp [hnone] at this

/-- At an event in time there is one reconnect for each failure, and at no other. -/
theorem oneReconnect_iff {s : RelayService} (hs : DropsWhileUp s) (e : RelayEvent) :
    OneReconnect s e ↔ InTime s e := by
  constructor
  · intro h
    refine ⟨fun hdrops hnone => ?_, ?_⟩
    · by_contra hfails
      obtain ⟨reason, hstep⟩ := step_of_drops hdrops
      obtain ⟨handler, hsome, -⟩ := softDrop_dropping s reason
      have := h.quiet hfails hnone
      rw [hstep, hsome] at this
      simp at this
    · rintro (hfails | hruns) handler hd
      · obtain ⟨reason, hstep⟩ := step_of_drops (drops_of_fails hfails)
        obtain ⟨handler', hsome, -, hsame⟩ := softDrop_dropping s reason
        obtain ⟨handler'', hd'', hlink⟩ := h.handled hfails
        rw [hstep, hsome, Option.mem_some_iff] at hd''
        rw [← hsame handler hd, hd'', hlink]
      · have hstops := (stops_iff hs e).mpr ⟨hruns, Option.isSome_of_eq_some hd⟩
        obtain ⟨handler', hd', hlink⟩ := h.own hstops
        rw [Option.mem_unique hd hd', hlink]
  · intro h
    refine ⟨fun hfails => ?_, fun hfails hnone => ?_, fun hstops => ?_, fun hruns => ?_,
      fun hruns => ?_⟩
    · obtain ⟨reason, hstep⟩ := step_of_drops (drops_of_fails hfails)
      obtain ⟨handler, hsome, hnew, hsame⟩ := softDrop_dropping s reason
      refine ⟨handler, by rw [hstep, hsome, Option.mem_some_iff], ?_⟩
      cases hd : s.dropping with
      | none => exact hnew hd
      | some running =>
        rw [hsame running hd]
        exact h.notReplaced (.inl hfails) running hd
    · by_cases hruns : Runs e
      · rw [step_of_runs_none hruns hnone, hnone]
      · rw [(step_of_calm (fun hdrops => hfails (h.notLate hdrops hnone)) hruns).1, hnone]
    · obtain ⟨hruns, hsome⟩ := (stops_iff hs e).mp hstops
      obtain ⟨handler, hd⟩ := Option.isSome_iff_exists.mp hsome
      exact ⟨handler, hd, h.notReplaced (.inr hruns) handler hd⟩
    · exact fun handler hd => (step_of_runs hruns hd).2.2.2
    · by_cases hdrops : Drops s e
      · obtain ⟨reason, hstep⟩ := step_of_drops hdrops
        obtain ⟨-, -, hscheduled, hattempt⟩ := softDrop_fields s reason
        rw [hstep]
        exact ⟨hscheduled, hattempt.le⟩
      · exact ⟨(step_of_calm hdrops hruns).2.1, (step_of_calm hdrops hruns).2.2.1⟩

/-- A failure of the current link is one of a link that is up. -/
theorem up_of_fails {s : RelayService} {e : RelayEvent} (h : Fails s e) : Up s := by
  cases e with
  | sensorDisconnected sensor handle reason => exact .inr h.1
  | socketClosed socket reason => exact .inl (Option.isSome_of_eq_some h)
  | send frame sent => exact .inl h.1
  | _ => exact h.elim

theorem dropsWhileUp_step {s : RelayService} (hs : DropsWhileUp s) {e : RelayEvent}
    (h : OneReconnect s e) : DropsWhileUp (s.step e) := by
  intro hsome
  by_cases hruns : Runs e
  · cases hd : s.dropping with
    | none =>
      rw [step_of_runs_none hruns hd, hd] at hsome
      simp at hsome
    | some handler =>
      rw [(step_of_runs hruns hd).1] at hsome
      simp at hsome
  · have hup : Up s := by
      by_cases hfails : Fails s e
      · exact up_of_fails hfails
      · apply hs
        by_contra hnone
        rw [h.quiet hfails (Option.not_isSome_iff_eq_none.mp hnone)] at hsome
        simp at hsome
    by_cases hdrops : Drops s e
    · obtain ⟨reason, hstep⟩ := step_of_drops hdrops
      obtain ⟨hsocket, hsensor, -⟩ := softDrop_fields s reason
      rwa [hstep, Up, hsocket, hsensor]
    · obtain ⟨-, -, -, hsocket, hsensor⟩ := step_of_calm hdrops hruns
      exact hup.imp hsocket hsensor

/-! ## Every run -/

/-- **Every failure schedules one reconnect, and no callback of an earlier link stops the one that
replaced it, in exactly the runs whose events are in time.**
SOURCE: RelayService.kt:291-345 -/
theorem everyStep_oneReconnect_iff (sessionId : String) (es : List RelayEvent) :
    EveryStep RelayService.step OneReconnect (started sessionId) es ↔
      EveryStep RelayService.step InTime (started sessionId) es := by
  have hstart : DropsWhileUp (started sessionId) := fun _ => .inr rfl
  exact everyStep_iff_of_invariant (fun _ _ hs _ h => dropsWhileUp_step hs h)
    (fun _ e hs _ => oneReconnect_iff hs e) hstart (everyStep_true _ es)

/-- The sensor disconnects, and the handler closes the socket and schedules a reconnect, which
comes through; then the closed socket's `onClosed` arrives. -/
def lateClose : List RelayEvent :=
  [.scanResult 0 "aa", .sensorConnected 0 1, .socketOpen 0,
    .sensorDisconnected 0 1 "gatt state 0 (status=8)", .handlerRuns true, .backoffExpired,
    .scanResult 1 "aa", .sensorConnected 1 1, .socketOpen 1, .socketClosed 0 "bye"]

/-- The late `onClosed` starts the handler that stops the new link. -/
theorem not_always_oneReconnect :
    ¬ ∀ sessionId es, EveryStep RelayService.step Possible (started sessionId) es →
      EveryStep RelayService.step OneReconnect (started sessionId) es := by
  intro h
  have hrun := h "s" lateClose (by decide +kernel)
  have hlast : OneReconnect (run RelayService.step (started "s") (lateClose.take 9))
      (.socketClosed 0 "bye") := hrun.at_split
  have hquiet := hlast.quiet (by decide +kernel) (by decide +kernel)
  revert hquiet
  decide +kernel

end OpenRecall.Analysis.RelayDrops
