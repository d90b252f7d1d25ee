import OpenRecall.Model.SensorLink

/-!
# Which operations the GATT queue strands

Telling the listener that the link is up issues no GATT write, so no callback clears the
flag it sets. From then on the queue only grows (`stranded_forever`). `serial_iff` says
exactly which runs the queue serves: those in which nothing is ever behind that
operation.
-/

set_option autoImplicit false

namespace OpenRecall.Analysis.GattQueue

open Foundation OpenRecall.Model OpenRecall.Model.LinkRun

/-- Nothing is enqueued once the connected-notification ran, and when it is its turn it is
alone in the queue.
SOURCE: ble/SensorLink.kt:132-148, ble/SensorLink.kt:172-187 -/
def NothingBehindConnected (s : LinkRun) : LinkStep → Prop
  | .enqueue _ => s.ran.getLast? ≠ some .onConnected
  | .callback => s.link.opQueue.head? = some .onConnected → s.link.opQueue = [.onConnected]

instance (s : LinkRun) (st : LinkStep) : Decidable (NothingBehindConnected s st) := by
  cases st <;> unfold NothingBehindConnected <;> infer_instance

/-- The flag and the stack agree: an idle link owes nothing and has an empty queue, a busy
one waits for the writes of the operation that ran last. -/
structure LinkInvariant (s : LinkRun) : Prop where
  serial : s.Serial
  idle : s.link.opInFlight = false → s.outstanding = 0 ∧ s.link.opQueue = [] ∧
    s.ran.getLast? ≠ some .onConnected
  busy : s.link.opInFlight = true →
    ∃ op, s.ran.getLast? = some op ∧ s.outstanding = op.writes

theorem linkInvariant_init : LinkInvariant {} where
  serial := by decide
  idle := by decide
  busy := by intro h; cases h

/-- The only operation that issues no write. -/
theorem writes_eq (op : GattOp) : op.writes = if op = .onConnected then 0 else 1 := by
  cases op <;> rfl

/-- An outstanding write belongs to the operation that ran last. -/
theorem busy_of_outstanding {s : LinkRun} (h : LinkInvariant s) (hout : 0 < s.outstanding) :
    s.link.opInFlight = true ∧ s.outstanding = 1 := by
  cases hflag : s.link.opInFlight with
  | false =>
    have := (h.idle hflag).1
    omega
  | true =>
    obtain ⟨op, -, hop⟩ := h.busy hflag
    rw [writes_eq] at hop
    split_ifs at hop with hconn
    · omega
    · exact ⟨rfl, hop⟩

/-- **What a step does** in a state that satisfies the invariant: an idle link runs the new
operation at once, a busy one queues it; a callback runs the next operation, or leaves the
link idle. -/
theorem linkStep_cases {s : LinkRun} (h : LinkInvariant s) {st : LinkStep}
    (howed : s.CallbackOwed st) :
    (∃ op, st = .enqueue op ∧ s.link.opInFlight = false ∧ s.step st =
      ⟨⟨[], true⟩, op.writes, s.enqueued ++ [op], s.ran ++ [op]⟩) ∨
    (∃ op, st = .enqueue op ∧ s.link.opInFlight = true ∧ s.step st =
      ⟨⟨s.link.opQueue ++ [op], true⟩, s.outstanding, s.enqueued ++ [op], s.ran⟩) ∨
    (st = .callback ∧ s.outstanding = 1 ∧ s.link.opQueue = [] ∧
      s.step st = ⟨⟨[], false⟩, 0, s.enqueued, s.ran⟩) ∨
    (∃ op rest, st = .callback ∧ s.outstanding = 1 ∧ s.link.opQueue = op :: rest ∧
      s.step st = ⟨⟨rest, true⟩, op.writes, s.enqueued, s.ran ++ [op]⟩) := by
  obtain ⟨⟨queue, flag⟩, outstanding, enqueued, ran⟩ := s
  cases st with
  | enqueue op =>
    cases flag with
    | false =>
      obtain ⟨hout, hqueue, -⟩ := h.idle rfl
      dsimp only at hout hqueue
      subst hout hqueue
      left
      exact ⟨op, rfl, rfl, by simp [step, afterOp, SensorLink.enqueue, SensorLink.drain]⟩
    | true =>
      right; left
      exact ⟨op, rfl, rfl, rfl⟩
  | callback =>
    obtain ⟨-, hout⟩ := busy_of_outstanding h (howed rfl)
    dsimp only at hout
    subst hout
    right; right
    cases queue with
    | nil => exact Or.inl ⟨rfl, rfl, rfl, rfl⟩
    | cons op rest =>
      right
      refine ⟨op, rest, rfl, rfl, rfl, ?_⟩
      simp [step, afterOp, SensorLink.nextOp, SensorLink.drain]

/-- A step that leaves the queue serving its operations keeps the invariant. -/
theorem LinkInvariant.step {s : LinkRun} (h : LinkInvariant s) {st : LinkStep}
    (howed : s.CallbackOwed st) (hserial : (s.step st).Serial) : LinkInvariant (s.step st) := by
  refine ⟨hserial, ?_, ?_⟩
  · obtain ⟨op, -, -, hstep⟩ | ⟨op, -, -, hstep⟩ | ⟨-, hout, -, hstep⟩ |
      ⟨op, rest, -, -, -, hstep⟩ := linkStep_cases h howed
    · rw [hstep]
      intro hflag
      cases hflag
    · rw [hstep]
      intro hflag
      cases hflag
    · rw [hstep]
      intro _
      refine ⟨rfl, rfl, ?_⟩
      -- the operation that was answered had issued a write
      obtain ⟨hflag, -⟩ := busy_of_outstanding h (by omega)
      obtain ⟨op, hlast, hwrites⟩ := h.busy hflag
      intro hconn
      rw [hlast] at hconn
      rw [Option.some.inj hconn, hout] at hwrites
      cases hwrites
    · rw [hstep]
      intro hflag
      cases hflag
  · obtain ⟨op, -, -, hstep⟩ | ⟨op, -, hflag, hstep⟩ | ⟨-, -, -, hstep⟩ |
      ⟨op, rest, -, -, -, hstep⟩ := linkStep_cases h howed
    · rw [hstep]
      intro _
      exact ⟨op, List.getLast?_concat .., rfl⟩
    · rw [hstep]
      intro _
      exact h.busy hflag
    · rw [hstep]
      intro hflag
      cases hflag
    · rw [hstep]
      intro _
      exact ⟨op, List.getLast?_concat .., rfl⟩

/-- After an operation ran, the queue serves what is left of it when the operation issued a
write or nothing is left. -/
theorem serial_after_op (op : GattOp) (queue enqueued ran : List GattOp)
    (horder : enqueued = ran ++ queue) :
    (⟨⟨queue, true⟩, op.writes, enqueued, ran⟩ : LinkRun).Serial ↔
      (op = .onConnected → queue = []) := by
  unfold Serial
  rw [writes_eq]
  split_ifs with hop
  · simp [horder, hop]
  · simp [horder, hop]

/-- A step leaves the queue serving its operations exactly when nothing is behind the
connected-notification. -/
theorem serial_step_iff {s : LinkRun} (h : LinkInvariant s) {st : LinkStep}
    (howed : s.CallbackOwed st) : (s.step st).Serial ↔ NothingBehindConnected s st := by
  obtain ⟨-, horder, hserved⟩ := h.serial
  obtain ⟨op, rfl, hflag, hstep⟩ | ⟨op, rfl, hflag, hstep⟩ | ⟨rfl, -, hqueue, hstep⟩ |
    ⟨op, rest, rfl, -, hqueue, hstep⟩ := linkStep_cases h howed
  · obtain ⟨-, hqueue, hlast⟩ := h.idle hflag
    rw [hqueue, List.append_nil] at horder
    rw [hstep, serial_after_op _ _ _ _ (by rw [horder, List.append_nil])]
    exact iff_of_true (fun _ => rfl) hlast
  · obtain ⟨last, hlast, hwrites⟩ := h.busy hflag
    rw [hstep, hwrites, serial_after_op _ _ _ _ (by rw [horder, List.append_assoc])]
    unfold NothingBehindConnected
    rw [hlast]
    constructor
    · rintro hempty hconn
      exact absurd (hempty (Option.some.inj hconn)) (by simp)
    · rintro hne rfl
      exact absurd rfl hne
  · rw [hstep]
    unfold NothingBehindConnected Serial
    rw [horder, hqueue]
    simp
  · rw [hstep, serial_after_op _ _ _ _ (by rw [horder, hqueue, List.append_assoc]; rfl)]
    unfold NothingBehindConnected
    rw [hqueue, List.head?_cons, Option.some.injEq, List.cons.injEq]
    tauto

/-- **The queue strands nothing** in a run, whatever the order of its enqueues and
callbacks, if and only if nothing is ever behind the connected-notification.
SOURCE: ble/SensorLink.kt:83-89, ble/SensorLink.kt:132-148, ble/SensorLink.kt:160-187 -/
theorem serial_iff (steps : List LinkStep) (howed : EveryStep step CallbackOwed {} steps) :
    EveryStep step (fun s st => (s.step st).Serial) {} steps ↔
      EveryStep step NothingBehindConnected {} steps :=
  everyStep_iff_of_invariant (I := LinkInvariant) (fun _ _ h hA hP => h.step hA hP)
    (fun _ _ h hA => serial_step_iff h hA) linkInvariant_init howed

/-- Once the connected-notification ran, no later operation ever runs, whatever is enqueued
and however long one waits.
SOURCE: ble/SensorLink.kt:172-187 -/
theorem stranded_forever {s : LinkRun} (hflag : s.link.opInFlight = true)
    (hout : s.outstanding = 0) (steps : List LinkStep)
    (howed : EveryStep step CallbackOwed s steps) : (run step s steps).ran = s.ran := by
  have hstuck : ∀ (t : LinkRun) (st : LinkStep),
      (t.link.opInFlight = true ∧ t.outstanding = 0 ∧ t.ran = s.ran) → t.CallbackOwed st →
      ((t.step st).link.opInFlight = true ∧ (t.step st).outstanding = 0 ∧
        (t.step st).ran = s.ran) := by
    rintro ⟨⟨queue, flag⟩, outstanding, enqueued, ran⟩ st ⟨hf, ho, hr⟩ hst
    dsimp only at hf ho hr
    subst hf ho hr
    cases st with
    | enqueue op => exact ⟨rfl, rfl, rfl⟩
    | callback => exact absurd (hst rfl) (Nat.lt_irrefl 0)
  exact (EveryStep.invariant hstuck ⟨hflag, hout, rfl⟩ howed).2.2

/-- The setup of a connection: two subscriptions and the connected-notification, then the
callbacks of the two writes.
SOURCE: ble/SensorLink.kt:132-141 -/
def setupRun : List LinkStep :=
  [.enqueue (.subscribe .audio), .enqueue (.subscribe .ack), .enqueue .onConnected, .callback,
    .callback]

/-- `serial_iff` on the setup of a connection. -/
theorem serial_setup : EveryStep step (fun s st => (s.step st).Serial) {} setupRun :=
  (serial_iff setupRun (by decide)).mpr (by decide)

/-- The first command written after the setup stays in the queue with no write outstanding,
so the queue does not serve every run. -/
theorem not_always_serial :
    ¬ ∀ steps, EveryStep step CallbackOwed {} steps →
      EveryStep step (fun s st => (s.step st).Serial) {} steps := by
  intro h
  have hserial := h (setupRun ++ [.enqueue (.writeCommand [])]) (by decide)
  revert hserial
  decide

end OpenRecall.Analysis.GattQueue
