import OpenRecall.Foundation.Run

/-!
# The relay's GATT queue

Android allows one GATT operation at a time, so `SensorLink` keeps a queue of operations
and a flag for the one in flight; the stack's write callbacks clear the flag and run the
next. `LinkRun` is the link together with the stack: how many writes the stack still owes
a callback for, and which operations were enqueued and which ran, oldest first.

An operation is what its closure does. Subscribing and writing a command issue one GATT
write each; telling the listener that the link is up issues none.
-/

set_option autoImplicit false

namespace OpenRecall.Model

/-- The characteristics the relay subscribes to. -/
inductive NotifyCharacteristic where
  | audio
  | ack
  deriving DecidableEq

/-- A queued operation.
SOURCE: ble/SensorLink.kt:83-89, ble/SensorLink.kt:138-140, ble/SensorLink.kt:160-170 -/
inductive GattOp where
  | subscribe (ch : NotifyCharacteristic)
  | onConnected
  | writeCommand (frame : List UInt8)
  deriving DecidableEq

/-- The GATT writes an operation issues, each of which the stack answers with one
callback. -/
def GattOp.writes : GattOp → ℕ
  | .subscribe _ | .writeCommand _ => 1
  | .onConnected => 0

/-- SOURCE: ble/SensorLink.kt:56-57 -/
structure SensorLink where
  opQueue : List GattOp := []
  opInFlight : Bool := false
  deriving DecidableEq

namespace SensorLink

/-- Run the next operation, if there is one. The second component is the operation that
ran.
SOURCE: ble/SensorLink.kt:183-187 -/
def drain (l : SensorLink) : SensorLink × Option GattOp :=
  match l.opQueue with
  | [] => (l, none)
  | op :: rest => ({ opQueue := rest, opInFlight := true }, some op)

/-- SOURCE: ble/SensorLink.kt:172-177 -/
def enqueue (op : GattOp) (l : SensorLink) : SensorLink × Option GattOp :=
  let added := { l with opQueue := l.opQueue ++ [op] }
  if ¬ l.opInFlight then added.drain else (added, none)

/-- SOURCE: ble/SensorLink.kt:179-181 -/
def nextOp (l : SensorLink) : SensorLink × Option GattOp :=
  { l with opInFlight := false }.drain

end SensorLink

/-- An operation is enqueued, or a write callback arrives. -/
inductive LinkStep where
  | enqueue (op : GattOp)
  | callback
  deriving DecidableEq

/-- The link and the stack. -/
structure LinkRun where
  link : SensorLink := {}
  outstanding : ℕ := 0
  enqueued : List GattOp := []
  ran : List GattOp := []
  deriving DecidableEq

namespace LinkRun

/-- Note the operation that ran, if one did. -/
def afterOp (s : LinkRun) (result : SensorLink × Option GattOp) : LinkRun :=
  match result with
  | (link, none) => { s with link := link }
  | (link, some op) =>
    { s with link := link, outstanding := s.outstanding + op.writes, ran := s.ran ++ [op] }

def step (s : LinkRun) : LinkStep → LinkRun
  | .enqueue op => { s with enqueued := s.enqueued ++ [op] }.afterOp (s.link.enqueue op)
  | .callback => { s with outstanding := s.outstanding - 1 }.afterOp s.link.nextOp

/-- The stack calls back only for a write that is outstanding. -/
def CallbackOwed (s : LinkRun) (st : LinkStep) : Prop := st = .callback → 0 < s.outstanding

instance (s : LinkRun) (st : LinkStep) : Decidable (s.CallbackOwed st) := by
  unfold CallbackOwed
  infer_instance

/-- The queue does its work: at most one write is outstanding, the operations run in the
order they were enqueued, each once, and none waits when no write is outstanding. -/
def Serial (s : LinkRun) : Prop :=
  s.outstanding ≤ 1 ∧ s.enqueued = s.ran ++ s.link.opQueue ∧
    (s.outstanding = 0 → s.link.opQueue = [])

instance (s : LinkRun) : Decidable s.Serial := by
  unfold Serial
  infer_instance

end LinkRun

end OpenRecall.Model
