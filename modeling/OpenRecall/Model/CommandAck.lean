import OpenRecall.Model.Settings

/-!
# Acks of a command

A device's ack reaches the server on the gateway's socket or over HTTP. The gateway tells the
dispatcher; the HTTP route moves the stored record and does not. `CommandServerStep` is one
operation on the command plane: a call on the dispatcher, or an ack on one of the two paths.
-/

set_option autoImplicit false

namespace OpenRecall.Model

open Foundation

/-- The answer to an ack over HTTP. An empty history makes the handler raise.
SOURCE: http/routes/commands.py:156-192 -/
inductive AckReply where
  | notFound (commandId : String)
  | conflict (commandId : String) (status : CommandStatus)
  | serverError
  | ok (rec : CommandRecord)
  deriving DecidableEq

/-- Ack a command over HTTP: a stored record that is DELIVERED moves to EXECUTING, at the time of
its last transition.
SOURCE: http/routes/commands.py:156-192 -/
def postCommandAck (commandId : String) (store : Dict String CommandRecord) :
    AckReply × Dict String CommandRecord :=
  match store.get? commandId with
  | none => (.notFound commandId, store)
  | some rec =>
    if rec.status ≠ .delivered then (.conflict commandId rec.status, store)
    else
      match rec.history.getLast? with
      | none => (.serverError, store)
      | some last =>
        let moved := rec.withTransition .executing last.at_
        (.ok moved, store.set moved.command.commandId moved)

/-- One operation on the command plane. -/
inductive CommandOp where
  | call (call : DispatcherCall)
  | gatewayAck (commandId : String)
  | httpAck (commandId : String)
  deriving DecidableEq

/-- An operation and the clock it reads. -/
structure CommandStep where
  now : Time
  op : CommandOp
  deriving DecidableEq

/-- The HTTP route on the store that the dispatcher saves to; without one it is not there. -/
def CommandDispatcher.httpAck (commandId : String) (d : CommandDispatcher) : CommandDispatcher :=
  { d with store := d.store.map fun store => (postCommandAck commandId store).2 }

namespace Backend

/-- The effect of one operation. -/
def commandStep (signer : CommandSigner) (b : Backend) : CommandStep → Backend
  | ⟨now, .call call⟩ =>
    { b with plane := { b.plane with dispatcher := b.plane.dispatcher.step signer ⟨now, call⟩ } }
  | ⟨now, .gatewayAck commandId⟩ => b.onCommandAck now commandId
  | ⟨_, .httpAck commandId⟩ =>
    { b with plane := { b.plane with dispatcher := b.plane.dispatcher.httpAck commandId } }

end Backend

end OpenRecall.Model
