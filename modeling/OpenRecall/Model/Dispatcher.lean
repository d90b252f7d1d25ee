import OpenRecall.Model.Command
import OpenRecall.Foundation.Run

/-!
# The command dispatcher

`CommandDispatcher` signs commands, tracks them until they are acked, and offers the
ones that still need delivery. Its state is the source's: the signed commands in issue
order, the map from an idempotency key to the command that holds it, the set of acked
ids, and the lifecycle of every command. A dispatcher call reads the clock at most
once, so each operation takes the time it reads as an argument.

`DispatcherStep` is one call together with that time, and `CommandDispatcher.step` is
its effect on the state.
-/

set_option autoImplicit false

namespace OpenRecall.Model

open Foundation

/-- The dispatcher's state, with the optional record store it saves to.
SOURCE: commands/dispatcher.py:38-58 -/
structure CommandDispatcher where
  signed : Dict String SignedCommand := .empty
  idem : Dict String String := .empty
  acked : Finset String := ∅
  status : Dict String CommandStatus := .empty
  history : Dict String (List StatusTransition) := .empty
  store : Option (Dict String CommandRecord) := none

namespace CommandDispatcher

/-- The signed command an unacked holder of `key` was issued with. An empty or missing
key holds nothing.
SOURCE: commands/dispatcher.py:71-76 -/
def heldBy (d : CommandDispatcher) (key : Option String) : Option SignedCommand :=
  match key with
  | none => none
  | some key =>
    if key = "" then none
    else match d.idem.get? key with
      | none => none
      | some existingId => if existingId ∈ d.acked then none else d.signed.get? existingId

/-- The entry a command's history starts with.
SOURCE: commands/dispatcher.py:88-95 -/
def issueEntry (now : Time) : StatusTransition :=
  ⟨none, .pending, now, [("event", .str "issue")]⟩

/-- Track a command that no earlier one absorbs.
SOURCE: commands/dispatcher.py:82-98 -/
def track (signer : CommandSigner) (now : Time) (c : Command) (d : CommandDispatcher) :
    CommandDispatcher where
  signed := d.signed.set c.commandId (signer.sign c)
  idem := match c.idempotencyKey with
    | none => d.idem
    | some key => if key = "" then d.idem else d.idem.set key c.commandId
  acked := d.acked
  status := d.status.set c.commandId .pending
  history := d.history.set c.commandId [issueEntry now]
  store := d.store.map fun st => st.set c.commandId ⟨c, .pending, [issueEntry now]⟩

/-- Sign and track a command, unless an unacked command with its key or a command with
its id is already there.
SOURCE: commands/dispatcher.py:60-99 -/
def issue (signer : CommandSigner) (now : Time) (c : Command) (d : CommandDispatcher) :
    SignedCommand × CommandDispatcher :=
  match d.heldBy c.idempotencyKey with
  | some existing => (existing, d)
  | none =>
    match d.signed.get? c.commandId with
    | some existing => (existing, d)
    | none => (signer.sign c, d.track signer now c)

/-- The id of a live command that holds `key`.
SOURCE: commands/dispatcher.py:101-116 -/
def findByIdempotencyKey (d : CommandDispatcher) (key : String) : Option String :=
  if key = "" then none
  else match d.idem.get? key with
    | none => none
    | some existingId => if existingId ∈ d.acked then none else some existingId

/-- Mark a command delivered. Unknown ids are recorded as well.
SOURCE: commands/dispatcher.py:127-129 -/
def ack (commandId : String) (d : CommandDispatcher) : CommandDispatcher :=
  { d with acked := insert commandId d.acked }

/-- Why a transition is refused: the command is unknown, or the state machine does not
allow the move. -/
inductive TransitionError where
  | unknownCommand (commandId : String)
  | invalidTransition (frm dst : CommandStatus) (commandId : String)
  deriving DecidableEq

/-- Move a command to another state and record the move.
SOURCE: commands/dispatcher.py:131-165 -/
def transition (commandId : String) (dst : CommandStatus) (when_ : Time) (detail : Params)
    (d : CommandDispatcher) : Except TransitionError CommandDispatcher :=
  match d.status.get? commandId with
  | none => .error (.unknownCommand commandId)
  | some frm =>
    if isValidTransition frm dst then
      .ok { d with
        status := d.status.set commandId dst
        history := d.history.set commandId
          ((d.history.get? commandId).getD [] ++ [⟨some frm, dst, when_, detail⟩]) }
    else .error (.invalidTransition frm dst commandId)

/-- What stops a transition: one of its own errors, or the `KeyError` of the append to a history
that is not there. -/
inductive TransitionStop where
  | raised (e : TransitionError)
  | missingHistory (commandId : String)
  deriving DecidableEq

/-- The transition one statement after the other, with the state that it leaves behind when it
raises.
SOURCE: commands/dispatcher.py:148-165 -/
def transitionInPlace (commandId : String) (dst : CommandStatus) (when_ : Time) (detail : Params)
    (d : CommandDispatcher) : Except TransitionStop Unit × CommandDispatcher :=
  match d.status.get? commandId with
  | none => (.error (.raised (.unknownCommand commandId)), d)
  | some frm =>
    if isValidTransition frm dst then
      let d := { d with status := d.status.set commandId dst }
      -- the status is moved before the history is read
      match d.history.get? commandId with
      | none => (.error (.missingHistory commandId), d)
      | some entries =>
        (.ok (), { d with
          history := d.history.set commandId (entries ++ [⟨some frm, dst, when_, detail⟩]) })
    else (.error (.raised (.invalidTransition frm dst commandId)), d)

/-- The lifecycle state of a command, which raises when it is unknown.
SOURCE: commands/dispatcher.py:167-171 -/
def getStatus (commandId : String) (d : CommandDispatcher) : Option CommandStatus :=
  d.status.get? commandId

/-- The transitions of a command in order, which raises when it is unknown.
SOURCE: commands/dispatcher.py:174-184 -/
def getHistory (commandId : String) (d : CommandDispatcher) : Option (List StatusTransition) :=
  d.history.get? commandId

/-- The commands that still need delivery, in issue order.
SOURCE: commands/dispatcher.py:186-193 -/
def pending (d : CommandDispatcher) (now : Time) : List SignedCommand :=
  (d.signed.entries.filter fun e => e.1 ∉ d.acked ∧ ¬ e.2.command.isExpired now).map Prod.snd

end CommandDispatcher

/-- One call on the dispatcher. -/
inductive DispatcherCall where
  | issue (c : Command)
  | ack (commandId : String)
  | transition (commandId : String) (dst : CommandStatus) (detail : Params)
  deriving DecidableEq

/-- A call and the clock it reads. -/
structure DispatcherStep where
  now : Time
  call : DispatcherCall
  deriving DecidableEq

/-- The state after one call; a refused transition leaves the state as it was. -/
def CommandDispatcher.step (signer : CommandSigner) (d : CommandDispatcher) :
    DispatcherStep → CommandDispatcher
  | ⟨now, .issue c⟩ => (d.issue signer now c).2
  | ⟨_, .ack commandId⟩ => d.ack commandId
  | ⟨now, .transition commandId dst detail⟩ =>
    match d.transition commandId dst now detail with
    | .ok d' => d'
    | .error _ => d

/-- The state after one call, as the statements of the call leave it. -/
def CommandDispatcher.perform (signer : CommandSigner) (d : CommandDispatcher) :
    DispatcherStep → CommandDispatcher
  | ⟨now, .issue c⟩ => (d.issue signer now c).2
  | ⟨_, .ack commandId⟩ => d.ack commandId
  | ⟨now, .transition commandId dst detail⟩ => (d.transitionInPlace commandId dst now detail).2

end OpenRecall.Model
