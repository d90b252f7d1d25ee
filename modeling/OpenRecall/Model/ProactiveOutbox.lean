import OpenRecall.Foundation.Run
import OpenRecall.Foundation.Dict
import OpenRecall.Model.Command

/-!
# Proactive messages

The server sends messages that nobody asked for: answers of the agent, reminders, nudges. They wait
in one outbox, by session, with one wake event. Each connection has a loop of its own that waits for
the event, takes what is pending and sends it.
-/

set_option autoImplicit false

namespace OpenRecall.Model

open Foundation

/-- SOURCE: protocol/messages.py:122-137 -/
structure ProactiveMessage where
  sessionId : String
  requestId : String
  text : String
  atoms : List String := []
  deriving DecidableEq

/-- The messages of each session with the times at which they came, and whether the event is set.
SOURCE: gateway/core.py:80-91 -/
structure ProactiveOutbox where
  ttlS : ℚ := 30
  bySession : Dict String (List (Time × ProactiveMessage)) := .empty
  event : Bool := false

namespace ProactiveOutbox

/-- SOURCE: gateway/core.py:93-99 -/
def enqueue (now : Time) (msg : ProactiveMessage) (box : ProactiveOutbox) : ProactiveOutbox :=
  { box with
    bySession := box.bySession.set msg.sessionId
      ((box.bySession.get? msg.sessionId).getD [] ++ [(now, msg)])
    event := true }

/-- SOURCE: gateway/core.py:150-151 -/
def signal (box : ProactiveOutbox) : ProactiveOutbox := { box with event := true }

/-- The message has waited for longer than it may.
SOURCE: gateway/core.py:109 -/
def expired (box : ProactiveOutbox) (now : Time) (entry : Time × ProactiveMessage) : Bool :=
  box.ttlS < ((now - entry.1 : ℤ) : ℚ) / 1000000

/-- The messages of a session that have not expired, and what is left.
SOURCE: gateway/core.py:101-119 -/
def drain (now : Time) (sessionId : String) (box : ProactiveOutbox) :
    List ProactiveMessage × ProactiveOutbox :=
  let entries := (box.bySession.get? sessionId).getD []
  let left := box.bySession.erase sessionId
  ((entries.filter fun entry => !box.expired now entry).map Prod.snd,
    { box with bySession := left, event := if left.entries = [] then false else box.event })

/-- The sessions one after the other, each drained at a time of its own.
SOURCE: gateway/core.py:142-144 -/
def drainKeys (clock : ℕ → Time) :
    ℕ → List String → ProactiveOutbox → List ProactiveMessage × ProactiveOutbox
  | _, [], box => ([], box)
  | k, sessionId :: rest, box =>
    let (kept, box) := box.drain (clock k) sessionId
    let (more, box) := drainKeys clock (k + 1) rest box
    (kept ++ more, box)

/-- The messages of all sessions; the event is cleared first.
SOURCE: gateway/core.py:121-145 -/
def drainAll (clock : ℕ → Time) (box : ProactiveOutbox) :
    List ProactiveMessage × ProactiveOutbox :=
  drainKeys clock 0 box.bySession.keys { box with event := false }

end ProactiveOutbox

/-- Where the loop of a connection is: before its wait, in it, woken from it, or with messages that
are left to be sent. It ends with the connection, or when a message cannot be sent. -/
inductive DrainLoop where
  | atWait
  | parked
  | woken
  | sending (left : List ProactiveMessage)
  | ended

namespace DrainLoop

/-- The messages that the loop has taken and not sent. -/
def left : DrainLoop → List ProactiveMessage
  | sending msgs => msgs
  | _ => []

/-- Setting the event wakes the loop that waits for it. -/
def wake : DrainLoop → DrainLoop
  | parked => woken
  | loop => loop

/-- The messages are to be sent; with none left, the loop is back before its wait. -/
def toSend : List ProactiveMessage → DrainLoop
  | [] => atWait
  | msgs => sending msgs

end DrainLoop

/-- The session that the connection has been told by `hello`, and its loop. -/
structure ProactiveConn where
  sessionId : Option String := none
  loop : DrainLoop := .atWait

/-- A message that has been sent, and the session of the connection at that time. -/
structure ProactiveDelivery where
  connSession : Option String
  message : ProactiveMessage
  deriving DecidableEq

/-- The outbox that all connections share, the connections in the order in which they were opened,
what was put into the outbox and what was sent. -/
structure ProactiveWorld where
  box : ProactiveOutbox := {}
  conns : List ProactiveConn := []
  enqueued : List ProactiveMessage := []
  sent : List ProactiveDelivery := []

/-- What can happen next. Messages come from the agent, the reminders and the nudges; `resume` is a
turn of the loop before or after its wait, and `send` one call to the connection, which may find it
closed. -/
inductive ProactiveStep where
  | enqueue (now : Time) (msg : ProactiveMessage)
  | signal
  | opened
  | hello (conn : ℕ) (sessionId : String)
  | bye (conn : ℕ)
  | resume (conn : ℕ) (clock : ℕ → Time)
  | send (conn : ℕ) (ok : Bool)
  | closed (conn : ℕ)

namespace ProactiveWorld

/-- A change of one connection. -/
def mapConn (s : ProactiveWorld) (conn : ℕ) (f : ProactiveConn → ProactiveConn) : ProactiveWorld :=
  { s with conns := s.conns.modify conn f }

/-- The loop takes what is pending. -/
def take (s : ProactiveWorld) (conn : ℕ) (clock : ℕ → Time) : ProactiveWorld :=
  let (msgs, box) := s.box.drainAll clock
  mapConn { s with box } conn fun c => { c with loop := .toSend msgs }

/-- The loop waits when the event is not set; set or woken, it takes what is pending.
SOURCE: gateway/adapter.py:603-619 -/
def resume (s : ProactiveWorld) (conn : ℕ) (clock : ℕ → Time) (c : ProactiveConn) :
    ProactiveWorld :=
  match c.loop with
  | .atWait =>
    if s.box.event then s.take conn clock
    else s.mapConn conn fun c => { c with loop := .parked }
  | .woken => s.take conn clock
  | _ => s

/-- The next message is sent, or the loop ends.
SOURCE: gateway/adapter.py:620-633 -/
def send (s : ProactiveWorld) (conn : ℕ) (ok : Bool) (c : ProactiveConn) : ProactiveWorld :=
  match c.loop with
  | .sending (msg :: rest) =>
    if ok then
      mapConn { s with sent := s.sent ++ [⟨c.sessionId, msg⟩] } conn
        fun c => { c with loop := .toSend rest }
    else s.mapConn conn fun c => { c with loop := .ended }
  | _ => s

/-- One step. `hello` and `bye` set the session of their connection; a connection that closes ends
its loop.
SOURCE: gateway/core.py:358-367, gateway/core.py:492-494, gateway/adapter.py:597-634,
gateway/adapter.py:736-750 -/
def step (s : ProactiveWorld) : ProactiveStep → ProactiveWorld
  | .enqueue now msg =>
    { s with
      box := s.box.enqueue now msg
      conns := s.conns.map fun c => { c with loop := c.loop.wake }
      enqueued := s.enqueued ++ [msg] }
  | .signal =>
    { s with
      box := s.box.signal
      conns := s.conns.map fun c => { c with loop := c.loop.wake } }
  | .opened => { s with conns := s.conns ++ [{}] }
  | .hello conn sessionId => s.mapConn conn fun c => { c with sessionId := some sessionId }
  | .bye conn => s.mapConn conn fun c => { c with sessionId := none }
  | .resume conn clock => (s.conns[conn]?.map (s.resume conn clock)).getD s
  | .send conn ok => (s.conns[conn]?.map (s.send conn ok)).getD s
  | .closed conn => s.mapConn conn fun c => { c with loop := .ended }

end ProactiveWorld

end OpenRecall.Model
