import OpenRecall.Model.ExecutorCore
import OpenRecall.Foundation.Ring
import OpenRecall.Foundation.Run

/-!
# The device's command handling

A command frame is a signature and a JSON payload. The device verifies it, remembers its
id in a ring of sixteen, hands the command to the executor queue and acks it; an id that
is already in the ring is acked without handing it over again. `commandsHandle` returns
the new state and what the outside sees, in order: commands entering the queue and acks
leaving the device.

The signature check and the JSON parser are library functions, so a `FirmwareLibs`
carries them. The executor task and the button are the other two users of the queue.
-/

set_option autoImplicit false

namespace OpenRecall.Model

open Foundation

/-- The library functions the firmware calls: the Ed25519 check of a signature over a
payload under a key, and the JSON parser. -/
structure FirmwareLibs where
  verify : List UInt8 → List UInt8 → List UInt8 → Bool
  parse : List UInt8 → Option CJson

/-- SOURCE: commands.c:13 -/
def ed25519SigLen : ℕ := 64

/-- SOURCE: commands.c:15 -/
def cmdIdMax : ℕ := 64

/-- SOURCE: config.h:265 -/
def executorQueueDepth : ℕ := 8

instance neZero_seenIds : NeZero 16 := ⟨by decide⟩

/-- The device's command state: the trusted key, the ring of remembered ids and the
executor queue, oldest request first.
SOURCE: commands.c:17-20, executor.c:17 -/
structure SensorCommands where
  pubkey : List UInt8
  seen : Ring CString 16 := .fill .empty
  queue : List CmdRequest := []

/-- What the outside sees of a command. -/
inductive DeviceEvent where
  | accepted (commandId : CString)
  | acked (commandId : CString)
  deriving DecidableEq

/-- `strncmp(a, b, n) == 0`. -/
def CString.eqUpTo (n : ℕ) (a b : CString) : Bool := a.bytes.take n = b.bytes.take n

/-- `snprintf(dst, n, "%s", src)`: at most `n - 1` bytes. -/
def CString.printed (n : ℕ) (src : CString) : CString :=
  ⟨src.bytes.take (n - 1), fun h => src.noNul (List.mem_of_mem_take h)⟩

/-- A command that verified and parsed. -/
structure CommandFrame where
  id : CString
  type : CString
  params : Option CJson

/-- Verify and parse a frame; anything else is dropped.
SOURCE: commands.c:69-92 -/
def openFrame (libs : FirmwareLibs) (pubkey data : List UInt8) : Option CommandFrame :=
  if data.length ≤ ed25519SigLen then none
  else
    let payload := data.drop ed25519SigLen
    if ¬ libs.verify (data.take ed25519SigLen) payload pubkey then none
    else do
      let root ← libs.parse payload
      match root.getItem (.lit "command_id"), root.getItem (.lit "type") with
      | some (.string id), some (.string type) =>
        return ⟨id, type, root.getItem (.lit "params")⟩
      | _, _ => none

namespace SensorCommands

/-- SOURCE: commands.c:38-45 -/
def alreadySeen (id : CString) (d : SensorCommands) : Prop :=
  ∃ i, (d.seen.slots i).eqUpTo cmdIdMax id

instance (id : CString) (d : SensorCommands) : Decidable (d.alreadySeen id) :=
  inferInstanceAs (Decidable (∃ i, (d.seen.slots i).eqUpTo cmdIdMax id))

/-- SOURCE: commands.c:47-50 -/
def remember (id : CString) (d : SensorCommands) : SensorCommands :=
  { d with seen := d.seen.push (id.printed cmdIdMax) }

/-- The executor queue takes one more request. -/
def hasRoom (d : SensorCommands) : Prop := d.queue.length < executorQueueDepth

instance (d : SensorCommands) : Decidable d.hasRoom := inferInstanceAs (Decidable (_ < _))

/-- Put a request in the queue; false when the queue is full.
SOURCE: executor.c:96-104 -/
def submit (req : CmdRequest) (d : SensorCommands) : Bool × SensorCommands :=
  if d.hasRoom then (true, { d with queue := d.queue ++ [req] }) else (false, d)

/-- Handle one command write.
SOURCE: commands.c:68-105 -/
def commandsHandle (libs : FirmwareLibs) (data : List UInt8) (d : SensorCommands) :
    SensorCommands × List DeviceEvent :=
  match openFrame libs d.pubkey data with
  | none => (d, [])
  | some frame =>
    if d.alreadySeen frame.id then (d, [.acked frame.id])
    else
      match (d.remember frame.id).submit (executorParseAndValidate frame.type frame.params) with
      | (true, d') => (d', [.accepted frame.id, .acked frame.id])
      | (false, d') => (d', [])

end SensorCommands

/-- What can happen to the device: a command write, the executor task taking a request,
or a button gesture submitting one.
SOURCE: executor.c:21-72, executor.c:106-116 -/
inductive DeviceStep where
  | deliver (data : List UInt8)
  | take
  | gesture (req : CmdRequest)
  deriving DecidableEq

/-- The device and everything it accepted and acked so far, oldest first. -/
structure SensorRun where
  device : SensorCommands
  trace : List DeviceEvent := []

/-- The state after one step. A local request that did not validate is not submitted. -/
def SensorRun.step (libs : FirmwareLibs) (s : SensorRun) : DeviceStep → SensorRun
  | .deliver data =>
    let (device, events) := s.device.commandsHandle libs data
    ⟨device, s.trace ++ events⟩
  | .take => { s with device := { s.device with queue := s.device.queue.tail } }
  | .gesture req =>
    if req.status = .ok then { s with device := (s.device.submit req).2 } else s

end OpenRecall.Model
