import Mathlib

/-!
# The relay's link

`RelayService` bridges the wearable to the server. It holds the sensor link it scans with and
the socket it opened when the sensor connected, and rebuilds both after a drop. This is one
generation of the service: the guard that turns away the callbacks of an earlier generation
passes all of these.

Callbacks carry what they came from. Sensor links, and the GATT handles and sockets within a
generation, are numbered as they are made, and the service does not compare the numbers. A drop
runs in two steps, as other threads may run between them: `softDrop` claims the `dropping` flag,
and `handlerRuns` is the rest of its body. Which frames the service sends, and whether the socket
takes them, is up to the run.
-/

set_option autoImplicit false

namespace OpenRecall.Model

/-! ## The backoff schedule -/

namespace Backoff

/-- SOURCE: relay/Backoff.kt:17 -/
def maxAttempts : ℕ := 6

/-- SOURCE: relay/Backoff.kt:19 -/
def steps : List ℕ := [1000, 2000, 4000, 8000, 30000]

/-- SOURCE: relay/Backoff.kt:22-25 -/
def nextBackoffMs (attempt : ℕ) : ℕ := steps.getD attempt (steps.getLastD 0)

/-- SOURCE: relay/Backoff.kt:29 -/
def shouldGiveUp (attempt : ℕ) : Bool := maxAttempts ≤ attempt

end Backoff

/-- What the service publishes of its connection.
SOURCE: relay/RelayConnectionState.kt:19-40 -/
inductive RelayConnectionState where
  | bleScanning
  | bleConnected (address : String)
  | live (sessionId : String)
  | reconnecting (afterMs : ℕ)
  | failed (reason : String)
  deriving DecidableEq

/-- The sensor link of the service: how many GATT handles it has opened, of which the last is
its current one, and whether it has been stopped since it was made.
SOURCE: ble/SensorLink.kt:51-56, ble/SensorLink.kt:67-80 -/
structure RelaySensor where
  id : ℕ := 0
  handles : ℕ := 0
  deviceAddress : Option String := none
  running : Bool := true
  deriving DecidableEq

/-- A link of the relay: its sensor link and its socket, by their numbers. -/
structure RelayLink where
  sensor : ℕ
  socket : Option ℕ
  deriving DecidableEq

/-- A call of `softDrop` that has claimed the flag: its reason, and the link it found. -/
structure DropHandler where
  reason : String
  link : RelayLink
  deriving DecidableEq

/-- The service. `sockets` is how many sockets it has opened, `scheduled` how many reconnects it
has launched, and `dropping` the drop handler that holds the flag.
SOURCE: RelayService.kt:67-110 -/
structure RelayService where
  sessionId : String
  sensor : RelaySensor := {}
  socket : Option ℕ := none
  sockets : ℕ := 0
  reconnectAttempt : ℕ := 0
  reconnectJob : Option ℕ := none
  scheduled : ℕ := 0
  dropping : Option DropHandler := none
  connection : RelayConnectionState := .bleScanning
  deriving DecidableEq

/-- The frames the service sends to the server. -/
inductive ServerFrame where
  | binary
  | text
  deriving DecidableEq

/-- SOURCE: RelayService.kt:262-268 -/
def ServerFrame.sendFailed : ServerFrame → String
  | .binary => "ws binary send failed"
  | .text => "ws text send failed"

/-- What happens to the service: callbacks of its sensor links and sockets, a frame sent, the
body of `softDrop`, and the end of the backoff delay. -/
inductive RelayEvent where
  | scanResult (sensor : ℕ) (address : String)
  | sensorConnected (sensor handle : ℕ)
  | sensorDisconnected (sensor handle : ℕ) (reason : String)
  | socketOpen (socket : ℕ)
  | socketClosed (socket : ℕ) (reason : String)
  | send (frame : ServerFrame) (sent : Bool)
  | handlerRuns (byeSent : Bool)
  | backoffExpired
  deriving DecidableEq

namespace RelayService

/-- The link the service holds. -/
def link (s : RelayService) : RelayLink := ⟨s.sensor.id, s.socket⟩

/-- Claim the flag, unless another handler holds it.
SOURCE: RelayService.kt:291-298 -/
def softDrop (reason : String) (s : RelayService) : RelayService :=
  match s.dropping with
  | some _ => s
  | none => { s with dropping := some ⟨reason, s.link⟩ }

/-- Send a frame; a socket that is gone counts as having taken it.
SOURCE: RelayService.kt:255-268 -/
def execute (frame : ServerFrame) (sent : Bool) (s : RelayService) : RelayService :=
  if s.socket.isSome ∧ ¬ sent then s.softDrop frame.sendFailed else s

/-- SOURCE: RelayService.kt:318-345 -/
def scheduleReconnect (reason : String) (s : RelayService) : RelayService :=
  if Backoff.shouldGiveUp s.reconnectAttempt then { s with connection := .failed reason }
  else
    let delayMs := Backoff.nextBackoffMs s.reconnectAttempt
    { s with
      connection := .reconnecting delayMs
      reconnectAttempt := s.reconnectAttempt + 1
      reconnectJob := some delayMs
      scheduled := s.scheduled + 1 }

/-- The rest of `softDrop`: say goodbye, stop the link and schedule the reconnect.
SOURCE: RelayService.kt:299-310 -/
def finishDrop (byeSent : Bool) (reason : String) (s : RelayService) : RelayService :=
  let stopped :=
    { s.execute .text byeSent with socket := none, sensor.running := false }
  { stopped.scheduleReconnect reason with dropping := none }

/-- The callbacks of the sensor link.
SOURCE: ble/SensorLink.kt:91-107, RelayService.kt:181-220 -/
def onScanResult (sensor : ℕ) (address : String) (s : RelayService) : RelayService :=
  if sensor = s.sensor.id then
    { s with
      sensor.handles := s.sensor.handles + 1
      sensor.deviceAddress := some address }
  else s

/-- SOURCE: RelayService.kt:183-198 -/
def onConnected (s : RelayService) : RelayService :=
  { s with
    connection := .bleConnected (s.sensor.deviceAddress.getD "")
    socket := some s.sockets
    sockets := s.sockets + 1 }

/-- SOURCE: RelayService.kt:225-239 -/
def onOpen (s : RelayService) : RelayService :=
  { s with reconnectAttempt := 0, connection := .live s.sessionId }

/-- The pending reconnect starts a new sensor link.
SOURCE: RelayService.kt:331-344 -/
def reconnect (s : RelayService) : RelayService :=
  { s with
    sensor := { id := s.sensor.id + 1 }
    reconnectJob := none
    connection := .bleScanning }

def step (s : RelayService) : RelayEvent → RelayService
  | .scanResult sensor address => s.onScanResult sensor address
  | .sensorConnected _ _ => s.onConnected
  | .sensorDisconnected _ _ reason => s.softDrop reason
  | .socketOpen _ => s.onOpen
  | .socketClosed _ reason => s.softDrop reason
  | .send frame sent => s.execute frame sent
  | .handlerRuns byeSent =>
    match s.dropping with
    | none => s
    | some handler => s.finishDrop byeSent handler.reason
  | .backoffExpired =>
    match s.reconnectJob with
    | none => s
    | some _ => s.reconnect

/-- The service after `onStartCommand`, scanning. -/
def started (sessionId : String) : RelayService where
  sessionId := sessionId

/-- The event can happen: a callback comes from something the service made, a handler runs when
there is one, and a delay ends when a reconnect is pending. -/
def Possible (s : RelayService) : RelayEvent → Prop
  | .scanResult sensor _ => sensor ≤ s.sensor.id
  | .sensorConnected sensor handle | .sensorDisconnected sensor handle _ =>
    sensor < s.sensor.id ∨ sensor = s.sensor.id ∧ 0 < handle ∧ handle ≤ s.sensor.handles
  | .socketOpen socket | .socketClosed socket _ => socket < s.sockets
  | .send _ _ => True
  | .handlerRuns _ => s.dropping.isSome
  | .backoffExpired => s.reconnectJob.isSome

instance (s : RelayService) (e : RelayEvent) : Decidable (s.Possible e) :=
  match e with
  | .scanResult sensor _ => inferInstanceAs (Decidable (sensor ≤ s.sensor.id))
  | .sensorConnected sensor handle | .sensorDisconnected sensor handle _ =>
    inferInstanceAs (Decidable (sensor < s.sensor.id ∨
      sensor = s.sensor.id ∧ 0 < handle ∧ handle ≤ s.sensor.handles))
  | .socketOpen socket | .socketClosed socket _ =>
    inferInstanceAs (Decidable (socket < s.sockets))
  | .send _ _ => inferInstanceAs (Decidable True)
  | .handlerRuns _ => inferInstanceAs (Decidable (s.dropping.isSome = true))
  | .backoffExpired => inferInstanceAs (Decidable (s.reconnectJob.isSome = true))

end RelayService

end OpenRecall.Model
