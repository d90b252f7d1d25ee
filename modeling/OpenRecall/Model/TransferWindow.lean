import Mathlib

/-!
# The transfer window

Bluetooth and WiFi share one radio. To transfer files a task suspends Bluetooth, brings up an access
point and a server, waits, and takes everything down again. Meanwhile the Bluetooth host handles its
events in a task of its own, which may advertise again after a connection has ended. A step is the
next access of one task to what is shared, or an event of the radio.

Advertising is started only when there is no connection, of which there is at most one.
-/

set_option autoImplicit false

namespace OpenRecall.Model

namespace TransferWindow

/-- An event that the Bluetooth host has still to handle.
SOURCE: ble_link.c:138-205 -/
inductive GapEvent where
  | connect (ok : Bool)
  | disconnect
  | advComplete
  deriving DecidableEq

/-- What the host does next: it takes an event, or has one under way.
SOURCE: ble_link.c:138-205 -/
inductive HostPc where
  | idle
  | check
  | checkIdle
  | advertise
  | downshift
  deriving DecidableEq

/-- What the transfer task does next. A wait is one of so many seconds that remain, and from there on
the task knows what of server and access point it has started.
SOURCE: transfer.c:295-430 -/
inductive TransferPc where
  | suspend
  | advStop
  | terminate
  | mount
  | wifiInit
  | netif
  | setMode
  | setConfig
  | wifiStart
  | serverStart
  | hold (remaining : ℕ)
  | serverStop (server wifiStarted : Bool)
  | wifiStop (wifiStarted : Bool)
  | resume
  | advertise
  | finish
  deriving DecidableEq

/-- SOURCE: config.h:314 -/
def windowS : ℕ := 600

/-- The radio, the variables that the tasks share, and the tasks; `waited` is how many seconds the
latest window has waited. -/
structure Sensor where
  advertising : Bool := true
  link : Bool := false
  events : List GapEvent := []
  driver : Bool := false
  wifi : Bool := false
  server : Bool := false
  suspended : Bool := false
  connected : Bool := false
  wifiInited : Bool := false
  host : HostPc := .idle
  transfer : Option TransferPc := none
  waited : ℕ := 0
  deriving DecidableEq

/-- Start to advertise, when the host can: what is under way already stays so.
SOURCE: ble_link.c:235-244 -/
def advStart (ok : Bool) (s : Sensor) : Bool × Sensor :=
  if s.advertising then (true, s)
  else if s.link ∨ ok = false then (false, s)
  else (true, { s with advertising := true })

/-! ## The host -/

/-- Take an event.
SOURCE: ble_link.c:138-205 -/
def handle (event : GapEvent) (s : Sensor) : Sensor :=
  match event with
  | .connect true => { s with connected := true }
  | .connect false => { s with host := .check }
  | .disconnect => { s with connected := false, host := .check }
  | .advComplete => { s with host := .checkIdle }

/-- The next access of the host.
SOURCE: ble_link.c:138-205 -/
def hostStep (ok : Bool) (s : Sensor) : Sensor :=
  match s.host with
  | .idle =>
    match s.events with
    | [] => s
    | event :: rest => handle event { s with events := rest }
  | .check => { s with host := if s.suspended then .idle else .advertise }
  | .checkIdle => { s with host := if s.suspended ∨ s.connected then .idle else .downshift }
  | .advertise => { (advStart ok s).2 with host := .idle }
  | .downshift =>
    let (started, s) := advStart ok s
    { s with host := if started then .idle else .advertise }

/-! ## The transfer task -/

/-- The next access of the transfer task, and whether what it calls works; a wait ends early when it
does not.
SOURCE: transfer.c:295-430, ble_link.c:368-423 -/
def transferStep (ok : Bool) (s : Sensor) : TransferPc → Sensor
  | .suspend => { s with suspended := true, transfer := some .advStop }
  | .advStop => { s with advertising := false, transfer := some .terminate }
  -- the connection ends later, with an event
  | .terminate => { s with transfer := some .mount }
  | .mount => { s with transfer := some (if ok then .wifiInit else .serverStop false false) }
  | .wifiInit =>
    if s.wifiInited then { s with transfer := some .setMode }
    else if ok then { s with driver := true, transfer := some .netif }
    else { s with transfer := some (.serverStop false false) }
  | .netif =>
    if ok then { s with wifiInited := true, transfer := some .setMode }
    else { s with driver := false, transfer := some (.serverStop false false) }
  | .setMode => { s with transfer := some (if ok then .setConfig else .serverStop false false) }
  | .setConfig => { s with transfer := some (if ok then .wifiStart else .serverStop false false) }
  | .wifiStart =>
    if ok then { s with wifi := true, transfer := some .serverStart }
    else { s with transfer := some (.serverStop false false) }
  | .serverStart =>
    if ok then { s with server := true, waited := 0, transfer := some (.hold windowS) }
    else { s with transfer := some (.serverStop false true) }
  | .hold 0 => { s with transfer := some (.serverStop true true) }
  | .hold (remaining + 1) =>
    { s with
      waited := s.waited + 1
      transfer := some (if ok then .hold remaining else .serverStop true true) }
  | .serverStop server wifiStarted =>
    { s with
      server := s.server && !(server && ok)
      transfer := some (.wifiStop wifiStarted) }
  | .wifiStop wifiStarted =>
    { s with
      wifi := s.wifi && !(wifiStarted && ok)
      transfer := some .resume }
  | .resume => { s with suspended := false, transfer := some .advertise }
  | .advertise => { (advStart ok s).2 with transfer := some .finish }
  | .finish => { s with transfer := none }

/-- SOURCE: transfer.c:434-447 -/
def transferFlush (ok : Bool) (s : Sensor) : Sensor :=
  if s.transfer.isSome ∨ ok = false then s else { s with transfer := some .suspend }

/-! ## The radio -/

/-- What the phone and the radio do: a phone connects, or tries to; the fast advertising has lasted
its time; the connection ends. -/
inductive RadioEvent where
  | connects
  | connectFails
  | advExpires
  | drops
  deriving DecidableEq

def radio (s : Sensor) : RadioEvent → Sensor
  | .connects =>
    if s.advertising then
      { s with advertising := false, link := true, events := s.events ++ [.connect true] }
    else s
  | .connectFails =>
    if s.advertising then { s with advertising := false, events := s.events ++ [.connect false] } else s
  | .advExpires =>
    if s.advertising then { s with advertising := false, events := s.events ++ [.advComplete] } else s
  | .drops => if s.link then { s with link := false, events := s.events ++ [.disconnect] } else s

/-! ## Runs -/

inductive RadioStep where
  | flush (ok : Bool)
  | host (ok : Bool)
  | transfer (ok : Bool)
  | radio (event : RadioEvent)
  deriving DecidableEq

def step (s : Sensor) : RadioStep → Sensor
  | .flush ok => transferFlush ok s
  | .host ok => hostStep ok s
  | .transfer ok =>
    match s.transfer with
    | none => s
    | some pc => transferStep ok s pc
  | .radio event => radio s event

end TransferWindow

end OpenRecall.Model
