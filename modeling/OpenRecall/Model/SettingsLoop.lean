import OpenRecall.Model.Settings

/-!
# The settings loop with its device

The backend of `Settings` and one device, joined by a link that delays and repeats
messages. A device executes each command the first time it receives it and remembers
what it executed; its audio gate is open at boot and its cadence is its factory default
until a command sets it. Acks travel on their own and may reach the backend late, twice
or in another order.
-/

set_option autoImplicit false

namespace OpenRecall.Model

open Foundation

/-- A device: the commands it executed, newest first, its audio gate, and the cadence it
was commanded to, if any. -/
structure Wearable where
  executed : List SignedCommand := []
  audioEnabled : Bool := true
  snapshotInterval : Option Value := none
  deriving DecidableEq

/-- Execute a command unless its id was executed before. -/
def Wearable.receive (sc : SignedCommand) (w : Wearable) : Wearable :=
  if ∃ e ∈ w.executed, e.command.commandId = sc.command.commandId then w
  else
    let w' := { w with executed := sc :: w.executed }
    match sc.command.type with
    | .startAudio => { w' with audioEnabled := true }
    | .stopAudio => { w' with audioEnabled := false }
    | .setSnapshotInterval => { w' with snapshotInterval := sc.command.params.lookup "seconds" }
    | _ => w'

/-- The backend and the device. -/
structure SettingsLoop where
  backend : Backend := {}
  device : Wearable := {}

/-- What can happen next. -/
inductive LoopEvent where
  | put (patch : SettingsPatch)
  | hello
  | deliver (sc : SignedCommand)
  | ack (commandId : String)
  deriving DecidableEq

/-- An event and what the backend reads when it happens. -/
structure LoopStep where
  env : Surroundings
  event : LoopEvent
  deriving DecidableEq

namespace SettingsLoop

/-- The state after one event. -/
def step (kit : CommandKit) (s : SettingsLoop) : LoopStep → SettingsLoop
  | ⟨env, .put patch⟩ => { s with backend := s.backend.putSettings kit env patch }
  | ⟨env, .hello⟩ => { s with backend := s.backend.onHello kit env }
  | ⟨_, .deliver sc⟩ => { s with device := s.device.receive sc }
  | ⟨env, .ack commandId⟩ => { s with backend := s.backend.onCommandAck env.now commandId }

/-- The link invents nothing: it delivers commands the server signed, and acks ids the
device executed. -/
def Honest (s : SettingsLoop) (st : LoopStep) : Prop :=
  match st.event with
  | .deliver sc => s.backend.plane.dispatcher.signed.get? sc.command.commandId = some sc
  | .ack commandId => ∃ sc ∈ s.device.executed, sc.command.commandId = commandId
  | _ => True

instance (s : SettingsLoop) (st : LoopStep) : Decidable (s.Honest st) := by
  obtain ⟨env, event⟩ := st
  cases event <;> unfold Honest <;> infer_instance

/-- No command is issued and unacked. -/
def Quiescent (s : SettingsLoop) : Prop :=
  ∀ id ∈ s.backend.plane.dispatcher.signed.keys, id ∈ s.backend.plane.dispatcher.acked

instance (s : SettingsLoop) : Decidable s.Quiescent := by
  unfold Quiescent
  infer_instance

/-- The device does what the user asked for: its audio gate, and its cadence once it was
commanded. -/
def Truthful (s : SettingsLoop) : Prop :=
  s.device.audioEnabled = s.backend.settings.document.capture.audioEnabled ∧
  ∀ v ∈ s.device.snapshotInterval,
    v = .number (.int s.backend.settings.document.capture.snapshotIntervalS)

instance (s : SettingsLoop) : Decidable s.Truthful := by
  unfold Truthful
  infer_instance

end SettingsLoop

end OpenRecall.Model
