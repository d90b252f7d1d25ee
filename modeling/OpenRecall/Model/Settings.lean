import OpenRecall.Model.CommandIssue

/-!
# Desired settings and their reconciliation

The settings store keeps what the user asked for (`SettingsDocument`) and what the
device was last known to do (`DeviceState`, written from acks only). The reconciler
compares the two and issues the one command that is missing; it runs on every `hello`
and on every `PUT` that changes the audio toggle.

`Backend` is the server side of this loop: the store and the command plane. Its three
operations are the route's `putSettings`, the gateway's `onHello` and its
`onCommandAck`.
-/

set_option autoImplicit false

namespace OpenRecall.Model

instance neZero_cadences : NeZero 601 := ⟨by decide⟩

/-- The capture toggles; a cadence outside `0..600` is not a document.
SOURCE: settings/model.py:31-43 -/
structure CaptureSettings where
  audioEnabled : Bool := true
  saveAudio : Bool := true
  visionEnabled : Bool := false
  sleepMode : Bool := false
  snapshotIntervalS : Fin 601 := 60
  deriving DecidableEq

instance neZero_days : NeZero 3651 := ⟨by decide⟩

/-- The days of audio and of snapshot images to keep.
SOURCE: settings/model.py:46-54 -/
structure RetentionSettings where
  audioDays : Fin 3651 := 30
  snapshotDays : Fin 3651 := 30
  deriving DecidableEq

/-- The settings document.
SOURCE: settings/model.py:57-63 -/
structure SettingsDocument where
  capture : CaptureSettings := {}
  retention : RetentionSettings := {}
  deriving DecidableEq

structure CapturePatch where
  audioEnabled : Option Bool := none
  saveAudio : Option Bool := none
  visionEnabled : Option Bool := none
  sleepMode : Option Bool := none
  snapshotIntervalS : Option (Fin 601) := none
  deriving DecidableEq

structure RetentionPatch where
  audioDays : Option (Fin 3651) := none
  snapshotDays : Option (Fin 3651) := none
  deriving DecidableEq

/-- The payload of a `PUT`: the fields to change.
SOURCE: settings/model.py:66-91 -/
structure SettingsPatch where
  capture : Option CapturePatch := none
  retention : Option RetentionPatch := none
  deriving DecidableEq

def CapturePatch.apply (patch : CapturePatch) (current : CaptureSettings) : CaptureSettings where
  audioEnabled := patch.audioEnabled.getD current.audioEnabled
  saveAudio := patch.saveAudio.getD current.saveAudio
  visionEnabled := patch.visionEnabled.getD current.visionEnabled
  sleepMode := patch.sleepMode.getD current.sleepMode
  snapshotIntervalS := patch.snapshotIntervalS.getD current.snapshotIntervalS

def RetentionPatch.apply (patch : RetentionPatch) (current : RetentionSettings) :
    RetentionSettings where
  audioDays := patch.audioDays.getD current.audioDays
  snapshotDays := patch.snapshotDays.getD current.snapshotDays

/-- Apply a patch, leaving unset fields as they are.
SOURCE: settings/model.py:93-105 -/
def SettingsPatch.mergeOnto (patch : SettingsPatch) (current : SettingsDocument) :
    SettingsDocument where
  capture := match patch.capture with
    | none => current.capture
    | some p => p.apply current.capture
  retention := match patch.retention with
    | none => current.retention
    | some p => p.apply current.retention

/-- What the device was last known to do, each entry absent until the first ack.
SOURCE: settings/reconciler.py:33-39 -/
structure DeviceState where
  audioGate : Option Bool := none
  sleepState : Option Bool := none
  snapshotInterval : Option (Fin 601) := none
  deriving DecidableEq

/-- SOURCE: settings/store.py:42-63 -/
structure SettingsStore where
  document : SettingsDocument := {}
  device : DeviceState := {}
  deriving DecidableEq

/-- The server side of the settings loop. -/
structure Backend where
  settings : SettingsStore := {}
  plane : CommandPlane := {}

/-! ## The reconciler -/

/-- SOURCE: settings/reconciler.py:86-94 -/
def sleepRequest : IssueRequest where
  commandType := "sleep"
  idempotencyKey := "reconcile:sleep:on"

/-- SOURCE: settings/reconciler.py:118-126 -/
def snapshotIntervalRequest (seconds : Fin 601) : IssueRequest where
  commandType := "set_snapshot_interval"
  params := [("seconds", .number (.int seconds))]
  idempotencyKey := "reconcile:snapshot_interval"

/-- SOURCE: settings/reconciler.py:143-155 -/
def audioRequest (audioEnabled : Bool) : IssueRequest where
  commandType := if audioEnabled then "start_audio" else "stop_audio"
  idempotencyKey := if audioEnabled then "reconcile:audio:on" else "reconcile:audio:off"

/-- The request that is missing for the device to be where the user wants it: sleep
first, then the cadence, then the audio gate.
SOURCE: settings/reconciler.py:78-147 -/
def wantedRequest (desired : CaptureSettings) (known : DeviceState) : Option IssueRequest :=
  if desired.sleepMode then
    if known.sleepState = some true then none else some sleepRequest
  -- without an ack the device is taken to be at the factory default
  else if known.snapshotInterval.getD ({} : CaptureSettings).snapshotIntervalS
      ≠ desired.snapshotIntervalS then
    some (snapshotIntervalRequest desired.snapshotIntervalS)
  else if known.audioGate = some desired.audioEnabled then none
  else some (audioRequest desired.audioEnabled)

/-- Issue the request that is missing. The first component is the command type that was
issued, if any.
SOURCE: settings/reconciler.py:65-164 -/
def DeviceReconciler.reconcile (kit : CommandKit) (env : Surroundings) (b : Backend) :
    Option String × Backend :=
  match wantedRequest b.settings.document.capture b.settings.device with
  | none => (none, b)
  | some req =>
    match validateAndIssue kit env req b.plane with
    | (.error _, plane) => (none, { b with plane := plane })
    | (.ok _, plane) => (some req.commandType, { b with plane := plane })

/-- Record that the device acked a command of a given type.
SOURCE: settings/reconciler.py:166-187 -/
def DeviceReconciler.noteAcked (commandType : CommandType) (s : SettingsStore) : SettingsStore :=
  match commandType with
  | .sleep => { s with device := { s.device with sleepState := some true } }
  | .setSnapshotInterval =>
    { s with device := { s.device with
        snapshotInterval := some s.document.capture.snapshotIntervalS } }
  | .startAudio => { s with device := { s.device with audioGate := some true } }
  | .stopAudio => { s with device := { s.device with audioGate := some false } }
  | _ => s

/-! ## The operations of the backend -/

namespace Backend

/-- Merge and save a patch; reconcile when it changed the audio toggle.
SOURCE: http/routes/settings.py:40-74 -/
def putSettings (kit : CommandKit) (env : Surroundings) (patch : SettingsPatch) (b : Backend) :
    Backend :=
  let current := b.settings.document
  let merged := patch.mergeOnto current
  let saved : Backend := { b with settings := { b.settings with document := merged } }
  if merged.capture.audioEnabled ≠ current.capture.audioEnabled then
    (DeviceReconciler.reconcile kit env saved).2
  else saved

/-- The part of a `hello` that concerns the device settings.
SOURCE: gateway/core.py:402-416 -/
def onHello (kit : CommandKit) (env : Surroundings) (b : Backend) : Backend :=
  (DeviceReconciler.reconcile kit env b).2

/-- The type of a pending command.
SOURCE: gateway/core.py:450-454 -/
def commandType (now : Time) (commandId : String) (b : Backend) : Option CommandType :=
  ((b.plane.dispatcher.pending now).find? fun sc => sc.command.commandId = commandId).map
    fun sc => sc.command.type

/-- Take an ack: the type is read before the command leaves the pending ones.
SOURCE: gateway/core.py:418-430 -/
def onCommandAck (now : Time) (commandId : String) (b : Backend) : Backend where
  settings := match b.commandType now commandId with
    | none => b.settings
    | some t => DeviceReconciler.noteAcked t b.settings
  plane := { b.plane with dispatcher := b.plane.dispatcher.ack commandId }

end Backend

end OpenRecall.Model
