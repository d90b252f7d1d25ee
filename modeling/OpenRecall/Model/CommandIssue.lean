import OpenRecall.Model.Dispatcher

/-!
# From a request to a signed command

Every caller that wants a command run goes through `validateAndIssue`: the payload is
built and validated against the allowlist and the parameter bounds of its type, the
guardrails look at what the device can do right now, and only then is an id minted and
the command handed to the dispatcher. A refusal leaves the dispatcher and the id
generator as they were.

A `Refusal` carries the values its message quotes; `Refusal.reason` is the wire string.
-/

set_option autoImplicit false

namespace OpenRecall.Model

/-! ## Payload and validation -/

/-- Why a request is refused, with the values the message quotes. -/
inductive Refusal where
  | malformedPayload (commandType : String)
  | emptyIdempotencyKey
  | unknownType (t : CommandType)
  | unknownParam (key : String) (t : CommandType)
  | missingRequiredParam (key : String) (t : CommandType)
  | invalidParamType (key : String) (value : Value)
  | belowMinimum (key : String) (value : Number) (lo : ℤ)
  | aboveMaximum (key : String) (value : Number) (hi : ℤ)
  | capabilityUnavailable (t : CommandType) (missing : String)
  | relayDisconnected
  | batteryBelow (battery : Double) (minimum : ℚ) (t : CommandType)
  | storageBelow (free : ℤ) (needed : Number) (t : CommandType)
  | cameraRecording
  | confidenceTooLow (confidence : Double) (autonomous : ℚ)
  deriving DecidableEq

/-- The wire string of a refusal.
SOURCE: agent/validator_command.py:72-84, agent/guardrails_command.py:48-57 -/
def Refusal.reason : Refusal → String
  | .malformedPayload _ | .unknownType _ => "unknown_command_type"
  | .emptyIdempotencyKey => "invalid_idempotency_key"
  | .unknownParam _ _ => "unknown_param"
  | .missingRequiredParam _ _ => "missing_required_param"
  | .invalidParamType _ _ => "invalid_param_type"
  | .belowMinimum _ _ _ | .aboveMaximum _ _ _ => "param_out_of_range"
  | .capabilityUnavailable _ _ => "capability_unavailable"
  | .relayDisconnected | .batteryBelow _ _ _ | .storageBelow _ _ _ | .cameraRecording =>
    "resource_unavailable"
  | .confidenceTooLow _ _ => "command_confidence_too_low"

/-- The types an issue payload can name.
SOURCE: contracts/types.py:90-98 -/
def issuableTypes : List CommandType :=
  [.capturePhoto, .recordVideo, .startAudio, .stopAudio, .requestBuffer, .recordAudio,
    .startVideo, .stopVideo, .flushSnapshots, .sleep, .setSnapshotInterval]

/-- `Field(ge=0.0, le=1.0)`: a value below or above the bounds is rejected, so NaN is not.
SOURCE: contracts/types.py:104, contracts/types.py:120 -/
def UnitInterval (confidence : Double) : Prop := ¬ confidence.lt 0 ∧ ¬ confidence.gt 1

instance : DecidablePred UnitInterval := fun confidence =>
  inferInstanceAs (Decidable (¬ confidence.lt 0 = true ∧ ¬ confidence.gt 1 = true))

/-- The intent to issue a command: its type is one of the literals and its confidence within
bounds, or the payload cannot be built.
SOURCE: contracts/types.py:79-104 -/
structure IssueCommandPayload where
  commandType : CommandType
  issuable : commandType ∈ issuableTypes
  params : Params
  idempotencyKey : String
  confidence : Double
  confidence_range : UnitInterval confidence

/-- Build a payload from a type name.
SOURCE: commands/issue.py:95-108 -/
def IssueCommandPayload.ofRequest (commandType : String) (params : Params)
    (idempotencyKey : String) (confidence : Double) : Except Refusal IssueCommandPayload :=
  match h : issuableTypes.find? fun t => t.name = commandType with
  | none => .error (.malformedPayload commandType)
  | some t =>
    if hconfidence : UnitInterval confidence then
      .ok ⟨t, List.mem_of_find?_eq_some h, params, idempotencyKey, confidence, hconfidence⟩
    else .error (.malformedPayload commandType)

/-- The types that may be issued.
SOURCE: agent/validator_command.py:52-69 -/
def allowlist : List CommandType :=
  [.capturePhoto, .recordVideo, .startAudio, .stopAudio, .requestBuffer, .recordAudio,
    .startVideo, .stopVideo, .flushSnapshots, .sleep, .setSnapshotInterval]

/-- A numeric parameter and its inclusive bounds. -/
structure FieldSchema where
  key : String
  lo : ℤ
  hi : ℤ

/-- The parameters of one type. -/
structure TypeSchema where
  required : List String := []
  optional : List String := []
  fields : List FieldSchema := []

/-- The schema of each allowlisted type.
SOURCE: agent/validator_command.py:97-147 -/
def typeSchema : CommandType → Option TypeSchema
  | .capturePhoto | .startAudio | .stopAudio | .startVideo | .stopVideo | .flushSnapshots
  | .sleep => some {}
  | .recordVideo => some { required := ["duration_s"], fields := [⟨"duration_s", 1, 30⟩] }
  | .requestBuffer => some { required := ["seconds"], fields := [⟨"seconds", 1, 60⟩] }
  | .recordAudio => some { required := ["duration_s"], fields := [⟨"duration_s", 1, 120⟩] }
  | .setSnapshotInterval => some { required := ["seconds"], fields := [⟨"seconds", 0, 600⟩] }
  | .playAudio | .displayText | .showStatus => none

/-- A command whose parameters passed validation: they are all numbers.
SOURCE: agent/validator_command.py:158-171 -/
structure ValidatedCommand where
  commandType : CommandType
  params : List (String × Number)
  idempotencyKey : String
  confidence : Double

/-- The value of a numeric parameter within its bounds.
SOURCE: agent/validator_command.py:242-269 -/
def FieldSchema.check (f : FieldSchema) : Value → Except Refusal Number
  | .number n =>
    if n.lt f.lo then .error (.belowMinimum f.key n f.lo)
    else if n.gt f.hi then .error (.aboveMaximum f.key n f.hi)
    else .ok n
  | value => .error (.invalidParamType f.key value)

/-- The cleaned parameters: those of the schema's fields that are present.
SOURCE: agent/validator_command.py:240-269 -/
def cleanParams (params : Params) : List FieldSchema → Except Refusal (List (String × Number))
  | [] => .ok []
  | f :: fs =>
    match params.lookup f.key with
    | none => cleanParams params fs
    | some value => do
      let n ← f.check value
      let rest ← cleanParams params fs
      return (f.key, n) :: rest

/-- Validate a payload against the allowlist and its type's schema.
SOURCE: agent/validator_command.py:199-287 -/
def StrictCommandValidator.validate (payload : IssueCommandPayload) :
    Except Refusal ValidatedCommand :=
  if payload.idempotencyKey = "" then .error .emptyIdempotencyKey
  else if payload.commandType ∉ allowlist then .error (.unknownType payload.commandType)
  else match typeSchema payload.commandType with
    | none => .error (.unknownType payload.commandType)
    | some schema =>
      match payload.params.find? fun e => e.1 ∉ schema.required ++ schema.optional with
      | some e => .error (.unknownParam e.1 payload.commandType)
      | none =>
        match schema.required.find? fun key => payload.params.lookup key = none with
        | some key => .error (.missingRequiredParam key payload.commandType)
        | none => do
          let cleaned ← cleanParams payload.params schema.fields
          return ⟨payload.commandType, cleaned, payload.idempotencyKey, payload.confidence⟩

/-! ## Guardrails -/

/-- What the device advertises.
SOURCE: contracts/types.py:297-310 -/
structure CapabilitySet where
  camera : Bool := false
  microphone : Bool := true
  retrospectiveBuffer : Bool := true
  deriving DecidableEq

/-- The device's resources, as last reported.
SOURCE: contracts/types.py:313-322 -/
structure DeviceResourceStatus where
  batteryPct : Double := .finite 1
  storageFreeBytes : ℤ := 2 ^ 30
  recording : Bool := false
  relayConnected : Bool := true
  deriving DecidableEq

/-- The capability a type needs and its name in the refusal.
SOURCE: agent/guardrails_command.py:64-101 -/
def capabilityRequirement : CommandType → Option ((CapabilitySet → Bool) × String)
  | .capturePhoto | .recordVideo | .startVideo | .stopVideo | .flushSnapshots =>
    some (CapabilitySet.camera, "camera")
  | .startAudio | .stopAudio | .recordAudio => some (CapabilitySet.microphone, "microphone")
  | .requestBuffer => some (CapabilitySet.retrospectiveBuffer, "retrospective_buffer")
  | _ => none

/-- The double `0.10`. -/
def batteryMinForLongOp : ℚ := 3602879701896397 / 36028797018963968

/-- The double `0.05`. -/
def batteryMinForQuickOp : ℚ := 3602879701896397 / 72057594037927936

/-- The double `0.85`, the confidence from which a command runs without confirmation. -/
def confidenceAutonomous : ℚ := 7656119366529843 / 9007199254740992

/-- A number that Python takes for false. -/
def Number.isZero : Number → Bool
  | .int n => n = 0
  | .float (.finite q) => q = 0
  | .float _ => false

/-- `params.get("duration_s") or params.get("seconds") or 0`.
SOURCE: agent/guardrails_command.py:216 -/
def ValidatedCommand.seconds (command : ValidatedCommand) : Number :=
  match (command.params.lookup "duration_s").filter (!·.isZero) with
  | some n => n
  | none => ((command.params.lookup "seconds").filter (!·.isZero)).getD (.int 0)

/-- The battery a command needs.
SOURCE: agent/guardrails_command.py:232-248 -/
def minBatteryFor (command : ValidatedCommand) : ℚ :=
  match command.commandType with
  | .sleep | .setSnapshotInterval => 0
  | .recordVideo | .requestBuffer =>
    if command.seconds.gt 10 then batteryMinForLongOp else batteryMinForQuickOp
  | _ => batteryMinForQuickOp

/-- `n` bytes a second for so many seconds. -/
def Number.timesBytes (n : ℤ) : Number → Number
  | .int k => .int (k * n)
  | .float (.finite q) => .float (.finite (q * n))
  | .float x => .float x

/-- One mebibyte a second. -/
def storageBytesPerSecond : ℤ := 2 ^ 20

/-- What the device lacks for a command right now.
SOURCE: agent/guardrails_command.py:199-230 -/
def resourceIssue (resources : DeviceResourceStatus) (command : ValidatedCommand) :
    Option Refusal :=
  if ¬ resources.relayConnected then some .relayDisconnected
  else if resources.batteryPct.lt (minBatteryFor command) then
    some (.batteryBelow resources.batteryPct (minBatteryFor command) command.commandType)
  else
    let needed := command.seconds.timesBytes storageBytesPerSecond
    if command.commandType ∈ [.recordVideo, .requestBuffer, .recordAudio]
        ∧ needed.gt resources.storageFreeBytes then
      some (.storageBelow resources.storageFreeBytes needed command.commandType)
    else if command.commandType = .capturePhoto ∧ resources.recording then
      some .cameraRecording
    else none

/-- Check a validated command against the device as it is now.
SOURCE: agent/guardrails_command.py:155-197 -/
def StrictCommandGuardrails.check (capabilities : CapabilitySet)
    (resources : DeviceResourceStatus) (autonomous : ℚ) (command : ValidatedCommand) :
    Except Refusal ValidatedCommand :=
  match (capabilityRequirement command.commandType).filter fun r => !r.1 capabilities with
  | some (_, missing) => .error (.capabilityUnavailable command.commandType missing)
  | none =>
    match resourceIssue resources command with
    | some refusal => .error refusal
    | none =>
      if command.confidence.lt autonomous then
        .error (.confidenceTooLow command.confidence autonomous)
      else .ok command

/-! ## Issuing -/

/-- The id generator: its `n`-th id, never the same twice.
SOURCE: contracts/id_generator.py:14-28 -/
structure IdGenerator where
  new : ℕ → String
  new_injective : Function.Injective new

/-- What a command needs that no call changes: the signer and the id generator. -/
structure CommandKit where
  signer : CommandSigner
  ids : IdGenerator

/-- What one call reads from its surroundings: the clock, and the capability provider's
snapshot (`none` when no provider is wired). -/
structure Surroundings where
  now : Time
  capabilities : Option CapabilitySet := none
  resources : Option DeviceResourceStatus := none
  deriving DecidableEq

/-- The state an issue moves: the dispatcher and the number of ids minted so far. -/
structure CommandPlane where
  dispatcher : CommandDispatcher := {}
  minted : ℕ := 0

/-- How long a command stays valid: five minutes.
SOURCE: commands/issue.py:43 -/
def defaultTtl : Time := 300000000

/-- A request for a command, with the confidence of an explicit request as default.
SOURCE: commands/issue.py:70-83 -/
structure IssueRequest where
  commandType : String
  params : Params := []
  idempotencyKey : String
  sessionId : String := ""
  confidence : Double := .finite 1
  autonomous : ℚ := confidenceAutonomous
  ttl : Time := defaultTtl

/-- The command an accepted request becomes.
SOURCE: commands/issue.py:139-147 -/
def ValidatedCommand.toCommand (command : ValidatedCommand) (commandId sessionId : String)
    (now ttl : Time) : Command where
  commandId := commandId
  sessionId := sessionId
  type := command.commandType
  params := command.params.map fun e => (e.1, .number e.2)
  issuedAt := now
  expiresAt := now + ttl
  idempotencyKey := some command.idempotencyKey

/-- The validation and the guardrails of a request.
SOURCE: commands/issue.py:94-135 -/
def IssueRequest.vet (req : IssueRequest) (env : Surroundings) :
    Except Refusal ValidatedCommand := do
  let payload ← IssueCommandPayload.ofRequest req.commandType req.params req.idempotencyKey
    req.confidence
  let validated ← StrictCommandValidator.validate payload
  StrictCommandGuardrails.check (env.capabilities.getD {}) (env.resources.getD {})
    req.autonomous validated

/-- Validate, guard, sign and track one command.
SOURCE: commands/issue.py:70-155 -/
def validateAndIssue (kit : CommandKit) (env : Surroundings) (req : IssueRequest)
    (plane : CommandPlane) : Except Refusal SignedCommand × CommandPlane :=
  match req.vet env with
  | .error refusal => (.error refusal, plane)
  | .ok validated =>
    let (signed, dispatcher) := plane.dispatcher.issue kit.signer env.now
      (validated.toCommand (kit.ids.new plane.minted) req.sessionId env.now req.ttl)
    (.ok signed, ⟨dispatcher, plane.minted + 1⟩)

/-- **What a request can do**: refused, it changes nothing; admitted, it is handed to the
dispatcher under the next id.
SOURCE: commands/issue.py:70-155 -/
theorem validateAndIssue_cases (kit : CommandKit) (env : Surroundings) (req : IssueRequest)
    (plane : CommandPlane) :
    (∃ refusal, req.vet env = .error refusal ∧
      validateAndIssue kit env req plane = (.error refusal, plane)) ∨
    (∃ validated, req.vet env = .ok validated ∧
      ∃ signed, validateAndIssue kit env req plane = (.ok signed,
        ⟨(plane.dispatcher.issue kit.signer env.now (validated.toCommand
          (kit.ids.new plane.minted) req.sessionId env.now req.ttl)).2, plane.minted + 1⟩)) := by
  unfold validateAndIssue
  cases h : req.vet env with
  | error refusal => exact Or.inl ⟨refusal, rfl, rfl⟩
  | ok validated => exact Or.inr ⟨validated, rfl, _, rfl⟩

end OpenRecall.Model
