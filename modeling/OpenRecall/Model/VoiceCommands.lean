import OpenRecall.Model.AgentAction
import OpenRecall.Model.CommandDetector

/-!
# From a spoken command to the device

A candidate of the detector goes to a model, which says whether the wearer commands the device. A
command in its reply is vetted and issued like any other, under a key that is made of the session, the
type and what was said. The event it came from is remembered by the id of the command.

The dispatcher is the one that every other way to issue commands uses. The digest that the key is made
with is an argument.
-/

set_option autoImplicit false

namespace OpenRecall.Model

open Foundation

/-- The types that can be spoken.
SOURCE: agent/command_detector.py:33-36 -/
def allowedTypes : List String :=
  ["capture_photo", "record_video", "start_video", "stop_video", "start_audio", "stop_audio",
    "flush_snapshots"]

/-- The settings of both stages; the threshold is the double `0.8` unless it is set.
SOURCE: agent/config.py:379-407 -/
structure VoiceConfig extends CommandDetectorConfig where
  confidenceThreshold : ℚ := 3602879701896397 / 4503599627370496
  threshold_nonneg : 0 ≤ confidenceThreshold := by norm_num
  threshold_le_one : confidenceThreshold ≤ 1 := by norm_num

/-- SOURCE: agent/command_detector.py:200-204 -/
structure Stage2Result where
  commandType : Option String := none
  params : Params := []
  confidence : Double := .finite 0

/-- Each run of space as one space. -/
def collapseSpaces (text : Text) : Text :=
  (text.splitBy fun a b => isSpace a == isSpace b).flatMap fun run =>
    if run.all isSpace then [' '] else run

/-- SOURCE: agent/command_detector.py:39-42 -/
def deriveIdempotencyKey (py : LowerCase) (sha1 : String → String)
    (sessionId commandType text : String) : String :=
  let norm := String.ofList (collapseSpaces (py.lower (stripText text.toList)))
  "voice:" ++ sha1 (sessionId ++ "|" ++ commandType ++ "|" ++ norm)

/-- A confidence within bounds; a Boolean is a number too.
SOURCE: agent/command_detector.py:231-233 -/
def Json.confidence : Json → Option Double
  | .bool b => some (.finite (if b then 1 else 0))
  | .number (.int n) => if 0 ≤ n ∧ n ≤ 1 then some (.finite n) else none
  | .number (.float x) => if x.ge 0 ∧ x.le 1 then some x else none
  | _ => none

/-- The command of a reply that has a confidence.
SOURCE: agent/command_detector.py:234-243 -/
def stage2Command (command : Option Json) (confidence : Double) : Stage2Result :=
  match command with
  | some (.object _ fields) =>
    match fields.lookup "type", (fields.lookup "params").getD (.object "" []) with
    | some (.str ctype), .object _ params =>
      if ctype ∈ allowedTypes then
        ⟨some ctype, params.map fun e => (e.1, e.2.toValue), confidence⟩
      else { confidence := confidence }
    | _, _ => { confidence := confidence }
  | _ => { confidence := confidence }

/-- None stands for an exception.
SOURCE: agent/command_detector.py:224-243 -/
def parseStage2Reply (readers : TextReaders) (raw : String) : Option Stage2Result :=
  match readers.loads raw with
  | .raised => none
  | .decodeError => some {}
  | .value (.object _ data) =>
    match (data.lookup "confidence").bind Json.confidence with
    | none => some {}
    | some confidence => some (stage2Command (data.lookup "command") confidence)
  | .value _ => some {}

/-- What a check reads besides the reply: the clock when the command is made, for its end and when it
is issued, and what the device can do. -/
structure Stage2Env where
  issuedAt : Time
  expiresFrom : Time
  now : Time
  capabilities : CapabilitySet
  resources : DeviceResourceStatus

/-- What the detector keeps, with the checks that run and the dispatcher; and by command the event that
it came from.
SOURCE: agent/command_detector.py:94-100 -/
structure VoiceCommands where
  detector : CommandDetector := {}
  running : List Stage2Launch := []
  plane : CommandPlane := {}
  provenance : Dict String String := .empty

namespace VoiceCommands

section

variable (kit : CommandKit) (py : LowerCase) (sha1 : String → String) (readers : TextReaders)
  (cfg : VoiceConfig)

/-- The key of a candidate's command. -/
def keyOf (launch : Stage2Launch) (ctype : String) : String :=
  deriveIdempotencyKey py sha1 launch.sessionId ctype launch.event.text

/-- What is asked of the command path for a candidate.
SOURCE: agent/command_detector.py:165-178 -/
def request (launch : Stage2Launch) (ctype : String) (result : Stage2Result) : IssueRequest where
  commandType := ctype
  params := result.params
  idempotencyKey := keyOf py sha1 launch ctype
  sessionId := launch.sessionId
  confidence := result.confidence
  autonomous := cfg.confidenceThreshold

/-- The checks of the command path.
SOURCE: agent/command_detector.py:166-182 -/
def vet (env : Stage2Env) (launch : Stage2Launch) (ctype : String) (result : Stage2Result) :
    Except Refusal ValidatedCommand :=
  (request py sha1 cfg launch ctype result).vet
    ⟨env.issuedAt, some env.capabilities, some env.resources⟩

/-- SOURCE: agent/command_detector.py:183-191 -/
def commandOf (env : Stage2Env) (launch : Stage2Launch) (validated : ValidatedCommand)
    (s : VoiceCommands) : Command :=
  { validated.toCommand (kit.ids.new s.plane.minted) launch.sessionId env.issuedAt defaultTtl with
    expiresAt := env.expiresFrom + defaultTtl }

/-- SOURCE: agent/command_detector.py:192-193 -/
def issue (env : Stage2Env) (launch : Stage2Launch) (validated : ValidatedCommand)
    (s : VoiceCommands) : VoiceCommands :=
  let (signed, dispatcher) :=
    s.plane.dispatcher.issue kit.signer env.now (commandOf kit env launch validated s)
  { s with
    plane := ⟨dispatcher, s.plane.minted + 1⟩
    provenance := s.provenance.set signed.command.commandId launch.event.eventId }

/-- SOURCE: agent/command_detector.py:160-193 -/
def dispatch (env : Stage2Env) (launch : Stage2Launch) (ctype : String) (result : Stage2Result)
    (s : VoiceCommands) : VoiceCommands :=
  match vet py sha1 cfg env launch ctype result with
  | .error _ => s
  | .ok validated => issue kit env launch validated s

/-- What a reply leads to; without one the model raised.
SOURCE: agent/command_detector.py:146-156 -/
def takeReply (env : Stage2Env) (launch : Stage2Launch) (reply : Option String)
    (s : VoiceCommands) : VoiceCommands :=
  match reply.bind (parseStage2Reply readers) with
  | none => s
  | some result =>
    match result.commandType with
    | none => s
    | some ctype =>
      if result.confidence.lt cfg.confidenceThreshold then s
      else dispatch kit py sha1 cfg env launch ctype result s

/-- A check ends, whatever came of it.
SOURCE: agent/command_detector.py:143-158 -/
def runStage2 (env : Stage2Env) (i : ℕ) (reply : Option String) (s : VoiceCommands) :
    VoiceCommands :=
  match s.running[i]? with
  | none => s
  | some launch =>
    let s := takeReply kit py sha1 readers cfg env launch reply s
    { s with
      detector := s.detector.finished launch.sessionId
      running := s.running.eraseIdx i }

/-- SOURCE: agent/command_detector.py:102-141 -/
def feed (speakerRegistry : Option SpeakerRegistry) (now : ℚ) (sessionId : String)
    (event : CaptureEvent) (s : VoiceCommands) : VoiceCommands :=
  let (detector, launch) :=
    s.detector.feed cfg.toCommandDetectorConfig py speakerRegistry now sessionId event
  { s with detector := detector, running := s.running ++ launch.toList }

end

end VoiceCommands

/-- A transcript event is heard, a check ends, or something else uses the dispatcher: a request, an ack,
a transition. -/
inductive VoiceStep where
  | heard (speakerRegistry : Option SpeakerRegistry) (now : ℚ) (sessionId : String)
      (event : CaptureEvent)
  | answered (env : Stage2Env) (i : ℕ) (reply : Option String)
  | request (env : Surroundings) (req : IssueRequest)
  | ack (commandId : String)
  | transition (now : Time) (commandId : String) (dst : CommandStatus) (detail : Params)

def VoiceCommands.step (kit : CommandKit) (py : LowerCase) (sha1 : String → String)
    (readers : TextReaders) (cfg : VoiceConfig) (s : VoiceCommands) : VoiceStep → VoiceCommands
  | .heard speakerRegistry now sessionId event => s.feed py cfg speakerRegistry now sessionId event
  | .answered env i reply => s.runStage2 kit py sha1 readers cfg env i reply
  | .request env req => { s with plane := (validateAndIssue kit env req s.plane).2 }
  | .ack commandId =>
    { s with plane := { s.plane with dispatcher := s.plane.dispatcher.ack commandId } }
  | .transition now commandId dst detail =>
    { s with plane := { s.plane with
        dispatcher := s.plane.dispatcher.step kit.signer ⟨now, .transition commandId dst detail⟩ } }

end OpenRecall.Model
