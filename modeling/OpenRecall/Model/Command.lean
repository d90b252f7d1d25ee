import OpenRecall.Foundation.Dict

/-!
# Device commands

The data of the command plane: a command as the server issues it, its signed
envelope, and the lifecycle a command moves through. Wall-clock times are integers
(microseconds since the epoch); the code only compares and shifts them.

The canonical bytes of a command and the Ed25519 primitive come from libraries, so a
`CommandSigner` carries both as functions.
-/

set_option autoImplicit false

namespace OpenRecall.Model

/-- A wall-clock instant, in microseconds. -/
abbrev Time := ℤ

/-- A double as Python and cJSON hold it: a finite value or one of the three others. -/
inductive Double where
  | finite (q : ℚ)
  | infinite (negative : Bool)
  | nan
  deriving DecidableEq

/-- `x < q`, which no NaN satisfies. -/
def Double.lt : Double → ℚ → Bool
  | .finite x, q => x < q
  | .infinite negative, _ => negative
  | .nan, _ => false

/-- `x > q`, which no NaN satisfies. -/
def Double.gt : Double → ℚ → Bool
  | .finite x, q => x > q
  | .infinite negative, _ => !negative
  | .nan, _ => false

/-- A JSON number as Python reads it: an int or a float. -/
inductive Number where
  | int (n : ℤ)
  | float (x : Double)
  deriving DecidableEq

/-- `x < q` for an int or a float. -/
def Number.lt : Number → ℚ → Bool
  | .int n, q => n < q
  | .float x, q => x.lt q

/-- `x > q` for an int or a float. -/
def Number.gt : Number → ℚ → Bool
  | .int n, q => n > q
  | .float x, q => x.gt q

/-- A value of a `dict[str, Any]`. Lists and objects are kept as their text: no modelled
function looks inside one. -/
inductive Value where
  | none
  | bool (b : Bool)
  | number (n : Number)
  | str (s : String)
  | other (text : String)
  deriving DecidableEq

/-- A parameter object, in insertion order.
SOURCE: commands/model.py:51 -/
abbrev Params := List (String × Value)

/-- The types a command can have.
SOURCE: commands/model.py:22-42 -/
inductive CommandType where
  | capturePhoto
  | recordVideo
  | startAudio
  | stopAudio
  | playAudio
  | displayText
  | showStatus
  | requestBuffer
  | recordAudio
  | startVideo
  | stopVideo
  | flushSnapshots
  | sleep
  | setSnapshotInterval
  deriving DecidableEq

/-- The wire string of a type. -/
def CommandType.name : CommandType → String
  | .capturePhoto => "capture_photo"
  | .recordVideo => "record_video"
  | .startAudio => "start_audio"
  | .stopAudio => "stop_audio"
  | .playAudio => "play_audio"
  | .displayText => "display_text"
  | .showStatus => "show_status"
  | .requestBuffer => "request_buffer"
  | .recordAudio => "record_audio"
  | .startVideo => "start_video"
  | .stopVideo => "stop_video"
  | .flushSnapshots => "flush_snapshots"
  | .sleep => "sleep"
  | .setSnapshotInterval => "set_snapshot_interval"

/-- One device command.
SOURCE: commands/model.py:45-58 -/
structure Command where
  commandId : String
  sessionId : String
  type : CommandType
  params : Params := []
  issuedAt : Time
  expiresAt : Time
  idempotencyKey : Option String := none
  deriving DecidableEq

/-- A command is stale from its expiry on.
SOURCE: commands/model.py:68-69 -/
def Command.isExpired (c : Command) (now : Time) : Prop := now ≥ c.expiresAt

instance (c : Command) (now : Time) : Decidable (c.isExpired now) :=
  inferInstanceAs (Decidable (now ≥ c.expiresAt))

/-- The signed envelope of a command.
SOURCE: commands/signing.py:33-37 -/
structure SignedCommand where
  command : Command
  payload : List UInt8
  signature : List UInt8
  deriving DecidableEq

/-- The signer: the canonical JSON encoding and the Ed25519 signature, both from
libraries.
SOURCE: commands/signing.py:56-78 -/
structure CommandSigner where
  canonicalBytes : Command → List UInt8
  keySign : List UInt8 → List UInt8

/-- Sign a command over its canonical bytes.
SOURCE: commands/signing.py:76-78 -/
def CommandSigner.sign (signer : CommandSigner) (c : Command) : SignedCommand where
  command := c
  payload := signer.canonicalBytes c
  signature := signer.keySign (signer.canonicalBytes c)

@[simp] theorem CommandSigner.sign_command (signer : CommandSigner) (c : Command) :
    (signer.sign c).command = c := rfl

/-- The lifecycle states of a command.
SOURCE: commands/status.py:25-34 -/
inductive CommandStatus where
  | pending
  | validated
  | issued
  | delivered
  | executing
  | completed
  | failed
  | cancelled
  | timedOut
  deriving DecidableEq

/-- The forward order of the states that are not terminal.
SOURCE: commands/status.py:41-47 -/
def statusOrder : List CommandStatus :=
  [.pending, .validated, .issued, .delivered, .executing]

/-- The abort states, which every state that is not terminal can move to.
SOURCE: commands/status.py:53-55 -/
def abortTransitions : List CommandStatus := [.cancelled, .timedOut]

/-- The states with no successor.
SOURCE: commands/status.py:58-65 -/
def terminalStatuses : List CommandStatus := [.completed, .failed, .cancelled, .timedOut]

/-- The transitions the state machine allows.
SOURCE: commands/status.py:68-93 -/
def isValidTransition (frm dst : CommandStatus) : Bool :=
  if frm = dst then false
  else if frm ∈ terminalStatuses then false
  else if dst ∈ terminalStatuses then
    if dst ∈ abortTransitions then true
    else frm = .executing && (dst = .completed || dst = .failed)
  else if frm ∉ statusOrder ∨ dst ∉ statusOrder then false
  else statusOrder.idxOf dst = statusOrder.idxOf frm + 1

/-- One entry of a command's history.
SOURCE: commands/record.py:24-39 -/
structure StatusTransition where
  fromStatus : Option CommandStatus
  toStatus : CommandStatus
  at_ : Time
  detail : Params := []
  deriving DecidableEq

/-- The stored view of a command.
SOURCE: commands/record.py:42-55 -/
structure CommandRecord where
  command : Command
  status : CommandStatus
  history : List StatusTransition
  deriving DecidableEq

/-- A record with one more transition, which is not checked.
SOURCE: commands/record.py:79-102 -/
def CommandRecord.withTransition (toStatus : CommandStatus) (at_ : Time) (rec : CommandRecord) :
    CommandRecord :=
  { rec with
    status := toStatus
    history := rec.history ++ [⟨some rec.status, toStatus, at_, []⟩] }

end OpenRecall.Model
