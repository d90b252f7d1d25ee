import OpenRecall.Model.Command

/-!
# The device's command parser

`executor_parse_and_validate` checks a command type and its parameters on the device and
fills a fixed-size request. It never fails: a bad or unknown command becomes a request
whose status says so, which the executor task later drops.

A C string is its bytes up to the terminating NUL, and a cJSON node is a value of
`CJson`; parsing the text into nodes is the library's part.
-/

set_option autoImplicit false

namespace OpenRecall.Model

/-- A C string: its bytes before the NUL. -/
@[ext]
structure CString where
  bytes : List UInt8
  noNul : 0 ∉ bytes
  deriving DecidableEq

/-- The empty string, as in memory that is zeroed. -/
def CString.empty : CString := ⟨[], by simp⟩

/-- The C string of a literal. -/
def CString.lit (s : String) : CString :=
  ⟨(s.toList.map fun c => c.toNat.toUInt8).filter (· ≠ 0), by simp⟩

/-- A cJSON node. -/
inductive CJson where
  | null
  | bool (b : Bool)
  | number (valuedouble : Double)
  | string (valuestring : CString)
  | array (items : List CJson)
  | object (children : List (CString × CJson))

/-- `cJSON_GetObjectItemCaseSensitive`: the first child with the name. -/
def CJson.getItem (key : CString) : CJson → Option CJson
  | .object children => (children.find? fun c => c.1 = key).map Prod.snd
  | _ => none

/-- SOURCE: executor_core.h:26-30 -/
inductive ExecutorStatus where
  | ok
  | badParams
  | unknownType
  deriving DecidableEq

/-- SOURCE: executor_core.h:32-43 -/
inductive CmdType where
  | unknown
  | startAudio
  | stopAudio
  | requestBuffer
  | capturePhoto
  | recordVideo
  | startVideo
  | stopVideo
  | flushSnapshots
  | setSnapshotInterval
  deriving DecidableEq

/-- A parsed command; a field a type does not use is zero.
SOURCE: executor_core.h:45-51 -/
structure CmdRequest where
  type : CmdType := .unknown
  status : ExecutorStatus := .ok
  seconds : UInt32 := 0
  durationS : UInt32 := 0
  snapshotIntervalS : UInt32 := 0
  deriving DecidableEq

/-- The parameters name nothing but the allowed keys; a missing or non-object `params`
counts as empty.
SOURCE: executor_core.c:7-17 -/
def paramsOnlyAllowed (params : Option CJson) (allowed : List CString) : Bool :=
  match params with
  | some (.object children) => children.all fun c => c.1 ∈ allowed
  | _ => true

/-- A numeric parameter; a boolean is not one.
SOURCE: executor_core.c:20-26 -/
def getNumber (params : Option CJson) (key : CString) : Option Double :=
  match params.bind (CJson.getItem key) with
  | some (.number x) => some x
  | _ => none

/-- The conversion of a double to `uint32_t`, defined for the values below `2^32`. -/
def Double.toUInt32 : Double → UInt32
  | .finite q => UInt32.ofNat ⌊q⌋.toNat
  | _ => 0

/-- A command without parameters.
SOURCE: executor_core.c:32-49 -/
def parseWithoutParams (t : CmdType) (params : Option CJson) : CmdRequest :=
  { type := t, status := if paramsOnlyAllowed params [] then .ok else .badParams }

/-- A command with one bounded number, which `fill` stores.
SOURCE: executor_core.c:50-59 -/
def parseWithNumber (t : CmdType) (key : CString) (lo hi : ℚ)
    (fill : CmdRequest → UInt32 → CmdRequest) (params : Option CJson) : CmdRequest :=
  let bad : CmdRequest := { type := t, status := .badParams }
  if ¬ paramsOnlyAllowed params [key] then bad
  else match getNumber params key with
    | none => bad
    | some x => if x.lt lo ∨ x.gt hi then bad else fill { type := t } x.toUInt32

/-- Parse a command type and its parameters into a request.
SOURCE: executor_core.c:28-106 -/
def executorParseAndValidate (type : CString) (params : Option CJson) : CmdRequest :=
  if type = .lit "start_audio" then parseWithoutParams .startAudio params
  else if type = .lit "stop_audio" then parseWithoutParams .stopAudio params
  else if type = .lit "capture_photo" then parseWithoutParams .capturePhoto params
  else if type = .lit "record_video" then
    parseWithNumber .recordVideo (.lit "duration_s") 1 30
      (fun req n => { req with durationS := n }) params
  else if type = .lit "request_buffer" then
    parseWithNumber .requestBuffer (.lit "seconds") 1 60
      (fun req n => { req with seconds := n }) params
  else if type = .lit "start_video" then parseWithoutParams .startVideo params
  else if type = .lit "stop_video" then parseWithoutParams .stopVideo params
  else if type = .lit "flush_snapshots" then parseWithoutParams .flushSnapshots params
  else if type = .lit "set_snapshot_interval" then
    parseWithNumber .setSnapshotInterval (.lit "seconds") 0 600
      (fun req n => { req with snapshotIntervalS := n }) params
  else { type := .unknown, status := .unknownType }

end OpenRecall.Model
