import OpenRecall.Model.AudioPacket

/-!
# Provisioning

The sensor holds the server's key, and whether it has one, in memory and in two entries of its
non-volatile storage: the key and a flag. Both are written one after the other and then committed.

A write that is reported as done and committed is found at the next boot. Of one that fails, or that
is not committed, the storage does not say, so each run of its operations says what is found.
-/

set_option autoImplicit false

namespace OpenRecall.Model

namespace Provisioning

/-- SOURCE: provisioning_core.h:6 -/
inductive ProvState where
  | unprovisioned
  | provisioned
  deriving DecidableEq, Repr

abbrev Key := List.Vector UInt8 32

def zeroKey : Key := List.Vector.replicate 32 0

/-! ## The storage -/

/-- The entries of the namespace, as the next boot finds them.
SOURCE: config.h:226-228 -/
structure Nvs where
  key : Option Bytes := none
  provisioned : Option UInt8 := none
  deriving DecidableEq

/-- A write: whether it is reported as done, and whether it is found even so when it is not. -/
structure Write where
  ok : Bool
  lands : Bool
  deriving DecidableEq

/-- Whether the next boot finds a write. -/
def Write.found (w : Write) (committed : Bool) : Bool := w.ok && committed || w.lands

/-- How the storage behaves in one call: whether it opens, what becomes of the writes, and whether
they are committed. To erase what is not there is done. -/
structure NvsRun where
  opens : Bool
  key : Write
  flag : Write
  commits : Bool
  deriving DecidableEq

/-- The key and the flag. A flag that cannot be read is 0.
SOURCE: provisioning.c:22-33 -/
def nvsGet (s : Nvs) : Option (Key × UInt8) :=
  match s.key with
  | none => none
  | some key => if h : key.length = 32 then some (⟨key, h⟩, s.provisioned.getD 0) else none

/-- Write one entry after the other: the second is written when the first is done, and its result is
not looked at. -/
def nvsWrite (run : NvsRun) (key : Option Bytes) (flag : UInt8) (s : Nvs) : Bool × Nvs :=
  if !run.opens then (false, s)
  else if !run.key.ok then (false, { s with key := if run.key.found false then key else s.key })
  else (run.commits,
    { key := if run.key.found run.commits then key else s.key
      provisioned := if run.flag.found run.commits then some flag else s.provisioned })

/-- SOURCE: provisioning.c:35-43 -/
def nvsSet (run : NvsRun) (key : Key) : Nvs → Bool × Nvs := nvsWrite run (some key.toList) 1

/-- SOURCE: provisioning.c:45-54 -/
def nvsClear (run : NvsRun) : Nvs → Bool × Nvs := nvsWrite run none 0

/-! ## The core -/

/-- SOURCE: provisioning_core.c:6-7 -/
structure Core where
  state : ProvState
  key : Key
  deriving DecidableEq

/-- SOURCE: provisioning_core.c:9-19 -/
def init (s : Nvs) : Core :=
  match nvsGet s with
  | some (key, provisioned) =>
    if provisioned ≠ 0 then ⟨.provisioned, key⟩ else ⟨.unprovisioned, zeroKey⟩
  | none => ⟨.unprovisioned, zeroKey⟩

/-- A sensor: what it has in memory, and its storage. -/
structure Sensor where
  core : Core
  nvs : Nvs
  deriving DecidableEq

/-- SOURCE: provisioning_core.c:23-29 -/
def applyKey (run : NvsRun) (key : Key) (d : Sensor) : Bool × Sensor :=
  if d.core.state = .provisioned then (false, d)
  else
    let (ok, nvs) := nvsSet run key d.nvs
    if ok then (true, ⟨⟨.provisioned, key⟩, nvs⟩) else (false, { d with nvs := nvs })

/-- SOURCE: provisioning_core.c:31-36 -/
def factoryReset (run : NvsRun) (d : Sensor) : Bool × Sensor :=
  let (ok, nvs) := nvsClear run d.nvs
  if ok then (true, ⟨⟨.unprovisioned, zeroKey⟩, nvs⟩) else (false, { d with nvs := nvs })

/-- An operation, and how the storage behaves in it. -/
inductive Operation where
  | applyKey (key : Key) (run : NvsRun)
  | factoryReset (run : NvsRun)
  deriving DecidableEq

/-- Whether an operation reports success, and the sensor after it. -/
def Operation.perform (d : Sensor) : Operation → Bool × Sensor
  | .applyKey key run => Provisioning.applyKey run key d
  | .factoryReset run => Provisioning.factoryReset run d

end Provisioning

end OpenRecall.Model
