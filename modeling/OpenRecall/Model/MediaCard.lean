import OpenRecall.Model.MediaIndex

/-!
# The sensor's card

Pictures are written to the card under paths that tell the boot, the time and a number, and are
listed in the manifest; the phone fetches a file by its path and posts the paths of what it has
taken. The number of the boot is kept in flash. Errors of the card, of the flash and of memory are
inputs. One task at a time uses the card.
-/

set_option autoImplicit false

namespace OpenRecall.Model

namespace MediaCard

open MediaIndex
open Manifest (CardEnv HttpResponse consumedHandler nameMaxLen upTo)

/-- SOURCE: config.h:329 -/
def manifestPath : Bytes := ascii "/sdcard/manifest.txt"

/-- The sensor: the files of the card by their paths, the number in flash, and what is in memory of
the boot and of the pictures of it. -/
structure Sensor where
  files : Bytes → Option Bytes := fun _ => none
  flash : Option UInt32 := none
  bootId : UInt32 := 0
  seq : UInt32 := 0

/-- What the manifest holds; a missing one is empty. -/
def Sensor.manifest (s : Sensor) : Bytes := (s.files manifestPath).getD []

/-! ## Boots -/

/-- How the flash does. -/
structure FlashEnv where
  opens : Bool := true
  reads : Bool := true
  writes : Bool := true
  deriving DecidableEq

/-- SOURCE: boot_id.c:11-29, openrecall_sensor.c:215-216 -/
def boot (env : FlashEnv) (s : Sensor) : Sensor :=
  let id := (if env.reads then s.flash.getD 0 else 0) + 1
  if env.opens ∧ env.writes then { s with flash := some id, bootId := id, seq := 0 }
  else { s with bootId := 0, seq := 0 }

/-! ## Pictures -/

/-- How a file is written: an error comes after some bytes, and may not be seen when the file is only
closed after it. -/
structure WriteEnv where
  opens : Bool := true
  error : Option ℕ := none
  errorSeen : Bool := true
  deriving DecidableEq

/-- Write a file, which is emptied when it is opened.
SOURCE: sd_store.c:91-104 -/
def write (env : WriteEnv) (path data : Bytes) (s : Sensor) : Bool × Sensor :=
  if env.opens then
    (env.error.isNone ∨ env.errorSeen = false,
      { s with files := Function.update s.files path (some (upTo env.error data)) })
  else (false, s)

/-- SOURCE: sd_store.c:106-119 -/
def append (env : WriteEnv) (path line : Bytes) (s : Sensor) : Sensor :=
  if env.opens then
    { s with
      files := Function.update s.files path (some ((s.files path).getD [] ++ upTo env.error line)) }
  else s

/-- A picture with where it was to be written. -/
structure Picture where
  bootId : UInt32
  relTsMs : UInt32
  seq : UInt32
  jpg : Bytes
  deriving DecidableEq

def Picture.path (p : Picture) : Bytes := snapshotPath nameMaxLen p.bootId p.relTsMs p.seq

/-- What a capture meets: whether the card is mounted, the picture when the camera gives one, and
how the picture and its line are written. -/
structure CaptureEnv where
  mounts : Bool := true
  jpg : Option Bytes
  write : WriteEnv := {}
  append : WriteEnv := {}

/-- The picture that is to be written, and the sensor after; `115` is an `s`.
SOURCE: snapshot.c:78-135 -/
def snapshotCaptureOne (env : CaptureEnv) (relTsMs : UInt32) (s : Sensor) :
    Option Picture × Sensor :=
  match env.mounts, env.jpg with
  | true, some jpg =>
    let picture : Picture := ⟨s.bootId, relTsMs, s.seq, jpg⟩
    match write env.write picture.path jpg { s with seq := s.seq + 1 } with
    | (true, s) =>
      (some picture, append env.append manifestPath
        (manifestLine (nameMaxLen + 32) picture.path relTsMs s.bootId 115) s)
    -- what was not written is not listed
    | (false, s) => (some picture, s)
  | _, _ => (none, s)

/-- A video task has closed its clip and lists it; `118` is a `v`.
SOURCE: video_capture.c:123-142 -/
def listClip (env : WriteEnv) (relTsMs seq : UInt32) (clip : Bytes) (s : Sensor) : Sensor :=
  let path := videoPath nameMaxLen s.bootId relTsMs seq
  append env manifestPath (manifestLine (nameMaxLen + 32) path relTsMs s.bootId 118)
    { s with files := Function.update s.files path (some clip) }

/-! ## Requests -/

/-- The answer to a request for a file. -/
inductive ItemResponse where
  | notFound (message : String)
  | forbidden (message : String)
  | serverError (message : String)
  | file (contentType : String) (data : Bytes)
  deriving DecidableEq

/-- The file that a request is for.
SOURCE: transfer.c:85-124 -/
def itemPath (uri : Bytes) : Except ItemResponse Bytes :=
  if ¬ ascii "/item/" <+: uri then .error (.notFound "not found")
  else
    let name := (uri.drop 6).takeWhile (· ≠ 63)
    if name = [] ∨ nameMaxLen ≤ name.length then .error (.notFound "invalid name")
    else
      let path := if name.head? = some 47 then name else 47 :: name
      if ascii ".." <:+: path then .error (.forbidden "invalid path")
      else if ¬ ascii "/sdcard/" <+: path then .error (.forbidden "outside sdcard")
      else .ok path

/-- What follows the last dot, with it. -/
def extension (path : Bytes) : Bytes :=
  if 46 ∈ path then 46 :: (path.reverse.takeWhile (· ≠ 46)).reverse else []

/-- SOURCE: transfer.c:141-149 -/
def contentType (path : Bytes) : String :=
  if extension path = ascii ".jpg" ∨ extension path = ascii ".jpeg" then "image/jpeg"
  else if extension path = ascii ".mjpeg" then "video/x-mjpeg"
  else "application/octet-stream"

/-- `GET /item/{name}`, when the phone takes all of it.
SOURCE: transfer.c:85-165 -/
def item (buffer : Bool) (uri : Bytes) (s : Sensor) : ItemResponse :=
  match itemPath uri with
  | .error response => response
  | .ok path =>
    if buffer then
      match s.files path with
      | some data => .file (contentType path) data
      | none => .notFound "file not found"
    else .serverError "oom"

/-- The files that are left when some names are deleted. -/
def unlinkAll (names : List Bytes) (files : Bytes → Option Bytes) : Bytes → Option Bytes :=
  fun path => if names.contains path then none else files path

/-- `POST /consumed`: the files that are named are deleted, then the manifest is rewritten.
SOURCE: transfer.c:170-291 -/
def consumed (env : CardEnv) (body : Bytes) (s : Sensor) : HttpResponse × List Bytes × Sensor :=
  let ran := consumedHandler { env with unlinksManifest := (· = manifestPath) } body s.manifest
  (ran.response, ran.deleted,
    { s with
      files := Function.update (unlinkAll ran.deleted s.files) manifestPath (some ran.manifest) })

/-! ## Runs -/

/-- The sensor, with the pictures that it set out to write and the paths that were deleted. -/
structure World where
  sensor : Sensor := {}
  taken : List Picture := []
  deleted : List Bytes := []

/-- What happens to the card. -/
inductive CardStep where
  | boot (env : FlashEnv)
  | capture (env : CaptureEnv) (relTsMs : UInt32)
  | clip (env : WriteEnv) (relTsMs seq : UInt32) (data : Bytes)
  | consumed (env : CardEnv) (body : Bytes)

def step (w : World) : CardStep → World
  | .boot env => { w with sensor := boot env w.sensor }
  | .capture env relTsMs =>
    let (picture, sensor) := snapshotCaptureOne env relTsMs w.sensor
    { w with sensor := sensor, taken := w.taken ++ picture.toList }
  | .clip env relTsMs seq data => { w with sensor := listClip env relTsMs seq data w.sensor }
  | .consumed env body =>
    let (_, names, sensor) := consumed env body w.sensor
    { w with sensor := sensor, deleted := w.deleted ++ names }

end MediaCard

end OpenRecall.Model
