import OpenRecall.Model.AudioPacket
import OpenRecall.Model.Planner

/-!
# Atoms that no extraction forms

Besides the extraction pipeline and the planner, two components write atoms: the vision pipeline
writes a scene for a captured image, and the command memory writes an event for a command the
device acked. Both hold the atom store only. The hash of an image and the caption of the vision
model are functions they carry.
-/

set_option autoImplicit false

namespace OpenRecall.Model

open Foundation

/-! ## Vision -/

/-- The blobs by their hash.
SOURCE: media/blob.py:37-39 -/
structure InMemoryBlobStore where
  blobs : Dict String Bytes := .empty

/-- SOURCE: media/blob.py:41-44 -/
def InMemoryBlobStore.put (sha256Hex : Bytes → String) (data : Bytes)
    (store : InMemoryBlobStore) : InMemoryBlobStore :=
  if sha256Hex data ∈ store.blobs.keys then store
  else ⟨store.blobs.set (sha256Hex data) data⟩

/-- The pipeline's hash and its vision model, whose call may raise.
SOURCE: vision/pipeline.py:27-38 -/
structure VisionPipeline where
  sha256Hex : Bytes → String
  caption : Bytes → String → Option String

/-- A capture request.
SOURCE: vision/pipeline.py:41-49 -/
structure Capture where
  sessionId : Option String
  image : Bytes
  capturedAtMs : ℤ
  mediaType : String := "image/jpeg"
  occurredAt : Option Time := none
  deriving DecidableEq

namespace VisionPipeline

/-- The id of the scene of an image in a session.
SOURCE: vision/pipeline.py:57-58 -/
def sceneId (v : VisionPipeline) (c : Capture) : String :=
  match c.sessionId with
  | none => "scene:" ++ v.sha256Hex c.image
  | some sessionId =>
    if sessionId = "" then "scene:" ++ v.sha256Hex c.image
    else sessionId ++ ":scene:" ++ v.sha256Hex c.image

/-- SOURCE: vision/pipeline.py:65-75 -/
def sceneAtom (v : VisionPipeline) (c : Capture) (now : Time) (caption : String) :
    MemoryAtom where
  atomId := v.sceneId c
  sessionId := c.sessionId
  sourceEventId := "blob:" ++ v.sha256Hex c.image
  kind := "scene"
  text := caption
  createdAt := now
  startMs := c.capturedAtMs
  occurredAt := some (c.occurredAt.getD now)

/-- Caption an image and store its scene, unless the scene is stored already. The first component
is the atom; the blob is put before the model is asked.
SOURCE: vision/pipeline.py:41-77 -/
def capture (v : VisionPipeline) (c : Capture) (now : Time)
    (blobs : InMemoryBlobStore) (atoms : InMemoryAtomStore) :
    Option MemoryAtom × InMemoryBlobStore × InMemoryAtomStore :=
  if atoms.has (v.sceneId c) then (none, blobs, atoms)
  else
    let blobs := blobs.put v.sha256Hex c.image
    match v.caption c.image c.mediaType with
    | none => (none, blobs, atoms)
    | some caption =>
      let atom := v.sceneAtom c now caption
      (some atom, blobs, (atoms.append atom).2)

end VisionPipeline

/-! ## Acked commands -/

/-- SOURCE: agent/command_memory.py:17-25 -/
def commandText : List (String × String) :=
  [("capture_photo", "Took a photo"),
    ("record_video", "Recorded a video"),
    ("start_video", "Started a video"),
    ("stop_video", "Stopped the video"),
    ("start_audio", "Started audio recording"),
    ("stop_audio", "Stopped audio recording"),
    ("flush_snapshots", "Flushed snapshots")]

/-- An acked command, with the transcript it came from.
SOURCE: agent/command_memory.py:34-35 -/
structure AckedCommand where
  commandId : String
  sessionId : String
  commandType : String
  sourceEventId : Option String
  triggerText : Option String
  deriving DecidableEq

namespace CommandMemoryWriter

/-- SOURCE: agent/command_memory.py:40-41 -/
def text (a : AckedCommand) : String :=
  let label := (commandText.lookup a.commandType).getD a.commandType
  match a.triggerText with
  | none => label
  | some trigger => if trigger = "" then label else label ++ " (you said: \"" ++ trigger ++ "\")"

/-- Write the event of an acked command that came from a transcript.
SOURCE: agent/command_memory.py:34-55 -/
def onAck (a : AckedCommand) (now : Time) (atoms : InMemoryAtomStore) : InMemoryAtomStore :=
  match a.sourceEventId with
  | none => atoms
  | some sourceEventId =>
    (atoms.append
      { atomId := a.commandId
        sessionId := some a.sessionId
        sourceEventId := sourceEventId
        kind := "command_event"
        text := text a
        createdAt := now
        startMs := 0 }).2

end CommandMemoryWriter

end OpenRecall.Model
