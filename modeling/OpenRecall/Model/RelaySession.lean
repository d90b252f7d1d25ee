import OpenRecall.Model.AudioPacket
import OpenRecall.Foundation.Dict

/-!
# The relay's session

The relay stands between one sensor link and one server session. It says hello when both are up,
passes the sensor's audio on and the server's commands down, and keeps the last packets for a
server that missed some. Audio that comes before the hello is held back until it.

Frames to the server are kept as data; the text they are written as is the serializer's. Reading
JSON, UTF-8, integers and base64 is the platform's: `RelayReaders` is what a run uses for it.
-/

set_option autoImplicit false

namespace OpenRecall.Model

open Foundation

/-- A JSON element; numbers and booleans are primitives with their text as content. -/
inductive JsonElement where
  | null
  | primitive (content : String)
  | array (items : List JsonElement)
  | object (fields : List (String × JsonElement))

/-- What the platform reads; none stands for an exception, or for null from `toIntOrNull`. -/
structure RelayReaders where
  parseToJsonElement : String → Option JsonElement
  toIntOrNull : String → Option ℤ
  decodeUtf8 : Bytes → String
  encodeUtf8 : String → Bytes
  decodeBase64 : String → Option Bytes

namespace JsonElement

/-- The content of a primitive, which `null` is too; anything else throws. -/
def content : JsonElement → Option String
  | null => some "null"
  | primitive content => some content
  | array _ => none
  | object _ => none

/-- The fields of an element that is an object. -/
def asObject : JsonElement → Option (List (String × JsonElement))
  | object fields => some fields
  | _ => none

end JsonElement

/-! ## Messages of the server -/

structure NameSpeakerPropose where
  speakerId : String
  deriving DecidableEq

/-- SOURCE: protocol/Messages.kt:56-89 -/
inductive ServerMessage where
  | ack (nextSeq : ℤ)
  | requestChunks (start end_ : ℤ)
  | transcript (text : String) (durationMs : ℤ) (speaker speakerName : Option String)
      (isWearer : Bool)
  | command (payload sig : String)
  | proactive (requestId text : String) (atoms : List String)
      (propose : Option NameSpeakerPropose)
  | unknown (type : String)
  deriving DecidableEq

namespace ServerMessage

/-- A text field: absent, null or its content.
SOURCE: protocol/Messages.kt:95-99 -/
def str (obj : List (String × JsonElement)) (k : String) : Option (Option String) :=
  match obj.lookup k with
  | none => some none
  | some .null => some none
  | some e => e.content.map some

/-- An integer field.
SOURCE: protocol/Messages.kt:100 -/
def int (py : RelayReaders) (obj : List (String × JsonElement)) (k : String) :
    Option (Option ℤ) :=
  match obj.lookup k with
  | none => some none
  | some e => e.content.map py.toIntOrNull

/-- A boolean field, false unless it is the text `true`.
SOURCE: protocol/Messages.kt:101 -/
def bool (obj : List (String × JsonElement)) (k : String) : Option Bool :=
  match obj.lookup k with
  | none => some false
  | some e => e.content.map (· = "true")

/-- The contents of a list of primitives; other items are left out.
SOURCE: protocol/Messages.kt:118-120 -/
def atomsOf : Option JsonElement → List String
  | some (.array items) => items.filterMap JsonElement.content
  | _ => []

/-- SOURCE: protocol/Messages.kt:126-132 -/
def parsePropose (propose : Option (List (String × JsonElement))) :
    Option (Option NameSpeakerPropose) :=
  match propose with
  | none => some none
  | some fields =>
    match fields.lookup "kind" with
    | none => some none
    | some kind => do
      let kind ← kind.content
      if kind = "name_speaker" then
        match fields.lookup "speaker_id" with
        | none => some none
        | some speakerId => speakerId.content.map fun id => some ⟨id⟩
      else some none

/-- A message by its type.
SOURCE: protocol/Messages.kt:102-123 -/
def ofObject (py : RelayReaders) (obj : List (String × JsonElement)) : Option ServerMessage := do
  let type ← str obj "type"
  match type with
  | some "ack" => return .ack ((← int py obj "next_seq").getD 0)
  | some "request_chunks" =>
    return .requestChunks ((← int py obj "start").getD 0) ((← int py obj "end").getD 0)
  | some "transcript" =>
    return .transcript ((← str obj "text").getD "") ((← int py obj "duration_ms").getD 0)
      (← str obj "speaker") (← str obj "speaker_name") (← bool obj "is_wearer")
  | some "command" => return .command ((← str obj "payload").getD "") ((← str obj "sig").getD "")
  | some "proactive" =>
    return .proactive ((← str obj "request_id").getD "") ((← str obj "text").getD "")
      (atomsOf (obj.lookup "atoms")) (← parsePropose ((obj.lookup "propose").bind (·.asObject)))
  | _ => return .unknown (type.getD "missing")

/-- A text frame; none when reading it throws.
SOURCE: protocol/Messages.kt:92-123 -/
def parse (py : RelayReaders) (text : String) : Option ServerMessage :=
  match (py.parseToJsonElement text).bind JsonElement.asObject with
  | none => some (.unknown "malformed")
  | some obj => ofObject py obj

end ServerMessage

/-! ## What the session asks of the service -/

/-- A text frame to the server.
SOURCE: protocol/Messages.kt:26-48, RelaySession.kt:197-198 -/
inductive RelayFrame where
  | hello (sessionId : String) (startSeq : ℤ)
  | bye (sessionId : String)
  | commandAck (sessionId commandId : String)
  | telemetry (fields : List (String × JsonElement))

inductive ChatMessageKind where
  | nameSpeaker
  | agentProactive
  deriving DecidableEq

/-- A message of the agent; an atom is a chip with its id only.
SOURCE: data/ChatMessage.kt -/
structure ChatMessage where
  id : String
  kind : ChatMessageKind
  text : String
  atoms : List String := []
  propose : Option NameSpeakerPropose := none
  sessionId : Option String := none
  speakerId : Option String := none
  traceRequestId : String
  deriving DecidableEq

/-- SOURCE: RelaySession.kt:256-265 -/
inductive RelayAction where
  | sendServerBinary (data : Bytes)
  | sendServerText (frame : RelayFrame)
  | writeDeviceCommand (frame : Bytes)
  | forwardToChatHistory (message : ChatMessage)
  | note (message : String)

/-- SOURCE: data/SpeakerCache.kt:10-14 -/
structure SpeakerEntry where
  speakerId : String
  name : Option String
  isWearer : Bool
  deriving DecidableEq

/-! ## The session -/

/-- SOURCE: RelaySession.kt:33-65 -/
structure RelaySession where
  sessionId : String
  startSeq : ℤ := 0
  speakerCache : Option (Dict String SpeakerEntry) := none
  started : Bool := false
  pendingAudio : List Bytes := []
  sentRing : List Bytes := []

namespace RelaySession

/-- SOURCE: RelaySession.kt:43 -/
def ringMaxChunks : ℕ := 25

/-- SOURCE: RelaySession.kt:68-74 -/
def start (s : RelaySession) : List RelayAction × RelaySession :=
  (.sendServerText (.hello s.sessionId s.startSeq) :: s.pendingAudio.map .sendServerBinary,
    { s with started := true, pendingAudio := [] })

/-- SOURCE: RelaySession.kt:98-101 -/
def pushRing (packet : Bytes) (ring : List Bytes) : List Bytes :=
  (ring ++ [packet]).rtake ringMaxChunks

/-- SOURCE: RelaySession.kt:87-95 -/
def onDeviceAudio (packet : Bytes) (s : RelaySession) : List RelayAction × RelaySession :=
  if s.started then
    ([.sendServerBinary packet], { s with sentRing := pushRing packet s.sentRing })
  else
    ([], { s with
      pendingAudio := s.pendingAudio ++ [packet]
      sentRing := pushRing packet s.sentRing })

/-- The sequence number of a packet as the unsigned number on the wire. -/
def wireSeq : Bytes → Option ℕ
  | _ :: b₀ :: b₁ :: b₂ :: b₃ :: _ => some (AudioPacket.u32 b₀ b₁ b₂ b₃)
  | _ => none

/-- The sequence number as a signed int; a short packet has none.
SOURCE: RelaySession.kt:110-113 -/
def chunkSeqOf (packet : Bytes) : Option ℤ :=
  (wireSeq packet).map fun n => if n < 2 ^ 31 then (n : ℤ) else n - 2 ^ 32

/-- Whether a packet is in a range of sequence numbers. -/
def isIn (start end_ : ℤ) (packet : Bytes) : Bool :=
  match chunkSeqOf packet with
  | none => false
  | some seq => start ≤ seq ∧ seq < end_

/-- Send the packets of a range again, from those that are kept.
SOURCE: RelaySession.kt:223-233 -/
def backfill (start end_ : ℤ) (s : RelaySession) : List RelayAction :=
  if ¬ s.started ∨ end_ ≤ start then []
  else (s.sentRing.filter (isIn start end_)).map .sendServerBinary

/-- SOURCE: RelaySession.kt:144-180 -/
def forwardProactive (requestId text : String) (atoms : List String)
    (propose : Option NameSpeakerPropose) (s : RelaySession) : RelayAction :=
  match propose with
  | some p => .forwardToChatHistory
      { id := requestId
        kind := .nameSpeaker
        text := text
        propose := some p
        sessionId := some s.sessionId
        speakerId := some p.speakerId
        traceRequestId := requestId }
  | none => .forwardToChatHistory
      { id := requestId
        kind := .agentProactive
        text := text
        atoms := atoms
        traceRequestId := requestId }

/-- The frame the sensor expects; none when the signature is no base64.
SOURCE: RelaySession.kt:248-252 -/
def forwardCommand (py : RelayReaders) (payload sig : String) : Option RelayAction :=
  (py.decodeBase64 sig).map fun signature =>
    .writeDeviceCommand (signature ++ py.encodeUtf8 payload)

/-- The cache with the speaker of a transcript.
SOURCE: RelaySession.kt:121-128, data/SpeakerCache.kt:33-36 -/
def upsert (speaker name : Option String) (isWearer : Bool)
    (cache : Option (Dict String SpeakerEntry)) : Option (Dict String SpeakerEntry) :=
  match cache, speaker with
  | some entries, some id => some (entries.set id ⟨id, name, isWearer⟩)
  | cache, _ => cache

/-- A text frame of the server; none when the call throws, which changes nothing.
SOURCE: RelaySession.kt:116-133 -/
def onServerMessage (py : RelayReaders) (text : String) (s : RelaySession) :
    Option (List RelayAction) × RelaySession :=
  match ServerMessage.parse py text with
  | none => (none, s)
  | some (.command payload sig) => ((forwardCommand py payload sig).map ([·]), s)
  | some (.requestChunks start end_) => (some (s.backfill start end_), s)
  | some (.transcript text _ speaker speakerName isWearer) =>
    (some [.note ("transcript: " ++ text)],
      { s with speakerCache := upsert speaker speakerName isWearer s.speakerCache })
  | some (.ack _) => (some [], s)
  | some (.proactive requestId text atoms propose) =>
    (some [s.forwardProactive requestId text atoms propose], s)
  | some (.unknown _) => (some [], s)

/-- The fields of an object with one set, in place when it is there. -/
def putField (k : String) (v : JsonElement) (fields : List (String × JsonElement)) :
    List (String × JsonElement) :=
  if (fields.lookup k).isSome then fields.map fun f => if f.1 = k then (k, v) else f
  else fields ++ [(k, v)]

/-- The type of a control frame, when it is a primitive other than null.
SOURCE: RelaySession.kt:196 -/
def controlType (obj : List (String × JsonElement)) : Option String :=
  match obj.lookup "type" with
  | some (.primitive content) => some content
  | _ => none

/-- An ack of the sensor, or its control uplink when the payload begins with a brace.
SOURCE: RelaySession.kt:183-206 -/
def onDeviceCommandAck (py : RelayReaders) (ackPayload : Bytes) (s : RelaySession) :
    RelayAction :=
  let text := py.decodeUtf8 ackPayload
  if text.startsWith "\x7b" then
    match (py.parseToJsonElement text).bind JsonElement.asObject with
    | none => .note "unparseable device control frame"
    | some obj =>
      if controlType obj = some "telemetry" ∧ s.started then
        .sendServerText (.telemetry (putField "session_id" (.primitive s.sessionId) obj))
      else .note ("dropped device control frame: " ++ (controlType obj).getD "null")
  else .sendServerText (.commandAck s.sessionId text)

/-- SOURCE: RelaySession.kt:239-244 -/
def stop (s : RelaySession) : List RelayAction × RelaySession :=
  ([.sendServerText (.bye s.sessionId)],
    { s with started := false, pendingAudio := [], sentRing := [] })

end RelaySession

/-- A call of the session by the service. -/
inductive RelayCall where
  | start
  | stop
  | onDeviceAudio (packet : Bytes)
  | onDeviceCommandAck (ackPayload : Bytes)
  | onServerMessage (text : String)

/-- What a call returns, or none when it throws, and the session after it. -/
def RelaySession.call (py : RelayReaders) (s : RelaySession) :
    RelayCall → Option (List RelayAction) × RelaySession
  | .start => (some s.start.1, s.start.2)
  | .stop => (some s.stop.1, s.stop.2)
  | .onDeviceAudio packet => (some (s.onDeviceAudio packet).1, (s.onDeviceAudio packet).2)
  | .onDeviceCommandAck ackPayload => (some [s.onDeviceCommandAck py ackPayload], s)
  | .onServerMessage text => s.onServerMessage py text

end OpenRecall.Model
