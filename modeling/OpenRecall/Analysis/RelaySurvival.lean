import OpenRecall.Model.RelaySession

/-!
# Which server texts the relay survives

A text that is no JSON object is an unknown message, and so is one of an unknown type. Otherwise the
fields of the message are read as primitives, and reading one that is an array or an object throws;
so does a signature that is no base64. What is not read may be anything.
-/

set_option autoImplicit false

namespace OpenRecall.Analysis.RelaySurvival

open OpenRecall.Model

/-! ## What is read -/

/-- The element is a primitive, which null is too. -/
def IsPrimitive : JsonElement → Prop
  | .null | .primitive _ => True
  | .array _ | .object _ => False

/-- The field is absent or a primitive. -/
def FieldFits (obj : List (String × JsonElement)) (k : String) : Prop :=
  ∀ e, obj.lookup k = some e → IsPrimitive e

/-- The fields that are read of a message of a type, besides its atoms and its proposal.
SOURCE: protocol/Messages.kt:102-123 -/
def fieldsRead (type : String) : List String :=
  if type = "ack" then ["next_seq"]
  else if type = "request_chunks" then ["start", "end"]
  else if type = "transcript" then
    ["text", "duration_ms", "speaker", "speaker_name", "is_wearer"]
  else if type = "command" then ["payload", "sig"]
  else if type = "proactive" then ["request_id", "text"]
  else []

/-- The kind of a proposal is absent or a primitive and, if it names a speaker, so is the
speaker. -/
def ProposeFits (propose : Option (List (String × JsonElement))) : Prop :=
  ∀ fields, propose = some fields → FieldFits fields "kind" ∧
    (fields.lookup "kind" = some (.primitive "name_speaker") → FieldFits fields "speaker_id")

/-- The proposal of a message, when it is an object. -/
def proposeOf (obj : List (String × JsonElement)) : Option (List (String × JsonElement)) :=
  (obj.lookup "propose").bind JsonElement.asObject

/-- The message has primitives in the fields that are read of its type. -/
def ObjectFits (obj : List (String × JsonElement)) : Prop :=
  FieldFits obj "type" ∧ ∀ type, obj.lookup "type" = some (.primitive type) →
    (∀ k ∈ fieldsRead type, FieldFits obj k) ∧ (type = "proactive" → ProposeFits (proposeOf obj))

/-- The signature of a message; an absent one and null are the empty text. -/
def sigOf (obj : List (String × JsonElement)) : String :=
  match obj.lookup "sig" with
  | some (.primitive sig) => sig
  | _ => ""

/-- The signature of a command is base64. -/
def SigFits (py : RelayReaders) (obj : List (String × JsonElement)) : Prop :=
  obj.lookup "type" = some (.primitive "command") → (py.decodeBase64 (sigOf obj)).isSome

/-- The text is no JSON object, or one that can be read. -/
def TextFits (py : RelayReaders) (text : String) : Prop :=
  ∀ obj, py.parseToJsonElement text = some (.object obj) → ObjectFits obj ∧ SigFits py obj

/-- Nothing throws on a text and a proposal: the two parsers return, and so does the session's
call. -/
structure Survives (py : RelayReaders) (text : String)
    (propose : Option (List (String × JsonElement))) (s : RelaySession) : Prop where
  parse : (ServerMessage.parse py text).isSome
  parsePropose : (ServerMessage.parsePropose propose).isSome
  onServerMessage : (s.onServerMessage py text).1.isSome

/-! ## Reading fields -/

variable (py : RelayReaders) (obj : List (String × JsonElement))

theorem content_isSome_iff (e : JsonElement) : e.content.isSome ↔ IsPrimitive e := by
  cases e <;> simp [JsonElement.content, IsPrimitive]

theorem str_isSome_iff (k : String) : (ServerMessage.str obj k).isSome ↔ FieldFits obj k := by
  unfold ServerMessage.str FieldFits
  cases obj.lookup k with
  | none => simp
  | some e => cases e <;> simp [JsonElement.content, IsPrimitive]

theorem int_isSome_iff (k : String) : (ServerMessage.int py obj k).isSome ↔ FieldFits obj k := by
  unfold ServerMessage.int FieldFits
  cases obj.lookup k with
  | none => simp
  | some e => simp [content_isSome_iff]

theorem bool_isSome_iff (k : String) : (ServerMessage.bool obj k).isSome ↔ FieldFits obj k := by
  unfold ServerMessage.bool FieldFits
  cases obj.lookup k with
  | none => simp
  | some e => simp [content_isSome_iff]

/-- SOURCE: protocol/Messages.kt:126-132 -/
theorem parsePropose_isSome_iff (propose : Option (List (String × JsonElement))) :
    (ServerMessage.parsePropose propose).isSome ↔ ProposeFits propose := by
  unfold ServerMessage.parsePropose ProposeFits FieldFits
  cases propose with
  | none => simp
  | some fields =>
    cases hkind : fields.lookup "kind" with
    | none => simp [hkind]
    | some kind =>
      cases kind with
      | null => simp [hkind, JsonElement.content, IsPrimitive]
      | primitive kind =>
        by_cases hname : kind = "name_speaker"
        · cases hspeaker : fields.lookup "speaker_id" with
          | none => simp [hkind, hname, hspeaker, JsonElement.content, IsPrimitive]
          | some e =>
            cases e <;> simp [hkind, hname, hspeaker, JsonElement.content, IsPrimitive]
        · simp [hkind, hname, JsonElement.content, IsPrimitive]
      | array items => simp [hkind, JsonElement.content, IsPrimitive]
      | object fields' => simp [hkind, JsonElement.content, IsPrimitive]

/-- A field that is a primitive other than null is read as its content. -/
theorem str_eq_some_iff (k content : String) :
    ServerMessage.str obj k = some (some content) ↔
      obj.lookup k = some (.primitive content) := by
  unfold ServerMessage.str
  cases obj.lookup k with
  | none => simp
  | some e => cases e <;> simp [JsonElement.content]

theorem isSome_bind_iff {α β : Type} (o : Option α) (f : α → Option β) :
    (o.bind f).isSome ↔ ∃ a, o = some a ∧ (f a).isSome := by
  cases o <;> simp

/-- A message is read when its fields fit.
SOURCE: protocol/Messages.kt:102-123 -/
theorem ofObject_isSome_iff : (ServerMessage.ofObject py obj).isSome ↔ ObjectFits obj := by
  unfold ObjectFits
  rw [← str_isSome_iff]
  cases htype : ServerMessage.str obj "type" with
  | none => simp [ServerMessage.ofObject, htype]
  | some type =>
    have hprimitive (t : String) : obj.lookup "type" = some (.primitive t) ↔ type = some t := by
      rw [← str_eq_some_iff, htype, Option.some.injEq]
    simp only [hprimitive]
    cases type with
    | none => simp [ServerMessage.ofObject, htype]
    | some type =>
      simp only [ServerMessage.ofObject, htype, Option.bind_eq_bind, Option.bind_some]
      split
      · rename_i heq
        obtain rfl := Option.some.inj heq
        simp [fieldsRead, isSome_bind_iff, ← Option.isSome_iff_exists, int_isSome_iff]
      · rename_i heq
        obtain rfl := Option.some.inj heq
        simp [fieldsRead, isSome_bind_iff, ← Option.isSome_iff_exists, int_isSome_iff]
      · rename_i heq
        obtain rfl := Option.some.inj heq
        simp [fieldsRead, isSome_bind_iff, ← Option.isSome_iff_exists, int_isSome_iff,
          str_isSome_iff, bool_isSome_iff]
      · rename_i heq
        obtain rfl := Option.some.inj heq
        simp [fieldsRead, isSome_bind_iff, ← Option.isSome_iff_exists, str_isSome_iff]
      · rename_i heq
        obtain rfl := Option.some.inj heq
        simp [fieldsRead, isSome_bind_iff, ← Option.isSome_iff_exists, str_isSome_iff, proposeOf,
          parsePropose_isSome_iff, and_assoc]
      · rename_i hack hrequest htranscript hcommand hproactive
        have hnone (t : String) (h : some type = some t → False) : type ≠ t :=
          fun heq => h (congrArg some heq)
        simp [fieldsRead, hnone _ hack, hnone _ hrequest, hnone _ htranscript, hnone _ hcommand,
          hnone _ hproactive]

/-! ## The session -/

theorem parse_isSome_iff (text : String) : (ServerMessage.parse py text).isSome ↔
    ∀ obj, py.parseToJsonElement text = some (.object obj) → ObjectFits obj := by
  unfold ServerMessage.parse
  cases py.parseToJsonElement text with
  | none => simp
  | some e =>
    cases e with
    | object obj => simp [JsonElement.asObject, ofObject_isSome_iff]
    | _ => simp [JsonElement.asObject]

theorem getD_str_sig {sig : Option String} (h : ServerMessage.str obj "sig" = some sig) :
    sig.getD "" = sigOf obj := by
  unfold ServerMessage.str at h
  unfold sigOf
  cases hsig : obj.lookup "sig" with
  | none =>
    simp only [hsig, Option.some.injEq] at h
    simp [← h]
  | some e =>
    cases e with
    | null =>
      simp only [hsig, Option.some.injEq] at h
      simp [← h]
    | primitive content =>
      simp only [hsig, JsonElement.content, Option.map_some, Option.some.injEq] at h
      simp [← h]
    | array items => simp [hsig, JsonElement.content] at h
    | object fields => simp [hsig, JsonElement.content] at h

/-- A message of a command is read as one, with its signature.
SOURCE: protocol/Messages.kt:115 -/
theorem ofObject_command (hfits : ObjectFits obj)
    (htype : obj.lookup "type" = some (.primitive "command")) :
    ∃ payload, ServerMessage.ofObject py obj = some (.command payload (sigOf obj)) := by
  have hfields : ∀ k ∈ fieldsRead "command", FieldFits obj k := (hfits.2 "command" htype).1
  simp only [fieldsRead, String.reduceEq, if_false, if_true, List.forall_mem_cons] at hfields
  obtain ⟨payload, hpayload⟩ :=
    Option.isSome_iff_exists.mp ((str_isSome_iff obj "payload").mpr hfields.1)
  obtain ⟨sig, hsig⟩ := Option.isSome_iff_exists.mp ((str_isSome_iff obj "sig").mpr hfields.2.1)
  refine ⟨payload.getD "", ?_⟩
  rw [← getD_str_sig obj hsig, ServerMessage.ofObject, (str_eq_some_iff obj _ _).mpr htype]
  simp [hpayload, hsig]

/-- Only a message of a command is read as one. -/
theorem type_of_ofObject_command {payload sig : String}
    (h : ServerMessage.ofObject py obj = some (.command payload sig)) :
    obj.lookup "type" = some (.primitive "command") := by
  rw [← str_eq_some_iff]
  cases htype : ServerMessage.str obj "type" with
  | none => simp [ServerMessage.ofObject, htype] at h
  | some type =>
    simp only [ServerMessage.ofObject, htype, Option.bind_eq_bind, Option.bind_some] at h
    split at h <;> simp [Option.bind_eq_some_iff] at h ⊢

/-- A text that is read as a command is an object, whose signature is the command's. -/
theorem object_of_parse_command {text payload sig : String}
    (h : ServerMessage.parse py text = some (.command payload sig)) :
    ∃ obj, py.parseToJsonElement text = some (.object obj) ∧ ObjectFits obj ∧
      obj.lookup "type" = some (.primitive "command") ∧ sig = sigOf obj := by
  have hfits := (parse_isSome_iff py text).mp (by simp [h])
  unfold ServerMessage.parse at h
  split at h
  · simp at h
  · rename_i obj hobj
    obtain ⟨e, he, heobj⟩ := Option.bind_eq_some_iff.mp hobj
    cases e with
    | object fields =>
      obtain rfl := Option.some.inj heobj
      have htype := type_of_ofObject_command py _ h
      obtain ⟨payload', hpayload⟩ := ofObject_command py _ (hfits _ he) htype
      rw [hpayload, Option.some.injEq] at h
      obtain ⟨-, rfl⟩ := ServerMessage.command.inj h
      exact ⟨fields, he, hfits _ he, htype, rfl⟩
    | _ => simp [JsonElement.asObject] at heobj

/-- The call returns for a text that fits, and throws for any other.
SOURCE: RelaySession.kt:116-133, RelaySession.kt:248-252 -/
theorem onServerMessage_isSome_iff (text : String) (s : RelaySession) :
    (s.onServerMessage py text).1.isSome ↔ TextFits py text := by
  unfold RelaySession.onServerMessage TextFits
  cases hparse : ServerMessage.parse py text with
  | none =>
    refine iff_of_false (by simp) fun h => ?_
    have hsome := (parse_isSome_iff py text).mpr fun obj hobj => (h obj hobj).1
    simp [hparse] at hsome
  | some message =>
    have hfits := (parse_isSome_iff py text).mp (by simp [hparse])
    have hother (h : ∀ payload sig, message ≠ .command payload sig) (obj)
        (hobj : py.parseToJsonElement text = some (.object obj)) :
        ObjectFits obj ∧ SigFits py obj := by
      refine ⟨hfits obj hobj, fun htype => ?_⟩
      obtain ⟨payload, hpayload⟩ := ofObject_command py obj (hfits obj hobj) htype
      have hread : ServerMessage.ofObject py obj = some message := by
        simpa [ServerMessage.parse, hobj, JsonElement.asObject] using hparse
      exact absurd (Option.some.inj (hread.symm.trans hpayload)) (h payload _)
    cases message with
    | command payload sig =>
      obtain ⟨obj, hobj, hobjfits, htype, rfl⟩ := object_of_parse_command py hparse
      simp [RelaySession.forwardCommand, hobj, hobjfits, SigFits, htype]
    | _ => exact iff_of_true (by simp) (hother (by simp))

/-- **Nothing throws exactly when the fields that are read of the message and of the proposal are
primitives and a command's signature is base64.**
SOURCE: protocol/Messages.kt:91-132, RelaySession.kt:116-133, RelaySession.kt:248-252 -/
theorem survives_iff (text : String) (propose : Option (List (String × JsonElement)))
    (s : RelaySession) :
    Survives py text propose s ↔ TextFits py text ∧ ProposeFits propose := by
  rw [← onServerMessage_isSome_iff py text s, ← parsePropose_isSome_iff]
  constructor
  · intro h
    exact ⟨h.onServerMessage, h.parsePropose⟩
  · rintro ⟨hcall, hpropose⟩
    have hfits := (onServerMessage_isSome_iff py text s).mp hcall
    exact ⟨(parse_isSome_iff py text).mpr fun obj hobj => (hfits obj hobj).1, hpropose, hcall⟩

/-! ## A text that throws -/

/-- The readers for the one text of `listedAck`. -/
def listedAckReaders : RelayReaders where
  parseToJsonElement := fun _ => some (.object
    [("type", .primitive "ack"), ("next_seq", .array [])])
  toIntOrNull := fun _ => none
  decodeUtf8 := fun _ => ""
  encodeUtf8 := fun _ => []
  decodeBase64 := fun _ => some []

/-- An ack whose sequence number is a list. -/
def listedAck : String := "\x7b\"type\": \"ack\", \"next_seq\": []\x7d"

/-- `jsonPrimitive` throws on the list. -/
theorem not_always_survives : ¬ ∀ (py : RelayReaders) (text : String)
    (propose : Option (List (String × JsonElement))) (s : RelaySession),
    Survives py text propose s := by
  intro h
  have hread := (h listedAckReaders listedAck none { sessionId := "s" }).parse
  simp [ServerMessage.parse, listedAckReaders, JsonElement.asObject, ServerMessage.ofObject,
    ServerMessage.str, ServerMessage.int, List.lookup, JsonElement.content] at hread

end OpenRecall.Analysis.RelaySurvival
