import OpenRecall.Model.AgentAction

/-!
# Which replies can be read

The reader of the model's reply turns what it expects to go wrong into a parse error. Four things
it does not expect: `json.loads` fails otherwise than with its own error, `atom_ids` cannot be
iterated, an int confidence is too large for a double, and a field of the action has another type
or is out of bounds when the action is built. A reply has a result when none of them is met on the
way.
-/

set_option autoImplicit false

namespace OpenRecall.Analysis.ReplyParsing

open OpenRecall.Model

/-! ## What a reply has to be -/

/-- The result holds an action, which meets the schema, or says why it holds none. -/
def Settled (r : LLMResult) : Prop := r.parsed = none → r.parseError ≠ none

/-- The value is a text. -/
def IsStr (v : Json) : Prop := ∃ s, v = .str s

/-- The value can be iterated. -/
def Iterable : Json → Prop
  | .array _ _ | .str _ | .object _ _ => True
  | .null | .bool _ | .number _ => False

/-- The value is no int that is too large for a double. -/
def FitsDouble : Json → Prop
  | .number (.int n) => n.natAbs < 2 ^ 1024 - 2 ^ 970
  | _ => True

/-- The command of a reply meets the schema of commands. -/
def CommandMeets (data : List (String × Json)) : Prop :=
  ∃ text entries name key, data.lookup "command" = some (.object text entries) ∧
    (∀ e ∈ entries, e.1 = "confidence" ∨ e.1 ∈ commandFields) ∧
    entries.lookup "command_type" = some (.str name) ∧
    (∃ t ∈ issuableTypes, t.name = name) ∧
    (∀ v, entries.lookup "params" = some v → ∃ text params, v = .object text params) ∧
    entries.lookup "idempotency_key" = some (.str key)

/-- The reminder of a reply has a due time. -/
def ReminderMeets (readers : TextReaders) (data : List (String × Json)) : Prop :=
  ∃ s t, data.lookup "due_at" = some (.str s) ∧ s ≠ "" ∧ readers.fromIsoFormat s = some t

/-- The reading of the reply goes as far as building the action. -/
def ReachesAction (readers : TextReaders) (kind : AgentActionKind) (data : List (String × Json))
    (confidence : Double) : Prop :=
  (kind = .createReminder → ReminderMeets readers data) ∧
    (kind = .issueCommand → CommandMeets data ∧ UnitInterval confidence)

/-- The fields have the types and the bounds of an action. -/
structure FieldsMeet (kind : AgentActionKind) (data : List (String × Json))
    (confidence : Double) : Prop where
  text : ∀ v, data.lookup "text" = some v → IsStr v
  atomIds : ∀ text items, data.lookup "atom_ids" = some (.array text items) →
    ∀ item ∈ items, IsStr item
  memoryKind : kind = .createMemory ∨ kind = .createReminder →
    ∀ v, data.lookup "memory_kind" = some v → v = .null ∨ IsStr v
  confidence : UnitInterval confidence

/-- The confidence of the reply. -/
def confidenceOf (data : List (String × Json)) : Json :=
  (data.lookup "confidence").getD (.number (.float (.finite 0)))

/-- An object with a kind can be read. -/
structure ObjectReadable (readers : TextReaders) (kind : AgentActionKind)
    (data : List (String × Json)) : Prop where
  atomIds : ∀ v, data.lookup "atom_ids" = some v → Iterable v
  confidence : FitsDouble (confidenceOf data)
  fields : ∀ confidence, (confidenceOf data).float readers = .ok confidence →
    ReachesAction readers kind data confidence → FieldsMeet kind data confidence

/-- A value can be read, unless it is an object with a kind that cannot. -/
def ValueReadable (readers : TextReaders) : Json → Prop
  | .object _ data => ∀ kind, AgentActionKind.ofValue? (data.lookup "kind") = some kind →
    ObjectReadable readers kind data
  | _ => True

/-- The reply can be read: it is blank, or `json.loads` ends with its own error or with a value
that can be read. -/
def Readable (readers : TextReaders) (raw : String) : Prop :=
  raw = "" ∨ readers.isBlank raw = true ∨ readers.loads raw = .decodeError ∨
    ∃ v, readers.loads raw = .value v ∧ ValueReadable readers v

/-! ## The steps of the reading -/

variable {readers : TextReaders} {kind : AgentActionKind} {data : List (String × Json)}
  {confidence : Double}

theorem asStr_isSome_iff (v : Json) : v.asStr.isSome ↔ IsStr v := by
  cases v <;> simp [Json.asStr, IsStr]

theorem mapM_asStr_isSome_iff (items : List Json) :
    (items.mapM Json.asStr).isSome ↔ ∀ item ∈ items, IsStr item := by
  induction items with
  | nil => simp
  | cons item items ih =>
    rw [List.forall_mem_cons, ← ih, ← asStr_isSome_iff, List.mapM_cons]
    cases item.asStr with
    | none => simp
    | some s => cases items.mapM Json.asStr <;> simp

theorem tuple_isSome_iff (v : Json) : v.tuple.isSome ↔ Iterable v := by
  cases v <;> simp [Json.tuple, Iterable]

/-- What a value that is no array is iterated to are texts. -/
theorem isStr_of_tuple {v : Json} {items : List Json} (h : v.tuple = some items) :
    (∀ item ∈ items, IsStr item) ↔
      ∀ text items, v = .array text items → ∀ item ∈ items, IsStr item := by
  cases v with
  | array text items' =>
    obtain rfl := Option.some.inj h
    constructor
    · rintro hitems _ _ heq
      cases heq
      exact hitems
    · intro hitems
      exact hitems text items' rfl
  | str s =>
    obtain rfl := Option.some.inj h
    simp [IsStr]
  | object text entries =>
    obtain rfl := Option.some.inj h
    refine iff_of_true (fun item hitem => ?_) (by simp)
    obtain ⟨e, -, rfl⟩ := List.mem_map.mp hitem
    exact ⟨e.1, rfl⟩
  | null => simp [Json.tuple] at h
  | bool b => simp [Json.tuple] at h
  | number n => simp [Json.tuple] at h

theorem asOptionalStr_isSome_iff (v : Option Json) :
    (Json.asOptionalStr v).isSome ↔ ∀ w, v = some w → w = .null ∨ IsStr w := by
  cases v with
  | none => simp [Json.asOptionalStr]
  | some w => cases w <;> simp [Json.asOptionalStr, IsStr]

/-- Only an int overflows. -/
theorem float_eq_overflow_iff (readers : TextReaders) (v : Json) :
    v.float readers = .overflow ↔ ¬ FitsDouble v := by
  cases v with
  | number n =>
    cases n with
    | int n =>
      simp only [Json.float, FitsDouble]
      split_ifs with h
      · exact iff_of_false (by simp) (not_not_intro h)
      · exact iff_of_true (by simp) h
    | float x => simp [Json.float, FitsDouble]
  | str s =>
    simp only [Json.float, FitsDouble, not_true, iff_false]
    cases readers.float s <;> simp
  | bool b => simp [Json.float, FitsDouble]
  | null => simp [Json.float, FitsDouble]
  | array text items => simp [Json.float, FitsDouble]
  | object text entries => simp [Json.float, FitsDouble]

/-- The due time of a reminder is read when there is one. -/
theorem parseDueAt_isOk_iff (readers : TextReaders) (data : List (String × Json)) :
    (parseDueAt readers (data.lookup "due_at")).isOk ↔ ReminderMeets readers data := by
  unfold ReminderMeets
  cases hdue : data.lookup "due_at" with
  | none => simp [parseDueAt, Except.isOk, Except.toBool]
  | some v =>
    cases v with
    | str s =>
      by_cases hs : s = ""
      · simp [parseDueAt, Json.falsy, hs, Except.isOk, Except.toBool]
      · cases hread : readers.fromIsoFormat s <;>
          simp [parseDueAt, Json.falsy, hs, hread, Except.isOk, Except.toBool]
    | _ =>
      simp only [parseDueAt]
      split_ifs <;> simp [Except.isOk, Except.toBool]

/-- A payload is built from the name of an issuable type and a confidence within bounds.
SOURCE: contracts/types.py:79-104 -/
theorem ofRequest_isOk_iff (name : String) (params : Params) (key : String)
    (confidence : Double) :
    (IssueCommandPayload.ofRequest name params key confidence).isOk ↔
      (∃ t ∈ issuableTypes, t.name = name) ∧ UnitInterval confidence := by
  unfold IssueCommandPayload.ofRequest
  split
  · rename_i hnone
    rw [List.find?_eq_none] at hnone
    simp only [decide_eq_true_eq] at hnone
    refine iff_of_false (by simp [Except.isOk, Except.toBool]) ?_
    rintro ⟨⟨t, ht, hname⟩, -⟩
    exact hnone t ht hname
  · rename_i t hsome
    have hname : t.name = name := by simpa using List.find?_some hsome
    have hmem := List.mem_of_find?_eq_some hsome
    split_ifs with hconfidence
    · exact iff_of_true (by simp [Except.isOk, Except.toBool]) ⟨⟨t, hmem, hname⟩, hconfidence⟩
    · exact iff_of_false (by simp [Except.isOk, Except.toBool]) fun h => hconfidence h.2

theorem isOk_mapError {ε ε' α : Type} (e : Except ε α) (f : ε → ε') :
    (e.mapError f).isOk = e.isOk := by
  cases e <;> simp [Except.mapError, Except.isOk, Except.toBool]

/-- Leaving out the confidence leaves the other fields. -/
theorem lookup_cleaned (entries : List (String × Json)) {key : String} (h : key ≠ "confidence") :
    (entries.filter fun e => e.1 ≠ "confidence").lookup key = entries.lookup key := by
  induction entries with
  | nil => simp
  | cons e entries ih =>
    obtain ⟨name, v⟩ := e
    rw [List.filter_cons, List.lookup_cons, ← ih]
    by_cases hname : name = "confidence"
    · have hkey : (key == name) = false := by simpa [hname] using h
      rw [if_neg (by simpa using hname), hkey]
    · rw [if_pos (by simpa using hname), List.lookup_cons]

theorem any_cleaned_iff (entries : List (String × Json)) :
    ((entries.filter fun e => e.1 ≠ "confidence").any fun e => e.1 ∉ commandFields) = false ↔
      ∀ e ∈ entries, e.1 = "confidence" ∨ e.1 ∈ commandFields := by
  simp [List.any_eq_false, or_iff_not_imp_left]

/-- The command is read when it meets its schema, whose confidence is the reply's.
SOURCE: agent/intent.py:150-178 -/
theorem parseCommand_isOk_iff (data : List (String × Json)) (confidence : Double) :
    (parseCommand (data.lookup "command") confidence).isOk ↔
      CommandMeets data ∧ UnitInterval confidence := by
  unfold CommandMeets
  cases hcommand : data.lookup "command" with
  | none => simp [parseCommand, Except.isOk, Except.toBool]
  | some v =>
    cases v with
    | object text entries =>
      simp only [parseCommand, lookup_cleaned entries (show "command_type" ≠ "confidence" by simp),
        lookup_cleaned entries (show "params" ≠ "confidence" by simp),
        lookup_cleaned entries (show "idempotency_key" ≠ "confidence" by simp)]
      constructor
      · intro h
        split_ifs at h with hany
        · simp [Except.isOk, Except.toBool] at h
        · have hfields := (any_cleaned_iff entries).mp (by simpa using hany)
          split at h
          · rename_i name key hname hkey
            split at h
            · rename_i hparams
              rw [isOk_mapError, ofRequest_isOk_iff] at h
              exact ⟨⟨text, entries, name, key, rfl, hfields, hname, h.1, by simp [hparams], hkey⟩,
                h.2⟩
            · rename_i text' entries' hparams
              rw [isOk_mapError, ofRequest_isOk_iff] at h
              exact ⟨⟨text, entries, name, key, rfl, hfields, hname, h.1, by simp [hparams], hkey⟩,
                h.2⟩
            · simp [Except.isOk, Except.toBool] at h
          · simp [Except.isOk, Except.toBool] at h
      · rintro ⟨⟨_, _, name, key, heq, hfields, hname, htype, hparams, hkey⟩, hconfidence⟩
        cases heq
        rw [if_neg (by simpa using (any_cleaned_iff entries).mpr hfields), hname, hkey]
        cases hfound : entries.lookup "params" with
        | none =>
          dsimp only
          rw [isOk_mapError, ofRequest_isOk_iff]
          exact ⟨htype, hconfidence⟩
        | some v =>
          obtain ⟨text', params, rfl⟩ := hparams v hfound
          dsimp only
          rw [isOk_mapError, ofRequest_isOk_iff]
          exact ⟨htype, hconfidence⟩
    | _ => simp [parseCommand, Except.isOk, Except.toBool]

/-- The payload is read when what the kind asks for is there.
SOURCE: agent/intent.py:112-178 -/
theorem parsePayload_isOk_iff (readers : TextReaders) (kind : AgentActionKind)
    (data : List (String × Json)) (confidence : Double) :
    (parsePayload readers kind data confidence).isOk ↔
      ReachesAction readers kind data confidence := by
  unfold ReachesAction
  cases kind with
  | createReminder =>
    rw [← parseDueAt_isOk_iff]
    cases h : parseDueAt readers (data.lookup "due_at") <;>
      simp [parsePayload, h, Except.map, Except.isOk, Except.toBool]
  | issueCommand =>
    rw [← parseCommand_isOk_iff]
    cases h : parseCommand (data.lookup "command") confidence <;>
      simp [parsePayload, h, Except.map, Except.isOk, Except.toBool]
  | createMemory => simp [parsePayload, Except.isOk, Except.toBool]
  | answer => simp [parsePayload, Except.isOk, Except.toBool]
  | noMemory => simp [parsePayload, Except.isOk, Except.toBool]

/-- The kind of a memory is read for memories and reminders, as it is. -/
theorem memoryKind_of_parsePayload {payload : ReplyPayload}
    (h : parsePayload readers kind data confidence = .ok payload) :
    payload.memoryKind = if kind = .createMemory ∨ kind = .createReminder then
      data.lookup "memory_kind" else none := by
  cases kind with
  | createReminder =>
    simp only [parsePayload] at h
    cases hdue : parseDueAt readers (data.lookup "due_at") with
    | error e => simp [hdue, Except.map] at h
    | ok dueAt =>
      simp only [hdue, Except.map, Except.ok.injEq] at h
      simp [← h]
  | issueCommand =>
    simp only [parsePayload] at h
    cases hcommand : parseCommand (data.lookup "command") confidence with
    | error e => simp [hcommand, Except.map] at h
    | ok command =>
      simp only [hcommand, Except.map, Except.ok.injEq] at h
      simp [← h]
  | _ =>
    simp only [parsePayload, Except.ok.injEq] at h
    simp [← h]

/-- The action is built when its fields are what the schema asks for. -/
theorem buildAction_isSome_iff (kind : AgentActionKind) (text : Json) (atomIds : List Json)
    (confidence : Double) (payload : ReplyPayload) :
    (buildAction kind text atomIds confidence payload).isSome ↔
      IsStr text ∧ (∀ item ∈ atomIds, IsStr item) ∧
        (∀ v, payload.memoryKind = some v → v = .null ∨ IsStr v) ∧ UnitInterval confidence := by
  rw [← asStr_isSome_iff, ← mapM_asStr_isSome_iff, ← asOptionalStr_isSome_iff]
  unfold buildAction
  cases text.asStr with
  | none => simp
  | some text =>
    cases atomIds.mapM Json.asStr with
    | none => simp
    | some atomIds =>
      cases Json.asOptionalStr payload.memoryKind with
      | none => simp
      | some memoryKind =>
        dsimp only
        split_ifs with hconfidence <;> simp [hconfidence]

/-! ## The reading -/

theorem atomIds_isSome_iff (data : List (String × Json)) :
    ((data.lookup "atom_ids").getD (.array "" [])).tuple.isSome ↔
      ∀ v, data.lookup "atom_ids" = some v → Iterable v := by
  cases data.lookup "atom_ids" with
  | none => simp [Json.tuple]
  | some v => simp [tuple_isSome_iff]

/-- The ids that a reply cites are texts when it has none, or cites them one by one as texts. -/
theorem atomIds_isStr_iff {atomIds : List Json}
    (h : ((data.lookup "atom_ids").getD (.array "" [])).tuple = some atomIds) :
    (∀ item ∈ atomIds, IsStr item) ↔
      ∀ text items, data.lookup "atom_ids" = some (.array text items) →
        ∀ item ∈ items, IsStr item := by
  rw [isStr_of_tuple h]
  cases data.lookup "atom_ids" with
  | none => simp
  | some v => simp

theorem text_isStr_iff (data : List (String × Json)) :
    IsStr ((data.lookup "text").getD (.str "")) ↔
      ∀ v, data.lookup "text" = some v → IsStr v := by
  cases data.lookup "text" with
  | none => simp [IsStr]
  | some v => simp

/-- The fields that the action is built of, as they are in the reply. -/
theorem fieldsMeet_iff {atomIds : List Json} {payload : ReplyPayload}
    (hatoms : ((data.lookup "atom_ids").getD (.array "" [])).tuple = some atomIds)
    (hpayload : parsePayload readers kind data confidence = .ok payload) :
    (buildAction kind ((data.lookup "text").getD (.str "")) atomIds confidence payload).isSome ↔
      FieldsMeet kind data confidence := by
  rw [buildAction_isSome_iff, atomIds_isStr_iff hatoms, text_isStr_iff,
    memoryKind_of_parsePayload hpayload]
  constructor
  · rintro ⟨htext, hids, hmemory, hconfidence⟩
    exact ⟨htext, hids, fun hkind => by simpa [hkind] using hmemory, hconfidence⟩
  · rintro ⟨htext, hids, hmemory, hconfidence⟩
    refine ⟨htext, hids, ?_, hconfidence⟩
    split_ifs with hkind
    · exact hmemory hkind
    · simp

/-- An object with a kind is read when nothing unexpected is met on the way.
SOURCE: agent/intent.py:103-192 -/
theorem parseObject_isSome_iff (readers : TextReaders) (raw : String) (kind : AgentActionKind)
    (data : List (String × Json)) :
    (parseObject readers raw kind data).isSome ↔ ObjectReadable readers kind data := by
  unfold parseObject
  cases hatoms : ((data.lookup "atom_ids").getD (.array "" [])).tuple with
  | none =>
    refine iff_of_false (by simp) fun h => ?_
    have hsome := (atomIds_isSome_iff data).mpr h.atomIds
    simp [hatoms] at hsome
  | some atomIds =>
    have hiterable := (atomIds_isSome_iff data).mp (by rw [hatoms]; simp)
    have hoverflow := float_eq_overflow_iff readers (confidenceOf data)
    dsimp only
    rw [show (data.lookup "confidence").getD (.number (.float (.finite 0))) = confidenceOf data
      from rfl]
    cases hfloat : (confidenceOf data).float readers with
    | overflow => exact iff_of_false (by simp) fun h => hoverflow.mp hfloat h.confidence
    | rejected =>
      have hfits : FitsDouble (confidenceOf data) := by simpa [hfloat] using hoverflow
      exact iff_of_true (by simp) ⟨hiterable, hfits, by simp [hfloat]⟩
    | ok confidence =>
      have hfits : FitsDouble (confidenceOf data) := by simpa [hfloat] using hoverflow
      have hreaches := parsePayload_isOk_iff readers kind data confidence
      dsimp only
      cases hpayload : parsePayload readers kind data confidence with
      | error e =>
        rw [hpayload] at hreaches
        refine iff_of_true (by simp) ⟨hiterable, hfits, fun c hc hreach => ?_⟩
        obtain rfl : confidence = c := by simpa [hfloat] using hc
        simp [Except.isOk, Except.toBool, ← hreaches] at hreach
      | ok payload =>
        rw [hpayload] at hreaches
        dsimp only
        rw [Option.isSome_map, fieldsMeet_iff hatoms hpayload]
        constructor
        · intro h
          refine ⟨hiterable, hfits, fun c hc _ => ?_⟩
          obtain rfl : confidence = c := by simpa [hfloat] using hc
          exact h
        · intro h
          exact h.fields confidence hfloat (hreaches.mp (by simp [Except.isOk, Except.toBool]))

theorem parseReply_isSome_iff (readers : TextReaders) (raw : String) :
    (parseReply readers raw).isSome ↔ Readable readers raw := by
  unfold parseReply Readable
  by_cases hblank : raw = "" ∨ readers.isBlank raw = true
  · rw [if_pos hblank]
    exact iff_of_true (by simp) (by tauto)
  · rw [if_neg hblank]
    rw [not_or] at hblank
    cases hloads : readers.loads raw with
    | decodeError => simp
    | raised => simp [hblank]
    | value v =>
      cases v with
      | object text data =>
        cases hkind : AgentActionKind.ofValue? (data.lookup "kind") with
        | none => simp [ValueReadable, hkind]
        | some kind => simp [ValueReadable, hblank, hkind, parseObject_isSome_iff]
      | _ => simp [ValueReadable]

/-- A result says why it holds no action. -/
theorem settled_of_parseObject {raw : String} {r : LLMResult}
    (h : parseObject readers raw kind data = some r) : Settled r := by
  unfold parseObject at h
  split at h
  · simp at h
  · split at h
    · simp at h
    · obtain rfl := Option.some.inj h
      simp [Settled]
    · split at h
      · obtain rfl := Option.some.inj h
        simp [Settled]
      · obtain ⟨action, -, rfl⟩ := Option.map_eq_some_iff.mp h
        simp [Settled]

theorem settled_of_parseReply {raw : String} {r : LLMResult}
    (h : parseReply readers raw = some r) : Settled r := by
  unfold parseReply at h
  split_ifs at h
  · obtain rfl := Option.some.inj h
    simp [Settled]
  · split at h
    · obtain rfl := Option.some.inj h
      simp [Settled]
    · simp at h
    · split at h
      · obtain rfl := Option.some.inj h
        simp [Settled]
      · exact settled_of_parseObject h
    · obtain rfl := Option.some.inj h
      simp [Settled]

/-- **A reply has a settled result exactly when it can be read; the reading of any other raises.**
SOURCE: agent/intent.py:70-192, contracts/types.py:79-141 -/
theorem parseReply_settled_iff (readers : TextReaders) (raw : String) :
    (∃ r, parseReply readers raw = some r ∧ Settled r) ↔ Readable readers raw := by
  rw [← parseReply_isSome_iff, Option.isSome_iff_exists]
  exact ⟨fun ⟨r, hr, _⟩ => ⟨r, hr⟩, fun ⟨r, hr⟩ => ⟨r, hr, settled_of_parseReply hr⟩⟩

/-! ## A reply that raises -/

/-- The readers for the one reply of `nullAtoms`. -/
def nullAtomsReaders : TextReaders where
  isBlank := fun _ => false
  loads := fun _ => .value (.object ""
    [("kind", .str "no_memory"), ("text", .str ""), ("atom_ids", .null),
      ("confidence", .number (.int 0))])
  float := fun _ => none
  fromIsoFormat := fun _ => none

/-- The reply of a model that writes null for an empty list. -/
def nullAtoms : String :=
  "\x7b\"kind\": \"no_memory\", \"text\": \"\", \"atom_ids\": null, \"confidence\": 0\x7d"

/-- `tuple(None)` raises outside of every `try`. -/
theorem not_always_settled : ¬ ∀ (readers : TextReaders) (raw : String),
    ∃ r, parseReply readers raw = some r ∧ Settled r := by
  intro h
  obtain ⟨r, hr, -⟩ := h nullAtomsReaders nullAtoms
  have hkind : AgentActionKind.ofValue? (some (.str "no_memory")) = some .noMemory := by
    decide +kernel
  have htext : nullAtoms ≠ "" := by decide +kernel
  simp [parseReply, htext, nullAtomsReaders, hkind, List.lookup, parseObject, Json.tuple] at hr

end OpenRecall.Analysis.ReplyParsing
