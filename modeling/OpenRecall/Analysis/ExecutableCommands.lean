import OpenRecall.Model.CommandIssue
import OpenRecall.Model.ExecutorCore

/-!
# What the server issues and the device executes

The server validates a command against the schema of its type, and the device validates it once
more, by a table of its own. The tables agree but for two types that the device does not know,
and for numbers: the server lets any number within the bounds through, while the device keeps
whole seconds. So a command is executed as it was signed exactly when its type is in both tables
and its parameter is whole.
-/

set_option autoImplicit false

namespace OpenRecall.Analysis.ExecutableCommands

open OpenRecall.Model

/-- The device's type for a command.
SOURCE: executor_core.h:32-43 -/
def deviceType : CommandType → Option CmdType
  | .startAudio => some .startAudio
  | .stopAudio => some .stopAudio
  | .requestBuffer => some .requestBuffer
  | .capturePhoto => some .capturePhoto
  | .recordVideo => some .recordVideo
  | .startVideo => some .startVideo
  | .stopVideo => some .stopVideo
  | .flushSnapshots => some .flushSnapshots
  | .setSnapshotInterval => some .setSnapshotInterval
  | .playAudio | .displayText | .showStatus | .recordAudio | .sleep => none

/-- The value of a number. -/
def value : Number → Double
  | .int n => .finite n
  | .float x => x

/-- What JSON has a token for: not a NaN or an infinity. -/
def wireValue (n : Number) : Option Double :=
  match value n with
  | .finite q => some (.finite q)
  | _ => none

/-- A number as the device reads it in the signed JSON.
SOURCE: commands/model.py:60-66 -/
def onWire (n : Number) : CJson :=
  match wireValue n with
  | some x => .number x
  | none => .null

/-- The parameters as the device reads them. -/
def wireParams (params : List (String × Number)) : CJson :=
  .object (params.map fun e => (.lit e.1, onWire e.2))

/-- The field of a request that its type fills. -/
def parameter (req : CmdRequest) : UInt32 :=
  match req.type with
  | .recordVideo => req.durationS
  | .requestBuffer => req.seconds
  | .setSnapshotInterval => req.snapshotIntervalS
  | _ => 0

/-- The device's request for a command. -/
def deviceRequest (c : ValidatedCommand) : CmdRequest :=
  executorParseAndValidate (.lit c.commandType.name) (some (wireParams c.params))

/-- **The device executes the command as it was signed**: its request is in order, of the
command's type, and has the command's number. -/
structure Executes (c : ValidatedCommand) : Prop where
  status : (deviceRequest c).status = .ok
  type : deviceType c.commandType = some (deviceRequest c).type
  number : ∀ e ∈ c.params, value e.2 = .finite (parameter (deviceRequest c)).toNat

/-- The number is whole. -/
def Whole (n : Number) : Prop := ∃ k : ℤ, value n = .finite k

/-! ## The server's table -/

section

variable {payload : IssueCommandPayload} {c : ValidatedCommand}

/-- A number that passes is within the bounds. -/
theorem check_ok {f : FieldSchema} {v : Value} {n : Number} (h : f.check v = .ok n) :
    n.lt f.lo = false ∧ n.gt f.hi = false := by
  cases v with
  | number m =>
    rw [FieldSchema.check] at h
    split_ifs at h with hlo hhi
    obtain rfl := Except.ok.inj h
    exact ⟨by simpa using hlo, by simpa using hhi⟩
  | _ => cases h

/-- A required number is there, and within the bounds. -/
theorem cleanParams_singleton {params : Params} {f : FieldSchema}
    {cleaned : List (String × Number)} (h : cleanParams params [f] = .ok cleaned)
    (hpresent : params.lookup f.key ≠ none) :
    ∃ n, cleaned = [(f.key, n)] ∧ n.lt f.lo = false ∧ n.gt f.hi = false := by
  rw [cleanParams] at h
  cases hlookup : params.lookup f.key with
  | none => exact absurd hlookup hpresent
  | some v =>
    rw [hlookup] at h
    dsimp only at h
    cases hcheck : f.check v with
    | error e =>
      rw [hcheck] at h
      cases h
    | ok n =>
      rw [hcheck] at h
      obtain rfl := Except.ok.inj h
      exact ⟨n, rfl, check_ok hcheck⟩

/-- What passes has an allowed type, and no parameter or the one of its type.
SOURCE: agent/validator_command.py:199-287 -/
theorem validate_ok (h : StrictCommandValidator.validate payload = .ok c) :
    c.commandType ∈ allowlist ∧ ∃ schema, typeSchema c.commandType = some schema ∧
      cleanParams payload.params schema.fields = .ok c.params ∧
      ∀ key ∈ schema.required, payload.params.lookup key ≠ none := by
  unfold StrictCommandValidator.validate at h
  split_ifs at h with hkey hallowed
  cases hschema : typeSchema payload.commandType with
  | none =>
    rw [hschema] at h
    cases h
  | some schema =>
    rw [hschema] at h
    dsimp only at h
    cases hunknown : payload.params.find? fun e => e.1 ∉ schema.required ++ schema.optional with
    | some e =>
      rw [hunknown] at h
      cases h
    | none =>
      rw [hunknown] at h
      dsimp only at h
      cases hmissing : schema.required.find? fun key => payload.params.lookup key = none with
      | some key =>
        rw [hmissing] at h
        cases h
      | none =>
        rw [hmissing] at h
        dsimp only at h
        cases hcleaned : cleanParams payload.params schema.fields with
        | error e =>
          rw [hcleaned] at h
          cases h
        | ok cleaned =>
          rw [hcleaned] at h
          obtain rfl := Except.ok.inj h
          refine ⟨hallowed, schema, hschema, hcleaned, fun key hkey => ?_⟩
          simpa using List.find?_eq_none.mp hmissing key hkey

end

/-! ## The device's table -/

theorem getNumber_single (key : String) (n : Number) :
    getNumber (some (wireParams [(key, n)])) (.lit key) = wireValue n := by
  unfold getNumber wireParams CJson.getItem onWire
  simp only [List.map_cons, List.map_nil, Option.bind_some, List.find?_cons_of_pos, decide_true,
    Option.map_some]
  cases wireValue n <;> rfl

/-- The request for a number. -/
def stored (t : CmdType) (fill : CmdRequest → UInt32 → CmdRequest) (n : Number) : CmdRequest :=
  match value n with
  | .finite q => fill { type := t } (UInt32.ofNat ⌊q⌋.toNat)
  | _ => { type := t, status := .badParams }

/-- A number that the device gets within the bounds is stored as whole seconds.
SOURCE: executor_core.c:50-80 -/
theorem parseWithNumber_single (t : CmdType) (key : String) {lo hi : ℚ}
    (fill : CmdRequest → UInt32 → CmdRequest) {n : Number} (hlo : (value n).lt lo = false)
    (hhi : (value n).gt hi = false) :
    parseWithNumber t (.lit key) lo hi fill (some (wireParams [(key, n)])) = stored t fill n := by
  have hallowed : paramsOnlyAllowed (some (wireParams [(key, n)])) [.lit key] = true := by
    simp [paramsOnlyAllowed, wireParams]
  unfold parseWithNumber stored
  rw [getNumber_single, if_neg (by rw [hallowed]; simp), wireValue]
  cases hvalue : value n with
  | finite q =>
    rw [hvalue] at hlo hhi
    dsimp only
    rw [if_neg (by rw [hlo, hhi]; simp)]
    rfl
  | infinite negative => rfl
  | nan => rfl

/-- A number between bounds that the device can hold is stored as it is just when it is whole. -/
theorem stored_iff {q lo hi : ℚ} (hlo : (Double.finite q).lt lo = false)
    (hhi : (Double.finite q).gt hi = false) (hlo' : 0 ≤ lo) (hhi' : hi < 2 ^ 32) :
    q = (UInt32.ofNat ⌊q⌋.toNat).toNat ↔ ∃ k : ℤ, q = k := by
  have hlow : lo ≤ q := not_lt.mp (of_decide_eq_false hlo)
  have hhigh : q ≤ hi := not_lt.mp (of_decide_eq_false hhi)
  constructor
  · intro h
    exact ⟨_, h.trans (Int.cast_natCast _).symm⟩
  · rintro ⟨k, rfl⟩
    have hk : 0 ≤ k := by exact_mod_cast hlo'.trans hlow
    have hlt : k < 2 ^ 32 := by exact_mod_cast hhigh.trans_lt hhi'
    rw [Int.floor_intCast, UInt32.toNat_ofNat', Nat.mod_eq_of_lt (by omega)]
    exact_mod_cast (Int.toNat_of_nonneg hk).symm

/-- The parser that the device has for a type.
SOURCE: executor_core.c:28-106 -/
def parser (params : Option CJson) : CommandType → CmdRequest
  | .startAudio => parseWithoutParams .startAudio params
  | .stopAudio => parseWithoutParams .stopAudio params
  | .capturePhoto => parseWithoutParams .capturePhoto params
  | .recordVideo =>
    parseWithNumber .recordVideo (.lit "duration_s") 1 30
      (fun req n => { req with durationS := n }) params
  | .requestBuffer =>
    parseWithNumber .requestBuffer (.lit "seconds") 1 60
      (fun req n => { req with seconds := n }) params
  | .startVideo => parseWithoutParams .startVideo params
  | .stopVideo => parseWithoutParams .stopVideo params
  | .flushSnapshots => parseWithoutParams .flushSnapshots params
  | .setSnapshotInterval =>
    parseWithNumber .setSnapshotInterval (.lit "seconds") 0 600
      (fun req n => { req with snapshotIntervalS := n }) params
  | .playAudio | .displayText | .showStatus | .recordAudio | .sleep =>
    { type := .unknown, status := .unknownType }

theorem executorParseAndValidate_lit (t : CommandType) (params : Option CJson) :
    executorParseAndValidate (.lit t.name) params = parser params t := by
  cases t <;> rfl

/-! ## Both tables -/

theorem value_lt (n : Number) (q : ℚ) : (value n).lt q = n.lt q := by cases n <;> rfl

theorem value_gt (n : Number) (q : ℚ) : (value n).gt q = n.gt q := by cases n <;> rfl

section

variable {c : ValidatedCommand} {t : CmdType}

/-- A command without parameters. -/
theorem executes_of_no_params (hparams : c.params = []) (htype : deviceType c.commandType = some t)
    (hparser : ∀ params, parser params c.commandType = parseWithoutParams t params) :
    Executes c := by
  have hrequest : deviceRequest c = { type := t, status := .ok } := by
    unfold deviceRequest
    rw [executorParseAndValidate_lit, hparser, hparams]
    rfl
  refine ⟨by rw [hrequest], by rw [hrequest, htype], fun e he => ?_⟩
  rw [hparams] at he
  cases he

/-- A command with a number that is within the device's bounds. -/
theorem executes_iff_whole {key : String} {n : Number} {lo hi : ℤ}
    {fill : CmdRequest → UInt32 → CmdRequest} (hparams : c.params = [(key, n)])
    (htype : deviceType c.commandType = some t)
    (hparser : ∀ params, parser params c.commandType =
      parseWithNumber t (.lit key) lo hi fill params)
    (hfill : ∀ seconds, (fill { type := t } seconds).status = .ok ∧
      (fill { type := t } seconds).type = t ∧ parameter (fill { type := t } seconds) = seconds)
    (hlo : n.lt lo = false) (hhi : n.gt hi = false) (hbounds : 0 ≤ lo ∧ hi < 2 ^ 32) :
    Executes c ↔ Whole n := by
  have hrequest : deviceRequest c = stored t fill n := by
    unfold deviceRequest
    rw [executorParseAndValidate_lit, hparser, hparams,
      parseWithNumber_single t key fill (by rwa [value_lt]) (by rwa [value_gt])]
  rw [← value_lt] at hlo
  rw [← value_gt] at hhi
  unfold Whole
  unfold stored at hrequest
  cases hvalue : value n with
  | finite q =>
    rw [hvalue] at hrequest hlo hhi
    dsimp only at hrequest
    obtain ⟨hstatus, htype', hnumber⟩ := hfill (UInt32.ofNat ⌊q⌋.toNat)
    rw [← hrequest] at hstatus htype' hnumber
    have hstored := stored_iff hlo hhi (by exact_mod_cast hbounds.1) (by exact_mod_cast hbounds.2)
    simp only [Double.finite.injEq]
    rw [← hstored]
    constructor
    · intro h
      have hvalue' := h.number (key, n) (by rw [hparams]; exact List.mem_singleton_self _)
      rw [hnumber, hvalue] at hvalue'
      exact Double.finite.inj hvalue'
    · intro h
      refine ⟨hstatus, by rw [htype', htype], fun e he => ?_⟩
      rw [hparams] at he
      obtain rfl := List.mem_singleton.mp he
      rw [hnumber, hvalue]
      exact congrArg Double.finite h
  | infinite negative =>
    rw [hvalue] at hrequest
    refine ⟨fun h => ?_, fun ⟨k, hk⟩ => by cases hk⟩
    have hstatus := h.status
    rw [hrequest] at hstatus
    cases hstatus
  | nan =>
    rw [hvalue] at hrequest
    refine ⟨fun h => ?_, fun ⟨k, hk⟩ => by cases hk⟩
    have hstatus := h.status
    rw [hrequest] at hstatus
    cases hstatus

/-- A type that the device does not know. -/
theorem not_executes (htype : deviceType c.commandType = none) : ¬ Executes c := by
  intro h
  have h' := h.type
  rw [htype] at h'
  cases h'

end

/-- **A validated command is executed as it was signed exactly when the device knows its type and
its number is whole.**
SOURCE: agent/validator_command.py:52-287, executor_core.c:7-106 -/
theorem executes_iff {payload : IssueCommandPayload} {c : ValidatedCommand}
    (h : StrictCommandValidator.validate payload = .ok c) :
    Executes c ↔ (c.commandType ≠ .recordAudio ∧ c.commandType ≠ .sleep) ∧
      ∀ e ∈ c.params, Whole e.2 := by
  obtain ⟨hallowed, schema, hschema, hcleaned, hrequired⟩ := validate_ok h
  have hnone (t : CmdType) (hfields : schema.fields = [])
      (htype : deviceType c.commandType = some t)
      (hparser : ∀ params, parser params c.commandType = parseWithoutParams t params) :
      Executes c ∧ ∀ e ∈ c.params, Whole e.2 := by
    rw [hfields] at hcleaned
    have hparams : c.params = [] := (Except.ok.inj hcleaned).symm
    refine ⟨executes_of_no_params hparams htype hparser, fun e he => ?_⟩
    rw [hparams] at he
    cases he
  have hone (t : CmdType) (f : FieldSchema) (fill : CmdRequest → UInt32 → CmdRequest)
      (hfields : schema.fields = [f]) (hkey : f.key ∈ schema.required)
      (htype : deviceType c.commandType = some t)
      (hparser : ∀ params, parser params c.commandType =
        parseWithNumber t (.lit f.key) f.lo f.hi fill params)
      (hfill : ∀ seconds, (fill { type := t } seconds).status = .ok ∧
        (fill { type := t } seconds).type = t ∧ parameter (fill { type := t } seconds) = seconds)
      (hbounds : 0 ≤ f.lo ∧ f.hi < 2 ^ 32) : Executes c ↔ ∀ e ∈ c.params, Whole e.2 := by
    rw [hfields] at hcleaned
    obtain ⟨n, hparams, hlo, hhi⟩ := cleanParams_singleton hcleaned (hrequired f.key hkey)
    rw [executes_iff_whole hparams htype hparser hfill hlo hhi hbounds, hparams]
    simp
  have hknown (hexecutes : Executes c ↔ ∀ e ∈ c.params, Whole e.2)
      (htype : c.commandType ≠ .recordAudio ∧ c.commandType ≠ .sleep) :
      Executes c ↔ (c.commandType ≠ .recordAudio ∧ c.commandType ≠ .sleep) ∧
        ∀ e ∈ c.params, Whole e.2 :=
    hexecutes.trans (and_iff_right htype).symm
  cases htype : c.commandType <;> rw [htype] at hallowed hschema hnone hone hknown
  case playAudio => exact absurd hallowed (by decide)
  case displayText => exact absurd hallowed (by decide)
  case showStatus => exact absurd hallowed (by decide)
  case recordAudio =>
    apply iff_of_false
    · apply not_executes
      rw [htype]
      rfl
    · exact fun hcase => hcase.1.1 rfl
  case sleep =>
    apply iff_of_false
    · apply not_executes
      rw [htype]
      rfl
    · exact fun hcase => hcase.1.2 rfl
  case recordVideo =>
    obtain rfl := Option.some.inj hschema
    apply hknown _ (by simp)
    exact hone .recordVideo ⟨"duration_s", 1, 30⟩
      (fun req n => { req with durationS := n }) rfl (by simp) rfl (by simp [parser])
      (fun _ => ⟨rfl, rfl, rfl⟩) (by decide)
  case requestBuffer =>
    obtain rfl := Option.some.inj hschema
    apply hknown _ (by simp)
    exact hone .requestBuffer ⟨"seconds", 1, 60⟩
      (fun req n => { req with seconds := n }) rfl (by simp) rfl (by simp [parser])
      (fun _ => ⟨rfl, rfl, rfl⟩) (by decide)
  case setSnapshotInterval =>
    obtain rfl := Option.some.inj hschema
    apply hknown _ (by simp)
    exact hone .setSnapshotInterval ⟨"seconds", 0, 600⟩
      (fun req n => { req with snapshotIntervalS := n }) rfl (by simp) rfl (by simp [parser])
      (fun _ => ⟨rfl, rfl, rfl⟩) (by decide)
  case capturePhoto =>
    obtain rfl := Option.some.inj hschema
    obtain ⟨hexecutes, hwhole⟩ := hnone .capturePhoto rfl rfl fun _ => rfl
    exact hknown (iff_of_true hexecutes hwhole) (by simp)
  case startAudio =>
    obtain rfl := Option.some.inj hschema
    obtain ⟨hexecutes, hwhole⟩ := hnone .startAudio rfl rfl fun _ => rfl
    exact hknown (iff_of_true hexecutes hwhole) (by simp)
  case stopAudio =>
    obtain rfl := Option.some.inj hschema
    obtain ⟨hexecutes, hwhole⟩ := hnone .stopAudio rfl rfl fun _ => rfl
    exact hknown (iff_of_true hexecutes hwhole) (by simp)
  case startVideo =>
    obtain rfl := Option.some.inj hschema
    obtain ⟨hexecutes, hwhole⟩ := hnone .startVideo rfl rfl fun _ => rfl
    exact hknown (iff_of_true hexecutes hwhole) (by simp)
  case stopVideo =>
    obtain rfl := Option.some.inj hschema
    obtain ⟨hexecutes, hwhole⟩ := hnone .stopVideo rfl rfl fun _ => rfl
    exact hknown (iff_of_true hexecutes hwhole) (by simp)
  case flushSnapshots =>
    obtain rfl := Option.some.inj hschema
    obtain ⟨hexecutes, hwhole⟩ := hnone .flushSnapshots rfl rfl fun _ => rfl
    exact hknown (iff_of_true hexecutes hwhole) (by simp)

/-- A snapshot every half second. -/
def halfSecond : IssueCommandPayload where
  commandType := .setSnapshotInterval
  issuable := by decide
  params := [("seconds", .number (.float (.finite (1 / 2))))]
  idempotencyKey := "k"
  confidence := .finite 1
  confidence_range := by decide +kernel

def halfSecondCommand : ValidatedCommand :=
  ⟨.setSnapshotInterval, [("seconds", .float (.finite (1 / 2)))], "k", .finite 1⟩

theorem validate_halfSecond :
    StrictCommandValidator.validate halfSecond = .ok halfSecondCommand := by
  have hcheck : FieldSchema.check ⟨"seconds", 0, 600⟩ (.number (.float (.finite (1 / 2)))) =
      .ok (.float (.finite (1 / 2))) := by
    unfold FieldSchema.check Number.lt Number.gt Double.lt Double.gt
    norm_num
  show (cleanParams halfSecond.params [⟨"seconds", 0, 600⟩]).bind _ = _
  show ((FieldSchema.check ⟨"seconds", 0, 600⟩ (.number (.float (.finite (1 / 2))))).bind _).bind
    _ = _
  rw [hcheck]
  rfl

theorem executes_iff_halfSecond :
    Executes halfSecondCommand ↔
      (halfSecondCommand.commandType ≠ .recordAudio ∧ halfSecondCommand.commandType ≠ .sleep) ∧
        ∀ e ∈ halfSecondCommand.params, Whole e.2 :=
  executes_iff validate_halfSecond

/-- **The device turns snapshots off that the server has it take every half second.** -/
theorem not_always_executes :
    ¬ ∀ (payload : IssueCommandPayload) (c : ValidatedCommand),
      StrictCommandValidator.validate payload = .ok c → Executes c := by
  intro h
  have hnumber := (h halfSecond halfSecondCommand validate_halfSecond).number
    ("seconds", .float (.finite (1 / 2))) (List.mem_singleton_self _)
  have hoff : parameter (deviceRequest halfSecondCommand) = 0 := by decide +kernel
  rw [hoff] at hnumber
  exact absurd (Double.finite.inj hnumber) (by norm_num)

end OpenRecall.Analysis.ExecutableCommands
