import OpenRecall.Model.VoiceCommands
import OpenRecall.Analysis.PlannerSafety

/-!
# What a spoken command can do

Over every run of the detector and of all else that uses the dispatcher, whatever the model answers: as
many checks run for a session as are counted, and no more than are allowed (`Paced`). A check that ends
makes a command exactly when the reply has one of a type that can be spoken, said with enough confidence,
the checks of the command path accept it, and no unacked command has its key (`Commanded`); and then the
event it comes from passed the gate with the phrase of a command in what was said (`Spoken`). A command
whose event is remembered is there, under the key of what was said in the event (`Remembered`).
-/

set_option autoImplicit false

namespace OpenRecall.Analysis.SpokenCommands

open Foundation OpenRecall.Model OpenRecall.Model.VoiceCommands

/-! ## The reply -/

/-- Validation keeps the key. -/
theorem validate_key {payload : IssueCommandPayload} {validated : ValidatedCommand}
    (h : StrictCommandValidator.validate payload = .ok validated) :
    validated.idempotencyKey = payload.idempotencyKey := by
  unfold StrictCommandValidator.validate at h
  split_ifs at h
  split at h
  · cases h
  · split at h
    · cases h
    · split at h
      · cases h
      · simp only [bind, Except.bind] at h
        split at h
        · cases h
        · obtain rfl := Except.ok.inj h
          rfl

/-- A payload has the key that was asked for. -/
theorem ofRequest_key {name key : String} {params : Params} {confidence : Double}
    {payload : IssueCommandPayload}
    (h : IssueCommandPayload.ofRequest name params key confidence = .ok payload) :
    payload.idempotencyKey = key := by
  unfold IssueCommandPayload.ofRequest at h
  split at h
  · cases h
  · split_ifs at h
    obtain rfl := Except.ok.inj h
    rfl

/-- So has a command that is vetted. -/
theorem vet_key {req : IssueRequest} {env : Surroundings} {checked : ValidatedCommand}
    (h : req.vet env = .ok checked) : checked.idempotencyKey = req.idempotencyKey := by
  obtain ⟨payload, validated, hpayload, hvalidated, hchecked⟩ := IssueRequest.vet_eq_ok h
  obtain rfl := Reconciliation.check_ok hchecked
  exact (validate_key hvalidated).trans (ofRequest_key hpayload)

/-- Every type that is found in a reply can be spoken. -/
theorem mem_allowedTypes {readers : TextReaders} {raw ctype : String} {result : Stage2Result}
    (h : parseStage2Reply readers raw = some result) (hctype : result.commandType = some ctype) :
    ctype ∈ allowedTypes := by
  unfold parseStage2Reply at h
  split at h
  · cases h
  · obtain rfl := Option.some.inj h
    cases hctype
  · split at h
    · obtain rfl := Option.some.inj h
      cases hctype
    · obtain rfl := Option.some.inj h
      unfold stage2Command at hctype
      split at hctype
      · split at hctype
        · split_ifs at hctype with hmem
          obtain rfl := Option.some.inj hctype
          exact hmem
        · cases hctype
      · cases hctype
  · obtain rfl := Option.some.inj h
    cases hctype

/-! ## The dispatcher -/

/-- How the dispatcher's maps fit together, and that every id in them was given out. -/
structure Sound (kit : CommandKit) (plane : CommandPlane) : Prop where
  valid : plane.dispatcher.Valid
  minted : ∀ id sc, plane.dispatcher.signed.get? id = some sc → ∃ k < plane.minted, id = kit.ids.new k

/-- What issuing a command under the next id does: the one that comes back is filed and has the key, the
others stay, and the new one is filed exactly when nothing unacked held the key. -/
structure Issued (kit : CommandKit) (plane : CommandPlane) (c : Command) (key : String)
    (out : SignedCommand × CommandDispatcher) : Prop where
  sound : Sound kit ⟨out.2, plane.minted + 1⟩
  filed : out.2.signed.get? out.1.command.commandId = some out.1
  has_key : out.1.command.idempotencyKey = some key
  kept : ∀ id sc, plane.dispatcher.signed.get? id = some sc → out.2.signed.get? id = some sc
  new_iff : ∀ sc, (∃ id, plane.dispatcher.signed.get? id = none ∧ out.2.signed.get? id = some sc) ↔
    plane.dispatcher.heldBy (some key) = none ∧ sc = kit.signer.sign c

section

variable {kit : CommandKit} {plane : CommandPlane}

/-- The next id is in no map. -/
theorem Sound.fresh (h : Sound kit plane) :
    plane.dispatcher.signed.get? (kit.ids.new plane.minted) = none := by
  cases hget : plane.dispatcher.signed.get? (kit.ids.new plane.minted) with
  | none => rfl
  | some sc =>
    obtain ⟨k, hk, hid⟩ := h.minted _ sc hget
    exact absurd (kit.ids.new_injective hid) hk.ne'

/-- With the same signed commands an id more may be given out. -/
theorem Sound.of_signed_eq (h : Sound kit plane) {d : CommandDispatcher} {n : ℕ}
    (hvalid : d.Valid) (hsigned : d.signed = plane.dispatcher.signed) (hn : plane.minted ≤ n) :
    Sound kit ⟨d, n⟩ where
  valid := hvalid
  minted := by
    intro id sc hget
    obtain ⟨k, hk, hid⟩ := h.minted id sc (hsigned ▸ hget)
    exact ⟨k, hk.trans_le hn, hid⟩

/-- An unacked command holds the key: it comes back, and nothing changes. -/
theorem Sound.issued_of_held (h : Sound kit plane) {c : Command} {key : String} {sc : SignedCommand}
    (hheld : plane.dispatcher.heldBy (some key) = some sc) :
    Issued kit plane c key (sc, plane.dispatcher) := by
  obtain ⟨k, id, hk, -, hidem, -, hget⟩ :=
    (CommandDispatcher.heldBy_eq_some_iff _ _ _).mp hheld
  obtain ⟨sc', hget', hkey⟩ := h.valid.idem_signed k id hidem
  obtain rfl := Option.some.inj (hget.symm.trans hget')
  refine ⟨h.of_signed_eq h.valid rfl (Nat.le_succ _), ?_, hkey.trans hk.symm, fun _ _ hget => hget, ?_⟩
  · rw [h.valid.signed_id id sc hget]
    exact hget
  · refine fun new => iff_of_false ?_ ?_
    · rintro ⟨id', hnone, hsome⟩
      rw [hnone] at hsome
      cases hsome
    · rintro ⟨hnone, -⟩
      rw [hheld] at hnone
      cases hnone

/-- Nothing unacked holds the key: the command is filed. -/
theorem Sound.issued_of_free (h : Sound kit plane) {c : Command} {key : String} {now : Time}
    (hid : c.commandId = kit.ids.new plane.minted) (hkey : c.idempotencyKey = some key)
    (hheld : plane.dispatcher.heldBy (some key) = none) :
    Issued kit plane c key (kit.signer.sign c, plane.dispatcher.track kit.signer now c) := by
  have hfresh : plane.dispatcher.signed.get? c.commandId = none := hid ▸ h.fresh
  have hsigned := CommandDispatcher.track_signed kit.signer now c plane.dispatcher
  refine ⟨⟨h.valid.track kit.signer now (hkey ▸ hheld) hfresh, fun id sc hget => ?_⟩, ?_, ?_, ?_, ?_⟩
  · dsimp only at hget
    rw [hsigned] at hget
    split_ifs at hget with heq
    · exact ⟨plane.minted, Nat.lt_succ_self _, heq.trans hid⟩
    · obtain ⟨k, hk, hnew⟩ := h.minted id sc hget
      exact ⟨k, hk.trans (Nat.lt_succ_self _), hnew⟩
  · rw [CommandSigner.sign_command, hsigned, if_pos rfl]
  · rw [CommandSigner.sign_command, hkey]
  · intro id sc hget
    rw [hsigned, if_neg, hget]
    rintro rfl
    rw [hfresh] at hget
    cases hget
  · intro sc
    constructor
    · rintro ⟨id, hnone, hsome⟩
      rw [hsigned] at hsome
      split_ifs at hsome
      · exact ⟨hheld, (Option.some.inj hsome).symm⟩
      · rw [hnone] at hsome
        cases hsome
    · rintro ⟨-, rfl⟩
      exact ⟨c.commandId, hfresh, by rw [hsigned, if_pos rfl]⟩

/-- **What issuing under the next id does.** -/
theorem Sound.issue (h : Sound kit plane) {c : Command} {key : String}
    (hid : c.commandId = kit.ids.new plane.minted) (hkey : c.idempotencyKey = some key) (now : Time) :
    Issued kit plane c key (plane.dispatcher.issue kit.signer now c) := by
  obtain ⟨sc, hheld, hissue⟩ | ⟨-, sc, hget, -⟩ | ⟨hheld, -, hissue⟩ :=
    CommandDispatcher.issue_cases kit.signer now c plane.dispatcher
  · rw [hissue]
    exact h.issued_of_held (hkey ▸ hheld)
  · rw [hid, h.fresh] at hget
    cases hget
  · rw [hissue]
    exact h.issued_of_free hid hkey (hkey ▸ hheld)

end

/-! ## What holds of a run -/

section

variable (kit : CommandKit) (py : LowerCase) (sha1 : String → String) (readers : TextReaders)
  (cfg : VoiceConfig)

/-- The check comes from an event that is listened to, with the phrase of a command in what was said. -/
def Spoken (launch : Stage2Launch) : Prop :=
  cfg.enabled = true ∧
    (∃ speakerRegistry, CommandDetector.passesGate cfg.toCommandDetectorConfig speakerRegistry
      launch.event = true) ∧
    matchCommandPhrase py launch.context cfg.phrases = some launch.ctype

/-- The number of checks that run for a session. -/
def runningIn (s : VoiceCommands) (sessionId : String) : ℕ :=
  s.running.countP fun launch => launch.sessionId = sessionId

/-- As many checks run for a session as are counted, and no more than are allowed. -/
def Paced (s : VoiceCommands) : Prop := ∀ sessionId,
  runningIn s sessionId = (s.detector.inflight.get? sessionId).getD 0 ∧
    runningIn s sessionId ≤ cfg.maxInflight

/-- A command whose event is remembered is there, under the key of what was said in the event. -/
def Remembered (s : VoiceCommands) : Prop := ∀ id eventId,
  s.provenance.get? id = some eventId → ∃ sc launch ctype,
    s.plane.dispatcher.signed.get? id = some sc ∧ Spoken py cfg launch ∧
      launch.event.eventId = eventId ∧ ctype ∈ allowedTypes ∧
      sc.command.idempotencyKey = some (keyOf py sha1 launch ctype)

/-- The reply has a command of the type, with enough confidence, that the command path accepts. -/
def Vetted (env : Stage2Env) (launch : Stage2Launch) (reply : Option String) (ctype : String)
    (checked : ValidatedCommand) : Prop :=
  ∃ result, reply.bind (parseStage2Reply readers) = some result ∧
    result.commandType = some ctype ∧ result.confidence.lt cfg.confidenceThreshold = false ∧
    vet py sha1 cfg env launch ctype result = .ok checked

/-- What a step files: hearing files nothing, and the end of a check the command of its reply, if no
unacked command has the key. -/
def Commanded (s : VoiceCommands) : VoiceStep → Prop
  | .heard speakerRegistry now sessionId event =>
    (s.feed py cfg speakerRegistry now sessionId event).plane = s.plane
  | .answered env i reply => ∀ sc,
    (∃ id, s.plane.dispatcher.signed.get? id = none ∧
      (s.runStage2 kit py sha1 readers cfg env i reply).plane.dispatcher.signed.get? id = some sc) ↔
    ∃ launch ctype checked, s.running[i]? = some launch ∧ Spoken py cfg launch ∧
      ctype ∈ allowedTypes ∧ Vetted py sha1 readers cfg env launch reply ctype checked ∧
      s.plane.dispatcher.heldBy (some (keyOf py sha1 launch ctype)) = none ∧
      sc = kit.signer.sign (commandOf kit env launch checked s)
  | _ => True

/-- What every step keeps. -/
structure Kept (s : VoiceCommands) : Prop where
  sound : Sound kit s.plane
  spoken : ∀ launch ∈ s.running, Spoken py cfg launch
  paced : Paced cfg s
  remembered : Remembered py sha1 cfg s

end

variable {kit : CommandKit} {py : LowerCase} {sha1 : String → String} {readers : TextReaders}
  {cfg : VoiceConfig} {s : VoiceCommands}

/-! ## The end of a check -/

/-- A reply has one command at most. -/
theorem Vetted.unique {env : Stage2Env} {launch : Stage2Launch} {reply : Option String}
    {ctype ctype' : String} {checked checked' : ValidatedCommand}
    (h : Vetted py sha1 readers cfg env launch reply ctype checked)
    (h' : Vetted py sha1 readers cfg env launch reply ctype' checked') :
    ctype = ctype' ∧ checked = checked' := by
  obtain ⟨result, hresult, hctype, -, hvet⟩ := h
  obtain ⟨result', hresult', hctype', -, hvet'⟩ := h'
  obtain rfl := Option.some.inj (hresult.symm.trans hresult')
  obtain rfl := Option.some.inj (hctype.symm.trans hctype')
  exact ⟨rfl, Except.ok.inj (hvet.symm.trans hvet')⟩

/-- Its type can be spoken, and its key is the one of what was said. -/
theorem Vetted.fields {env : Stage2Env} {launch : Stage2Launch} {reply : Option String}
    {ctype : String} {checked : ValidatedCommand}
    (h : Vetted py sha1 readers cfg env launch reply ctype checked) :
    ctype ∈ allowedTypes ∧ checked.idempotencyKey = keyOf py sha1 launch ctype := by
  obtain ⟨result, hresult, hctype, -, hvet⟩ := h
  obtain ⟨raw, -, hparse⟩ := Option.bind_eq_some_iff.mp hresult
  exact ⟨mem_allowedTypes hparse hctype, vet_key hvet⟩

variable (kit py sha1 readers cfg) in
/-- **What a reply leads to**: nothing, or its command is issued. -/
theorem takeReply_cases (env : Stage2Env) (launch : Stage2Launch) (reply : Option String)
    (s : VoiceCommands) :
    ((∀ ctype checked, ¬ Vetted py sha1 readers cfg env launch reply ctype checked) ∧
      takeReply kit py sha1 readers cfg env launch reply s = s) ∨
    ∃ ctype checked, Vetted py sha1 readers cfg env launch reply ctype checked ∧
      takeReply kit py sha1 readers cfg env launch reply s = issue kit env launch checked s := by
  unfold takeReply
  cases hresult : reply.bind (parseStage2Reply readers) with
  | none => exact .inl ⟨fun ctype checked ⟨_, h, _⟩ => by simp [hresult] at h, rfl⟩
  | some result =>
    dsimp only
    cases hctype : result.commandType with
    | none =>
      refine .inl ⟨fun ctype checked ⟨result', h, hsome, _⟩ => ?_, rfl⟩
      obtain rfl := Option.some.inj (hresult.symm.trans h)
      simp [hctype] at hsome
    | some ctype =>
      dsimp only
      cases hlow : result.confidence.lt cfg.confidenceThreshold with
      | true =>
        refine .inl ⟨fun ctype' checked ⟨result', h, _, hconf, _⟩ => ?_, by simp⟩
        obtain rfl := Option.some.inj (hresult.symm.trans h)
        simp [hlow] at hconf
      | false =>
        cases hvet : vet py sha1 cfg env launch ctype result with
        | error refusal =>
          refine .inl ⟨fun ctype' checked ⟨result', h, hsome, _, hok⟩ => ?_, by simp [dispatch, hvet]⟩
          obtain rfl := Option.some.inj (hresult.symm.trans h)
          obtain rfl := Option.some.inj (hctype.symm.trans hsome)
          simp [hvet] at hok
        | ok checked =>
          exact .inr ⟨ctype, checked, ⟨result, hresult, hctype, hlow, hvet⟩, by simp [dispatch, hvet]⟩

/-- The command of a reply is issued under the key of what was said. -/
theorem Kept.issued (h : Kept kit py sha1 cfg s) {env : Stage2Env} {launch : Stage2Launch}
    {reply : Option String} {ctype : String} {checked : ValidatedCommand}
    (hvetted : Vetted py sha1 readers cfg env launch reply ctype checked) :
    Issued kit s.plane (commandOf kit env launch checked s) (keyOf py sha1 launch ctype)
      (s.plane.dispatcher.issue kit.signer env.now (commandOf kit env launch checked s)) :=
  h.sound.issue rfl (congrArg some hvetted.fields.2) env.now

/-- What a check files that ends. -/
theorem Kept.commanded_answered (h : Kept kit py sha1 cfg s) (env : Stage2Env) (i : ℕ)
    (reply : Option String) : Commanded kit py sha1 readers cfg s (.answered env i reply) := by
  intro sc
  unfold runStage2
  cases hlaunch : s.running[i]? with
  | none =>
    refine iff_of_false ?_ (by simp)
    rintro ⟨id, hnone, hsome⟩
    rw [hnone] at hsome
    cases hsome
  | some launch =>
    have hspoken := h.spoken launch (List.mem_of_getElem? hlaunch)
    obtain ⟨hnot, htake⟩ | ⟨ctype, checked, hvetted, htake⟩ :=
      takeReply_cases kit py sha1 readers cfg env launch reply s
    · simp only [htake]
      refine iff_of_false ?_ ?_
      · rintro ⟨id, hnone, hsome⟩
        rw [hnone] at hsome
        cases hsome
      · rintro ⟨launch', ctype, checked, hsame, -, -, hvetted, -⟩
        obtain rfl := Option.some.inj hsame
        exact hnot ctype checked hvetted
    · simp only [htake]
      refine ((h.issued hvetted).new_iff sc).trans ⟨?_, ?_⟩
      · rintro ⟨hfree, rfl⟩
        exact ⟨launch, ctype, checked, rfl, hspoken, hvetted.fields.1, hvetted, hfree, rfl⟩
      · rintro ⟨launch', ctype', checked', hsame, -, -, hvetted', hfree, rfl⟩
        obtain rfl := Option.some.inj hsame
        obtain ⟨rfl, rfl⟩ := hvetted.unique hvetted'
        exact ⟨hfree, rfl⟩

/-- What is remembered stays there while no command goes away. -/
theorem Remembered.mono {s' : VoiceCommands} (h : Remembered py sha1 cfg s)
    (hkept : ∀ id sc, s.plane.dispatcher.signed.get? id = some sc →
      s'.plane.dispatcher.signed.get? id = some sc)
    (hprovenance : s'.provenance = s.provenance) : Remembered py sha1 cfg s' := by
  intro id eventId hget
  obtain ⟨sc, launch, ctype, hsigned, hrest⟩ := h id eventId (hprovenance ▸ hget)
  exact ⟨sc, launch, ctype, hkept id sc hsigned, hrest⟩

/-- Issuing the command of a check that runs remembers its event. -/
theorem Kept.issue (h : Kept kit py sha1 cfg s) {env : Stage2Env} {launch : Stage2Launch}
    {reply : Option String} {ctype : String} {checked : ValidatedCommand}
    (hspoken : Spoken py cfg launch)
    (hvetted : Vetted py sha1 readers cfg env launch reply ctype checked) :
    Kept kit py sha1 cfg (issue kit env launch checked s) := by
  have hissued := h.issued hvetted
  refine ⟨hissued.sound, h.spoken, h.paced, fun id eventId hget => ?_⟩
  rw [show (VoiceCommands.issue kit env launch checked s).provenance = s.provenance.set _ _ from rfl,
    Dict.get?_set] at hget
  split_ifs at hget with heq
  · subst heq
    exact ⟨_, launch, ctype, hissued.filed, hspoken, Option.some.inj hget, hvetted.fields.1,
      hissued.has_key⟩
  · obtain ⟨sc, launch', ctype', hsigned, hrest⟩ := h.remembered id eventId hget
    exact ⟨sc, launch', ctype', hissued.kept id sc hsigned, hrest⟩

/-- The checks that run for a session, without one of them. -/
theorem runningIn_erase {i : ℕ} {launch : Stage2Launch} (hlaunch : s.running[i]? = some launch)
    (sessionId : String) : runningIn s sessionId =
      ((s.running.eraseIdx i).countP fun l => l.sessionId = sessionId) +
        if launch.sessionId = sessionId then 1 else 0 := by
  obtain ⟨hi, rfl⟩ := List.getElem?_eq_some_iff.mp hlaunch
  have hperm := List.getElem_cons_eraseIdx_perm hi
  rw [runningIn, ← hperm.countP_eq, List.countP_cons]
  simp

/-- A check that ends is no longer counted. -/
theorem Kept.finished (h : Kept kit py sha1 cfg s) {i : ℕ} {launch : Stage2Launch}
    (hlaunch : s.running[i]? = some launch) :
    Kept kit py sha1 cfg { s with
      detector := s.detector.finished launch.sessionId
      running := s.running.eraseIdx i } where
  sound := h.sound
  spoken := fun l hl => h.spoken l (List.mem_of_mem_eraseIdx hl)
  paced := by
    intro sessionId
    have hcount := runningIn_erase hlaunch sessionId
    obtain ⟨heq, hle⟩ := h.paced sessionId
    simp only [runningIn, CommandDetector.finished, Dict.get?_set] at hcount heq hle ⊢
    by_cases hsession : sessionId = launch.sessionId
    · subst hsession
      simp only [if_true] at hcount ⊢
      simp only [Option.getD_some]
      omega
    · rw [if_neg (Ne.symm hsession)] at hcount
      rw [if_neg hsession]
      omega
  remembered := h.remembered

theorem Kept.answered (h : Kept kit py sha1 cfg s) (env : Stage2Env) (i : ℕ)
    (reply : Option String) : Kept kit py sha1 cfg (s.runStage2 kit py sha1 readers cfg env i reply) := by
  unfold runStage2
  cases hlaunch : s.running[i]? with
  | none => exact h
  | some launch =>
    have hspoken := h.spoken launch (List.mem_of_getElem? hlaunch)
    obtain ⟨-, htake⟩ | ⟨ctype, checked, hvetted, htake⟩ :=
      takeReply_cases kit py sha1 readers cfg env launch reply s
    · simp only [htake]
      exact h.finished hlaunch
    · simp only [htake]
      exact (h.issue hspoken hvetted).finished hlaunch

/-! ## Hearing an event -/

variable (py) in
/-- The detector counts the checks that it starts. -/
theorem feed_inflight (d : CommandDetector) (config : CommandDetectorConfig)
    (speakerRegistry : Option SpeakerRegistry) (now : ℚ) (sessionId : String) (event : CaptureEvent) :
    (d.feed config py speakerRegistry now sessionId event).1.inflight =
      (d.feed config py speakerRegistry now sessionId event).2.elim d.inflight fun _ =>
        d.inflight.set sessionId ((d.inflight.get? sessionId).getD 0 + 1) := by
  unfold CommandDetector.feed
  dsimp only
  cases !config.enabled with
  | true => rfl
  | false =>
    cases !CommandDetector.passesGate config speakerRegistry event with
    | true => rfl
    | false =>
      cases matchCommandPhrase py (CommandDetector.joined (d.buffered sessionId event.text.toList))
          config.phrases with
      | none => rfl
      | some ctype =>
        dsimp only
        cases d.coolingDown config now sessionId ctype with
        | true => rfl
        | false => cases d.atCap config sessionId <;> rfl

variable (py cfg s) in
/-- The checks that run after it. -/
theorem feed_running (speakerRegistry : Option SpeakerRegistry) (now : ℚ) (sessionId : String)
    (event : CaptureEvent) :
    (s.feed py cfg speakerRegistry now sessionId event).running = s.running ++
      (s.detector.feed cfg.toCommandDetectorConfig py speakerRegistry now sessionId event).2.toList :=
  rfl

theorem Kept.heard (h : Kept kit py sha1 cfg s) (speakerRegistry : Option SpeakerRegistry) (now : ℚ)
    (sessionId : String) (event : CaptureEvent) :
    Kept kit py sha1 cfg (s.feed py cfg speakerRegistry now sessionId event) := by
  have hcount := feed_inflight py s.detector cfg.toCommandDetectorConfig speakerRegistry now sessionId
    event
  cases hlaunch : (s.detector.feed cfg.toCommandDetectorConfig py speakerRegistry now sessionId
      event).2 with
  | none =>
    have hsame : (s.feed py cfg speakerRegistry now sessionId event).running = s.running := by
      rw [feed_running, hlaunch, Option.toList_none, List.append_nil]
    rw [hlaunch, Option.elim_none] at hcount
    refine ⟨h.sound, fun l hl => h.spoken l (hsame ▸ hl), fun sid => ?_, h.remembered⟩
    have hpaced := h.paced sid
    rw [runningIn, ← hsame, ← hcount] at hpaced
    exact hpaced
  | some launch =>
    obtain ⟨⟨hon, hgate, hmatch, -, hfree⟩, hmade⟩ :=
      (CommandDetector.feed_launch_eq_some_iff launch).mp hlaunch
    rw [hlaunch, Option.elim_some] at hcount
    have hspoken : Spoken py cfg launch := by
      rw [hmade]
      exact ⟨hon, ⟨speakerRegistry, hgate⟩, hmatch⟩
    have hsession : launch.sessionId = sessionId := by rw [hmade]
    have hrunning : (s.feed py cfg speakerRegistry now sessionId event).running =
        s.running ++ [launch] := by
      rw [feed_running, hlaunch, Option.toList_some]
    refine ⟨h.sound, fun l hl => ?_, fun sid => ?_, h.remembered⟩
    · rw [hrunning, List.mem_append, List.mem_singleton] at hl
      obtain hl | rfl := hl
      · exact h.spoken l hl
      · exact hspoken
    · have hpaced := h.paced sid
      have hroom : (s.detector.inflight.get? sessionId).getD 0 < cfg.maxInflight := by
        simpa [CommandDetector.atCap] using hfree
      rw [runningIn, hrunning, List.countP_append, List.countP_singleton,
        show (s.feed py cfg speakerRegistry now sessionId event).detector.inflight = _ from hcount,
        Dict.get?_set]
      simp only [runningIn, decide_eq_true_eq] at hpaced ⊢
      by_cases hsid : sid = sessionId
      · rw [if_pos (hsession.trans hsid.symm), if_pos hsid, Option.getD_some, ← hsid]
        rw [← hsid] at hroom
        omega
      · rw [if_neg (fun heq => hsid (heq.symm.trans hsession)), if_neg hsid]
        exact hpaced

/-! ## Other uses of the dispatcher -/

/-- What else files commands soundly and takes none away. -/
theorem Kept.of_plane (h : Kept kit py sha1 cfg s) {plane : CommandPlane} (hsound : Sound kit plane)
    (hkept : ∀ id sc, s.plane.dispatcher.signed.get? id = some sc →
      plane.dispatcher.signed.get? id = some sc) : Kept kit py sha1 cfg { s with plane := plane } where
  sound := hsound
  spoken := h.spoken
  paced := h.paced
  remembered := h.remembered.mono hkept rfl

theorem Kept.request (h : Kept kit py sha1 cfg s) (env : Surroundings) (req : IssueRequest) :
    Kept kit py sha1 cfg { s with plane := (validateAndIssue kit env req s.plane).2 } := by
  obtain ⟨refusal, -, hsame⟩ | ⟨validated, -, signed, hissue⟩ :=
    validateAndIssue_cases kit env req s.plane
  · rw [hsame]
    exact h
  · have hissued := h.sound.issue (c := validated.toCommand (kit.ids.new s.plane.minted) req.sessionId
      env.now req.ttl) rfl rfl env.now
    rw [hissue]
    exact h.of_plane hissued.sound hissued.kept

theorem Kept.step (h : Kept kit py sha1 cfg s) (step : VoiceStep) :
    Kept kit py sha1 cfg (s.step kit py sha1 readers cfg step) := by
  cases step with
  | heard speakerRegistry now sessionId event => exact h.heard speakerRegistry now sessionId event
  | answered env i reply => exact h.answered env i reply
  | request env req => exact h.request env req
  | ack commandId =>
    exact h.of_plane (h.sound.of_signed_eq (h.sound.valid.ack commandId) rfl le_rfl) fun _ _ hget => hget
  | transition now commandId dst detail =>
    obtain ⟨hsigned, -⟩ := CommandDispatcher.step_transition_eq kit.signer s.plane.dispatcher now
      commandId dst detail
    refine h.of_plane (h.sound.of_signed_eq (h.sound.valid.step kit.signer _) hsigned le_rfl) ?_
    intro id sc hget
    rw [hsigned]
    exact hget

/-- At the start nothing runs. -/
theorem kept_start : Kept kit py sha1 cfg {} where
  sound := ⟨CommandDispatcher.valid_init none, fun id sc hget => by cases hget⟩
  spoken := fun launch hlaunch => by cases hlaunch
  paced := fun sessionId => ⟨rfl, Nat.zero_le _⟩
  remembered := fun id eventId hget => by cases hget

/-- **What a spoken command can do**, over every run: no more checks run for a session than are allowed,
and as many as are counted; an event is remembered for a command that was said in it; and what the next
step files is the command of a reply that passed all checks.
SOURCE: agent/command_detector.py:102-193, agent/command_detector.py:224-243 -/
theorem spoken_commands (kit : CommandKit) (py : LowerCase) (sha1 : String → String)
    (readers : TextReaders) (cfg : VoiceConfig) (steps : List VoiceStep) :
    let s := run (VoiceCommands.step kit py sha1 readers cfg) {} steps
    Paced cfg s ∧ Remembered py sha1 cfg s ∧ ∀ next, Commanded kit py sha1 readers cfg s next := by
  intro s
  have h : Kept kit py sha1 cfg s := run_invariant (fun _ step hs => hs.step step) kept_start steps
  refine ⟨h.paced, h.remembered, fun next => ?_⟩
  cases next with
  | heard speakerRegistry now sessionId event => rfl
  | answered env i reply => exact h.commanded_answered env i reply
  | request => trivial
  | ack => trivial
  | transition => trivial

end OpenRecall.Analysis.SpokenCommands
