import OpenRecall.Model.SettingsLoop
import OpenRecall.Analysis.DispatcherInvariant

/-!
# When a converged backend tells the truth about its device

The backend records what the device does from acks, and `noteAcked` learns only the type
of the acked command. For the audio gate the type says it all; for the cadence the
backend records what the user wants at the moment of the ack, not what the command
carried. With one command per idempotency key in flight, a `PUT` that lands between a
command and its ack is absorbed and then recorded as done
(`converged_not_always_truthful`).

`FaithfulAck` is the condition on the acks under which this cannot happen: an ack that is
the first for its command arrives before the command expires, in the order of execution
for the audio commands, and while the user still wants the cadence that was sent. The
invariant `LoopInvariant` then keeps the recorded state equal to the newest command that
was both executed and acked, and `settings_truthful` follows, since in a quiescent state
every executed command was acked.
-/

set_option autoImplicit false

namespace OpenRecall.Analysis.Reconciliation

open Foundation OpenRecall.Model OpenRecall.Model.SettingsLoop

/-! ## The condition -/

def isAudio (sc : SignedCommand) : Bool :=
  sc.command.type = .startAudio || sc.command.type = .stopAudio

def isCadence (sc : SignedCommand) : Bool := sc.command.type = .setSnapshotInterval

/-- The first ack of an audio or cadence command finds it unexpired; no later audio command
was acked before; the cadence it carried is the one the user wants now.
SOURCE: gateway/core.py:418-430, settings/reconciler.py:166-187 -/
def FaithfulAck (s : SettingsLoop) (st : LoopStep) : Prop :=
  match st.event with
  | .ack commandId => commandId ∉ s.backend.plane.dispatcher.acked →
    ∀ sc ∈ s.device.executed, sc.command.commandId = commandId →
      (isAudio sc → ¬ sc.command.isExpired st.env.now ∧
        s.device.executed.find? (fun e => isAudio e && (e.command.commandId = commandId ||
          e.command.commandId ∈ s.backend.plane.dispatcher.acked)) = some sc) ∧
      (isCadence sc → ¬ sc.command.isExpired st.env.now ∧
        sc.command.params.lookup "seconds" =
          some (.number (.int s.backend.settings.document.capture.snapshotIntervalS)))
  | _ => True

instance (s : SettingsLoop) : (st : LoopStep) → Decidable (FaithfulAck s st)
  | ⟨env, .ack commandId⟩ => by
    dsimp only [FaithfulAck]
    infer_instance
  | ⟨_, .put _⟩ | ⟨_, .hello⟩ | ⟨_, .deliver _⟩ => isTrue trivial

/-- The guardrails let an audio command pass.
SOURCE: agent/guardrails_command.py:155-230 -/
def AdmitsAudio (env : Surroundings) : Prop :=
  (env.capabilities.getD {}).microphone ∧ (env.resources.getD {}).relayConnected ∧
    ¬ (env.resources.getD {}).batteryPct.lt batteryMinForQuickOp

instance (env : Surroundings) : Decidable (AdmitsAudio env) := by
  unfold AdmitsAudio
  infer_instance

/-! ## The invariant -/

/-- The cadence command of the reconciler: its key is fixed and it carries a cadence. -/
def CadenceForm (c : Command) : Prop :=
  c.type = .setSnapshotInterval → c.idempotencyKey = some "reconcile:snapshot_interval" ∧
    ∃ n : Fin 601, c.params.lookup "seconds" = some (.number (.int n))

/-- How the server, the device and what the server knows of it fit together. The device's
log is newest first. -/
structure LoopInvariant (kit : CommandKit) (s : SettingsLoop) : Prop where
  valid : s.backend.plane.dispatcher.Valid
  minted_ids : ∀ id sc, s.backend.plane.dispatcher.signed.get? id = some sc →
    ∃ k < s.backend.plane.minted, id = kit.ids.new k
  form : ∀ id sc, s.backend.plane.dispatcher.signed.get? id = some sc → CadenceForm sc.command
  executed_signed : ∀ sc ∈ s.device.executed,
    s.backend.plane.dispatcher.signed.get? sc.command.commandId = some sc
  acked_executed : ∀ id ∈ s.backend.plane.dispatcher.acked,
    ∃ sc ∈ s.device.executed, sc.command.commandId = id
  gate : s.device.audioEnabled =
    ((s.device.executed.find? isAudio).map fun sc =>
      decide (sc.command.type = .startAudio)).getD true
  cadence : s.device.snapshotInterval =
    (s.device.executed.find? isCadence).bind fun sc => sc.command.params.lookup "seconds"
  known_gate : s.backend.settings.device.audioGate =
    (s.device.executed.find? fun sc => isAudio sc &&
      sc.command.commandId ∈ s.backend.plane.dispatcher.acked).map fun sc =>
        decide (sc.command.type = .startAudio)
  known_cadence : (s.backend.settings.device.snapshotInterval.map fun n : Fin 601 =>
      Value.number (.int n)) =
    (s.device.executed.find? fun sc => isCadence sc &&
      sc.command.commandId ∈ s.backend.plane.dispatcher.acked).bind fun sc =>
        sc.command.params.lookup "seconds"
  older_acked : s.device.executed.Pairwise fun newer older =>
    isCadence newer → isCadence older →
      older.command.commandId ∈ s.backend.plane.dispatcher.acked

/-- The loop before anything happened, with any stored document. -/
def boot (document : SettingsDocument) : SettingsLoop :=
  { backend := { settings := { document := document } } }

theorem loopInvariant_boot (kit : CommandKit) (document : SettingsDocument) :
    LoopInvariant kit (boot document) where
  valid := CommandDispatcher.valid_init none
  minted_ids := by intro id sc h; cases h
  form := by intro id sc h; cases h
  executed_signed := by intro sc h; cases h
  acked_executed := by intro id h; exact absurd h (Finset.notMem_empty id)
  gate := rfl
  cadence := rfl
  known_gate := rfl
  known_cadence := rfl
  older_acked := List.Pairwise.nil

/-! ## Issuing -/

/-- The guardrails pass a command on as it is. -/
theorem check_ok {caps : CapabilitySet} {res : DeviceResourceStatus} {autonomous : ℚ}
    {command v : ValidatedCommand}
    (h : StrictCommandGuardrails.check caps res autonomous command = .ok v) : v = command := by
  unfold StrictCommandGuardrails.check at h
  split at h
  · cases h
  · split at h
    · cases h
    · split_ifs at h
      cases h
      rfl

theorem sleepRequest_vet (env : Surroundings) : sleepRequest.vet env =
    StrictCommandGuardrails.check (env.capabilities.getD {}) (env.resources.getD {})
      confidenceAutonomous ⟨.sleep, [], "reconcile:sleep:on", .finite 1⟩ := rfl

theorem audioRequest_vet (env : Surroundings) (on : Bool) : (audioRequest on).vet env =
    StrictCommandGuardrails.check (env.capabilities.getD {}) (env.resources.getD {})
      confidenceAutonomous ⟨if on then .startAudio else .stopAudio, [],
        if on then "reconcile:audio:on" else "reconcile:audio:off", .finite 1⟩ := by
  cases on <;> rfl

/-- Every cadence of a document is within the bounds of the command's parameter.
SOURCE: settings/model.py:43, agent/validator_command.py:139-145 -/
theorem seconds_check (n : Fin 601) :
    (⟨"seconds", 0, 600⟩ : FieldSchema).check (.number (.int n)) = .ok (.int n) := by
  have hlo : (Number.int n).lt ((0 : ℤ) : ℚ) = false := by
    have : ¬ (((n : ℕ) : ℤ) : ℚ) < ((0 : ℤ) : ℚ) := by
      rw [Int.cast_lt]
      omega
    exact decide_eq_false this
  have hhi : (Number.int n).gt ((600 : ℤ) : ℚ) = false := by
    have : ¬ (((n : ℕ) : ℤ) : ℚ) > ((600 : ℤ) : ℚ) := by
      rw [gt_iff_lt, Int.cast_lt]
      omega
    exact decide_eq_false this
  unfold FieldSchema.check
  simp only [hlo, hhi, Bool.false_eq_true, if_false]

/-- The cadence request passes validation with its parameter as it is. -/
theorem snapshotIntervalRequest_vet (env : Surroundings) (n : Fin 601) :
    (snapshotIntervalRequest n).vet env =
    StrictCommandGuardrails.check (env.capabilities.getD {}) (env.resources.getD {})
      confidenceAutonomous ⟨.setSnapshotInterval, [("seconds", .int n)],
        "reconcile:snapshot_interval", .finite 1⟩ := by
  have hclean : cleanParams [("seconds", .number (.int n))] [⟨"seconds", 0, 600⟩] =
      .ok [("seconds", .int n)] := by
    unfold cleanParams
    simp only [List.lookup_cons_self, seconds_check]
    rfl
  have hpayload : IssueCommandPayload.ofRequest "set_snapshot_interval"
      [("seconds", .number (.int n))] "reconcile:snapshot_interval" (.finite 1) =
      .ok ⟨.setSnapshotInterval, by decide, [("seconds", .number (.int n))],
        "reconcile:snapshot_interval", .finite 1, by decide⟩ := rfl
  have hvalid : StrictCommandValidator.validate ⟨.setSnapshotInterval, by decide,
      [("seconds", .number (.int n))], "reconcile:snapshot_interval", .finite 1, by decide⟩ =
      .ok ⟨.setSnapshotInterval, [("seconds", .int n)], "reconcile:snapshot_interval", .finite 1⟩ := by
    show (cleanParams [("seconds", .number (.int n))] [⟨"seconds", 0, 600⟩]).bind (fun cleaned =>
      Except.ok (⟨.setSnapshotInterval, cleaned, "reconcile:snapshot_interval", .finite 1⟩ :
        ValidatedCommand)) = _
    rw [hclean]
    rfl
  unfold IssueRequest.vet snapshotIntervalRequest
  simp only [hpayload]
  show (StrictCommandValidator.validate _).bind _ = _
  rw [hvalid]
  rfl

/-- Whatever the reconciler issues has the form of a reconcile command. -/
theorem cadenceForm_of_wanted {desired : CaptureSettings} {known : DeviceState}
    {req : IssueRequest} (hreq : wantedRequest desired known = some req) {env : Surroundings}
    {v : ValidatedCommand} (h : req.vet env = .ok v) (commandId sessionId : String)
    (now ttl : Time) : CadenceForm (v.toCommand commandId sessionId now ttl) := by
  unfold wantedRequest at hreq
  split_ifs at hreq
  · obtain rfl := Option.some.inj hreq
    rw [sleepRequest_vet] at h
    obtain rfl := check_ok h
    intro ht
    cases ht
  · obtain rfl := Option.some.inj hreq
    rw [snapshotIntervalRequest_vet] at h
    obtain rfl := check_ok h
    intro _
    exact ⟨rfl, desired.snapshotIntervalS, rfl⟩
  · obtain rfl := Option.some.inj hreq
    rw [audioRequest_vet] at h
    obtain rfl := check_ok h
    intro ht
    cases hon : desired.audioEnabled <;> simp [ValidatedCommand.toCommand, hon] at ht

/-- Issuing one more command of the reconciler keeps the invariant: it only adds a command
under a fresh id. -/
theorem LoopInvariant.issue {kit : CommandKit} {s : SettingsLoop} (h : LoopInvariant kit s)
    (now : Time) {c : Command} (hid : c.commandId = kit.ids.new s.backend.plane.minted)
    (hform : CadenceForm c) :
    LoopInvariant kit { s with backend := { s.backend with
      plane := ⟨(s.backend.plane.dispatcher.issue kit.signer now c).2,
        s.backend.plane.minted + 1⟩ } } := by
  have hids : ∀ id sc, s.backend.plane.dispatcher.signed.get? id = some sc →
      ∃ k < s.backend.plane.minted + 1, id = kit.ids.new k := by
    intro id sc hget
    obtain ⟨k, hk, rfl⟩ := h.minted_ids id sc hget
    exact ⟨k, by omega, rfl⟩
  obtain ⟨sc, -, hissue⟩ | ⟨-, sc, -, hissue⟩ | ⟨hheld, hfresh, hissue⟩ :=
    CommandDispatcher.issue_cases kit.signer now c s.backend.plane.dispatcher
  · rw [hissue]
    exact { h with minted_ids := hids }
  · rw [hissue]
    exact { h with minted_ids := hids }
  · rw [hissue]
    have hsigned := CommandDispatcher.track_signed kit.signer now c s.backend.plane.dispatcher
    refine { h with
      valid := h.valid.track kit.signer now hheld hfresh
      minted_ids := ?_
      form := ?_
      executed_signed := ?_ }
    · intro id sc hget
      rw [hsigned] at hget
      split_ifs at hget with heq
      · exact ⟨s.backend.plane.minted, Nat.lt_succ_self _, heq.trans hid⟩
      · exact hids id sc hget
    · intro id sc hget
      rw [hsigned] at hget
      split_ifs at hget with heq
      · obtain rfl := Option.some.inj hget
        exact hform
      · exact h.form id sc hget
    · intro sc hsc
      have hold := h.executed_signed sc hsc
      have hne : sc.command.commandId ≠ c.commandId := by
        intro heq
        rw [heq, hfresh] at hold
        cases hold
      rw [hsigned, if_neg hne]
      exact hold

/-- Reconciling keeps the invariant. -/
theorem LoopInvariant.reconcile {kit : CommandKit} {s : SettingsLoop} (h : LoopInvariant kit s)
    (env : Surroundings) : LoopInvariant kit { s with
      backend := (DeviceReconciler.reconcile kit env s.backend).2 } := by
  unfold DeviceReconciler.reconcile
  cases hwanted : wantedRequest s.backend.settings.document.capture s.backend.settings.device with
  | none => exact h
  | some req =>
    obtain ⟨refusal, -, hissue⟩ | ⟨v, hvet, signed, hissue⟩ :=
      validateAndIssue_cases kit env req s.backend.plane
    · simp only [hissue]
      exact h
    · simp only [hissue]
      exact h.issue env.now rfl (cadenceForm_of_wanted hwanted hvet _ _ _ _)

/-! ## Executing and acking -/

/-- What a device is after it executes a command it has not seen. -/
theorem receive_unseen {sc : SignedCommand} {w : Wearable}
    (hunseen : ¬ ∃ e ∈ w.executed, e.command.commandId = sc.command.commandId) :
    w.receive sc =
      { executed := sc :: w.executed
        audioEnabled := if isAudio sc then sc.command.type = .startAudio else w.audioEnabled
        snapshotInterval :=
          if isCadence sc then sc.command.params.lookup "seconds" else w.snapshotInterval } := by
  unfold Wearable.receive isAudio isCadence
  rw [if_neg hunseen]
  cases sc.command.type <;> rfl

/-- The device executes a command it has not seen: the command is unacked, and an older
cadence command was acked, or it would still hold the key. -/
theorem LoopInvariant.receive {kit : CommandKit} {s : SettingsLoop} (h : LoopInvariant kit s)
    {sc : SignedCommand}
    (hsigned : s.backend.plane.dispatcher.signed.get? sc.command.commandId = some sc) :
    LoopInvariant kit { s with device := s.device.receive sc } := by
  by_cases hseen : ∃ e ∈ s.device.executed, e.command.commandId = sc.command.commandId
  · have hsame : s.device.receive sc = s.device := by
      unfold Wearable.receive
      rw [if_pos hseen]
    rw [hsame]
    exact h
  have hunacked : sc.command.commandId ∉ s.backend.plane.dispatcher.acked :=
    fun hack => hseen (h.acked_executed _ hack)
  have hskip : ∀ p : SignedCommand → Bool,
      (sc :: s.device.executed).find? (fun e => p e &&
        decide (e.command.commandId ∈ s.backend.plane.dispatcher.acked)) =
      s.device.executed.find? (fun e => p e &&
        decide (e.command.commandId ∈ s.backend.plane.dispatcher.acked)) := by
    intro p
    rw [List.find?_cons_of_neg]
    simp [hunacked]
  rw [receive_unseen hseen]
  exact {
    valid := h.valid
    minted_ids := h.minted_ids
    form := h.form
    executed_signed := by
      intro e he
      rcases List.mem_cons.mp he with rfl | he
      · exact hsigned
      · exact h.executed_signed e he
    acked_executed := by
      intro id hid
      obtain ⟨e, he, heid⟩ := h.acked_executed id hid
      exact ⟨e, List.mem_cons_of_mem _ he, heid⟩
    gate := by
      by_cases ha : isAudio sc
      · simp [ha, List.find?_cons_of_pos]
      · simp [ha, List.find?_cons_of_neg, h.gate]
    cadence := by
      by_cases hc : isCadence sc
      · simp [hc, List.find?_cons_of_pos]
      · simp [hc, List.find?_cons_of_neg, h.cadence]
    known_gate := by
      show _ = Option.map _ ((sc :: s.device.executed).find? _)
      rw [hskip]
      exact h.known_gate
    known_cadence := by
      show _ = Option.bind ((sc :: s.device.executed).find? _) _
      rw [hskip]
      exact h.known_cadence
    older_acked := by
      refine List.pairwise_cons.mpr ⟨?_, h.older_acked⟩
      intro e he hsc hcad
      by_contra hold
      -- both would be unacked under the one key, so the key names both ids
      have hget := h.executed_signed e he
      have hkey := (h.form _ _ hsigned (of_decide_eq_true hsc)).1
      have hkey' := (h.form _ _ hget (of_decide_eq_true hcad)).1
      have hidem := h.valid.unacked_held _ _ _ hsigned hkey (by decide) hunacked
      have hidem' := h.valid.unacked_held _ _ _ hget hkey' (by decide) hold
      exact hseen ⟨e, he, Option.some.inj (hidem'.symm.trans hidem)⟩ }

/-- The type read at an ack is that of a tracked, unacked and unexpired command.
SOURCE: gateway/core.py:450-454 -/
theorem commandType_cases {b : Backend} (hvalid : b.plane.dispatcher.Valid) (now : Time)
    {sc : SignedCommand}
    (hget : b.plane.dispatcher.signed.get? sc.command.commandId = some sc) :
    b.commandType now sc.command.commandId =
      if sc.command.commandId ∈ b.plane.dispatcher.acked ∨ sc.command.isExpired now then none
      else some sc.command.type := by
  have hmem : ∀ e, e ∈ b.plane.dispatcher.pending now →
      e.command.commandId = sc.command.commandId → e = sc := by
    intro e he heid
    obtain ⟨id, hid, -, -⟩ := (CommandDispatcher.mem_pending_iff _ _ _).mp he
    have hfiled := hvalid.signed_id id e hid
    rw [← hfiled, heid] at hid
    exact Option.some.inj (hid.symm.trans hget)
  have hpending : sc ∈ b.plane.dispatcher.pending now ↔
      ¬ (sc.command.commandId ∈ b.plane.dispatcher.acked ∨ sc.command.isExpired now) := by
    rw [CommandDispatcher.mem_pending_iff, not_or]
    constructor
    · rintro ⟨id, hid, hack, hexp⟩
      rw [hvalid.signed_id id sc hid]
      exact ⟨hack, hexp⟩
    · rintro ⟨hack, hexp⟩
      exact ⟨_, hget, hack, hexp⟩
  unfold Backend.commandType
  split_ifs with hgone
  · rw [Option.map_eq_none_iff, List.find?_eq_none]
    intro e he heid
    have heq := hmem e he (of_decide_eq_true heid)
    exact hpending.mp (heq ▸ he) hgone
  · cases hfind : (b.plane.dispatcher.pending now).find? fun e =>
        e.command.commandId = sc.command.commandId with
    | none =>
      have hnot := List.find?_eq_none.mp hfind sc (hpending.mpr hgone)
      exact absurd (decide_eq_true rfl) hnot
    | some e =>
      have heid := List.find?_some hfind
      have heq := hmem e (List.mem_of_find?_eq_some hfind) (of_decide_eq_true heid)
      rw [heq]
      rfl

/-- In a log whose older `p` entries all satisfy `q`, the newest `p` entry is the one that
does not. -/
theorem find?_of_older {α : Type*} {p q r : α → Bool} {l : List α} {x : α}
    (hl : l.Pairwise fun newer older => p newer → p older → q older) (hx : x ∈ l)
    (hp : p x) (hq : ¬ q x) (hr : r x) (hrp : ∀ e, r e → p e) : l.find? r = some x := by
  induction l with
  | nil => cases hx
  | cons e l ih =>
    rw [List.pairwise_cons] at hl
    rcases List.mem_cons.mp hx with rfl | hx'
    · rw [List.find?_cons_of_pos hr]
    · have hne : ¬ r e := fun hre => hq (hl.1 x hx' (hrp e hre) hp)
      rw [List.find?_cons_of_neg hne]
      exact ih hl.2 hx'

/-- The gate the server knows after an ack: that of an audio command acked in time. -/
theorem onCommandAck_audioGate {b : Backend} (hvalid : b.plane.dispatcher.Valid) (now : Time)
    {sc : SignedCommand}
    (hget : b.plane.dispatcher.signed.get? sc.command.commandId = some sc) :
    (b.onCommandAck now sc.command.commandId).settings.device.audioGate =
      if isAudio sc ∧ sc.command.commandId ∉ b.plane.dispatcher.acked ∧
          ¬ sc.command.isExpired now then
        some (decide (sc.command.type = .startAudio))
      else b.settings.device.audioGate := by
  have htype := commandType_cases hvalid now hget
  unfold Backend.onCommandAck
  by_cases hgone : sc.command.commandId ∈ b.plane.dispatcher.acked ∨ sc.command.isExpired now
  · rw [if_pos hgone] at htype
    rw [if_neg (by tauto)]
    simp only [htype]
  · rw [if_neg hgone] at htype
    rw [not_or] at hgone
    simp only [htype]
    cases ht : sc.command.type <;> simp [DeviceReconciler.noteAcked, isAudio, ht, hgone]

/-- The cadence the server knows after an ack: what the user wants now, if a cadence command
was acked in time. -/
theorem onCommandAck_snapshotInterval {b : Backend} (hvalid : b.plane.dispatcher.Valid)
    (now : Time) {sc : SignedCommand}
    (hget : b.plane.dispatcher.signed.get? sc.command.commandId = some sc) :
    (b.onCommandAck now sc.command.commandId).settings.device.snapshotInterval =
      if isCadence sc ∧ sc.command.commandId ∉ b.plane.dispatcher.acked ∧
          ¬ sc.command.isExpired now then
        some b.settings.document.capture.snapshotIntervalS
      else b.settings.device.snapshotInterval := by
  have htype := commandType_cases hvalid now hget
  unfold Backend.onCommandAck
  by_cases hgone : sc.command.commandId ∈ b.plane.dispatcher.acked ∨ sc.command.isExpired now
  · rw [if_pos hgone] at htype
    rw [if_neg (by tauto)]
    simp only [htype]
  · rw [if_neg hgone] at htype
    rw [not_or] at hgone
    simp only [htype]
    cases ht : sc.command.type <;> simp [DeviceReconciler.noteAcked, isCadence, ht, hgone]

/-- An ack of an executed command under the condition keeps the invariant. -/
theorem LoopInvariant.ack {kit : CommandKit} {s : SettingsLoop} (h : LoopInvariant kit s)
    {env : Surroundings} {sc : SignedCommand} (hexec : sc ∈ s.device.executed)
    (hfaithful : FaithfulAck s ⟨env, .ack sc.command.commandId⟩) :
    LoopInvariant kit { s with
      backend := s.backend.onCommandAck env.now sc.command.commandId } := by
  have hget := h.executed_signed sc hexec
  have hgate := onCommandAck_audioGate h.valid env.now hget
  have hcadence := onCommandAck_snapshotInterval h.valid env.now hget
  have hcond := fun hn => hfaithful hn sc hexec rfl
  -- the acked entries of a kind the command is not of stay the same
  have hother : ∀ p : SignedCommand → Bool,
      ¬ p sc ∨ sc.command.commandId ∈ s.backend.plane.dispatcher.acked →
      s.device.executed.find? (fun e => p e && decide (e.command.commandId ∈
        insert sc.command.commandId s.backend.plane.dispatcher.acked)) =
      s.device.executed.find? (fun e => p e && decide (e.command.commandId ∈
        s.backend.plane.dispatcher.acked)) := by
    intro p hp
    apply List.find?_congr
    intro e he
    by_cases heid : e.command.commandId = sc.command.commandId
    · have hsame : e = sc := by
        have hgete := h.executed_signed e he
        rw [heid] at hgete
        exact Option.some.inj (hgete.symm.trans hget)
      subst hsame
      rcases hp with hp | hack
      · simp [hp]
      · simp [hack]
    · simp [Finset.mem_insert, heid]
  exact {
    valid := h.valid.ack _
    minted_ids := h.minted_ids
    form := h.form
    executed_signed := h.executed_signed
    acked_executed := by
      intro id hid
      rcases Finset.mem_insert.mp hid with rfl | hid
      · exact ⟨sc, hexec, rfl⟩
      · exact h.acked_executed id hid
    gate := h.gate
    cadence := h.cadence
    known_gate := by
      show (s.backend.onCommandAck env.now sc.command.commandId).settings.device.audioGate = _
      rw [hgate]
      by_cases hnew : isAudio sc ∧ sc.command.commandId ∉ s.backend.plane.dispatcher.acked
      · obtain ⟨hexp, hfind⟩ := (hcond hnew.2).1 hnew.1
        rw [if_pos ⟨hnew.1, hnew.2, hexp⟩]
        have hfind' : s.device.executed.find? (fun e => isAudio e && decide
            (e.command.commandId ∈ insert sc.command.commandId
              s.backend.plane.dispatcher.acked)) = some sc := by
          rw [← hfind]
          apply List.find?_congr
          intro e _
          simp [Finset.mem_insert]
        exact (congrArg (Option.map fun e : SignedCommand =>
          decide (e.command.type = .startAudio)) hfind').symm
      · rw [if_neg (by tauto), h.known_gate, ← hother isAudio (by tauto)]
        rfl
    known_cadence := by
      show (Option.map _
        (s.backend.onCommandAck env.now sc.command.commandId).settings.device.snapshotInterval) = _
      rw [hcadence]
      by_cases hnew : isCadence sc ∧ sc.command.commandId ∉ s.backend.plane.dispatcher.acked
      · obtain ⟨hexp, hsent⟩ := (hcond hnew.2).2 hnew.1
        rw [if_pos ⟨hnew.1, hnew.2, hexp⟩]
        have hfind' : s.device.executed.find? (fun e => isCadence e && decide
            (e.command.commandId ∈ insert sc.command.commandId
              s.backend.plane.dispatcher.acked)) = some sc := by
          apply find?_of_older (p := isCadence) (q := fun e => decide
            (e.command.commandId ∈ s.backend.plane.dispatcher.acked)) _ hexec hnew.1
          · simpa using hnew.2
          · simp [hnew.1]
          · intro e he
            simp only [Bool.and_eq_true] at he
            exact he.1
          · simpa using h.older_acked
        rw [Option.map_some, ← hsent]
        exact (congrArg (Option.bind · fun e : SignedCommand =>
          e.command.params.lookup "seconds") hfind').symm
      · rw [if_neg (by tauto), h.known_cadence, ← hother isCadence (by tauto)]
        rfl
    older_acked := by
      refine h.older_acked.imp ?_
      intro newer older hold hn ho
      exact Finset.mem_insert_of_mem (hold hn ho) }

/-- Every event the link can cause keeps the invariant, when its acks meet the condition. -/
theorem LoopInvariant.step {kit : CommandKit} {s : SettingsLoop} (h : LoopInvariant kit s)
    {st : LoopStep} (hst : s.Honest st ∧ FaithfulAck s st) :
    LoopInvariant kit (s.step kit st) := by
  obtain ⟨env, event⟩ := st
  cases event with
  | put patch =>
    have hsaved : LoopInvariant kit { s with backend := { s.backend with settings :=
        { s.backend.settings with
          document := patch.mergeOnto s.backend.settings.document } } } := { h with }
    show LoopInvariant kit { s with backend := s.backend.putSettings kit env patch }
    unfold Backend.putSettings
    dsimp only
    split_ifs
    · exact hsaved.reconcile env
    · exact hsaved
  | hello => exact h.reconcile env
  | deliver sc => exact h.receive hst.1
  | ack commandId =>
    obtain ⟨sc, hsc, rfl⟩ := hst.1
    exact h.ack hsc hst.2

/-! ## Quiescent states -/

/-- A command that needs no more than a microphone passes the guardrails. -/
theorem check_admitted {env : Surroundings} (henv : AdmitsAudio env) {command : ValidatedCommand}
    (htype : command.commandType = .startAudio ∨ command.commandType = .stopAudio ∨
      command.commandType = .setSnapshotInterval) (hconf : command.confidence = .finite 1) :
    StrictCommandGuardrails.check (env.capabilities.getD {}) (env.resources.getD {})
      confidenceAutonomous command = .ok command := by
  obtain ⟨hmic, hrelay, hbattery⟩ := henv
  have hcap : (capabilityRequirement command.commandType).filter
      (fun r => !r.1 (env.capabilities.getD {})) = none := by
    rcases htype with ht | ht | ht <;> simp [ht, capabilityRequirement, hmic]
  have hfloor : (env.resources.getD {}).batteryPct.lt (minBatteryFor command) = false := by
    rcases htype with ht | ht | ht
    · simpa [minBatteryFor, ht] using hbattery
    · simpa [minBatteryFor, ht] using hbattery
    · rw [Bool.eq_false_iff]
      intro hlt
      apply hbattery
      have hzero : minBatteryFor command = 0 := by simp [minBatteryFor, ht]
      rw [hzero] at hlt
      revert hlt
      cases (env.resources.getD {}).batteryPct with
      | finite q =>
        intro hlt
        have hq : q < 0 := of_decide_eq_true hlt
        exact decide_eq_true (hq.trans (by norm_num [batteryMinForQuickOp]))
      | infinite negative => exact id
      | nan => exact id
  have hres : resourceIssue (env.resources.getD {}) command = none := by
    unfold resourceIssue
    rw [if_neg (by simpa using hrelay), if_neg (by rw [hfloor]; exact Bool.false_ne_true)]
    rcases htype with ht | ht | ht <;> simp [ht]
  unfold StrictCommandGuardrails.check
  rw [hcap, hres, hconf]
  exact if_neg (by norm_num [confidenceAutonomous, Double.lt])

/-- With guardrails that vet audio commands, a reconcile that issues nothing found
nothing to issue. -/
theorem wantedRequest_none_of_reconcile {kit : CommandKit} {env : Surroundings} {b : Backend}
    (henv : AdmitsAudio env) (hsleep : b.settings.document.capture.sleepMode = false)
    (hnone : (DeviceReconciler.reconcile kit env b).1 = none) :
    wantedRequest b.settings.document.capture b.settings.device = none := by
  cases hwanted : wantedRequest b.settings.document.capture b.settings.device with
  | none => rfl
  | some req =>
    have hvet : ∃ v, req.vet env = .ok v := by
      unfold wantedRequest at hwanted
      rw [if_neg (by simp [hsleep])] at hwanted
      split_ifs at hwanted
      · obtain rfl := Option.some.inj hwanted
        exact ⟨_, (snapshotIntervalRequest_vet env _).trans
          (check_admitted henv (Or.inr (Or.inr rfl)) rfl)⟩
      · obtain rfl := Option.some.inj hwanted
        refine ⟨_, (audioRequest_vet env _).trans (check_admitted henv ?_ rfl)⟩
        cases b.settings.document.capture.audioEnabled
        · exact Or.inr (Or.inl rfl)
        · exact Or.inl rfl
    obtain ⟨v, hv⟩ := hvet
    obtain ⟨refusal, hrefused, -⟩ | ⟨v', -, signed, hissue⟩ :=
      validateAndIssue_cases kit env req b.plane
    · rw [hv] at hrefused
      cases hrefused
    · unfold DeviceReconciler.reconcile at hnone
      simp only [hwanted, hissue] at hnone
      cases hnone

/-- In a quiescent state the newest acked command of a kind is the newest executed one. -/
theorem find?_acked_of_quiescent {kit : CommandKit} {s : SettingsLoop}
    (h : LoopInvariant kit s) (hquiet : s.Quiescent) (p : SignedCommand → Bool) :
    s.device.executed.find? (fun e => p e &&
      decide (e.command.commandId ∈ s.backend.plane.dispatcher.acked)) =
      s.device.executed.find? p := by
  apply List.find?_congr
  intro e he
  have hsigned := h.executed_signed e he
  have hkey : e.command.commandId ∈ s.backend.plane.dispatcher.signed.keys := by
    rw [← Dict.get?_isSome_iff, hsigned]
    rfl
  simp [hquiet _ hkey]

/-- **A converged backend is truthful.**  In every run whose acks meet the condition, a
quiescent state with sleep mode off in which reconciling issues nothing, though the
guardrails vet audio commands, has the device where the user wants it.
SOURCE: settings/reconciler.py:65-187, gateway/core.py:418-430 -/
theorem settings_truthful (kit : CommandKit) (document : SettingsDocument)
    (steps : List LoopStep) (env : Surroundings)
    (hhonest : EveryStep (step kit) Honest (boot document) steps)
    (hfaithful : EveryStep (step kit) FaithfulAck (boot document) steps)
    (henv : AdmitsAudio env) :
    let s := run (step kit) (boot document) steps
    s.Quiescent → s.backend.settings.document.capture.sleepMode = false →
      (DeviceReconciler.reconcile kit env s.backend).1 = none → s.Truthful := by
  intro s hquiet hsleep hnone
  have hinv : LoopInvariant kit s :=
    EveryStep.invariant (P := fun s st => s.Honest st ∧ FaithfulAck s st)
      (fun s st h hst => h.step hst) (loopInvariant_boot kit document) (hhonest.and hfaithful)
  have hwanted := wantedRequest_none_of_reconcile henv hsleep hnone
  unfold wantedRequest at hwanted
  rw [if_neg (by simp [hsleep])] at hwanted
  split_ifs at hwanted with hcadence hgate
  rw [not_ne_iff] at hcadence
  have hknown := hinv.known_gate
  rw [find?_acked_of_quiescent hinv hquiet, hgate] at hknown
  have hinterval := hinv.known_cadence
  rw [find?_acked_of_quiescent hinv hquiet, ← hinv.cadence] at hinterval
  constructor
  · have hdevice := hinv.gate
    rw [← hknown] at hdevice
    exact hdevice
  · intro v hv
    rw [Option.mem_def.mp hv] at hinterval
    cases hseconds : s.backend.settings.device.snapshotInterval with
    | none =>
      rw [hseconds] at hinterval
      cases hinterval
    | some n =>
      rw [hseconds] at hinterval hcadence
      obtain rfl := Option.some.inj hinterval
      have hn : n = s.backend.settings.document.capture.snapshotIntervalS := hcadence
      rw [hn]

/-! ## Concrete runs -/

def plainKit : CommandKit where
  signer := ⟨fun _ => [], id⟩
  ids := ⟨Nat.repr, fun _ _ => Nat.repr_injective⟩

/-- The `set_snapshot_interval` the reconciler issues at time 0. -/
def cadenceCommand (commandId : String) (seconds : ℤ) : SignedCommand :=
  plainKit.signer.sign
    { commandId := commandId, sessionId := "", type := .setSnapshotInterval
      params := [("seconds", .number (.int seconds))], issuedAt := 0, expiresAt := defaultTtl
      idempotencyKey := some "reconcile:snapshot_interval" }

/-- The `start_audio` the reconciler issues at time 0. -/
def startAudioCommand (commandId : String) : SignedCommand :=
  plainKit.signer.sign
    { commandId := commandId, sessionId := "", type := .startAudio, issuedAt := 0
      expiresAt := defaultTtl, idempotencyKey := some "reconcile:audio:on" }

def putCadence (seconds : Fin 601) : LoopEvent :=
  .put { capture := some { snapshotIntervalS := some seconds } }

/-- A cadence change that is acked before the user changes it again, then the audio gate. -/
def calmRun : List LoopStep :=
  [putCadence 30, .hello, .deliver (cadenceCommand "0" 30), .ack "0", .hello,
    .deliver (startAudioCommand "1"), .ack "1"].map (LoopStep.mk ⟨0, none, none⟩)

/-- `settings_truthful` on a run that ends converged. -/
theorem settings_truthful_calm : (run (step plainKit) (boot {}) calmRun).Truthful :=
  settings_truthful plainKit {} calmRun ⟨0, none, none⟩ (by decide +kernel) (by decide +kernel)
    (by decide +kernel) (by decide +kernel) (by decide +kernel) (by decide +kernel)

/-- Deliveries are of commands that are pending at that moment. -/
def DeliversPending (s : SettingsLoop) (st : LoopStep) : Prop :=
  match st.event with
  | .deliver sc => sc ∈ s.backend.plane.dispatcher.pending st.env.now
  | _ => True

instance (s : SettingsLoop) : (st : LoopStep) → Decidable (DeliversPending s st)
  | ⟨env, .deliver sc⟩ =>
    inferInstanceAs (Decidable (sc ∈ s.backend.plane.dispatcher.pending env.now))
  | ⟨_, .put _⟩ | ⟨_, .hello⟩ | ⟨_, .ack _⟩ => isTrue trivial

/-- The user asks for 30 s, the device takes it; the user asks for 45 s before the ack. -/
def racingRun : List LoopStep :=
  [putCadence 30, .hello, .deliver (cadenceCommand "0" 30), putCadence 45, .hello, .ack "0",
    .hello, .deliver (startAudioCommand "2"), .ack "2"].map (LoopStep.mk ⟨0, none, none⟩)

/-- The second request is absorbed by the first one's key and the ack of the first records
the second's cadence: the loop is converged and the device stays at 30 s. -/
theorem converged_not_always_truthful :
    ¬ ∀ (kit : CommandKit) (document : SettingsDocument) (steps : List LoopStep)
      (env : Surroundings),
      EveryStep (step kit) Honest (boot document) steps →
      EveryStep (step kit) DeliversPending (boot document) steps → AdmitsAudio env →
      (run (step kit) (boot document) steps).Quiescent →
      (run (step kit) (boot document) steps).backend.settings.document.capture.sleepMode = false →
      (DeviceReconciler.reconcile kit env (run (step kit) (boot document) steps).backend).1 =
        none →
      (run (step kit) (boot document) steps).Truthful := by
  intro h
  have htruthful := h plainKit {} racingRun ⟨0, none, none⟩ (by decide +kernel)
    (by decide +kernel) (by decide +kernel) (by decide +kernel) (by decide +kernel)
    (by decide +kernel)
  revert htruthful
  decide +kernel

end OpenRecall.Analysis.Reconciliation
