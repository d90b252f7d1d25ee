import OpenRecall.Model.CommandAck
import OpenRecall.Analysis.DispatcherInvariant

/-!
# The command record and the dispatcher

A command's lifecycle is kept twice: by the dispatcher, and in the record that the HTTP routes
read. `issue` saves the record; `transition` does not, and the HTTP ack moves the record without
telling the dispatcher. So the two agree through a run exactly as long as no transition is taken
and no HTTP ack of an issued command is accepted. The second never happens to a dispatcher that
starts empty: its records stay PENDING, and the route wants DELIVERED.
-/

set_option autoImplicit false

namespace OpenRecall.Model.CommandDispatcher

open Foundation

/-! ## The dispatcher and its records -/

/-- The dispatcher tracks the command. -/
def Issued (id : String) (d : CommandDispatcher) : Prop := (d.signed.get? id).isSome

instance (id : String) (d : CommandDispatcher) : Decidable (d.Issued id) :=
  inferInstanceAs (Decidable (_ = true))

/-- The record of a command. -/
def stored (id : String) (d : CommandDispatcher) : Option CommandRecord :=
  d.store.bind fun store => store.get? id

/-- The record of every issued command has the dispatcher's status and history. -/
def Mirrors (d : CommandDispatcher) : Prop :=
  ∀ id, d.Issued id → ∃ rec, d.stored id = some rec ∧ d.getStatus id = some rec.status ∧
    d.getHistory id = some rec.history

/-- How the dispatcher's maps and its store fit together in every run. -/
structure Sound (d : CommandDispatcher) : Prop where
  valid : d.Valid
  wired : d.store.isSome
  tracked : ∀ id, (d.getStatus id).isSome → d.Issued id
  entries : ∀ id history, d.getHistory id = some history → history ≠ []
  filed : ∀ id rec, d.stored id = some rec → rec.command.commandId = id

/-- A dispatcher that has issued nothing yet, over the records of an earlier one. -/
theorem sound_init {store : Dict String CommandRecord}
    (hfiled : ∀ id rec, store.get? id = some rec → rec.command.commandId = id) :
    ({ store := some store } : CommandDispatcher).Sound where
  valid := valid_init _
  wired := by simp
  tracked := by simp [getStatus]
  entries := by simp [getHistory]
  filed := hfiled

variable {d : CommandDispatcher} {signer : CommandSigner} {now : Time} {c : Command} {id : String}

/-! ## Issuing -/

theorem stored_track (h : d.store.isSome) :
    (d.track signer now c).stored id =
      if id = c.commandId then some ⟨c, .pending, [issueEntry now]⟩ else d.stored id := by
  obtain ⟨store, hstore⟩ := Option.isSome_iff_exists.mp h
  simp [stored, track, hstore, Dict.get?_set]

theorem getStatus_track : (d.track signer now c).getStatus id =
    if id = c.commandId then some .pending else d.getStatus id := by
  simp [getStatus, track, Dict.get?_set]

theorem getHistory_track : (d.track signer now c).getHistory id =
    if id = c.commandId then some [issueEntry now] else d.getHistory id := by
  simp [getHistory, track, Dict.get?_set]

theorem issued_track : (d.track signer now c).Issued id ↔ id = c.commandId ∨ d.Issued id := by
  unfold Issued
  rw [track_signed]
  split_ifs with h <;> simp [h]

theorem Sound.track (h : d.Sound) (hheld : d.heldBy c.idempotencyKey = none)
    (hfresh : d.signed.get? c.commandId = none) : (d.track signer now c).Sound where
  valid := h.valid.track signer now hheld hfresh
  wired := by simpa [CommandDispatcher.track] using h.wired
  tracked := by
    intro id hid
    rw [getStatus_track] at hid
    rw [issued_track]
    split_ifs at hid with heq
    · exact Or.inl heq
    · exact Or.inr (h.tracked id hid)
  entries := by
    intro id history hid
    rw [getHistory_track] at hid
    split_ifs at hid with heq
    · simp [← Option.some.inj hid]
    · exact h.entries id history hid
  filed := by
    intro id rec hid
    rw [stored_track h.wired] at hid
    split_ifs at hid with heq
    · simp [← Option.some.inj hid, heq]
    · exact h.filed id rec hid

theorem Sound.issue (h : d.Sound) (signer : CommandSigner) (now : Time) (c : Command) :
    (d.issue signer now c).2.Sound := by
  obtain ⟨sc, -, heq⟩ | ⟨-, sc, -, heq⟩ | ⟨hheld, hfresh, heq⟩ := issue_cases signer now c d
  · rw [heq]; exact h
  · rw [heq]; exact h
  · rw [heq]; exact h.track hheld hfresh

theorem Mirrors.track (h : d.Mirrors) (hwired : d.store.isSome) :
    (d.track signer now c).Mirrors := by
  intro id hid
  rw [stored_track hwired, getStatus_track, getHistory_track]
  split_ifs with heq
  · simp
  · exact h id ((issued_track.mp hid).resolve_left heq)

/-- Issuing saves the record. -/
theorem Mirrors.issue (h : d.Mirrors) (hwired : d.store.isSome) (signer : CommandSigner)
    (now : Time) (c : Command) : (d.issue signer now c).2.Mirrors := by
  obtain ⟨sc, -, heq⟩ | ⟨-, sc, -, heq⟩ | ⟨-, -, heq⟩ := issue_cases signer now c d
  · rw [heq]; exact h
  · rw [heq]; exact h
  · rw [heq]; exact h.track hwired

/-! ## Transitions -/

/-- The state machine allows the move. -/
def Allowed (id : String) (dst : CommandStatus) (d : CommandDispatcher) : Prop :=
  ∃ frm ∈ d.getStatus id, isValidTransition frm dst

instance (id : String) (dst : CommandStatus) (d : CommandDispatcher) :
    Decidable (d.Allowed id dst) := inferInstanceAs (Decidable (∃ frm ∈ d.getStatus id, _))

/-- A transition that is not allowed changes nothing; one that is moves the dispatcher's maps and
leaves the store. -/
theorem step_transition_cases (d : CommandDispatcher) (signer : CommandSigner) (now : Time)
    (id : String) (dst : CommandStatus) (detail : Params) :
    (¬ d.Allowed id dst ∧ d.step signer ⟨now, .transition id dst detail⟩ = d) ∨
      ∃ frm, d.getStatus id = some frm ∧ isValidTransition frm dst = true ∧
        d.step signer ⟨now, .transition id dst detail⟩ =
          { d with
            status := d.status.set id dst
            history := d.history.set id
              ((d.getHistory id).getD [] ++ [⟨some frm, dst, now, detail⟩]) } := by
  simp only [step, transition, Allowed, getStatus, getHistory]
  cases hstatus : d.status.get? id with
  | none => simp
  | some frm =>
    by_cases hvalid : isValidTransition frm dst = true
    · exact Or.inr ⟨frm, by simp [hvalid]⟩
    · simp [hvalid]

theorem Sound.transition (h : d.Sound) (signer : CommandSigner) (now : Time) (id : String)
    (dst : CommandStatus) (detail : Params) :
    (d.step signer ⟨now, .transition id dst detail⟩).Sound := by
  obtain ⟨-, hsame⟩ | ⟨frm, hstatus, -, hstep⟩ := step_transition_cases d signer now id dst detail
  · rw [hsame]; exact h
  · rw [hstep]
    exact
      { valid := ⟨h.valid.signed_id, h.valid.idem_signed, h.valid.unacked_held⟩
        wired := h.wired
        tracked := by
          intro id' hid'
          rw [getStatus, Dict.get?_set] at hid'
          split_ifs at hid' with heq
          · rw [heq]
            exact h.tracked id (by simp [hstatus])
          · exact h.tracked id' hid'
        entries := by
          intro id' history hid'
          rw [getHistory, Dict.get?_set] at hid'
          split_ifs at hid' with heq
          · simp [← Option.some.inj hid']
          · exact h.entries id' history hid'
        filed := h.filed }

/-- The record stays behind when a transition is taken. -/
theorem not_mirrors_transition (hsound : d.Sound) (h : d.Mirrors) (signer : CommandSigner)
    (now : Time) {dst : CommandStatus} (detail : Params) (hallowed : d.Allowed id dst) :
    ¬ (d.step signer ⟨now, .transition id dst detail⟩).Mirrors := by
  obtain ⟨hnot, -⟩ | ⟨frm, hstatus, -, hstep⟩ :=
    step_transition_cases d signer now id dst detail
  · exact absurd hallowed hnot
  · intro hafter
    have hissued : d.Issued id := hsound.tracked id (by simp [hstatus])
    obtain ⟨rec, hrec, -, hhistory⟩ := h id hissued
    rw [hstep] at hafter
    obtain ⟨rec', hrec', -, hhistory'⟩ := hafter id hissued
    obtain rfl : rec = rec' := Option.some.inj (hrec.symm.trans hrec')
    simp only [getHistory, Dict.get?_set_self] at hhistory hhistory'
    simp [hhistory] at hhistory'

/-! ## Acks -/

theorem Sound.ack (h : d.Sound) (id : String) : (d.ack id).Sound where
  valid := h.valid.ack id
  wired := h.wired
  tracked := h.tracked
  entries := h.entries
  filed := h.filed

/-- The HTTP route accepts the ack. -/
def Accepts (id : String) (d : CommandDispatcher) : Prop :=
  ∃ rec ∈ d.stored id, rec.status = .delivered ∧ rec.history ≠ []

instance (id : String) (d : CommandDispatcher) : Decidable (d.Accepts id) :=
  inferInstanceAs (Decidable (∃ rec ∈ d.stored id, _))

/-- The route answers with the moved record exactly when it accepts. -/
theorem postCommandAck_ok_iff {store : Dict String CommandRecord} (hstore : d.store = some store)
    (id : String) : (∃ rec, (postCommandAck id store).1 = .ok rec) ↔ d.Accepts id := by
  simp only [Accepts, stored, hstore, Option.bind_some, postCommandAck]
  cases hrec : store.get? id with
  | none => simp
  | some rec =>
    by_cases hstatus : rec.status = .delivered
    · cases hlast : rec.history.getLast? with
      | none => simp [hstatus, List.getLast?_eq_none_iff.mp hlast]
      | some last =>
        have hne : rec.history ≠ [] := by
          rintro hnil
          simp [hnil] at hlast
        simp [hstatus, hne, hlast]
    · simp [hstatus]

/-- An ack that is refused changes nothing; one that is accepted adds a transition to the record
of its command. -/
theorem httpAck_cases (hsound : d.Sound) (id : String) :
    (¬ d.Accepts id ∧ d.httpAck id = d) ∨
      ∃ rec entry, d.stored id = some rec ∧ rec.status = .delivered ∧
        ∀ id', (d.httpAck id).stored id' =
          if id' = id then
            some { rec with status := .executing, history := rec.history ++ [entry] }
          else d.stored id' := by
  obtain ⟨store, hstore⟩ := Option.isSome_iff_exists.mp hsound.wired
  have hstored : ∀ id', d.stored id' = store.get? id' := by simp [stored, hstore]
  have hunchanged : (postCommandAck id store).2 = store → d.httpAck id = d := by
    intro h
    rw [httpAck, hstore, Option.map_some, h, ← hstore]
  simp only [Accepts, hstored]
  cases hrec : store.get? id with
  | none => exact Or.inl ⟨by simp, hunchanged (by simp [postCommandAck, hrec])⟩
  | some rec =>
    by_cases hstatus : rec.status = .delivered
    · cases hlast : rec.history.getLast? with
      | none =>
        refine Or.inl ⟨by simp [List.getLast?_eq_none_iff.mp hlast], hunchanged ?_⟩
        simp [postCommandAck, hrec, hstatus, hlast]
      | some last =>
        have hid : rec.command.commandId = id :=
          hsound.filed id rec (by rw [hstored, hrec])
        refine Or.inr ⟨rec, ⟨some .delivered, .executing, last.at_, []⟩, rfl, hstatus, ?_⟩
        intro id'
        simp [stored, httpAck, hstore, postCommandAck, hrec, hstatus, hlast,
          CommandRecord.withTransition, Dict.get?_set, hid]
    · exact Or.inl ⟨by simp [hstatus], hunchanged (by simp [postCommandAck, hrec, hstatus])⟩

/-- An HTTP ack touches the store only. -/
theorem Sound.httpAck (h : d.Sound) (id : String) : (d.httpAck id).Sound where
  valid := ⟨h.valid.signed_id, h.valid.idem_signed, h.valid.unacked_held⟩
  wired := by simpa [CommandDispatcher.httpAck] using h.wired
  tracked := h.tracked
  entries := h.entries
  filed := by
    intro id' rec' hid'
    obtain ⟨-, hsame⟩ | ⟨rec, entry, hrec, -, hstored⟩ := httpAck_cases h id
    · rw [hsame] at hid'
      exact h.filed id' rec' hid'
    · rw [hstored] at hid'
      split_ifs at hid' with heq
      · rw [← Option.some.inj hid', heq]
        exact h.filed id rec hrec
      · exact h.filed id' rec' hid'

/-- An HTTP ack keeps the records with the dispatcher unless it is accepted for an issued
command. -/
theorem mirrors_httpAck_iff (hsound : d.Sound) (h : d.Mirrors) (id : String) :
    (d.httpAck id).Mirrors ↔ ¬ (d.Issued id ∧ d.Accepts id) := by
  obtain ⟨hrefused, hsame⟩ | ⟨rec, entry, hrec, hstatus, hstored⟩ := httpAck_cases hsound id
  · rw [hsame]
    exact iff_of_true h (fun hboth => hrefused hboth.2)
  · constructor
    · rintro hafter ⟨hissued, -⟩
      obtain ⟨before, hbefore, -, hhistory⟩ := h id hissued
      obtain ⟨after, hafter, -, hhistory'⟩ := hafter id hissued
      obtain rfl : rec = before := Option.some.inj (hrec.symm.trans hbefore)
      rw [hstored, if_pos rfl] at hafter
      have hboth : d.getHistory id = some after.history := hhistory'
      rw [hhistory, ← Option.some.inj hafter] at hboth
      simp at hboth
    · intro hnot id' hissued'
      have hissued : d.Issued id' := hissued'
      rw [hstored]
      split_ifs with heq
      · subst heq
        obtain ⟨before, hbefore, -, hhistory⟩ := h id' hissued
        obtain rfl : rec = before := Option.some.inj (hrec.symm.trans hbefore)
        exact absurd ⟨hissued, rec, hrec, hstatus, hsound.entries _ _ hhistory⟩ hnot
      · exact h id' hissued

end OpenRecall.Model.CommandDispatcher

namespace OpenRecall.Analysis.RecordMirror

open Foundation OpenRecall.Model OpenRecall.Model.CommandDispatcher

/-! ## Runs of operations -/

/-- The backend, and the issued commands that were acked on either path. -/
structure AckedPlane where
  backend : Backend
  acked : Finset String := ∅

def AckedPlane.dispatcher (s : AckedPlane) : CommandDispatcher := s.backend.plane.dispatcher

/-- The issued command whose ack an operation takes. -/
def ackTaken (d : CommandDispatcher) : CommandOp → Option String
  | .call (.ack id) | .gatewayAck id => if d.Issued id then some id else none
  | .httpAck id => if d.Issued id ∧ d.Accepts id then some id else none
  | .call (.issue _) | .call (.transition _ _ _) => none

/-- Only acks of issued commands count. -/
theorem issued_of_ackTaken {d : CommandDispatcher} {op : CommandOp} {id : String}
    (h : ackTaken d op = some id) : d.Issued id := by
  cases op with
  | call call =>
    cases call with
    | issue c => simp [ackTaken] at h
    | ack id' =>
      simp only [ackTaken, Option.ite_none_right_eq_some, Option.some.injEq] at h
      exact h.2 ▸ h.1
    | transition id' dst detail => simp [ackTaken] at h
  | gatewayAck id' =>
    simp only [ackTaken, Option.ite_none_right_eq_some, Option.some.injEq] at h
    exact h.2 ▸ h.1
  | httpAck id' =>
    simp only [ackTaken, Option.ite_none_right_eq_some, Option.some.injEq] at h
    exact h.2 ▸ h.1.1

def step (signer : CommandSigner) (s : AckedPlane) (op : CommandStep) : AckedPlane where
  backend := s.backend.commandStep signer op
  acked := s.acked ∪ (ackTaken s.dispatcher op.op).toFinset

/-- No acked command is pending, whatever the clock. -/
def AckedGone (s : AckedPlane) : Prop :=
  ∀ id ∈ s.acked, ∀ now, ∀ sc ∈ s.dispatcher.pending now, sc.command.commandId ≠ id

/-- The records agree with the dispatcher, and what was acked is not pending. -/
structure InStep (s : AckedPlane) : Prop where
  mirrors : s.dispatcher.Mirrors
  gone : AckedGone s

/-- The operation is neither a transition that is allowed nor an HTTP ack that is accepted for an
issued command. -/
def Harmless (s : AckedPlane) (op : CommandStep) : Prop :=
  match op.op with
  | .call (.transition id dst _) => ¬ s.dispatcher.Allowed id dst
  | .httpAck id => ¬ (s.dispatcher.Issued id ∧ s.dispatcher.Accepts id)
  | .call (.issue _) | .call (.ack _) | .gatewayAck _ => True

instance (s : AckedPlane) (op : CommandStep) : Decidable (Harmless s op) :=
  match op with
  | ⟨_, .call (.transition id dst _)⟩ => inferInstanceAs (Decidable (¬ s.dispatcher.Allowed id dst))
  | ⟨_, .httpAck id⟩ =>
    inferInstanceAs (Decidable (¬ (s.dispatcher.Issued id ∧ s.dispatcher.Accepts id)))
  | ⟨_, .call (.issue _)⟩ | ⟨_, .call (.ack _)⟩ | ⟨_, .gatewayAck _⟩ =>
    inferInstanceAs (Decidable True)

/-- What holds in every run. -/
structure Wellformed (s : AckedPlane) : Prop where
  sound : s.dispatcher.Sound
  issued : ∀ id ∈ s.acked, s.dispatcher.Issued id

variable {signer : CommandSigner} {s : AckedPlane}

/-- An issued command is pending at no time exactly when the dispatcher has its ack. -/
theorem ackedGone_iff (h : Wellformed s) :
    AckedGone s ↔ ∀ id ∈ s.acked, id ∈ s.dispatcher.acked := by
  constructor
  · intro hgone id hid
    by_contra hnot
    obtain ⟨sc, hsc⟩ := Option.isSome_iff_exists.mp (h.issued id hid)
    apply hgone id hid (sc.command.expiresAt - 1) sc
    · rw [mem_pending_iff]
      refine ⟨id, hsc, hnot, ?_⟩
      simp [Command.isExpired]
    · exact h.sound.valid.signed_id id sc hsc
  · rintro hacked id hid now sc hsc rfl
    obtain ⟨id', hget, hnot, -⟩ := (mem_pending_iff _ _ _).mp hsc
    rw [← h.sound.valid.signed_id id' sc hget] at hnot
    exact hnot (hacked _ hid)

theorem Wellformed.step (h : Wellformed s) (op : CommandStep) :
    Wellformed (step signer s op) := by
  obtain ⟨now, op⟩ := op
  constructor
  · cases op with
    | call call =>
      cases call with
      | issue c => exact h.sound.issue signer now c
      | ack id => exact h.sound.ack id
      | transition id dst detail => exact h.sound.transition signer now id dst detail
    | gatewayAck id => exact h.sound.ack id
    | httpAck id => exact h.sound.httpAck id
  · -- what was issued stays issued, and only acks of issued commands count
    have hmono : ∀ id, s.dispatcher.Issued id →
        (RecordMirror.step signer s ⟨now, op⟩).dispatcher.Issued id := by
      intro id hid
      cases op with
      | call call =>
        cases call with
        | issue c =>
          change (s.dispatcher.issue signer now c).2.Issued id
          obtain ⟨sc, -, heq⟩ | ⟨-, sc, -, heq⟩ | ⟨-, -, heq⟩ :=
            issue_cases signer now c s.dispatcher
          · rwa [heq]
          · rwa [heq]
          · rw [heq]
            exact issued_track.mpr (Or.inr hid)
        | ack id => exact hid
        | transition id' dst detail =>
          change (s.dispatcher.step signer ⟨now, .transition id' dst detail⟩).Issued id
          rw [Issued, (step_transition_eq signer s.dispatcher now id' dst detail).1]
          exact hid
      | gatewayAck id => exact hid
      | httpAck id => exact hid
    intro id hid
    rcases Finset.mem_union.mp hid with hid | hid
    · exact hmono id (h.issued id hid)
    · exact hmono id (issued_of_ackTaken (by simpa using hid))

/-- The two agree where the records mirror the dispatcher and it has every ack. -/
theorem inStep_iff (h : Wellformed s) :
    InStep s ↔ s.dispatcher.Mirrors ∧ ∀ id ∈ s.acked, id ∈ s.dispatcher.acked := by
  rw [← ackedGone_iff h]
  exact ⟨fun hin => ⟨hin.mirrors, hin.gone⟩, fun hboth => ⟨hboth.1, hboth.2⟩⟩

/-- One operation keeps the records with the dispatcher exactly when it is harmless. -/
theorem inStep_step_iff (hw : Wellformed s) (h : InStep s) (op : CommandStep) :
    InStep (step signer s op) ↔ Harmless s op := by
  rw [inStep_iff (hw.step op)]
  obtain ⟨hmirrors, hacked⟩ := (inStep_iff hw).mp h
  obtain ⟨now, op⟩ := op
  -- an ack reaches the dispatcher before it counts
  have hack : ∀ id, (s.dispatcher.ack id).Mirrors ∧
      ∀ id' ∈ s.acked ∪ (ackTaken s.dispatcher (.gatewayAck id)).toFinset,
        id' ∈ (s.dispatcher.ack id).acked := by
    intro id
    refine ⟨hmirrors, fun id' hid' => ?_⟩
    rcases Finset.mem_union.mp hid' with hid' | hid'
    · exact Finset.mem_insert_of_mem (hacked id' hid')
    · have : id' = id := by
        simp only [ackTaken] at hid'
        split_ifs at hid' <;> simp_all
      simp [CommandDispatcher.ack, this]
  cases op with
  | call call =>
    cases call with
    | issue c =>
      refine iff_of_true ⟨hmirrors.issue hw.sound.wired signer now c, ?_⟩ trivial
      intro id hid
      have hsame : (s.dispatcher.issue signer now c).2.acked = s.dispatcher.acked := by
        obtain ⟨sc, -, heq⟩ | ⟨-, sc, -, heq⟩ | ⟨-, -, heq⟩ :=
          issue_cases signer now c s.dispatcher <;> simp [heq]
      change id ∈ (s.dispatcher.issue signer now c).2.acked
      rw [hsame]
      apply hacked
      simpa [step, ackTaken] using hid
    | ack id => exact iff_of_true (hack id) trivial
    | transition id dst detail =>
      constructor
      · rintro ⟨hafter, -⟩ hallowed
        exact not_mirrors_transition hw.sound hmirrors signer now detail hallowed hafter
      · intro hharmless
        obtain ⟨-, hsame⟩ | ⟨frm, hstatus, hvalid, -⟩ :=
          step_transition_cases s.dispatcher signer now id dst detail
        · have hdispatcher : (step signer s ⟨now, .call (.transition id dst detail)⟩).dispatcher =
              s.dispatcher := hsame
          rw [hdispatcher]
          refine ⟨hmirrors, fun id' hid' => hacked id' ?_⟩
          simpa [step, ackTaken] using hid'
        · exact absurd ⟨frm, hstatus, hvalid⟩ hharmless
  | gatewayAck id => exact iff_of_true (hack id) trivial
  | httpAck id =>
    have hiff := mirrors_httpAck_iff hw.sound hmirrors id
    constructor
    · rintro ⟨hafter, -⟩
      exact hiff.mp hafter
    · intro hharmless
      refine ⟨hiff.mpr hharmless, fun id' hid' => hacked id' ?_⟩
      have hnone : ¬ (s.dispatcher.Issued id ∧ s.dispatcher.Accepts id) := hharmless
      simpa [step, ackTaken, hnone] using hid'

/-- **The records mirror the dispatcher after every operation of a run, and no acked command is
pending, if and only if the run takes no transition and no HTTP ack of an issued command is
accepted.**
SOURCE: commands/dispatcher.py:60-165, commands/store.py:28-91, http/routes/commands.py:156-192,
gateway/core.py:418-430 -/
theorem always_inStep_iff (signer : CommandSigner) (s : AckedPlane) (hw : Wellformed s)
    (h : InStep s) (ops : List CommandStep) :
    (∀ done, done <+: ops → InStep (run (step signer) s done)) ↔
      EveryStep (step signer) Harmless s ops :=
  forall_prefix_iff_everyStep_of_invariant (I := InStep) (J := Wellformed)
    (fun _ op hw => hw.step op) (fun _ op hw h => inStep_step_iff hw h op) hw h ops

/-! ## A dispatcher that starts empty -/

/-- Every issued command has a PENDING record. -/
def IssuedPending (d : CommandDispatcher) : Prop :=
  ∀ id, d.Issued id → ∃ rec ∈ d.stored id, rec.status = .pending

theorem not_accepts_of_pending {d : CommandDispatcher} (h : IssuedPending d) {id : String}
    (hid : d.Issued id) : ¬ d.Accepts id := by
  rintro ⟨rec, hrec, hstatus, -⟩
  obtain ⟨rec', hrec', hstatus'⟩ := h id hid
  obtain rfl : rec = rec' := Option.some.inj (hrec.symm.trans hrec')
  simp [hstatus] at hstatus'

theorem issuedPending_step (signer : CommandSigner) (s : AckedPlane) (hw : Wellformed s)
    (h : IssuedPending s.dispatcher) (op : CommandStep) :
    IssuedPending (step signer s op).dispatcher := by
  obtain ⟨now, op⟩ := op
  cases op with
  | call call =>
    cases call with
    | issue c =>
      change IssuedPending (s.dispatcher.issue signer now c).2
      obtain ⟨sc, -, heq⟩ | ⟨-, sc, -, heq⟩ | ⟨-, -, heq⟩ := issue_cases signer now c s.dispatcher
      · rwa [heq]
      · rwa [heq]
      · rw [heq]
        intro id hid
        rw [stored_track hw.sound.wired]
        split_ifs with hnew
        · simp
        · exact h id ((issued_track.mp hid).resolve_left hnew)
    | ack id => exact h
    | transition id dst detail =>
      change IssuedPending (s.dispatcher.step signer ⟨now, .transition id dst detail⟩)
      obtain ⟨-, hsame⟩ | ⟨frm, -, -, hstep⟩ :=
        step_transition_cases s.dispatcher signer now id dst detail
      · rwa [hsame]
      · rw [hstep]
        exact h
  | gatewayAck id => exact h
  | httpAck id =>
    change IssuedPending (s.dispatcher.httpAck id)
    obtain ⟨-, hsame⟩ | ⟨rec, entry, hrec, hstatus, hstored⟩ := httpAck_cases hw.sound id
    · rwa [hsame]
    · intro id' hid'
      have hissued : s.dispatcher.Issued id' := hid'
      rw [hstored]
      split_ifs with heq
      · obtain ⟨rec', hrec', hpending⟩ := h id' hissued
        rw [heq, hrec] at hrec'
        simp [← Option.some.inj hrec', hstatus] at hpending
      · exact h id' hissued

/-- **A dispatcher that starts empty has no HTTP ack accepted for a command it issues**: the
route wants a record that is DELIVERED, and nothing moves the record away from PENDING.
SOURCE: http/routes/commands.py:156-192 -/
theorem httpAck_refused (signer : CommandSigner) {s : AckedPlane} (hw : Wellformed s)
    (hempty : ∀ id, ¬ s.dispatcher.Issued id) (ops : List CommandStep) {id : String}
    (hid : (run (step signer) s ops).dispatcher.Issued id) :
    ¬ (run (step signer) s ops).dispatcher.Accepts id := by
  have hstart : Wellformed s ∧ IssuedPending s.dispatcher :=
    ⟨hw, fun id hid => absurd hid (hempty id)⟩
  have hend : Wellformed (run (step signer) s ops) ∧
      IssuedPending (run (step signer) s ops).dispatcher := run_invariant
    (I := fun s => Wellformed s ∧ IssuedPending s.dispatcher)
    (fun s op h => ⟨h.1.step op, issuedPending_step signer s h.1 h.2 op⟩) hstart ops
  exact not_accepts_of_pending hend.2 hid

/-! ## Concrete runs -/

/-- A server that just started, with an empty store. -/
def freshPlane : AckedPlane where
  backend := { plane := { dispatcher := { store := some .empty } } }

theorem wellformed_freshPlane : Wellformed freshPlane where
  sound := by
    apply sound_init
    simp
  issued := by simp [freshPlane]

theorem inStep_freshPlane : InStep freshPlane where
  mirrors := by
    intro id hid
    simp [Issued, freshPlane, AckedPlane.dispatcher] at hid
  gone := by
    intro id hid
    simp [freshPlane] at hid

def bytelessSigner : CommandSigner := ⟨fun _ => [], id⟩

/-- An issue, a step of the lifecycle, and an ack on the socket. -/
def lifecycle : List CommandStep :=
  [⟨0, .call (.issue
      { commandId := "c1", sessionId := "", type := .startAudio, issuedAt := 0
        expiresAt := 300000000 })⟩,
    ⟨1, .call (.transition "c1" .validated [])⟩,
    ⟨2, .gatewayAck "c1"⟩]

/-- The run's record stays with the dispatcher if and only if its second operation takes no
transition. -/
theorem always_inStep_iff_lifecycle :
    (∀ done, done <+: lifecycle → InStep (run (step bytelessSigner) freshPlane done)) ↔
      EveryStep (step bytelessSigner) Harmless freshPlane lifecycle :=
  always_inStep_iff bytelessSigner freshPlane wellformed_freshPlane inStep_freshPlane lifecycle

/-- **The stored record can fall behind the dispatcher**: a transition is not saved. -/
theorem not_always_inStep :
    ¬ ∀ (signer : CommandSigner) (s : AckedPlane) (ops : List CommandStep), Wellformed s →
      InStep s → ∀ done, done <+: ops → InStep (run (step signer) s done) := by
  intro h
  have hend := h bytelessSigner freshPlane lifecycle wellformed_freshPlane inStep_freshPlane
    lifecycle List.prefix_rfl
  obtain ⟨rec, hrec, hstatus, -⟩ := hend.mirrors "c1" (by decide +kernel)
  have hpending : (run (step bytelessSigner) freshPlane lifecycle).dispatcher.stored "c1" =
      some ⟨⟨"c1", "", .startAudio, [], 0, 300000000, none⟩, .pending, [issueEntry 0]⟩ := by
    decide +kernel
  rw [hpending] at hrec
  rw [← Option.some.inj hrec] at hstatus
  exact absurd hstatus (by decide +kernel)

end OpenRecall.Analysis.RecordMirror
