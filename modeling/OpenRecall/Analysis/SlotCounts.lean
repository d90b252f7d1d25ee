import OpenRecall.Model.AudioRetention

/-!
# Which remembered slot counts are those of the log

A log is kept under the file name that its session id makes, and the number of its slots is
remembered under the id itself. Ids that make one file name share the log but not the count,
and a call drops or renews the count of the id it was made with only. `coherent_iff` says
exactly which runs keep every count true: those in which no log gets longer or goes away while
its count is remembered under another id.
-/

set_option autoImplicit false

namespace OpenRecall.Analysis.SlotCounts

open Foundation OpenRecall.Model OpenRecall.Model.AudioStore

/-- The calls on the store, each with any session id; `reopen` is a restart of the server. -/
inductive StoreCall where
  | writeAt (sessionId : String) (slot : ℤ) (frames : List Bytes) (peaks : Option (List ℤ))
  | eraseRange (sessionId : String) (startMs endMs : ℤ)
  | delete (sessionId : String)
  | sweep (retention : RetentionSettings) (now : Time) (mtime : String → Time)
  | slotCount (sessionId : String)
  | reopen

section

variable (isAlnum : Char → Bool)

/-- SOURCE: media/audio.py:83-343, media/retention.py:53-74 -/
def step (st : AudioStore) : StoreCall → AudioStore
  | .writeAt sessionId slot frames peaks =>
    (st.writeAtSlot isAlnum sessionId slot frames peaks).2
  | .eraseRange sessionId startMs endMs => (st.eraseRange isAlnum sessionId startMs endMs).2
  | .delete sessionId => (st.delete isAlnum sessionId).2
  | .sweep retention now mtime => (st.sweepOnce isAlnum retention now mtime).2
  | .slotCount sessionId => (st.slotCountLocked isAlnum sessionId).2
  | .reopen => { st with slots := .empty }

/-- **Every slot count is the number of slots that a fresh scan of the log yields.** -/
def Coherent (st : AudioStore) : Prop :=
  ∀ sessionId, (st.slotCountLocked isAlnum sessionId).1 = (st.slotsOf isAlnum sessionId).length

/-- The count of the session's log is remembered under another id. -/
def CountedElsewhere (sessionId : String) (st : AudioStore) : Prop :=
  ∃ other ≠ sessionId, safe isAlnum other = safe isAlnum sessionId ∧
    (st.slots.get? other).isSome

/-- The write adds slots: it is not behind the end of the log, it has a frame or is ahead of
the end, and the gap up to it fits in a record. -/
def Lengthens (sessionId : String) (slot : ℤ) (frames : List Bytes) (st : AudioStore) : Prop :=
  ((st.slotsOf isAlnum sessionId).length : ℤ) ≤ slot ∧
    ((st.slotsOf isAlnum sessionId).length : ℤ) < slot + frames.length ∧
    slot - (st.slotsOf isAlnum sessionId).length < 2 ^ 32

/-- The log that the deletion takes away has slots only if its count is not remembered under
another id. -/
def DeletesAlone (sessionId : String) (st : AudioStore) : Prop :=
  st.slotsOf isAlnum sessionId ≠ [] → ¬ CountedElsewhere isAlnum sessionId st

/-- The condition on a call. -/
def ChangesAlone (st : AudioStore) : StoreCall → Prop
  | .writeAt sessionId slot frames _ =>
    Lengthens isAlnum sessionId slot frames st → ¬ CountedElsewhere isAlnum sessionId st
  | .delete sessionId => DeletesAlone isAlnum sessionId st
  | .sweep retention now mtime => retention.audioDays ≠ 0 →
    EveryStep (sweepSession isAlnum (cutoffOf retention now) mtime) (fun turn sessionId =>
      Expired isAlnum (cutoffOf retention now) mtime sessionId turn.2 →
        DeletesAlone isAlnum sessionId turn.2) ([], st) st.sessions
  | .eraseRange .. | .slotCount _ | .reopen => True

/-- The logs are records, whatever ids they were written under. -/
def Complete (st : AudioStore) : Prop :=
  ∀ name log, st.logs.get? name = some log → Recorded log (iterSlots log)

end

section

variable {isAlnum : Char → Bool} {sessionId : String} {st st' : AudioStore}

/-- A store with a count of its own answers with that count. -/
theorem coherent_iff_counted : Coherent isAlnum st ↔
    ∀ other count, st.slots.get? other = some count →
      count = (st.slotsOf isAlnum other).length := by
  apply forall_congr'
  intro other
  rw [slotCountLocked]
  cases st.slots.get? other <;> simp

theorem slotsOf_eq_of_safe_eq {other : String}
    (h : safe isAlnum other = safe isAlnum sessionId) :
    st.slotsOf isAlnum other = st.slotsOf isAlnum sessionId := by
  rw [slotsOf, slotsOf, log?, log?, h]

theorem Complete.recorded (h : Complete st) (isAlnum : Char → Bool) (sessionId : String) :
    Recorded ((st.log? isAlnum sessionId).getD []) (st.slotsOf isAlnum sessionId) := by
  rw [slotsOf]
  cases hlog : st.log? isAlnum sessionId with
  | none => exact recorded_nil
  | some log => exact h _ log hlog

theorem Complete.sound (h : Complete st) (hcoherent : Coherent isAlnum st) (sessionId : String) :
    Sound isAlnum sessionId st :=
  ⟨h.recorded isAlnum sessionId, coherent_iff_counted.mp hcoherent sessionId⟩

/-! ## What a write leaves -/

/-- No more happened than an append of records to the session's log and a new count of the
session. -/
structure Appends (isAlnum : Char → Bool) (sessionId : String) (st st' : AudioStore) : Prop where
  logs : st'.logs = st.logs ∨ ∃ payload items, Recorded payload items ∧
    st'.logs = (st.appendLog isAlnum sessionId payload).logs
  counts : ∀ other ≠ sessionId, st'.slots.get? other = st.slots.get? other

theorem appends_slotCountLocked :
    Appends isAlnum sessionId st (st.slotCountLocked isAlnum sessionId).2 := by
  unfold slotCountLocked
  cases st.slots.get? sessionId with
  | some count => exact ⟨.inl rfl, fun other _ => rfl⟩
  | none => exact ⟨.inl rfl, fun other hne => Dict.get?_set_of_ne _ _ hne⟩

/-- What is appended and counted after the count was looked up. -/
theorem Appends.after_slotCountLocked {payload : Bytes} {items : List Bytes}
    (hpayload : Recorded payload items)
    (hlogs : st'.logs = ((st.slotCountLocked isAlnum sessionId).2.appendLog isAlnum sessionId
      payload).logs)
    (hslots : ∀ other ≠ sessionId,
      st'.slots.get? other = (st.slotCountLocked isAlnum sessionId).2.slots.get? other) :
    Appends isAlnum sessionId st st' := by
  refine ⟨.inr ⟨payload, items, hpayload, ?_⟩, fun other hne => ?_⟩
  · rw [hlogs, appendLog, appendLog, log?, log?, slotCountLocked_frame.1]
  · rw [hslots other hne, appends_slotCountLocked.counts other hne]

theorem recorded_of_gapRecord {count : ℕ} {gap : Bytes} (hpos : 0 < count)
    (h : gapRecord count = .ok gap) : Recorded gap (List.replicate count []) := by
  rw [gapRecord] at h
  split_ifs at h with hfits
  obtain rfl := Except.ok.inj h
  exact recorded_gap hpos hfits

theorem appends_advanceTo (slot : ℕ) :
    Appends isAlnum sessionId st (st.advanceTo isAlnum sessionId slot).2 := by
  unfold advanceTo
  dsimp only
  split_ifs with hle
  · exact appends_slotCountLocked
  · cases hgap : gapRecord (slot - (st.slotCountLocked isAlnum sessionId).1) with
    | error e => exact .after_slotCountLocked recorded_nil rfl fun other _ => rfl
    | ok gap =>
      apply Appends.after_slotCountLocked (recorded_of_gapRecord (by omega) hgap)
      · exact (padPeaks_frame slot).1
      · intro other hne
        dsimp only
        rw [(padPeaks_frame slot).2]
        exact Dict.get?_set_of_ne _ _ hne

theorem appends_writeAt (slot : ℕ) (frames : List Bytes) (peaks : Option (List ℤ)) :
    Appends isAlnum sessionId st (st.writeAt isAlnum sessionId slot frames peaks).2 := by
  unfold writeAt
  split_ifs with hnil
  · exact appends_advanceTo slot
  · dsimp only
    split_ifs with hlate hahead
    · exact appends_slotCountLocked
    · cases hgap : gapRecord (slot - (st.slotCountLocked isAlnum sessionId).1) with
      | error e => exact appends_slotCountLocked
      | ok gap =>
        have hgap' := recorded_of_gapRecord (by omega) hgap
        apply Appends.after_slotCountLocked (hgap'.append (recorded_frameRecords frames))
        · exact (writePeaks_frame slot frames peaks).1
        · intro other hne
          dsimp only
          rw [(writePeaks_frame slot frames peaks).2]
          exact Dict.get?_set_of_ne _ _ hne
    · apply Appends.after_slotCountLocked (recorded_nil.append (recorded_frameRecords frames))
      · exact (writePeaks_frame slot frames peaks).1
      · intro other hne
        dsimp only
        rw [(writePeaks_frame slot frames peaks).2]
        exact Dict.get?_set_of_ne _ _ hne

theorem appends_writeAtSlot (slot : ℤ) (frames : List Bytes) (peaks : Option (List ℤ)) :
    Appends isAlnum sessionId st (st.writeAtSlot isAlnum sessionId slot frames peaks).2 := by
  cases slot with
  | ofNat slot => exact appends_writeAt slot frames peaks
  | negSucc n => exact appends_slotCountLocked

theorem Appends.complete (h : Appends isAlnum sessionId st st') (hst : Complete st) :
    Complete st' := by
  intro name log hlog
  rcases h.logs with hlogs | ⟨payload, items, hpayload, hlogs⟩
  · rw [hlogs] at hlog
    exact hst name log hlog
  · rw [hlogs, appendLog, Dict.get?_set] at hlog
    split_ifs at hlog with hname
    · obtain rfl := Option.some.inj hlog
      have hall := (hst.recorded isAlnum sessionId).append hpayload
      rwa [hall.iterSlots_eq]
    · exact hst name log hlog

/-- The slots of a session with another file stay. -/
theorem Appends.slotsOf_eq (h : Appends isAlnum sessionId st st') {other : String}
    (hname : safe isAlnum other ≠ safe isAlnum sessionId) :
    st'.slotsOf isAlnum other = st.slotsOf isAlnum other := by
  rcases h.logs with hlogs | ⟨payload, items, -, hlogs⟩
  · exact slotsOf_congr hlogs
  · rw [slotsOf, log?, hlogs, appendLog, Dict.get?_set_of_ne _ _ hname]
    rfl


/-! ## One call -/

/-- **The step rule.** What changes the log of one session only, and the count of that session
only, keeps every count true if and only if the log keeps its length or no other id has a count
of it. -/
theorem coherent_iff_of_others (hst : Coherent isAlnum st)
    (hcounts : ∀ other ≠ sessionId, st'.slots.get? other = st.slots.get? other)
    (hslots : ∀ other, safe isAlnum other ≠ safe isAlnum sessionId →
      st'.slotsOf isAlnum other = st.slotsOf isAlnum other)
    (hown : ∀ count, st'.slots.get? sessionId = some count →
      count = (st'.slotsOf isAlnum sessionId).length) :
    Coherent isAlnum st' ↔
      ((st'.slotsOf isAlnum sessionId).length ≠ (st.slotsOf isAlnum sessionId).length →
        ¬ CountedElsewhere isAlnum sessionId st) := by
  rw [coherent_iff_counted] at hst ⊢
  constructor
  · rintro h hchanged ⟨other, hne, hsafe, hsome⟩
    obtain ⟨count, hcount⟩ := Option.isSome_iff_exists.mp hsome
    have hbefore := hst other count hcount
    have hafter := h other count ((hcounts other hne).trans hcount)
    rw [slotsOf_eq_of_safe_eq hsafe] at hbefore hafter
    exact hchanged (hafter.symm.trans hbefore)
  · intro h other count hcount
    by_cases hsame : other = sessionId
    · rw [hsame] at hcount ⊢
      exact hown count hcount
    · rw [hcounts other hsame] at hcount
      rw [hst other count hcount]
      by_cases hsafe : safe isAlnum other = safe isAlnum sessionId
      · rw [slotsOf_eq_of_safe_eq hsafe, slotsOf_eq_of_safe_eq hsafe]
        by_contra hchanged
        exact h (Ne.symm hchanged) ⟨other, hsame, hsafe, Option.isSome_iff_exists.mpr ⟨_, hcount⟩⟩
      · rw [hslots other hsafe]

/-- The length of the log after a write. -/
theorem length_writeAtSlot (h : Sound isAlnum sessionId st) (slot : ℤ) (frames : List Bytes)
    (peaks : Option (List ℤ)) :
    Sound isAlnum sessionId (st.writeAtSlot isAlnum sessionId slot frames peaks).2 ∧
      (((st.writeAtSlot isAlnum sessionId slot frames peaks).2.slotsOf isAlnum sessionId).length ≠
        (st.slotsOf isAlnum sessionId).length ↔ Lengthens isAlnum sessionId slot frames st) := by
  unfold Lengthens
  cases slot with
  | negSucc n =>
    obtain ⟨-, hsound, hsame⟩ := h.slotCountLocked
    refine ⟨hsound, ?_⟩
    rw [show (st.writeAtSlot isAlnum sessionId (.negSucc n) frames peaks).2 =
      (st.slotCountLocked isAlnum sessionId).2 from rfl, hsame]
    omega
  | ofNat slot =>
    rw [show st.writeAtSlot isAlnum sessionId (.ofNat slot) frames peaks =
      st.writeAt isAlnum sessionId slot frames peaks from rfl]
    by_cases hfits : slot - (st.slotsOf isAlnum sessionId).length < 2 ^ 32
    · obtain ⟨hsound, hplace⟩ := h.writeAt hfits frames peaks
      refine ⟨hsound, ?_⟩
      rw [hplace]
      rcases lt_or_ge slot (st.slotsOf isAlnum sessionId).length with hlt | hle
      · rw [Slots.place_of_lt hlt, Int.ofNat_eq_natCast]
        omega
      · rw [Slots.place_of_le hle, List.length_append, Slots.length_padTo, List.length_map,
          max_eq_left hle, Int.ofNat_eq_natCast]
        omega
    · obtain ⟨-, hsound, hsame⟩ := h.slotCountLocked
      rw [Int.ofNat_eq_natCast]
      rcases h.writeAt_unfit hfits frames peaks with heq | heq
      · rw [heq, hsame]
        exact ⟨hsound, by omega⟩
      · rw [heq, hsound.appendLog_nil.2, hsame]
        exact ⟨hsound.appendLog_nil.1, by omega⟩


theorem coherent_writeAtSlot_iff (hcomplete : Complete st) (h : Coherent isAlnum st) (slot : ℤ)
    (frames : List Bytes) (peaks : Option (List ℤ)) :
    Coherent isAlnum (st.writeAtSlot isAlnum sessionId slot frames peaks).2 ↔
      (Lengthens isAlnum sessionId slot frames st →
        ¬ CountedElsewhere isAlnum sessionId st) := by
  have happends : Appends isAlnum sessionId st _ := appends_writeAtSlot slot frames peaks
  obtain ⟨hsound, hlength⟩ := length_writeAtSlot (hcomplete.sound h sessionId) slot frames peaks
  rw [← hlength]
  exact coherent_iff_of_others h happends.counts (fun other => happends.slotsOf_eq) hsound.counted

/-- What an erasure does to the logs and the counts. -/
theorem eraseRange_cases (isAlnum : Char → Bool) (sessionId : String) (startMs endMs : ℤ) :
    (st.eraseRange isAlnum sessionId startMs endMs).2 = st ∨ ∃ log items, Recorded log items ∧
      (st.eraseRange isAlnum sessionId startMs endMs).2.logs =
        st.logs.set (safe isAlnum sessionId) log ∧
      (st.eraseRange isAlnum sessionId startMs endMs).2.slots = st.slots.erase sessionId := by
  unfold eraseRange
  cases hlog : st.log? isAlnum sessionId with
  | none => exact .inl rfl
  | some log =>
    dsimp only
    cases hrewrite : rewriteFrom (msToSlot startMs) (msToSlot endMs) 0 0 (iterSlots log) with
    | error e => exact .inl rfl
    | ok out =>
      obtain ⟨log', erased⟩ := out
      have hrecorded := recorded_rewriteFrom (fun frame => length_le_of_mem_iterSlots) hrewrite
      exact .inr ⟨log', _, hrecorded, zeroPeaks_frame _ _⟩

theorem complete_eraseRange (h : Complete st) (startMs endMs : ℤ) :
    Complete (st.eraseRange isAlnum sessionId startMs endMs).2 := by
  rcases eraseRange_cases isAlnum sessionId startMs endMs with heq | ⟨log', items, hrec, heq, -⟩
  · rw [heq]
    exact h
  · intro name log hlog
    rw [heq, Dict.get?_set] at hlog
    split_ifs at hlog with hname
    · obtain rfl := Option.some.inj hlog
      rwa [hrec.iterSlots_eq]
    · exact h name log hlog

/-- An erasure keeps every count true: it keeps the number of slots. -/
theorem coherent_eraseRange (h : Coherent isAlnum st) (startMs endMs : ℤ) :
    Coherent isAlnum (st.eraseRange isAlnum sessionId startMs endMs).2 := by
  by_cases herasable : st.Erasable isAlnum sessionId startMs endMs
  · rw [coherent_iff_counted] at h ⊢
    intro other count hcount
    have hbefore : st.slots.get? other = some count := by
      rcases eraseRange_cases isAlnum sessionId startMs endMs with heq | ⟨_, _, -, -, heq⟩
      · rwa [heq] at hcount
      · rw [heq, Dict.get?_erase] at hcount
        split_ifs at hcount
        exact hcount
    rw [h other count hbefore, slotsOf_eraseRange herasable]
    split_ifs
    · rw [Slots.length_blankOut]
    · rfl
  · rw [eraseRange_of_not_erasable herasable]
    exact h

theorem complete_delete (h : Complete st) : Complete (st.delete isAlnum sessionId).2 := by
  intro name log hlog
  rw [delete, Dict.get?_erase] at hlog
  split_ifs at hlog
  exact h name log hlog

theorem log?_delete : (st.delete isAlnum sessionId).2.log? isAlnum sessionId = none := by
  rw [log?, delete, Dict.get?_erase, if_pos rfl]

theorem coherent_delete_iff (h : Coherent isAlnum st) :
    Coherent isAlnum (st.delete isAlnum sessionId).2 ↔ DeletesAlone isAlnum sessionId st := by
  have hgone : (st.delete isAlnum sessionId).2.slotsOf isAlnum sessionId = [] := by
    rw [slotsOf, log?_delete]
    rfl
  rw [coherent_iff_of_others h, hgone]
  · unfold DeletesAlone
    rw [List.length_nil, ne_comm, Ne, List.length_eq_zero_iff]
  · intro other hne
    rw [delete, Dict.get?_erase, if_neg hne]
  · intro other hname
    rw [slotsOf, log?, delete, Dict.get?_erase, if_neg hname]
    rfl
  · intro count hcount
    rw [delete, Dict.get?_erase, if_pos rfl] at hcount
    cases hcount

/-! ## A sweep -/

variable {cutoff : Time} {mtime : String → Time}

/-- An id whose file is gone, with a count: the sweep comes to no deletion under that id. -/
theorem stale_sweepSession {other : String} {count : ℕ} (turn : List String × AudioStore)
    (name : String) (h : turn.2.log? isAlnum other = none ∧ turn.2.slots.get? other = some count) :
    (sweepSession isAlnum cutoff mtime turn name).2.log? isAlnum other = none ∧
      (sweepSession isAlnum cutoff mtime turn name).2.slots.get? other = some count := by
  unfold sweepSession
  split_ifs with hexpired
  · have hne : other ≠ name := by
      rintro rfl
      have hsome := hexpired.1
      rw [h.1] at hsome
      cases hsome
    constructor
    · rw [log?, delete, Dict.get?_erase]
      split_ifs
      · rfl
      · exact h.1
    · rw [delete, Dict.get?_erase, if_neg hne, h.2]
  · exact h

theorem complete_sweepSession (turn : List String × AudioStore) (name : String)
    (h : Complete turn.2) : Complete (sweepSession isAlnum cutoff mtime turn name).2 := by
  unfold sweepSession
  split_ifs
  · exact complete_delete h
  · exact h

/-- **A sweep keeps every count true if and only if each of its deletions does**: a count that
one of them leaves behind is not dropped by a later one, which finds no file.
SOURCE: media/retention.py:53-74 -/
theorem coherent_sweep_iff {names : List String} {turn : List String × AudioStore}
    (h : Coherent isAlnum turn.2) :
    Coherent isAlnum (run (sweepSession isAlnum cutoff mtime) turn names).2 ↔
      EveryStep (sweepSession isAlnum cutoff mtime) (fun turn name =>
        Expired isAlnum cutoff mtime name turn.2 → DeletesAlone isAlnum name turn.2)
        turn names := by
  induction names generalizing turn with
  | nil => simpa using h
  | cons name names ih =>
    rw [run_cons, everyStep_cons]
    by_cases hexpired : Expired isAlnum cutoff mtime name turn.2
    · by_cases halone : DeletesAlone isAlnum name turn.2
      · have hnext : Coherent isAlnum (sweepSession isAlnum cutoff mtime turn name).2 := by
          rw [sweepSession, if_pos hexpired]
          exact (coherent_delete_iff h).mpr halone
        rw [ih hnext]
        simp [halone]
      · refine iff_of_false (fun hend => ?_) fun hall => halone (hall.1 hexpired)
        unfold DeletesAlone at halone
        push Not at halone
        obtain ⟨hslots, other, hne, hsafe, hsome⟩ := halone
        obtain ⟨count, hcount⟩ := Option.isSome_iff_exists.mp hsome
        have hpositive := coherent_iff_counted.mp h other count hcount
        rw [slotsOf_eq_of_safe_eq hsafe] at hpositive
        have hstale := run_invariant
          (I := fun turn : List String × AudioStore => turn.2.log? isAlnum other = none ∧
            turn.2.slots.get? other = some count)
          (@stale_sweepSession isAlnum cutoff mtime other count)
          (s := sweepSession isAlnum cutoff mtime turn name) ?_ names
        · have hzero := coherent_iff_counted.mp hend other count hstale.2
          rw [slotsOf, hstale.1] at hzero
          exact hslots (List.length_eq_zero_iff.mp (hpositive.symm.trans hzero))
        · rw [sweepSession, if_pos hexpired]
          constructor
          · rw [log?, hsafe]
            exact log?_delete
          · rw [delete, Dict.get?_erase, if_neg hne, hcount]
    · have hskip : sweepSession isAlnum cutoff mtime turn name = turn := if_neg hexpired
      rw [hskip, ih h]
      simp [hexpired]

/-! ## Runs -/

theorem complete_step (st : AudioStore) (c : StoreCall) (h : Complete st) :
    Complete (step isAlnum st c) := by
  cases c with
  | writeAt sessionId slot frames peaks => exact (appends_writeAtSlot slot frames peaks).complete h
  | eraseRange sessionId startMs endMs => exact complete_eraseRange h startMs endMs
  | delete sessionId => exact complete_delete h
  | sweep retention now mtime =>
    simp only [step, sweepOnce]
    split_ifs
    · exact h
    · exact run_invariant (I := fun turn : List String × AudioStore => Complete turn.2)
        complete_sweepSession h _
  | slotCount sessionId => exact appends_slotCountLocked.complete h
  | reopen => exact h

/-- **The step lemma.** -/
theorem coherent_step_iff (st : AudioStore) (c : StoreCall) (hcomplete : Complete st)
    (h : Coherent isAlnum st) :
    Coherent isAlnum (step isAlnum st c) ↔ ChangesAlone isAlnum st c := by
  cases c with
  | writeAt sessionId slot frames peaks =>
    exact coherent_writeAtSlot_iff hcomplete h slot frames peaks
  | eraseRange sessionId startMs endMs =>
    exact iff_of_true (coherent_eraseRange h startMs endMs) trivial
  | delete sessionId => exact coherent_delete_iff h
  | sweep retention now mtime =>
    simp only [step, sweepOnce, ChangesAlone]
    split_ifs with hoff
    · simpa [hoff] using h
    · rw [coherent_sweep_iff h]
      simp [hoff]
  | slotCount sessionId =>
    refine iff_of_true ?_ trivial
    have happends : Appends isAlnum sessionId st _ := appends_slotCountLocked
    obtain ⟨-, hsound, hsame⟩ := (hcomplete.sound h sessionId).slotCountLocked
    apply (coherent_iff_of_others h happends.counts (fun other => happends.slotsOf_eq)
      hsound.counted).mpr
    intro hchanged
    exact absurd (congrArg List.length hsame) hchanged
  | reopen =>
    refine iff_of_true (coherent_iff_counted.mpr fun other count hcount => ?_) trivial
    cases hcount

end

/-- **Every slot count is that of a fresh scan, after each of the calls, if and only if no call
adds slots to a log or takes a log with slots away while another id has a count of it.**
SOURCE: media/audio.py:94-200, media/audio.py:284-343, media/retention.py:53-74 -/
theorem coherent_iff (isAlnum : Char → Bool) (calls : List StoreCall) :
    (∀ done, done <+: calls → Coherent isAlnum (run (step isAlnum) {} done)) ↔
      EveryStep (step isAlnum) (ChangesAlone isAlnum) {} calls := by
  apply forall_prefix_iff_everyStep_of_invariant complete_step coherent_step_iff
  · intro name log hlog
    cases hlog
  · apply coherent_iff_counted.mpr
    intro other count hcount
    cases hcount

/-- Two ids that make the file name `a_b`: the second frame is not counted under the id under
which the first one was. -/
theorem not_always_coherent :
    ¬ ∀ (isAlnum : Char → Bool) (calls : List StoreCall),
      Coherent isAlnum (run (step isAlnum) {} calls) := by
  intro h
  have hcoherent := h Char.isAlphanum
    [.writeAt "a/b" 0 [[1]] none, .slotCount "a_b", .writeAt "a/b" 1 [[2]] none] "a_b"
  revert hcoherent
  decide +kernel

end OpenRecall.Analysis.SlotCounts
