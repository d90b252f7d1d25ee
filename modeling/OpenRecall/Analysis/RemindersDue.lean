import OpenRecall.Analysis.ReminderSchedule

/-!
# Reminders that fire when they are due

In a run over both stores no reminder is fired twice and none that was fired or done is pending
again. Whether both find the same reminders due is another matter. The durable store compares the
local clocks of a due time and of the present, so that a due time ahead of UTC is found late too
late. The stores find the same due exactly when for each pending reminder the two clocks compare
as the instants do (`firesWhenDue_iff`), as they do when all offsets are one.
-/

set_option autoImplicit false

namespace OpenRecall.Analysis.RemindersDue

open Foundation
open OpenRecall.Model (ProactiveMessage)
open OpenRecall.Model.Paging (instant)
open OpenRecall.Model.Datetimes
open OpenRecall.Model.Reminders
open OpenRecall.Analysis.ReminderSchedule

/-! ## What becomes of a reminder -/

/-- The status of a reminder that was fired or is done. -/
def Settled (status : Option ReminderStatus) : Prop := status = some .fired ∨ status = some .done

theorem statusOf_update (s : Schedule) {f : Reminder → Reminder}
    (hf : ∀ r, (f r).atomId = r.atomId) (atomId : String) :
    (s.update f hf).statusOf atomId =
      (s.reminders.find? fun r => r.atomId = atomId).map fun r => (f r).status := by
  have hids : ((fun r : Reminder => decide (r.atomId = atomId)) ∘ f) =
      fun r => decide (r.atomId = atomId) := by
    funext r
    simp [hf]
  rw [Schedule.statusOf, Schedule.update, List.find?_map, hids, Option.map_map]
  rfl

/-- A change that keeps what is settled. -/
theorem settled_update {s : Schedule} {f : Reminder → Reminder}
    (hf : ∀ r, (f r).atomId = r.atomId)
    (hsettled : ∀ r, Settled (some r.status) → Settled (some (f r).status)) {atomId : String}
    (h : Settled (s.statusOf atomId)) : Settled ((s.update f hf).statusOf atomId) := by
  rw [statusOf_update]
  rw [Schedule.statusOf] at h
  cases hfind : s.reminders.find? fun r => r.atomId = atomId with
  | none => simp [hfind, Settled] at h
  | some r =>
    rw [hfind] at h
    exact hsettled r h

theorem settled_fired {firedAt : AwareTime} {r : Reminder} (h : Settled (some r.status)) :
    Settled (some (fired firedAt r).status) := by
  have hpending : r.status ≠ .pending := by
    rintro hpending
    simp [Settled, hpending] at h
  rwa [fired, if_neg hpending]

/-- **What is settled stays settled.** -/
theorem settled_step (late : Lateness) {s : Schedule} {atomId : String}
    (h : Settled (s.statusOf atomId)) (op : ReminderOp) :
    Settled ((s.step late op).statusOf atomId) := by
  cases op with
  | add newId sessionId text dueAt =>
    rw [Schedule.step, Schedule.add]
    split_ifs with hmem
    · exact h
    · rw [Schedule.statusOf] at h ⊢
      rw [List.find?_append]
      cases hfind : s.reminders.find? fun r => r.atomId = atomId with
      | none => simp [hfind, Settled] at h
      | some r =>
        rw [hfind] at h
        exact h
  | fire firedId firedAt =>
    refine settled_update (atomId_only (atomId_fired firedAt.asAware) firedId) (fun r hr => ?_) h
    unfold only
    split_ifs
    · exact settled_fired hr
    · exact hr
  | done doneId =>
    refine settled_update (atomId_only atomId_finished doneId) (fun r hr => ?_) h
    unfold only
    split_ifs
    · exact .inr rfl
    · exact hr
  | sweep now =>
    rw [Schedule.step, Schedule.sweep]
    refine settled_update _ (fun r hr => ?_) h
    split_ifs
    · exact settled_fired hr
    · exact hr

theorem settled_run (late : Lateness) {s : Schedule} {atomId : String}
    (h : Settled (s.statusOf atomId)) (ops : List ReminderOp) :
    Settled ((run (Schedule.step late) s ops).statusOf atomId) :=
  run_invariant (I := fun s : Schedule => Settled (s.statusOf atomId))
    (fun _ op h => settled_step late h op) h ops

/-- What is due is pending, and settled by the sweep. -/
theorem statusOf_due {late : Lateness} {now : AwareTime} {s : Schedule} {r : Reminder}
    (h : r ∈ s.due late now) :
    s.statusOf r.atomId = some .pending ∧ Settled ((s.sweep late now).statusOf r.atomId) := by
  obtain ⟨hmem, hdue⟩ := List.mem_filter.mp h
  have hpending : r.status = .pending := by
    rw [isDue, decide_eq_true_eq] at hdue
    exact hdue.1
  have hfind : s.reminders.find? (fun r' => r'.atomId = r.atomId) = some r := by
    cases hfind : s.reminders.find? fun r' => r'.atomId = r.atomId with
    | none => simpa using List.find?_eq_none.mp hfind r hmem
    | some r' =>
      have hid : r'.atomId = r.atomId := by simpa using List.find?_some hfind
      rw [Schedule.eq_of_atomId_eq (List.mem_of_find?_eq_some hfind) hmem hid]
  refine ⟨by rw [Schedule.statusOf, hfind, Option.map_some, hpending], ?_⟩
  rw [Schedule.sweep, statusOf_update, hfind, Option.map_some, if_pos hdue, fired, if_pos hpending]
  exact .inl rfl

/-- The ids of the reminders that a step sends messages for. -/
def sentIds (late : Lateness) (s : Schedule) : ReminderOp → List String
  | .sweep now => (s.due late now.asAware).map Reminder.atomId
  | _ => []

theorem nodup_sentIds (late : Lateness) (s : Schedule) (op : ReminderOp) :
    (sentIds late s op).Nodup := by
  cases op with
  | sweep now => exact s.nodup.sublist (List.filter_sublist.map _)
  | add => exact List.nodup_nil
  | fire => exact List.nodup_nil
  | done => exact List.nodup_nil

theorem statusOf_sentIds {late : Lateness} {s : Schedule} {op : ReminderOp} {atomId : String}
    (h : atomId ∈ sentIds late s op) :
    s.statusOf atomId = some .pending ∧ Settled ((s.step late op).statusOf atomId) := by
  cases op with
  | sweep now =>
    obtain ⟨r, hr, rfl⟩ := List.mem_map.mp h
    exact statusOf_due hr
  | add => simp [sentIds] at h
  | fire => simp [sentIds] at h
  | done => simp [sentIds] at h

/-- The ids of the reminders that a run sends messages for. -/
def runIds (late : Lateness) : Schedule → List ReminderOp → List String
  | _, [] => []
  | s, op :: ops => sentIds late s op ++ runIds late (s.step late op) ops

theorem not_settled_of_mem_runIds {late : Lateness} {s : Schedule} {ops : List ReminderOp}
    {atomId : String} (h : atomId ∈ runIds late s ops) : ¬ Settled (s.statusOf atomId) := by
  induction ops generalizing s with
  | nil => simp [runIds] at h
  | cons op ops ih =>
    rcases List.mem_append.mp h with h | h
    · rw [(statusOf_sentIds h).1]
      simp [Settled]
    · exact fun hsettled => ih h (settled_step late hsettled op)

/-- **No reminder is sent twice.** -/
theorem nodup_runIds (late : Lateness) (s : Schedule) (ops : List ReminderOp) :
    (runIds late s ops).Nodup := by
  induction ops generalizing s with
  | nil => exact List.nodup_nil
  | cons op ops ih =>
    rw [runIds, List.nodup_append]
    refine ⟨nodup_sentIds late s op, ih _, ?_⟩
    rintro a ha b hb rfl
    exact not_settled_of_mem_runIds hb (statusOf_sentIds ha).2

/-! ## Runs of a store -/

section Store

variable {σ : Type} {late : Lateness} {store : ReminderStore σ} {holds : Schedule → σ → Prop}
  {s : Schedule} {st : σ}

/-- The step fires the reminder. -/
def Fires (store : ReminderStore σ) (st : σ) (op : ReminderOp) (atomId : String) : Prop :=
  store.status atomId st = some .pending ∧ store.status atomId (store.step st op) = some .fired

/-- The messages of a run. -/
def sent (store : ReminderStore σ) : σ → List ReminderOp → List ProactiveMessage
  | _, [] => []
  | st, op :: ops => store.messages st op ++ sent store (store.step st op) ops

/-- What a run never does to a reminder: fire it twice, send a second message for it, or have it
pending again after it was fired or done. -/
structure FiresOnce (store : ReminderStore σ) (st : σ) (ops : List ReminderOp) : Prop where
  once : ∀ atomId xs op ys op' zs, ops = xs ++ op :: (ys ++ op' :: zs) →
    Fires store (run store.step st xs) op atomId →
    ¬ Fires store (run store.step st (xs ++ op :: ys)) op' atomId
  message : ((sent store st ops).map ProactiveMessage.requestId).Nodup
  settled : ∀ atomId xs ys, ops = xs ++ ys →
    Settled (store.status atomId (run store.step st xs)) →
    Settled (store.status atomId (run store.step st ops))

theorem sent_perm (h : Refines late store holds) (hst : holds s st) (ops : List ReminderOp) :
    ((sent store st ops).map ProactiveMessage.requestId).Perm
      ((runIds late s ops).map fun atomId => "reminder-" ++ atomId) := by
  induction ops generalizing s st with
  | nil => exact List.Perm.nil
  | cons op ops ih =>
    rw [sent, runIds, List.map_append, List.map_append]
    refine List.Perm.append ?_ (ih (h.step hst op))
    cases op with
    | sweep now =>
      have hperm := (h.sweepOnce hst now).2.map ProactiveMessage.requestId
      rw [List.map_map] at hperm
      rw [sentIds, List.map_map]
      exact hperm
    | add => exact List.Perm.nil
    | fire => exact List.Perm.nil
    | done => exact List.Perm.nil

/-- **A store that refines a schedule fires each reminder at most once**, however it finds due
times late. -/
theorem firesOnce (h : Refines late store holds) (hst : holds s st) (ops : List ReminderOp) :
    FiresOnce store st ops where
  once atomId xs op ys op' zs _ hfires hagain := by
    have hafter := h.run hst (xs ++ [op])
    have hsettled : Settled ((run (Schedule.step late) s (xs ++ [op])).statusOf atomId) := by
      rw [← h.status hafter, run_append, run_cons, run_nil]
      exact .inl hfires.2
    have hlater := settled_run late hsettled ys
    rw [← run_append, List.append_assoc, List.singleton_append,
      ← h.status (h.run hst (xs ++ op :: ys)), hagain.1] at hlater
    simp [Settled] at hlater
  message := by
    rw [(sent_perm h hst ops).nodup_iff]
    exact (nodup_runIds late s ops).map fun a b hab => by simpa using hab
  settled atomId xs ys hops hsettled := by
    rw [h.status (h.run hst xs)] at hsettled
    rw [h.status (h.run hst ops), hops, run_append]
    exact settled_run late hsettled ys

end Store

/-! ## Both stores -/

/-- Both stores, which are given the same. -/
structure Stores where
  memory : InMemoryReminderStore := {}
  sqlite : SqliteReminderStore := {}

def Stores.step (s : Stores) (op : ReminderOp) : Stores where
  memory := inMemoryStore.step s.memory op
  sqlite := sqliteStore.step s.sqlite op

/-- The stores find the same reminders due. -/
def SameDue (s : Stores) : ReminderOp → Prop
  | .sweep now => ∃ due, s.sqlite.due now = some due ∧ ∀ r, r ∈ due ↔ r ∈ s.memory.due now
  | _ => True

/-- In both stores the reminders of a run fire when they are due, and once. -/
structure FiresWhenDue (ops : List ReminderOp) : Prop where
  due : EveryStep Stores.step SameDue {} ops
  memory : FiresOnce inMemoryStore {} ops
  sqlite : FiresOnce sqliteStore {} ops

/-- The local clocks of a due time and of the present compare as their instants do. Equal clocks
have equal offsets, or one of them is behind UTC. -/
def ComparesAlike (due now : AwareTime) : Prop :=
  if due.1.clock = now.1.clock then
    due.1.offset = now.1.offset ∨ due.1.offset < 0 ∨ now.1.offset < 0
  else due.1.clock < now.1.clock ↔ instant due.1 ≤ instant now.1

/-- The clocks of all that is pending compare with that of the sweep as the instants do. -/
def Alike (s : Stores) : ReminderOp → Prop
  | .sweep now =>
    ∀ r ∈ s.memory.byId.values, r.status = .pending → ComparesAlike r.dueAt now.asAware
  | _ => True

/-- The due time and the present compare alike when their texts compare as they do.
SOURCE: reminders/store.py:64-74, reminders/store.py:148-155 -/
theorem comparesAlike_iff (due now : AwareTime) :
    ComparesAlike due now ↔ (due.isoformat ≤ now.isoformat ↔ due.isLE now) := by
  have htext : due.isoformat ≤ now.isoformat ↔ ¬ now.isoformat < due.isoformat := not_lt.symm
  have hclock := IsoTime.isoText_lt_iff now.2 due.2
  rw [IsoTime.offsetText_lt_iff now.2.offset due.2.offset] at hclock
  rw [ComparesAlike, AwareTime.isLE, decide_eq_true_eq, htext, AwareTime.isoformat,
    AwareTime.isoformat, hclock, instant, instant]
  grind

/-- How the store in memory finds due times late. -/
abbrev byInstant : Lateness := fun due now => due.isLE now

/-- How the store in SQLite does. -/
abbrev byText : Lateness := fun due now => due.isoformat ≤ now.isoformat

/-- What is pending is due by its text when it is by its instant. -/
theorem isDue_byText {r : Reminder} {now : AwareTime}
    (h : r.status = .pending → ComparesAlike r.dueAt now) :
    isDue byText now r = isDue byInstant now r := by
  by_cases hpending : r.status = .pending
  · have hsame := (comparesAlike_iff r.dueAt now).mp (h hpending)
    simp [isDue, hpending, hsame]
  · simp [isDue, hpending]

/-- The stores hold the same schedule. -/
def Twins (s : Stores) : Prop := ∃ sched, HoldsMemory sched s.memory ∧ HoldsRows sched s.sqlite

theorem twins_empty : Twins {} := ⟨.empty, rfl, rfl⟩

/-- **The stores find the same due exactly when the clocks compare alike.** -/
theorem Twins.sameDue_iff {s : Stores} (h : Twins s) (op : ReminderOp) :
    Alike s op ↔ SameDue s op := by
  obtain ⟨sched, hmemory, hrows⟩ := h
  cases op with
  | add => exact Iff.rfl
  | fire => exact Iff.rfl
  | done => exact Iff.rfl
  | sweep now =>
    obtain ⟨dueM, hdueM, hpermM⟩ := inMemory_refines.due hmemory now
    obtain ⟨dueS, hdueS, hpermS⟩ := sqlite_refines.due hrows now
    have hM : s.memory.due now = dueM := Option.some.inj hdueM
    have hS : s.sqlite.due now = some dueS := hdueS
    rw [Alike, SameDue, hmemory.values, hM, hS]
    constructor
    · intro halike
      refine ⟨dueS, rfl, fun r => ?_⟩
      rw [hpermM.mem_iff, hpermS.mem_iff, Schedule.due, Schedule.due, List.mem_filter,
        List.mem_filter]
      exact and_congr_right fun hr => by rw [isDue_byText (halike r hr)]
    · rintro ⟨due, hdue, hsame⟩ r hr hpending
      obtain rfl := Option.some.inj hdue
      have hiff := hsame r
      rw [hpermM.mem_iff, hpermS.mem_iff, Schedule.due, Schedule.due, List.mem_filter,
        List.mem_filter] at hiff
      rw [comparesAlike_iff]
      simpa [hr, isDue, hpending] using hiff

theorem step_byText {sched : Schedule} {op : ReminderOp}
    (h : ∀ now, op = .sweep now →
      ∀ r ∈ sched.reminders, r.status = .pending → ComparesAlike r.dueAt now.asAware) :
    sched.step byText op = sched.step byInstant op := by
  cases op with
  | add => rw [Schedule.step, Schedule.step]
  | fire => rw [Schedule.step, Schedule.step]
  | done => rw [Schedule.step, Schedule.step]
  | sweep now =>
    rw [Schedule.step, Schedule.step, Schedule.sweep, Schedule.sweep]
    apply Schedule.ext
    rw [Schedule.update, Schedule.update]
    apply List.map_congr_left
    intro r hr
    rw [isDue_byText (h now rfl r hr)]

/-- What the stores are given keeps them twins while the clocks compare alike. -/
theorem Twins.step {s : Stores} (h : Twins s) {op : ReminderOp} (halike : Alike s op) :
    Twins (s.step op) := by
  obtain ⟨sched, hmemory, hrows⟩ := h
  have hsame : sched.step byText op = sched.step byInstant op := by
    apply step_byText
    rintro now rfl
    rw [Alike, hmemory.values] at halike
    exact halike
  refine ⟨sched.step byInstant op, inMemory_refines.step hmemory op, ?_⟩
  rw [← hsame]
  exact sqlite_refines.step hrows op

theorem everyStep_sameDue_iff (ops : List ReminderOp) :
    EveryStep Stores.step Alike {} ops ↔ EveryStep Stores.step SameDue {} ops :=
  everyStep_iff_of_invariant (A := fun _ _ => True) (fun _ _ h _ halike => h.step halike)
    (fun _ op h _ => h.sameDue_iff op) twins_empty (everyStep_true _ ops)

theorem firesOnce_inMemory (ops : List ReminderOp) : FiresOnce inMemoryStore {} ops :=
  firesOnce inMemory_refines (show HoldsMemory .empty {} from rfl) ops

theorem firesOnce_sqlite (ops : List ReminderOp) : FiresOnce sqliteStore {} ops :=
  firesOnce sqlite_refines (show HoldsRows .empty {} from rfl) ops

/-- **When reminders fire as they should in both stores.** They always fire once. The stores find
the same reminders due in every sweep of a run if and only if in every sweep the local clocks of
all that is pending compare with that of the present as the instants do.
SOURCE: reminders/store.py:50-173 -/
theorem firesWhenDue_iff (ops : List ReminderOp) :
    FiresWhenDue ops ↔ EveryStep Stores.step Alike {} ops := by
  rw [everyStep_sameDue_iff]
  exact ⟨fun h => h.due, fun h => ⟨h, firesOnce_inMemory ops, firesOnce_sqlite ops⟩⟩

/-! ## One offset -/

/-- The due times and the times of the sweeps have the same offset. -/
def AtOffset (offset : ℤ) : ReminderOp → Prop
  | .add _ _ _ dueAt => dueAt.asAware.1.offset = offset
  | .sweep now => now.asAware.1.offset = offset
  | _ => True

/-- Between equal offsets the clocks compare as the instants do. -/
theorem comparesAlike_of_offset_eq {due now : AwareTime} (h : due.1.offset = now.1.offset) :
    ComparesAlike due now := by
  rw [ComparesAlike]
  split_ifs with hclock
  · exact .inl h
  · rw [instant, instant, h]
    grind

theorem dueAt_fired (firedAt : AwareTime) (r : Reminder) : (fired firedAt r).dueAt = r.dueAt := by
  unfold fired
  split_ifs <;> rfl

/-- No step changes when a reminder is due. -/
theorem offset_step {late : Lateness} {offset : ℤ} {s : Schedule}
    (h : ∀ r ∈ s.reminders, r.dueAt.1.offset = offset) {op : ReminderOp} (hop : AtOffset offset op) :
    ∀ r ∈ (s.step late op).reminders, r.dueAt.1.offset = offset := by
  have hupdate : ∀ (f : Reminder → Reminder), (∀ r, (f r).dueAt = r.dueAt) →
      ∀ r ∈ s.reminders.map f, r.dueAt.1.offset = offset := by
    intro f hf r hr
    obtain ⟨r', hr', rfl⟩ := List.mem_map.mp hr
    rw [hf]
    exact h r' hr'
  have honly : ∀ (atomId : String) (f : Reminder → Reminder), (∀ r, (f r).dueAt = r.dueAt) →
      ∀ r, (only atomId f r).dueAt = r.dueAt := by
    intro atomId f hf r
    unfold only
    split_ifs
    · exact hf r
    · rfl
  cases op with
  | add atomId sessionId text dueAt =>
    rw [Schedule.step, Schedule.add]
    split_ifs
    · exact h
    · intro r hr
      rcases List.mem_append.mp hr with hr | hr
      · exact h r hr
      · rw [List.mem_singleton.mp hr]
        exact hop
  | fire atomId firedAt => exact hupdate _ (honly atomId _ (dueAt_fired _))
  | done atomId => exact hupdate _ (honly atomId _ fun _ => rfl)
  | sweep now =>
    refine hupdate _ fun r => ?_
    split_ifs
    · exact dueAt_fired _ r
    · rfl

/-- **With one offset reminders fire when they are due** in both stores. -/
theorem firesWhenDue_of_offset {offset : ℤ} {ops : List ReminderOp}
    (h : ∀ op ∈ ops, AtOffset offset op) : FiresWhenDue ops := by
  have halike : EveryStep Stores.step Alike {} ops := by
    refine EveryStep.of_invariant (I := fun s : Stores => ∃ sched, HoldsMemory sched s.memory ∧
      ∀ r ∈ sched.reminders, r.dueAt.1.offset = offset) ?_ ?_
      ⟨.empty, rfl, by simp [Schedule.empty]⟩ (everyStep_of_forall _ h)
    · rintro s op ⟨sched, hmemory, hoffset⟩ hop
      exact ⟨_, inMemory_refines.step hmemory op, offset_step hoffset hop⟩
    · rintro s op ⟨sched, hmemory, hoffset⟩ hop
      cases op with
      | add => trivial
      | fire => trivial
      | done => trivial
      | sweep now =>
        rw [Alike, hmemory.values]
        exact fun r hr _ => comparesAlike_of_offset_eq ((hoffset r hr).trans hop.symm)
  exact ⟨(everyStep_sameDue_iff ops).mp halike, firesOnce_inMemory ops, firesOnce_sqlite ops⟩

/-! ## A reminder that is late -/

theorem valid_newYear {hour ahead : ℕ} (hhour : hour < 24) (hahead : ahead < 24) :
    IsoTime.Stamp.Valid ⟨739616 * IsoTime.dayUs + hour * 3600000000,
      (some ((ahead * 3600000000 : ℕ) : ℤ)).getD 0⟩ := by
  constructor
  · simp only [IsoTime.dayUs]
    omega
  · simp only [Option.getD_some, IsoTime.dayUs]
    omega

/-- 1 January 2026 at an hour of a local clock so many hours ahead of UTC. -/
def newYear (hour ahead : ℕ) (hhour : hour < 24) (hahead : ahead < 24) : DateTime where
  stamp := ⟨739616 * IsoTime.dayUs + hour * 3600000000, some (ahead * 3600000000 : ℕ)⟩
  valid := valid_newYear hhour hahead

/-- The one reminder after it was added. -/
theorem values_step_add (atomId sessionId text : String) (dueAt : DateTime) :
    (Stores.step {} (.add atomId sessionId text dueAt)).memory.byId.values =
      [{ atomId, sessionId, text, dueAt := dueAt.asAware }] :=
  HoldsMemory.values (inMemory_refines.add (show HoldsMemory .empty {} from rfl) ..)

/-- A reminder due at 10:00+02:00 is due in memory at 09:00+00:00, but not in SQLite. -/
theorem not_firesWhenDue :
    ¬ ∀ ops, FiresWhenDue ops := by
  intro h
  have hdue := (h [.add "a1" "s1" "call mom" (newYear 10 2 (by decide) (by decide)),
    .sweep (newYear 9 0 (by decide) (by decide))]).due
  rw [← everyStep_sameDue_iff] at hdue
  have halike := hdue.2.1
  rw [Alike, values_step_add] at halike
  have hlate := halike _ (List.mem_singleton_self _) rfl
  simp [ComparesAlike, DateTime.asAware, newYear, instant, IsoTime.dayUs] at hlate

end OpenRecall.Analysis.RemindersDue
