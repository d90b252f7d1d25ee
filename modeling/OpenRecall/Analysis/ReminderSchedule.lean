import OpenRecall.Foundation.IsoOrder
import OpenRecall.Model.Reminders

/-!
# The schedule behind both reminder stores

A schedule is a list of reminders with ids of their own. Its one parameter is how a due time is
found late at a time, which is where the two stores part. Both refine the schedule
(`inMemory_refines`, `sqlite_refines`), so that what is shown for a schedule holds for the runs of
both: no reminder that was fired or done is pending again, and none is fired twice.
-/

set_option autoImplicit false

namespace OpenRecall.Analysis.ReminderSchedule

open Foundation
open OpenRecall.Model (ProactiveMessage)
open OpenRecall.Model.Datetimes
open OpenRecall.Model.Reminders

/-! ## Schedules -/

@[ext] structure Schedule where
  reminders : List Reminder
  nodup : (reminders.map Reminder.atomId).Nodup

/-- How a due time is found late. -/
abbrev Lateness := AwareTime → AwareTime → Bool

namespace Schedule

def empty : Schedule := ⟨[], List.nodup_nil⟩

def ids (s : Schedule) : List String := s.reminders.map Reminder.atomId

/-- A reminder is added unless there is one with its id. -/
def add (r : Reminder) (s : Schedule) : Schedule :=
  if h : r.atomId ∈ s.reminders.map Reminder.atomId then s
  else ⟨s.reminders ++ [r], nodup_map_concat s.nodup h⟩

/-- Change reminders that keep their ids. -/
def update (f : Reminder → Reminder) (hf : ∀ r, (f r).atomId = r.atomId) (s : Schedule) :
    Schedule :=
  ⟨s.reminders.map f, by
    rw [List.map_map, show Reminder.atomId ∘ f = Reminder.atomId from funext hf]
    exact s.nodup⟩

end Schedule

/-- A pending reminder is fired. -/
def fired (firedAt : AwareTime) (r : Reminder) : Reminder :=
  if r.status = .pending then { r with status := .fired, firedAt := some firedAt } else r

def finished (r : Reminder) : Reminder := { r with status := .done }

/-- Change the reminder with an id. -/
def only (atomId : String) (f : Reminder → Reminder) (r : Reminder) : Reminder :=
  if r.atomId = atomId then f r else r

def isDue (late : Lateness) (now : AwareTime) (r : Reminder) : Bool :=
  r.status = .pending ∧ late r.dueAt now

@[simp] theorem atomId_fired (firedAt : AwareTime) (r : Reminder) :
    (fired firedAt r).atomId = r.atomId := by
  unfold fired
  split_ifs <;> rfl

@[simp] theorem atomId_finished (r : Reminder) : (finished r).atomId = r.atomId := rfl

theorem fired_fired (firedAt : AwareTime) (r : Reminder) :
    fired firedAt (fired firedAt r) = fired firedAt r := by
  by_cases h : r.status = .pending <;> simp [fired, h]

theorem atomId_only {f : Reminder → Reminder} (hf : ∀ r, (f r).atomId = r.atomId)
    (atomId : String) (r : Reminder) : (only atomId f r).atomId = r.atomId := by
  unfold only
  split_ifs
  · exact hf r
  · rfl

namespace Schedule

def fire (atomId : String) (firedAt : AwareTime) (s : Schedule) : Schedule :=
  s.update (only atomId (fired firedAt)) (atomId_only (atomId_fired firedAt) atomId)

def finish (atomId : String) (s : Schedule) : Schedule :=
  s.update (only atomId finished) (atomId_only atomId_finished atomId)

def due (late : Lateness) (now : AwareTime) (s : Schedule) : List Reminder :=
  s.reminders.filter (isDue late now)

/-- All that is due is fired. -/
def sweep (late : Lateness) (now : AwareTime) (s : Schedule) : Schedule :=
  s.update (fun r => if isDue late now r then fired now r else r) (by
    intro r
    split_ifs <;> simp)

def step (late : Lateness) (s : Schedule) : ReminderOp → Schedule
  | .add atomId sessionId text dueAt =>
    s.add { atomId, sessionId, text, dueAt := dueAt.asAware }
  | .fire atomId firedAt => s.fire atomId firedAt.asAware
  | .done atomId => s.finish atomId
  | .sweep now => s.sweep late now.asAware

def statusOf (atomId : String) (s : Schedule) : Option ReminderStatus :=
  (s.reminders.find? fun r => r.atomId = atomId).map Reminder.status

theorem mem_ids_of_mem {s : Schedule} {r : Reminder} (h : r ∈ s.reminders) :
    r.atomId ∈ s.reminders.map Reminder.atomId := List.mem_map_of_mem h

/-- A reminder is the only one with its id. -/
theorem eq_of_atomId_eq {s : Schedule} {r r' : Reminder} (h : r ∈ s.reminders)
    (h' : r' ∈ s.reminders) (hid : r.atomId = r'.atomId) : r = r' :=
  List.inj_on_of_nodup_map s.nodup h h' hid

/-- Nothing changes for an id that no reminder has. -/
theorem update_only_of_find?_eq_none {s : Schedule} {atomId : String}
    (h : s.reminders.find? (fun r => r.atomId = atomId) = none) {f : Reminder → Reminder}
    (hf : ∀ r, (only atomId f r).atomId = r.atomId) : s.update (only atomId f) hf = s := by
  apply Schedule.ext
  rw [update]
  conv_rhs => rw [← List.map_id s.reminders]
  apply List.map_congr_left
  intro r hr
  rw [only, if_neg (by simpa using List.find?_eq_none.mp h r hr), id]

/-- Firing one reminder after the other. -/
theorem foldl_fire (firedAt : AwareTime) (due : List Reminder) (s : Schedule) :
    (due.foldl (fun s r => s.fire r.atomId firedAt) s).reminders =
      s.reminders.map fun r =>
        if r.atomId ∈ due.map Reminder.atomId then fired firedAt r else r := by
  induction due generalizing s with
  | nil => simp
  | cons d due ih =>
    rw [List.foldl_cons, ih, fire, update, List.map_map]
    apply List.map_congr_left
    intro r _
    by_cases hhead : r.atomId = d.atomId <;> by_cases htail : r.atomId ∈ due.map Reminder.atomId
    all_goals simp_all [only, fired_fired]

/-- A sweep fires what is due, in any order. -/
theorem foldl_fire_due {late : Lateness} {now : AwareTime} {s : Schedule} {due : List Reminder}
    (h : due.Perm (s.due late now)) :
    due.foldl (fun s r => s.fire r.atomId now) s = s.sweep late now := by
  apply Schedule.ext
  rw [foldl_fire, sweep, update]
  apply List.map_congr_left
  intro r hr
  have hmem : r.atomId ∈ due.map Reminder.atomId ↔ isDue late now r := by
    rw [(h.map _).mem_iff, List.mem_map]
    constructor
    · rintro ⟨r', hr', hid⟩
      obtain ⟨hmem', hdue⟩ := List.mem_filter.mp hr'
      rwa [eq_of_atomId_eq hr hmem' hid.symm]
    · exact fun hdue => ⟨r, List.mem_filter.mpr ⟨hr, hdue⟩, rfl⟩
  simp only [hmem]

end Schedule

/-! ## Refinement -/

/-- The store does what the schedule does, and finds due what the schedule does. -/
structure Refines {σ : Type} (late : Lateness) (store : ReminderStore σ)
    (holds : Schedule → σ → Prop) : Prop where
  add : ∀ {s st}, holds s st → ∀ atomId sessionId text dueAt,
    holds (s.add { atomId, sessionId, text, dueAt := DateTime.asAware dueAt })
      (store.add atomId sessionId text dueAt st).2
  markFired : ∀ {s st}, holds s st → ∀ atomId firedAt,
    holds (s.fire atomId firedAt.asAware) (store.markFired atomId firedAt st)
  markDone : ∀ {s st}, holds s st → ∀ atomId,
    holds (s.finish atomId) (store.markDone atomId st).2
  due : ∀ {s st}, holds s st → ∀ now, ∃ due, store.due now st = some due ∧
    due.Perm (s.due late now.asAware)
  get : ∀ {s st}, holds s st → ∀ atomId,
    store.get atomId st = some (s.reminders.find? fun r => r.atomId = atomId)

namespace Refines

variable {σ : Type} {late : Lateness} {store : ReminderStore σ} {holds : Schedule → σ → Prop}
  {s : Schedule} {st : σ}

theorem foldl_markFired (h : Refines late store holds) (hst : holds s st) (now : DateTime)
    (due : List Reminder) :
    holds (due.foldl (fun s r => s.fire r.atomId now.asAware) s)
      (due.foldl (fun st r => store.markFired r.atomId now st) st) := by
  induction due generalizing s st with
  | nil => exact hst
  | cons r due ih => exact ih (h.markFired hst r.atomId now)

/-- A sweep of the store is one of the schedule, with a message for each reminder that is due. -/
theorem sweepOnce (h : Refines late store holds) (hst : holds s st) (now : DateTime) :
    holds (s.sweep late now.asAware) (store.sweepOnce now st).2 ∧
      (store.sweepOnce now st).1.Perm ((s.due late now.asAware).map messageOf) := by
  obtain ⟨due, hdue, hperm⟩ := h.due hst now
  rw [ReminderStore.sweepOnce, hdue, ← Schedule.foldl_fire_due hperm]
  exact ⟨h.foldl_markFired hst now due, hperm.map _⟩

/-- **A step of the store is one of the schedule.** -/
theorem step (h : Refines late store holds) (hst : holds s st) (op : ReminderOp) :
    holds (s.step late op) (store.step st op) := by
  cases op with
  | add atomId sessionId text dueAt => exact h.add hst atomId sessionId text dueAt
  | fire atomId firedAt => exact h.markFired hst atomId firedAt
  | done atomId => exact h.markDone hst atomId
  | sweep now => exact (h.sweepOnce hst now).1

theorem run (h : Refines late store holds) (hst : holds s st) (ops : List ReminderOp) :
    holds (Foundation.run (Schedule.step late) s ops) (Foundation.run store.step st ops) := by
  induction ops generalizing s st with
  | nil => exact hst
  | cons op ops ih => exact ih (h.step hst op)

theorem status (h : Refines late store holds) (hst : holds s st) (atomId : String) :
    store.status atomId st = s.statusOf atomId := by
  rw [ReminderStore.status, h.get hst, Option.getD_some, Schedule.statusOf]

end Refines

/-! ## The store in memory -/

/-- The dictionary has the reminders in their order. -/
def HoldsMemory (s : Schedule) (st : InMemoryReminderStore) : Prop :=
  st.byId.entries = s.reminders.map fun r => (r.atomId, r)

theorem HoldsMemory.get? {s : Schedule} {st : InMemoryReminderStore} (h : HoldsMemory s st)
    (atomId : String) : st.byId.get? atomId = s.reminders.find? fun r => r.atomId = atomId := by
  rw [Dict.get?, h, List.find?_map, Option.map_map]
  exact Option.map_id'

/-- A reminder that is there is replaced where it stands. -/
theorem HoldsMemory.set {s : Schedule} {st : InMemoryReminderStore} (h : HoldsMemory s st)
    {atomId : String} {r : Reminder} (hr : st.byId.get? atomId = some r) {f : Reminder → Reminder}
    (hf : ∀ r, (f r).atomId = r.atomId) :
    HoldsMemory (s.update (only atomId f) (atomId_only hf atomId))
      ⟨st.byId.set atomId (f r)⟩ := by
  have hmem : atomId ∈ st.byId.keys := by
    rw [← Dict.get?_isSome_iff, hr]
    rfl
  have hentries : (st.byId.set atomId (f r)).entries =
      Dict.replaceEntries atomId (f r) st.byId.entries := by
    rw [Dict.set, dif_pos hmem]
  rw [h.get?] at hr
  obtain ⟨hat, hin⟩ : r.atomId = atomId ∧ r ∈ s.reminders :=
    ⟨by simpa using List.find?_some hr, List.mem_of_find?_eq_some hr⟩
  rw [HoldsMemory, hentries, h, Dict.replaceEntries, Schedule.update, List.map_map, List.map_map]
  apply List.map_congr_left
  intro r' hr'
  by_cases hid : r'.atomId = atomId
  · obtain rfl := Schedule.eq_of_atomId_eq hin hr' (hat.trans hid.symm)
    simp [only, hid, hf]
  · simp [only, hid]

theorem HoldsMemory.values {s : Schedule} {st : InMemoryReminderStore} (h : HoldsMemory s st) :
    st.byId.values = s.reminders := by
  rw [Dict.values, h, List.map_map]
  exact List.map_id _

/-- **The store in memory refines the schedule** that compares instants.
SOURCE: reminders/store.py:50-104 -/
theorem inMemory_refines :
    Refines (fun due now => due.isLE now) inMemoryStore HoldsMemory where
  add {s st} h atomId sessionId text dueAt := by
    show HoldsMemory _ (InMemoryReminderStore.add atomId sessionId text dueAt st).2
    cases hget : st.byId.get? atomId with
    | some r =>
      have hmem : atomId ∈ s.reminders.map Reminder.atomId := by
        rw [h.get?] at hget
        exact List.mem_map.mpr ⟨r, List.mem_of_find?_eq_some hget, by
          simpa using List.find?_some hget⟩
      rw [InMemoryReminderStore.add, hget, Schedule.add, dif_pos hmem]
      exact h
    | none =>
      have hmem : atomId ∉ s.reminders.map Reminder.atomId := by
        rw [h.get?, List.find?_eq_none] at hget
        rintro hmem
        obtain ⟨r, hr, hid⟩ := List.mem_map.mp hmem
        exact hget r hr (by simpa using hid)
      rw [InMemoryReminderStore.add, hget, Schedule.add, dif_neg hmem, HoldsMemory,
        Dict.entries_set_of_get?_none _ hget, h, List.map_append, List.map_singleton]
  markFired {s st} h atomId firedAt := by
    show HoldsMemory (s.fire atomId firedAt.asAware)
      (InMemoryReminderStore.markFired atomId firedAt st)
    cases hget : st.byId.get? atomId with
    | some r =>
      have hset := h.set hget (atomId_fired firedAt.asAware)
      rw [InMemoryReminderStore.markFired, hget]
      by_cases hpending : r.status = .pending
      · rw [fired, if_pos hpending] at hset
        simp only [hpending, if_true]
        exact hset
      · rw [fired, if_neg hpending, Dict.set_eq_self hget] at hset
        simp only [hpending, if_false]
        exact hset
    | none =>
      rw [InMemoryReminderStore.markFired, hget, Schedule.fire,
        Schedule.update_only_of_find?_eq_none (h.get? atomId ▸ hget)]
      exact h
  markDone {s st} h atomId := by
    show HoldsMemory (s.finish atomId) (InMemoryReminderStore.markDone atomId st).2
    cases hget : st.byId.get? atomId with
    | some r =>
      rw [InMemoryReminderStore.markDone, hget]
      exact h.set hget atomId_finished
    | none =>
      rw [InMemoryReminderStore.markDone, hget, Schedule.finish,
        Schedule.update_only_of_find?_eq_none (h.get? atomId ▸ hget)]
      exact h
  due {s st} h now := by
    refine ⟨_, rfl, ?_⟩
    rw [InMemoryReminderStore.due, h.values]
    exact List.perm_insertionSort _ _
  get {s st} h atomId := congrArg some (h.get? atomId)

/-! ## The store in SQLite -/

/-- The row of a reminder. -/
def rowOf (r : Reminder) : ReminderRow where
  atomId := r.atomId
  sessionId := r.sessionId
  text := r.text
  dueAt := r.dueAt.isoformat
  status := r.status
  firedAt := r.firedAt.map AwareTime.isoformat

theorem fromIsoformat_isoformat (t : AwareTime) :
    AwareTime.fromIsoformat t.isoformat = some t := by
  simp [AwareTime.fromIsoformat, AwareTime.isoformat, IsoTime.readIso_isoText t.2, t.2]

theorem isoformat_ne_nil (t : AwareTime) : t.isoformat ≠ [] := by
  intro h
  have hread := fromIsoformat_isoformat t
  rw [h] at hread
  simp [AwareTime.fromIsoformat, IsoTime.readIso, IsoTime.readDate, IsoTime.readDigits] at hread

/-- **A row reads back as its reminder.**
SOURCE: reminders/store.py:110-114 -/
theorem toReminder_rowOf (r : Reminder) : (rowOf r).toReminder = some r := by
  have hfired : ReminderRow.readFiredAt (r.firedAt.map AwareTime.isoformat) = some r.firedAt := by
    cases r.firedAt with
    | none => rfl
    | some t =>
      have hread := fromIsoformat_isoformat t
      rw [Option.map_some]
      cases htext : t.isoformat with
      | nil => exact absurd htext (isoformat_ne_nil t)
      | cons c cs =>
        rw [htext] at hread
        rw [ReminderRow.readFiredAt, hread, Option.map_some]
        simp
  simp [ReminderRow.toReminder, rowOf, fromIsoformat_isoformat, hfired]

theorem mapM_toReminder (rs : List Reminder) :
    (rs.map rowOf).mapM ReminderRow.toReminder = some rs := by
  induction rs with
  | nil => rfl
  | cons r rs ih => simp [List.mapM_cons, toReminder_rowOf, ih]

/-- The table has the rows of the reminders. -/
def HoldsRows (s : Schedule) (st : SqliteReminderStore) : Prop := st.rows = s.reminders.map rowOf

/-- **The store in SQLite refines the schedule** that compares texts.
SOURCE: reminders/store.py:117-192 -/
theorem sqlite_refines :
    Refines (fun due now => due.isoformat ≤ now.isoformat) sqliteStore HoldsRows where
  add {s st} h atomId sessionId text dueAt := by
    show HoldsRows _ (SqliteReminderStore.add atomId sessionId text dueAt st).2
    have hids : st.rows.map ReminderRow.atomId = s.reminders.map Reminder.atomId := by
      rw [h, List.map_map]
      rfl
    rw [SqliteReminderStore.add, hids, Schedule.add]
    by_cases hmem : atomId ∈ s.reminders.map Reminder.atomId
    · rw [if_pos hmem, dif_pos hmem]
      exact h
    · rw [if_neg hmem, dif_neg hmem, HoldsRows, h, List.map_append, List.map_singleton]
      rfl
  markFired {s st} h atomId firedAt := by
    show HoldsRows _ (SqliteReminderStore.markFired atomId firedAt st)
    rw [SqliteReminderStore.markFired, HoldsRows, h, Schedule.fire, Schedule.update, List.map_map,
      List.map_map]
    apply List.map_congr_left
    intro r _
    by_cases hid : r.atomId = atomId <;> by_cases hpending : r.status = .pending
    all_goals simp [rowOf, only, fired, hid, hpending]
  markDone {s st} h atomId := by
    show HoldsRows _ (SqliteReminderStore.markDone atomId st).2
    rw [SqliteReminderStore.markDone, HoldsRows, h, Schedule.finish, Schedule.update, List.map_map,
      List.map_map]
    apply List.map_congr_left
    intro r _
    by_cases hid : r.atomId = atomId <;> simp [rowOf, only, finished, hid]
  due {s st} h now := by
    refine ⟨_, ?_, List.perm_insertionSort (fun a b => a.dueAt.isoformat ≤ b.dueAt.isoformat) _⟩
    show SqliteReminderStore.due now st = _
    have hsort := @List.map_insertionSort _ _ (fun a b : Reminder =>
        a.dueAt.isoformat ≤ b.dueAt.isoformat) (fun a b : ReminderRow => a.dueAt ≤ b.dueAt) _ _
      rowOf (s.due (fun due now => due.isoformat ≤ now.isoformat) now.asAware)
      fun _ _ _ _ => Iff.rfl
    have hrows : st.rows.filter (fun r => r.status = .pending ∧ r.dueAt ≤ now.asAware.isoformat) =
        (s.due (fun due now => due.isoformat ≤ now.isoformat) now.asAware).map rowOf := by
      rw [h, List.filter_map]
      congr 1
      apply List.filter_congr
      intro r _
      simp only [isDue, rowOf, Function.comp_apply, decide_eq_true_eq]
      rfl
    rw [SqliteReminderStore.due, hrows, ← hsort, mapM_toReminder]
  get {s st} h atomId := by
    show SqliteReminderStore.get atomId st = _
    have hrow : st.rows.find? (fun r => r.atomId = atomId) =
        (s.reminders.find? fun r => r.atomId = atomId).map rowOf := by
      rw [h, List.find?_map]
      rfl
    rw [SqliteReminderStore.get, hrow]
    cases s.reminders.find? fun r => r.atomId = atomId with
    | none => rfl
    | some r => exact congrArg (Option.map some) (toReminder_rowOf r)

end OpenRecall.Analysis.ReminderSchedule
