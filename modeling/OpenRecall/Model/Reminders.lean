import OpenRecall.Foundation.Run
import OpenRecall.Foundation.Dict
import OpenRecall.Model.ProactiveOutbox
import OpenRecall.Model.Datetimes

/-!
# The schedule of reminders

A reminder has a due time and is pending until the sweeper fires it or the wearer is done with it.
The store in memory compares due times as instants. The durable store keeps them as ISO texts, each
with the offset it came with, and its query compares these texts. The sweeper works on either store
through the protocol they share.
-/

set_option autoImplicit false

namespace OpenRecall.Model.Reminders

open Foundation Datetimes

/-! ## Reminders -/

inductive ReminderStatus where
  | pending
  | fired
  | done
  deriving DecidableEq

/-- SOURCE: reminders/store.py:25-33 -/
structure Reminder where
  atomId : String
  sessionId : String
  text : String
  dueAt : AwareTime
  status : ReminderStatus := .pending
  firedAt : Option AwareTime := none
  deriving DecidableEq

/-- What the two stores have in common; `due` and `get` have no result when a row of the store
cannot be read, which raises.
SOURCE: reminders/store.py:36-43 -/
structure ReminderStore (σ : Type) where
  add : String → String → String → DateTime → σ → Bool × σ
  due : DateTime → σ → Option (List Reminder)
  markFired : String → DateTime → σ → σ
  markDone : String → σ → Bool × σ
  get : String → σ → Option (Option Reminder)

/-! ## In memory -/

/-- SOURCE: reminders/store.py:50-53 -/
structure InMemoryReminderStore where
  byId : Dict String Reminder := .empty

namespace InMemoryReminderStore

/-- SOURCE: reminders/store.py:55-62 -/
def add (atomId sessionId text : String) (dueAt : DateTime) (st : InMemoryReminderStore) :
    Bool × InMemoryReminderStore :=
  match st.byId.get? atomId with
  | some _ => (false, st)
  | none => (true, ⟨st.byId.set atomId { atomId, sessionId, text, dueAt := dueAt.asAware }⟩)

/-- SOURCE: reminders/store.py:64-74 -/
def due (now : DateTime) (st : InMemoryReminderStore) : List Reminder :=
  (st.byId.values.filter fun r => r.status = .pending ∧ r.dueAt.isLE now.asAware).insertionSort
    fun a b => a.dueAt.isLE b.dueAt

/-- SOURCE: reminders/store.py:76-83 -/
def markFired (atomId : String) (firedAt : DateTime) (st : InMemoryReminderStore) :
    InMemoryReminderStore :=
  match st.byId.get? atomId with
  | some r =>
    if r.status = .pending then
      ⟨st.byId.set atomId { r with status := .fired, firedAt := some firedAt.asAware }⟩
    else st
  | none => st

/-- SOURCE: reminders/store.py:85-91 -/
def markDone (atomId : String) (st : InMemoryReminderStore) : Bool × InMemoryReminderStore :=
  match st.byId.get? atomId with
  | some r => (true, ⟨st.byId.set atomId { r with status := .done }⟩)
  | none => (false, st)

/-- SOURCE: reminders/store.py:102-104 -/
def get (atomId : String) (st : InMemoryReminderStore) : Option Reminder := st.byId.get? atomId

end InMemoryReminderStore

def inMemoryStore : ReminderStore InMemoryReminderStore where
  add := InMemoryReminderStore.add
  due now st := some (st.due now)
  markFired := InMemoryReminderStore.markFired
  markDone := InMemoryReminderStore.markDone
  get atomId st := some (st.get atomId)

/-! ## In SQLite -/

/-- A row of `reminders`.
SOURCE: reminders/store.py:118-135 -/
structure ReminderRow where
  atomId : String
  sessionId : String
  text : String
  dueAt : List Char
  status : ReminderStatus := .pending
  firedAt : Option (List Char) := none

namespace ReminderRow

/-- A column that may be NULL or empty, or has to be a timestamp. -/
def readFiredAt : Option (List Char) → Option (Option AwareTime)
  | none => some none
  | some [] => some none
  | some cs => (AwareTime.fromIsoformat cs).map some

/-- SOURCE: reminders/store.py:110-114 -/
def toReminder (r : ReminderRow) : Option Reminder := do
  let dueAt ← AwareTime.fromIsoformat r.dueAt
  let firedAt ← readFiredAt r.firedAt
  return { atomId := r.atomId, sessionId := r.sessionId, text := r.text, dueAt := dueAt,
           status := r.status, firedAt := firedAt }

end ReminderRow

/-- The rows in the order of their insertion. -/
structure SqliteReminderStore where
  rows : List ReminderRow := []

namespace SqliteReminderStore

/-- SOURCE: reminders/store.py:137-146 -/
def add (atomId sessionId text : String) (dueAt : DateTime) (st : SqliteReminderStore) :
    Bool × SqliteReminderStore :=
  if atomId ∈ st.rows.map ReminderRow.atomId then (false, st)
  else (true, ⟨st.rows ++ [{ atomId, sessionId, text, dueAt := dueAt.asAware.isoformat }]⟩)

/-- SOURCE: reminders/store.py:148-155 -/
def due (now : DateTime) (st : SqliteReminderStore) : Option (List Reminder) :=
  ((st.rows.filter fun r => r.status = .pending ∧ r.dueAt ≤ now.asAware.isoformat).insertionSort
    fun a b => a.dueAt ≤ b.dueAt).mapM ReminderRow.toReminder

/-- SOURCE: reminders/store.py:157-164 -/
def markFired (atomId : String) (firedAt : DateTime) (st : SqliteReminderStore) :
    SqliteReminderStore :=
  ⟨st.rows.map fun r =>
    if r.atomId = atomId ∧ r.status = .pending then
      { r with status := .fired, firedAt := some firedAt.asAware.isoformat }
    else r⟩

/-- SOURCE: reminders/store.py:166-173 -/
def markDone (atomId : String) (st : SqliteReminderStore) : Bool × SqliteReminderStore :=
  (st.rows.countP (fun r => r.atomId = atomId) = 1,
    ⟨st.rows.map fun r => if r.atomId = atomId then { r with status := .done } else r⟩)

/-- SOURCE: reminders/store.py:187-192 -/
def get (atomId : String) (st : SqliteReminderStore) : Option (Option Reminder) :=
  match st.rows.find? fun r => r.atomId = atomId with
  | some r => r.toReminder.map some
  | none => some none

end SqliteReminderStore

def sqliteStore : ReminderStore SqliteReminderStore where
  add := SqliteReminderStore.add
  due := SqliteReminderStore.due
  markFired := SqliteReminderStore.markFired
  markDone := SqliteReminderStore.markDone
  get := SqliteReminderStore.get

/-! ## The sweeper -/

/-- SOURCE: reminders/sweeper.py:57-66 -/
def messageOf (r : Reminder) : ProactiveMessage where
  sessionId := r.sessionId
  requestId := "reminder-" ++ r.atomId
  text := "⏰ Reminder: " ++ r.text

inductive ReminderOp where
  | add (atomId sessionId text : String) (dueAt : DateTime)
  | fire (atomId : String) (firedAt : DateTime)
  | done (atomId : String)
  | sweep (now : DateTime)

namespace ReminderStore

variable {σ : Type} (store : ReminderStore σ)

/-- What the outbox is given, and the store after it. A sweep that raises has changed nothing.
SOURCE: reminders/sweeper.py:47-66, reminders/sweeper.py:84-104 -/
def sweepOnce (now : DateTime) (st : σ) : List ProactiveMessage × σ :=
  match store.due now st with
  | none => ([], st)
  | some due =>
    (due.map messageOf, due.foldl (fun st r => store.markFired r.atomId now st) st)

def step (st : σ) : ReminderOp → σ
  | .add atomId sessionId text dueAt => (store.add atomId sessionId text dueAt st).2
  | .fire atomId firedAt => store.markFired atomId firedAt st
  | .done atomId => (store.markDone atomId st).2
  | .sweep now => (store.sweepOnce now st).2

/-- The messages of a step. -/
def messages (st : σ) : ReminderOp → List ProactiveMessage
  | .sweep now => (store.sweepOnce now st).1
  | _ => []

/-- The status of a reminder that there is. -/
def status (atomId : String) (st : σ) : Option ReminderStatus :=
  ((store.get atomId st).getD none).map Reminder.status

end ReminderStore

end OpenRecall.Model.Reminders
