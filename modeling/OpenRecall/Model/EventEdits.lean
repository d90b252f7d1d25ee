import OpenRecall.Foundation.Run
import OpenRecall.Model.EventSearch
import OpenRecall.Model.SpeakerReassign

/-!
# Reading and editing the event stores

The log of captured events is append-only but for two edits: a correction relabels the events of one
speaker in a session, and deleting a segment takes away a range of `seq`. Both stores say how many
events they changed. Their events are read by session in the order of `seq`; the last one is where a
session that is connected again continues.
-/

set_option autoImplicit false

namespace OpenRecall.Model.EventSearch

open Foundation Datetimes

/-- SOURCE: events/store.py:136-138, events/store.py:283-287 -/
def EventOf.relabel {τ : Type} (fromId toId : String) (e : EventOf τ) : EventOf τ :=
  if e.speaker = some fromId then
    { e with
      speaker := some toId
      speakerConfidence := some correctedConfidence
      speakerAssignment := some "confirmed" }
  else e

/-- `first_seq <= e.seq <= last_seq` -/
def EventOf.inRange {τ : Type} (firstSeq lastSeq : ℤ) (e : EventOf τ) : Bool :=
  firstSeq ≤ e.seq ∧ e.seq ≤ lastSeq

/-! ## In memory -/

namespace InMemoryEventStore

/-- SOURCE: events/store.py:118-119 -/
def events (sessionId : String) (st : InMemoryEventStore) : List Event :=
  (st.rows sessionId).insertionSort fun a b => a.seq ≤ b.seq

/-- The first of the events with the highest `seq`.
SOURCE: events/store.py:121-126 -/
def lastEvent (sessionId : String) (st : InMemoryEventStore) : Option Event :=
  (st.rows sessionId).maxOn? EventOf.seq

/-- SOURCE: events/store.py:128-129 -/
def sessions (st : InMemoryEventStore) : List String := st.bySession.keys

/-- SOURCE: events/store.py:131-140 -/
def relabelSpeaker (fromId toId sessionId : String) (st : InMemoryEventStore) :
    ℕ × InMemoryEventStore :=
  match st.bySession.get? sessionId with
  | none => (0, st)
  | some rows =>
    (rows.countP fun e => e.speaker = some fromId,
      { st with bySession := st.bySession.set sessionId (rows.map (EventOf.relabel fromId toId)) })

/-- SOURCE: events/store.py:155-165 -/
def deleteRange (sessionId : String) (firstSeq lastSeq : ℤ) (st : InMemoryEventStore) :
    ℕ × InMemoryEventStore :=
  match st.bySession.get? sessionId with
  | none | some [] => (0, st)
  | some rows =>
    let keep := rows.filter fun e => !e.inRange firstSeq lastSeq
    (rows.length - keep.length,
      { seen := st.seen \ ((rows.filter (EventOf.inRange firstSeq lastSeq)).map
          EventOf.eventId).toFinset
        bySession := st.bySession.set sessionId keep })

end InMemoryEventStore

/-! ## In SQLite -/

namespace SqliteEventStore

variable (parse : List Char → Option Moment)

/-- The rows of a session by `seq`. The index on both columns gives rows with the same `seq` in the
order of their insertion.
SOURCE: events/store.py:195-198, events/store.py:227-232 -/
def sessionRows (sessionId : String) (st : SqliteEventStore) : List EventRow :=
  (st.rows.filter fun r => r.sessionId = sessionId).insertionSort fun a b => a.seq ≤ b.seq

/-- SOURCE: events/store.py:225-248 -/
def events (sessionId : String) (st : SqliteEventStore) : Option (List (EventOf Moment)) :=
  (st.sessionRows sessionId).mapM (toEvent parse)

/-- The index is read from its end.
SOURCE: events/store.py:250-272 -/
def lastEvent (sessionId : String) (st : SqliteEventStore) : Option (Option (EventOf Moment)) :=
  match (st.sessionRows sessionId).getLast? with
  | none => some none
  | some r => (toEvent parse r).map some

/-- SOURCE: events/store.py:274-279 -/
def sessions (st : SqliteEventStore) : List String := (st.rows.map EventOf.sessionId).dedup

/-- SOURCE: events/store.py:281-289 -/
def relabelSpeaker (fromId toId sessionId : String) (st : SqliteEventStore) :
    ℕ × SqliteEventStore :=
  (st.rows.countP fun r => r.sessionId = sessionId ∧ r.speaker = some fromId,
    ⟨st.rows.map fun r => if r.sessionId = sessionId then r.relabel fromId toId else r⟩)

/-- SOURCE: events/store.py:314-322 -/
def deleteRange (sessionId : String) (firstSeq lastSeq : ℤ) (st : SqliteEventStore) :
    ℕ × SqliteEventStore :=
  (st.rows.countP fun r => r.sessionId = sessionId ∧ r.inRange firstSeq lastSeq,
    ⟨st.rows.filter fun r => ¬(r.sessionId = sessionId ∧ r.inRange firstSeq lastSeq)⟩)

end SqliteEventStore

/-! ## Runs -/

inductive EventOp where
  | append (event : Event)
  | relabel (fromId toId sessionId : String)
  | delete (sessionId : String) (firstSeq lastSeq : ℤ)

/-- A store, and what it answered: how many events were stored or changed. -/
structure Answering (σ : Type) where
  store : σ
  answers : List ℕ := []

def Answering.answer {σ : Type} (s : Answering σ) (answered : ℕ × σ) : Answering σ :=
  ⟨answered.2, s.answers ++ [answered.1]⟩

def InMemoryEventStore.step (s : Answering InMemoryEventStore) :
    EventOp → Answering InMemoryEventStore
  | .append event => s.answer ((s.store.append event).1.toNat, (s.store.append event).2)
  | .relabel fromId toId sessionId => s.answer (s.store.relabelSpeaker fromId toId sessionId)
  | .delete sessionId firstSeq lastSeq => s.answer (s.store.deleteRange sessionId firstSeq lastSeq)

def SqliteEventStore.step (s : Answering SqliteEventStore) : EventOp → Answering SqliteEventStore
  | .append event => s.answer ((s.store.append event).1.toNat, (s.store.append event).2)
  | .relabel fromId toId sessionId => s.answer (s.store.relabelSpeaker fromId toId sessionId)
  | .delete sessionId firstSeq lastSeq => s.answer (s.store.deleteRange sessionId firstSeq lastSeq)

end OpenRecall.Model.EventSearch
