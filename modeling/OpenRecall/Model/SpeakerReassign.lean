import OpenRecall.Model.SpeakerRegistry
import OpenRecall.Model.SqliteAtoms
import OpenRecall.Foundation.KeyedUpdate

/-!
# Reassigning a speaker

A manual correction moves everything of one speaker to another: the events and atoms of every
session are relabelled, the confirmed embeddings are moved, and both centroids are recomputed.
-/

set_option autoImplicit false

namespace OpenRecall.Model

open Foundation

/-- The confidence of a manual correction. -/
def correctedConfidence : ℚ := 9 / 10

/-! ## Relabelling rows -/

def CaptureEvent.relabel (fromId toId : String) (e : CaptureEvent) : CaptureEvent :=
  if e.speaker = some fromId then
    { e with
      speaker := some toId
      speakerConfidence := some correctedConfidence
      speakerAssignment := some "confirmed" }
  else e

def MemoryAtom.relabel (fromId toId : String) (a : MemoryAtom) : MemoryAtom :=
  if a.speaker = some fromId then
    { a with
      speaker := some toId
      speakerConfidence := some correctedConfidence
      speakerAssignment := some "confirmed" }
  else a

def AtomRow.relabel (fromId toId : String) (r : AtomRow) : AtomRow :=
  if r.speaker = some fromId then
    { r with
      speaker := some toId
      speakerConfidence := some correctedConfidence
      speakerAssignment := some "confirmed" }
  else r

/-- A row of `capture_events`.
SOURCE: events/store.py:177-189 -/
structure EventRow where
  eventId : String
  sessionId : String
  seq : ℤ
  kind : EventKind
  createdAt : List Char
  text : String
  durationMs : ℤ
  startMs : ℤ
  speaker : Option String
  speakerConfidence : Option ℚ
  speakerAssignment : Option String

def EventRow.relabel (fromId toId : String) (r : EventRow) : EventRow :=
  if r.speaker = some fromId then
    { r with
      speaker := some toId
      speakerConfidence := some correctedConfidence
      speakerAssignment := some "confirmed" }
  else r

/-- The durable event store: its rows in the order of their insertion. -/
structure SqliteEventStore where
  rows : List EventRow := []

/-! ## Relabelling a session -/

namespace InMemoryEventStore

/-- SOURCE: events/store.py:131-140 -/
def relabelSpeaker (fromId toId sessionId : String) (st : InMemoryEventStore) :
    InMemoryEventStore :=
  match st.bySession.get? sessionId with
  | none => st
  | some rows =>
    { st with bySession := st.bySession.set sessionId (rows.map (CaptureEvent.relabel fromId toId)) }

end InMemoryEventStore

namespace SqliteEventStore

/-- SOURCE: events/store.py:274-279 -/
def sessions (st : SqliteEventStore) : List String := (st.rows.map EventRow.sessionId).dedup

/-- SOURCE: events/store.py:281-289 -/
def relabelSpeaker (fromId toId sessionId : String) (st : SqliteEventStore) : SqliteEventStore :=
  ⟨st.rows.map fun r => if r.sessionId = sessionId then r.relabel fromId toId else r⟩

end SqliteEventStore

namespace InMemoryAtomStore

/-- The sessions with atoms; atoms without a session are not counted as one.
SOURCE: memory/store.py:258-260 -/
def sessions (st : InMemoryAtomStore) : List String := st.bySession.keys.reduceOption

/-- SOURCE: memory/store.py:262-271 -/
def relabelSpeaker (fromId toId : String) (sessionId : Option String) (st : InMemoryAtomStore) :
    InMemoryAtomStore :=
  match st.bySession.get? sessionId with
  | none => st
  | some rows =>
    { st with bySession := st.bySession.set sessionId (rows.map (MemoryAtom.relabel fromId toId)) }

end InMemoryAtomStore

namespace SqliteAtomStore

/-- SOURCE: memory/store.py:544-549 -/
def sessions (st : SqliteAtomStore) : List String :=
  (st.rows.map AtomRow.sessionId).dedup.filter (· ≠ sessionless)

/-- SOURCE: memory/store.py:551-559 -/
def relabelSpeaker (fromId toId sessionId : String) (st : SqliteAtomStore) : SqliteAtomStore :=
  ⟨st.rows.map fun r => if r.sessionId = sessionId then r.relabel fromId toId else r⟩

end SqliteAtomStore

/-! ## The stores behind their protocols -/

/-- SOURCE: events/store.py:23-80 -/
inductive EventStore where
  | inMemory (st : InMemoryEventStore)
  | sqlite (st : SqliteEventStore)

namespace EventStore

def sessions : EventStore → List String
  | .inMemory st => st.sessions
  | .sqlite st => st.sessions

def relabelSpeaker (fromId toId sessionId : String) : EventStore → EventStore
  | .inMemory st => .inMemory (st.relabelSpeaker fromId toId sessionId)
  | .sqlite st => .sqlite (st.relabelSpeaker fromId toId sessionId)

/-- The speaker of each event. -/
def attributions : EventStore → List (Option String)
  | .inMemory st => st.bySession.values.flatten.map CaptureEvent.speaker
  | .sqlite st => st.rows.map EventRow.speaker

end EventStore

/-- SOURCE: memory/store.py:105-204 -/
inductive AtomStore where
  | inMemory (st : InMemoryAtomStore)
  | sqlite (st : SqliteAtomStore)

namespace AtomStore

def sessions : AtomStore → List String
  | .inMemory st => st.sessions
  | .sqlite st => st.sessions

def relabelSpeaker (fromId toId sessionId : String) : AtomStore → AtomStore
  | .inMemory st => .inMemory (st.relabelSpeaker fromId toId (some sessionId))
  | .sqlite st => .sqlite (st.relabelSpeaker fromId toId sessionId)

/-- The speaker of each atom. -/
def attributions : AtomStore → List (Option String)
  | .inMemory st => st.all.map MemoryAtom.speaker
  | .sqlite st => st.rows.map AtomRow.speaker

/-- The speaker of each atom that has no session. -/
def sessionlessAttributions : AtomStore → List (Option String)
  | .inMemory st => ((st.bySession.get? none).getD []).map MemoryAtom.speaker
  | .sqlite st => (st.rows.filter (·.sessionId = sessionless)).map AtomRow.speaker

end AtomStore

/-! ## The correction -/

/-- What a correction works on. -/
structure SpeakerMemory where
  registry : SpeakerRegistry
  events : EventStore
  atoms : AtomStore

/-- Move everything of a speaker to another; the second component says whether recomputing a
centroid raised. Every scope means all of the speaker.
SOURCE: memory/speaker_registry.py:440-460 -/
def reassignSpeaker (cfg : SpeakerConfig) (ops : FloatOps) (now fromId toId : String)
    (mem : SpeakerMemory) : SpeakerMemory × Bool :=
  let events := mem.events.sessions.foldl
    (fun st sid => st.relabelSpeaker fromId toId sid) mem.events
  let atoms := mem.atoms.sessions.foldl
    (fun st sid => st.relabelSpeaker fromId toId sid) mem.atoms
  let moved := mem.registry.moveEmbeddings cfg fromId toId
  match moved.recomputeCentroid cfg ops now fromId with
  | none => (⟨moved, events, atoms⟩, true)
  | some registry =>
    match registry.recomputeCentroid cfg ops now toId with
    | none => (⟨registry, events, atoms⟩, true)
    | some registry => (⟨registry, events, atoms⟩, false)

end OpenRecall.Model
