import OpenRecall.Model.AudioStore
import OpenRecall.Model.MemoryStores
import OpenRecall.Model.Segments
import OpenRecall.Model.SqliteAtoms

/-!
# Deleting a segment

The request takes a recording out of every store in turn: the events, the atoms, the vectors of
those atoms, the audio, the cached file, the title, and last the entry of the index. Each of the
steps before the last may raise; this is logged, and the next step is taken all the same.
-/

set_option autoImplicit false

namespace OpenRecall.Model

open Foundation

/-- SOURCE: sessions/segment_meta.py:24-29 -/
structure SegmentMeta where
  segmentId : String
  title : Option String := none
  titleSource : Option String := none
  updatedAt : Option Time := none

/-- The stores that a segment is deleted from; the app may lack all of them but the index.
SOURCE: http/routes/segments.py:455-507 -/
structure SegmentStores where
  index : SegmentIndex
  events : Option InMemoryEventStore
  atoms : Option SqliteAtomStore
  memory : Option InMemoryMemoryIndex
  audio : Option AudioStore
  cached : Finset String := ∅
  titles : Option (Dict String SegmentMeta)

/-- How a step of the cascade goes: it works, it raises with nothing changed, or it raises when
its change is made, as a commit does whose deletion the shared connection already shows. -/
inductive StepRun where
  | works
  | failed
  | failedLate
  deriving DecidableEq

/-- How each step of one request goes. -/
structure CascadeRuns where
  events : StepRun := .works
  atoms : StepRun := .works
  vectors : StepRun := .works
  audio : StepRun := .works
  cached : StepRun := .works
  titles : StepRun := .works

/-- SOURCE: http/routes/segments.py:457-508 -/
inductive DeleteAnswer where
  | notFound
  | conflict
  | noContent
  deriving DecidableEq

namespace DeleteAnswer

def status : DeleteAnswer → ℕ
  | notFound => 404
  | conflict => 409
  | noContent => 204

/-- The fields of the answer's JSON body.
SOURCE: http/routes/segments.py:74-75, http/routes/segments.py:460-464 -/
def body : DeleteAnswer → List (String × String)
  | notFound => [("error", "not_found")]
  | conflict => [("error", "conflict"), ("message", "segment is still recording")]
  | noContent => []

end DeleteAnswer

/-- Take one step and say nothing of what it raises: the result is missing then.
SOURCE: http/routes/segments.py:511-523 -/
def safeDelete {σ ρ : Type} (run : StepRun) (fn : σ → Option ρ × σ) (st : σ) : Option ρ × σ :=
  match run with
  | .works => fn st
  | .failed => (none, st)
  | .failedLate => (none, (fn st).2)

/-- A step that does not fail early makes its change. -/
theorem safeDelete_snd {σ ρ : Type} (run : StepRun) (fn : σ → Option ρ × σ) (st : σ) :
    (safeDelete run fn st).2 = if run = .failed then st else (fn st).2 := by
  cases run <;> simp [safeDelete]

namespace SegmentStores

/-- The end of what is deleted.
SOURCE: http/routes/segments.py:466 -/
def deleteEndMs (s : SessionSegment) : ℤ := max s.endMs (s.startMs + 1)

/-- SOURCE: http/routes/segments.py:469-474 -/
def deleteEvents (run : StepRun) (s : SessionSegment) (st : SegmentStores) : SegmentStores :=
  { st with
    events := st.events.map fun events =>
      (safeDelete run (fun events =>
        let (removed, events) := events.deleteRange s.sessionId s.firstSeq s.lastSeq
        (some removed, events)) events).2 }

/-- The atom store's part of the step, with the ids of the atoms. -/
def deleteAtomRange (run : StepRun) (s : SessionSegment) (atoms : SqliteAtomStore) :
    Option (List String) × SqliteAtomStore :=
  safeDelete run (fun atoms =>
    let (deleted, atoms) := atoms.deleteRange s.sessionId s.startMs (deleteEndMs s)
    (some deleted, atoms)) atoms

/-- The first component is the ids of the atoms, and empty when the step raises.
SOURCE: http/routes/segments.py:475-483 -/
def deleteAtoms (run : StepRun) (s : SessionSegment) (st : SegmentStores) :
    List String × SegmentStores :=
  ((st.atoms.bind fun atoms => (deleteAtomRange run s atoms).1).getD [],
    { st with atoms := st.atoms.map fun atoms => (deleteAtomRange run s atoms).2 })

/-- SOURCE: http/routes/segments.py:484-488 -/
def deleteVectors (run : StepRun) (deletedAtoms : List String) (st : SegmentStores) :
    SegmentStores :=
  { st with
    memory := st.memory.map fun memory =>
      if deletedAtoms = [] then memory
      else
        (safeDelete run (fun memory =>
          let (removed, memory) := memory.deleteAtoms deletedAtoms
          (some removed, memory)) memory).2 }

section

variable (isAlnum : Char → Bool)

/-- SOURCE: http/routes/segments.py:491-496 -/
def eraseAudio (run : StepRun) (s : SessionSegment) (st : SegmentStores) : SegmentStores :=
  { st with
    audio := st.audio.map fun audio =>
      (safeDelete run (fun audio =>
        let (erased, audio) := audio.eraseRange isAlnum s.sessionId s.startMs (deleteEndMs s)
        (erased.toOption, audio)) audio).2 }

/-- The file that a segment's audio is cached under.
SOURCE: http/routes/segments.py:497-500 -/
def cachedName (s : SessionSegment) : String :=
  String.ofList (s.id.toList.map fun c => if c = ':' then '_' else c) ++ ".ogg"

/-- SOURCE: http/routes/segments.py:497-501 -/
def unlinkCached (run : StepRun) (s : SessionSegment) (st : SegmentStores) : SegmentStores :=
  { st with
    cached :=
      if st.audio.isNone then st.cached
      else (safeDelete run (fun cached => (some (), cached.erase (cachedName s))) st.cached).2 }

/-- SOURCE: http/routes/segments.py:502-504 -/
def deleteTitle (run : StepRun) (s : SessionSegment) (st : SegmentStores) : SegmentStores :=
  { st with
    titles := st.titles.map fun titles =>
      (safeDelete run (fun titles => (some (titles.get? s.id).isSome, titles.erase s.id))
        titles).2 }

/-- The steps up to the files.
SOURCE: http/routes/segments.py:468-488 -/
def deleteRows (runs : CascadeRuns) (s : SessionSegment) (st : SegmentStores) : SegmentStores :=
  let st := st.deleteEvents runs.events s
  let (deletedAtoms, st) := st.deleteAtoms runs.atoms s
  st.deleteVectors runs.vectors deletedAtoms

/-- The steps up to the entry of the index.
SOURCE: http/routes/segments.py:468-504 -/
def cascade (runs : CascadeRuns) (s : SessionSegment) (st : SegmentStores) : SegmentStores :=
  (((st.deleteRows runs s).eraseAudio isAlnum runs.audio s).unlinkCached runs.cached s).deleteTitle
    runs.titles s

/-- One request to delete a segment.
SOURCE: http/routes/segments.py:438-508 -/
def deleteSegment (segmentId : String) (runs : CascadeRuns) (st : SegmentStores) :
    DeleteAnswer × SegmentStores :=
  match st.index.segments.get? segmentId with
  | none => (.notFound, st)
  | some s =>
    if s.closed then
      let st := st.cascade isAlnum runs s
      (.noContent, { st with index := (st.index.delete s.id).2 })
    else (.conflict, st)

end

end SegmentStores

end OpenRecall.Model
