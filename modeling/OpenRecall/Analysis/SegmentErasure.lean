import OpenRecall.Foundation.Run
import OpenRecall.Model.SegmentDeletion

/-!
# What a segment's deletion leaves behind

A deletion should take everything that came from the segment's events and nothing else, and a
retry should finish what an interrupted deletion missed. The first request drops the entry of the
index whatever its steps did, and says that it succeeded; every retry finds no segment. So all
depends on that one request: on which of its steps fail with something to delete, and on how far
the rows and slots it addresses, by range, are those of the segment.
-/

set_option autoImplicit false

namespace OpenRecall.Analysis.SegmentErasure

open Foundation Model SegmentStores

/-! ## What the stores hold of a segment -/

/-- The events of a segment. -/
def eventsOf (t : SessionSegment) (st : SegmentStores) : List CaptureEvent :=
  ((st.events.map fun events => events.rows t.sessionId).getD []).filter fun e =>
    t.firstSeq ≤ e.seq ∧ e.seq ≤ t.lastSeq

/-- The stored atoms. -/
def atomRows (st : SegmentStores) : List AtomRow := (st.atoms.map SqliteAtomStore.rows).getD []

/-- The atoms of the vector index. -/
def vectorIds (st : SegmentStores) : List String :=
  (st.memory.map InMemoryMemoryIndex.ids).getD []

/-- What a session's audio holds between two times. -/
def audioBetween (isAlnum : Char → Bool) (sessionId : String) (startMs endMs : ℤ)
    (st : SegmentStores) : List Bytes :=
  (st.audio.map fun audio => audio.readRange isAlnum sessionId startMs endMs).getD []

/-- The audio of a segment. -/
def audioOf (isAlnum : Char → Bool) (t : SessionSegment) (st : SegmentStores) : List Bytes :=
  audioBetween isAlnum t.sessionId t.startMs t.endMs st

/-- An atom was made from an event of the segment; `made` tells which events each atom was made
from, by their ids. -/
def Derived (made : String → String → Prop) (s : SessionSegment) (st : SegmentStores)
    (atomId : String) : Prop :=
  ∃ e ∈ eventsOf s st, made atomId e.eventId

/-- Nothing that came from the segment is left. -/
structure Complete (isAlnum : Char → Bool) (made : String → String → Prop) (s : SessionSegment)
    (st st' : SegmentStores) : Prop where
  events : eventsOf s st' = []
  atoms : ∀ row ∈ atomRows st', ¬ Derived made s st row.atomId
  vectors : ∀ id ∈ vectorIds st', ¬ Derived made s st id
  audio : ∀ frame ∈ audioOf isAlnum s st', frame = []

/-- Nothing else is touched. -/
structure Confined (isAlnum : Char → Bool) (made : String → String → Prop) (s : SessionSegment)
    (st st' : SegmentStores) : Prop where
  events : ∀ id t, st.index.segments.get? id = some t → id ≠ s.id →
    eventsOf t st' = eventsOf t st
  audio : ∀ id t, st.index.segments.get? id = some t → id ≠ s.id →
    audioOf isAlnum t st' = audioOf isAlnum t st
  atoms : ∀ row, ¬ Derived made s st row.atomId → (row ∈ atomRows st' ↔ row ∈ atomRows st)

/-- The stores after some requests to delete the segment. -/
def afterRequests (isAlnum : Char → Bool) (s : SessionSegment) (requests : List CascadeRuns)
    (st : SegmentStores) : SegmentStores :=
  run (fun st runs => (st.deleteSegment isAlnum s.id runs).2) st requests

/-- The requests keep the promise of a deletion: one that is answered with success leaves nothing
of the segment and everything else, and as long as something is left none is answered 404. -/
structure Honoured (isAlnum : Char → Bool) (made : String → String → Prop) (s : SessionSegment)
    (st : SegmentStores) (requests : List CascadeRuns) : Prop where
  deleted : ∀ before runs after, requests = before ++ runs :: after →
    ((afterRequests isAlnum s before st).deleteSegment isAlnum s.id runs).1 = .noContent →
      Complete isAlnum made s st (afterRequests isAlnum s (before ++ [runs]) st) ∧
        Confined isAlnum made s st (afterRequests isAlnum s (before ++ [runs]) st)
  accepted : ∀ before runs after, requests = before ++ runs :: after →
    ¬ Complete isAlnum made s st (afterRequests isAlnum s before st) →
      ((afterRequests isAlnum s before st).deleteSegment isAlnum s.id runs).1 ≠ .notFound

/-- The audio step blanks its slots. -/
def Erases (isAlnum : Char → Bool) (s : SessionSegment) (st : SegmentStores) (run : StepRun) :
    Prop :=
  run ≠ .failed ∧
    ∀ audio ∈ st.audio, audio.Erasable isAlnum s.sessionId s.startMs (deleteEndMs s)

/-- What the promise rests on, in the stores before the first request and in how its steps go: a
step that fails had nothing to delete, the atoms that start in the segment's time are those made
from its events, and no other segment has a part in the events and the audio it addresses. -/
structure Clean (isAlnum : Char → Bool) (made : String → String → Prop) (s : SessionSegment)
    (st : SegmentStores) (runs : CascadeRuns) : Prop where
  eventsGone : runs.events = .failed → eventsOf s st = []
  eventsApart : runs.events ≠ .failed → ∀ id t, st.index.segments.get? id = some t → id ≠ s.id →
    t.sessionId = s.sessionId → ∀ e ∈ eventsOf s st, ¬ (t.firstSeq ≤ e.seq ∧ e.seq ≤ t.lastSeq)
  atomsGone : ∀ row ∈ atomRows st, Derived made s st row.atomId → runs.atoms ≠ .failed ∧
    SqliteAtomStore.startsIn s.sessionId s.startMs (deleteEndMs s) row
  atomsApart : runs.atoms ≠ .failed → ∀ row ∈ atomRows st,
    SqliteAtomStore.startsIn s.sessionId s.startMs (deleteEndMs s) row →
      Derived made s st row.atomId
  vectorsGone : ∀ id ∈ vectorIds st, Derived made s st id → runs.atoms = .works ∧
    runs.vectors ≠ .failed ∧ ∃ row ∈ atomRows st,
      SqliteAtomStore.startsIn s.sessionId s.startMs (deleteEndMs s) row ∧ row.atomId = id
  audioGone : ¬ Erases isAlnum s st runs.audio → ∀ frame ∈ audioOf isAlnum s st, frame = []
  audioApart : Erases isAlnum s st runs.audio → ∀ id t, st.index.segments.get? id = some t →
    id ≠ s.id → AudioStore.safe isAlnum t.sessionId = AudioStore.safe isAlnum s.sessionId →
      ∀ frame ∈ audioBetween isAlnum s.sessionId (max s.startMs t.startMs)
        (min (deleteEndMs s) t.endMs) st, frame = []

/-! ## What one request does to each store -/

section

variable {isAlnum : Char → Bool} {made : String → String → Prop} {s t : SessionSegment}
  {st : SegmentStores} {runs : CascadeRuns}

/-- The first request goes through the cascade, whatever its steps do. -/
theorem deleteSegment_first (hs : st.index.segments.get? s.id = some s)
    (hclosed : s.closed = true) : st.deleteSegment isAlnum s.id runs =
      (.noContent, { st.cascade isAlnum runs s with
        index := ((st.cascade isAlnum runs s).index.delete s.id).2 }) := by
  simp only [deleteSegment, hs, hclosed, if_true]

/-- A request for a segment that the index does not have changes nothing. -/
theorem deleteSegment_gone {id : String} (hgone : st.index.segments.get? id = none) :
    st.deleteSegment isAlnum id runs = (.notFound, st) := by
  simp only [deleteSegment, hgone]

@[simp] theorem cascade_index : (st.cascade isAlnum runs s).index = st.index := rfl

/-- The events after a request: those of the segment's session lose the segment's range. -/
theorem eventsOf_cascade : eventsOf t (st.cascade isAlnum runs s) =
    (eventsOf t st).filter fun e => ¬ (runs.events ≠ .failed ∧ t.sessionId = s.sessionId ∧
      s.firstSeq ≤ e.seq ∧ e.seq ≤ s.lastSeq) := by
  have hevents : (st.cascade isAlnum runs s).events = (st.deleteEvents runs.events s).events := rfl
  unfold eventsOf
  rw [hevents, deleteEvents]
  cases st.events with
  | none => rfl
  | some events =>
    simp only [Option.map_some, Option.getD_some, safeDelete_snd, List.filter_filter]
    by_cases hfailed : runs.events = .failed
    · simp [hfailed]
    · rw [if_neg hfailed, InMemoryEventStore.rows_deleteRange]
      by_cases hsession : s.sessionId = t.sessionId
      · rw [if_pos hsession, List.filter_filter]
        apply List.filter_congr
        intro e _
        simp only [hfailed, hsession, ne_eq, not_false_eq_true, true_and]
        exact Bool.and_comm _ _
      · rw [if_neg hsession]
        simp [Ne.symm hsession]

/-- The atoms after a request: those that start in the segment's time go. -/
theorem mem_atomRows_cascade {row : AtomRow} : row ∈ atomRows (st.cascade isAlnum runs s) ↔
    row ∈ atomRows st ∧ ¬ (runs.atoms ≠ .failed ∧
      SqliteAtomStore.startsIn s.sessionId s.startMs (deleteEndMs s) row) := by
  have hatoms : (st.cascade isAlnum runs s).atoms =
      (st.deleteAtoms runs.atoms s).2.atoms := rfl
  unfold atomRows
  rw [hatoms, deleteAtoms]
  cases st.atoms with
  | none => simp
  | some atoms =>
    simp only [Option.map_some, Option.getD_some, deleteAtomRange, safeDelete_snd]
    by_cases hfailed : runs.atoms = .failed
    · simp [hfailed]
    · simp [hfailed, SqliteAtomStore.deleteRange]

/-- The ids that the atom step reports. -/
theorem mem_deleteAtoms {id : String} : id ∈ (st.deleteAtoms runs.atoms s).1 ↔
    runs.atoms = .works ∧ ∃ row ∈ atomRows st,
      SqliteAtomStore.startsIn s.sessionId s.startMs (deleteEndMs s) row ∧ row.atomId = id := by
  unfold atomRows deleteAtoms
  cases st.atoms with
  | none => simp
  | some atoms =>
    cases hrun : runs.atoms <;>
      simp [deleteAtomRange, safeDelete, SqliteAtomStore.deleteRange, and_assoc]

/-- The vectors after a request: those of the reported atoms go. -/
theorem mem_vectorIds_cascade {id : String} : id ∈ vectorIds (st.cascade isAlnum runs s) ↔
    id ∈ vectorIds st ∧ ¬ (runs.vectors ≠ .failed ∧ id ∈ (st.deleteAtoms runs.atoms s).1) := by
  have hmemory : (st.cascade isAlnum runs s).memory =
      (st.deleteVectors runs.vectors (st.deleteAtoms runs.atoms s).1).memory := rfl
  unfold vectorIds
  rw [hmemory, deleteVectors]
  cases st.memory with
  | none => simp
  | some memory =>
    simp only [Option.map_some, Option.getD_some, safeDelete_snd]
    by_cases hnone : (st.deleteAtoms runs.atoms s).1 = []
    · simp [hnone]
    · rw [if_neg hnone]
      by_cases hfailed : runs.vectors = .failed
      · simp [hfailed]
      · rw [if_neg hfailed, InMemoryMemoryIndex.mem_ids_deleteAtoms]
        simp [hfailed]

theorem msToSlot_mono : Monotone msToSlot := by
  intro a b hab
  unfold msToSlot frameMs
  omega

/-- A step that does not erase leaves the audio. -/
theorem audioOf_cascade_of_not_erases (h : ¬ Erases isAlnum s st runs.audio) :
    audioOf isAlnum t (st.cascade isAlnum runs s) = audioOf isAlnum t st := by
  have haudio : (st.cascade isAlnum runs s).audio = (st.eraseAudio isAlnum runs.audio s).audio :=
    rfl
  unfold audioOf audioBetween
  rw [haudio, eraseAudio]
  unfold Erases at h
  cases hst : st.audio with
  | none => rfl
  | some audio =>
    simp only [Option.map_some, Option.getD_some, safeDelete_snd]
    split_ifs with hfailed
    · rfl
    · rw [AudioStore.eraseRange_of_not_erasable]
      intro herasable
      exact h ⟨hfailed, by simpa [hst] using herasable⟩

/-- Sessions whose ids make one file name share their slots. -/
theorem slotsOf_shared {audio : AudioStore} {sid sid' : String}
    (h : AudioStore.safe isAlnum sid = AudioStore.safe isAlnum sid') :
    audio.slotsOf isAlnum sid = audio.slotsOf isAlnum sid' := by
  rw [AudioStore.slotsOf, AudioStore.log?, h, ← AudioStore.log?, ← AudioStore.slotsOf]

/-- The audio of a segment after a step that erases. -/
theorem audioOf_cascade (h : Erases isAlnum s st runs.audio) {audio : AudioStore}
    (hst : st.audio = some audio) : audioOf isAlnum t (st.cascade isAlnum runs s) =
      if AudioStore.safe isAlnum t.sessionId = AudioStore.safe isAlnum s.sessionId then
        Slots.slice (msToSlot t.startMs) (msToSlot t.endMs)
          (Slots.blankOut [] (msToSlot s.startMs) (msToSlot (deleteEndMs s))
            (audio.slotsOf isAlnum s.sessionId))
      else audioOf isAlnum t st := by
  have haudio : (st.cascade isAlnum runs s).audio = (st.eraseAudio isAlnum runs.audio s).audio :=
    rfl
  have herasable := h.2 audio hst
  unfold audioOf audioBetween
  rw [haudio, eraseAudio, hst]
  simp only [Option.map_some, Option.getD_some, safeDelete_snd, if_neg h.1,
    AudioStore.readRange_eq, AudioStore.slotsOf_eraseRange herasable]
  split_ifs with hsame
  · rw [slotsOf_shared hsame]
  · rfl

/-- A step that erases keeps a segment's audio exactly when what they share is silent. -/
theorem audioOf_cascade_eq_iff (h : Erases isAlnum s st runs.audio) :
    audioOf isAlnum t (st.cascade isAlnum runs s) = audioOf isAlnum t st ↔
      (AudioStore.safe isAlnum t.sessionId = AudioStore.safe isAlnum s.sessionId →
        ∀ frame ∈ audioBetween isAlnum s.sessionId (max s.startMs t.startMs)
          (min (deleteEndMs s) t.endMs) st, frame = []) := by
  cases hst : st.audio with
  | none =>
    have haudio : (st.cascade isAlnum runs s).audio = none := by
      show st.audio.map _ = none
      rw [hst, Option.map_none]
    simp [audioOf, audioBetween, haudio, hst]
  | some audio =>
    rw [audioOf_cascade h hst]
    split_ifs with hsame
    · simp only [audioOf, audioBetween, hst, Option.map_some, Option.getD_some,
        AudioStore.readRange_eq, slotsOf_shared hsame, msToSlot_mono.map_max, msToSlot_mono.map_min,
        hsame, true_implies]
      exact Slots.slice_blankOut_eq_iff []
    · simp [hsame]

/-- A step that erases leaves no frame of the segment. -/
theorem audioOf_cascade_blank (h : Erases isAlnum s st runs.audio) :
    ∀ frame ∈ audioOf isAlnum s (st.cascade isAlnum runs s), frame = [] := by
  intro frame hframe
  cases hst : st.audio with
  | none =>
    have haudio : (st.cascade isAlnum runs s).audio = none := by
      show st.audio.map _ = none
      rw [hst, Option.map_none]
    simp [audioOf, audioBetween, haudio] at hframe
  | some audio =>
    rw [audioOf_cascade h hst, if_pos rfl] at hframe
    apply Slots.eq_blank_of_mem_slice_blankOut _ hframe
    exact msToSlot_mono (le_max_left _ _)

/-! ## The one request that counts -/

theorem complete_cascade_iff : Complete isAlnum made s st (st.cascade isAlnum runs s) ↔
    (runs.events = .failed → eventsOf s st = []) ∧
    (∀ row ∈ atomRows st, Derived made s st row.atomId → runs.atoms ≠ .failed ∧
      SqliteAtomStore.startsIn s.sessionId s.startMs (deleteEndMs s) row) ∧
    (∀ id ∈ vectorIds st, Derived made s st id → runs.atoms = .works ∧ runs.vectors ≠ .failed ∧
      ∃ row ∈ atomRows st,
        SqliteAtomStore.startsIn s.sessionId s.startMs (deleteEndMs s) row ∧ row.atomId = id) ∧
    (¬ Erases isAlnum s st runs.audio → ∀ frame ∈ audioOf isAlnum s st, frame = []) := by
  have hevents : eventsOf s (st.cascade isAlnum runs s) = [] ↔
      (runs.events = .failed → eventsOf s st = []) := by
    rw [eventsOf_cascade, List.filter_eq_nil_iff]
    have hrange : ∀ e ∈ eventsOf s st, s.firstSeq ≤ e.seq ∧ e.seq ≤ s.lastSeq := by
      intro e he
      simpa using (List.mem_filter.mp he).2
    by_cases hfailed : runs.events = .failed
    · simp [hfailed, List.eq_nil_iff_forall_not_mem]
    · simpa [hfailed] using hrange
  have haudio : (∀ frame ∈ audioOf isAlnum s (st.cascade isAlnum runs s), frame = []) ↔
      (¬ Erases isAlnum s st runs.audio → ∀ frame ∈ audioOf isAlnum s st, frame = []) := by
    by_cases herases : Erases isAlnum s st runs.audio
    · simpa [herases] using audioOf_cascade_blank herases
    · rw [audioOf_cascade_of_not_erases herases]
      simp [herases]
  constructor
  · intro h
    refine ⟨hevents.mp h.events, fun row hrow hderived => ?_, fun id hid hderived => ?_,
      haudio.mp h.audio⟩
    · by_contra hleft
      exact h.atoms row (mem_atomRows_cascade.mpr ⟨hrow, hleft⟩) hderived
    · by_contra hleft
      refine h.vectors id (mem_vectorIds_cascade.mpr ⟨hid, fun hgone => hleft ?_⟩) hderived
      obtain ⟨hworks, hrow⟩ := mem_deleteAtoms.mp hgone.2
      exact ⟨hworks, hgone.1, hrow⟩
  · rintro ⟨hgone, hatoms, hvectors, hblank⟩
    refine ⟨hevents.mpr hgone, fun row hrow hderived => ?_, fun id hid hderived => ?_,
      haudio.mpr hblank⟩
    · obtain ⟨hrow, hleft⟩ := mem_atomRows_cascade.mp hrow
      exact hleft (hatoms row hrow hderived)
    · obtain ⟨hid, hleft⟩ := mem_vectorIds_cascade.mp hid
      obtain ⟨hworks, hvectors, hrow⟩ := hvectors id hid hderived
      exact hleft ⟨hvectors, mem_deleteAtoms.mpr ⟨hworks, hrow⟩⟩

/-- The events of another segment stay exactly when the two have none in common. -/
theorem eventsOf_cascade_eq_iff : eventsOf t (st.cascade isAlnum runs s) = eventsOf t st ↔
    (runs.events ≠ .failed → t.sessionId = s.sessionId →
      ∀ e ∈ eventsOf s st, ¬ (t.firstSeq ≤ e.seq ∧ e.seq ≤ t.lastSeq)) := by
  rw [eventsOf_cascade, List.filter_eq_self]
  by_cases hfailed : runs.events = .failed
  · simp [hfailed]
  · by_cases hsession : t.sessionId = s.sessionId
    · simp only [eventsOf, hsession, List.mem_filter, decide_eq_true_eq, hfailed, ne_eq,
        not_false_eq_true, true_and, true_implies]
      constructor
      · rintro h e ⟨he, hs⟩ ht
        exact h e ⟨he, ht⟩ hs
      · rintro h e ⟨he, ht⟩ hs
        exact h e ⟨he, hs⟩ ht
    · simp [hsession]

theorem confined_cascade_iff : Confined isAlnum made s st (st.cascade isAlnum runs s) ↔
    (runs.events ≠ .failed → ∀ id t, st.index.segments.get? id = some t → id ≠ s.id →
      t.sessionId = s.sessionId →
        ∀ e ∈ eventsOf s st, ¬ (t.firstSeq ≤ e.seq ∧ e.seq ≤ t.lastSeq)) ∧
    (Erases isAlnum s st runs.audio → ∀ id t, st.index.segments.get? id = some t →
      id ≠ s.id → AudioStore.safe isAlnum t.sessionId = AudioStore.safe isAlnum s.sessionId →
        ∀ frame ∈ audioBetween isAlnum s.sessionId (max s.startMs t.startMs)
          (min (deleteEndMs s) t.endMs) st, frame = []) ∧
    (runs.atoms ≠ .failed → ∀ row ∈ atomRows st,
      SqliteAtomStore.startsIn s.sessionId s.startMs (deleteEndMs s) row →
        Derived made s st row.atomId) := by
  constructor
  · intro h
    refine ⟨fun hworks id t ht hid => ?_, fun herases id t ht hid => ?_,
      fun hworks row hrow hstarts => ?_⟩
    · exact eventsOf_cascade_eq_iff.mp (h.events id t ht hid) hworks
    · exact (audioOf_cascade_eq_iff herases).mp (h.audio id t ht hid)
    · by_contra hforeign
      exact (mem_atomRows_cascade.mp ((h.atoms row hforeign).mpr hrow)).2 ⟨hworks, hstarts⟩
  · rintro ⟨hevents, haudio, hatoms⟩
    refine ⟨fun id t ht hid => ?_, fun id t ht hid => ?_, fun row hforeign => ?_⟩
    · exact eventsOf_cascade_eq_iff.mpr fun hworks => hevents hworks id t ht hid
    · by_cases herases : Erases isAlnum s st runs.audio
      · exact (audioOf_cascade_eq_iff herases).mpr (haudio herases id t ht hid)
      · exact audioOf_cascade_of_not_erases herases
    · rw [mem_atomRows_cascade, and_iff_left_iff_imp]
      rintro hrow ⟨hworks, hstarts⟩
      exact hforeign (hatoms hworks row hrow hstarts)

/-- The request leaves what it should exactly when its condition holds. -/
theorem complete_and_confined_iff : Complete isAlnum made s st (st.cascade isAlnum runs s) ∧
    Confined isAlnum made s st (st.cascade isAlnum runs s) ↔ Clean isAlnum made s st runs := by
  rw [complete_cascade_iff, confined_cascade_iff]
  constructor
  · rintro ⟨⟨h₁, h₂, h₃, h₄⟩, h₅, h₆, h₇⟩
    exact ⟨h₁, h₅, h₂, h₇, h₃, h₄, h₆⟩
  · rintro ⟨h₁, h₅, h₂, h₇, h₃, h₄, h₆⟩
    exact ⟨⟨h₁, h₂, h₃, h₄⟩, h₅, h₆, h₇⟩

/-- A memory minted on instruction comes from no event and starts at zero: the segment that its
session begins with takes it along.
SOURCE: agent/planner.py:452-464, memory/store.py:488-503 -/
theorem not_clean_of_instructed {row : AtomRow} (hrow : row ∈ atomRows st)
    (hsession : row.sessionId = s.sessionId) (hstart : row.startMs = 0)
    (hsource : ∀ eventId, ¬ made row.atomId eventId) (hfirst : s.startMs = 0)
    (hworks : runs.atoms ≠ .failed) : ¬ Clean isAlnum made s st runs := by
  intro h
  have hstarts : SqliteAtomStore.startsIn s.sessionId s.startMs (deleteEndMs s) row := by
    simp [SqliteAtomStore.startsIn, deleteEndMs, hsession, hstart, hfirst]
  obtain ⟨e, -, hmade⟩ := h.atomsApart hworks row hrow hstarts
  exact hsource e.eventId hmade

/-- Once a request has gone through, the later ones change nothing. -/
theorem afterRequests_cons (hs : st.index.segments.get? s.id = some s)
    (hclosed : s.closed = true) (requests : List CascadeRuns) :
    afterRequests isAlnum s (runs :: requests) st =
      (st.deleteSegment isAlnum s.id runs).2 := by
  rw [afterRequests, run_cons, ← afterRequests]
  have hgone : (st.deleteSegment isAlnum s.id runs).2.index.segments.get? s.id = none := by
    rw [deleteSegment_first hs hclosed]
    simp [SegmentIndex.get?_delete]
  induction requests with
  | nil => rfl
  | cons runs' requests ih =>
    rw [afterRequests, run_cons, deleteSegment_gone hgone]
    exact ih

/-- After a request that went through, the index does not have the segment. -/
theorem afterRequests_gone (hs : st.index.segments.get? s.id = some s) (hclosed : s.closed = true)
    (requests : List CascadeRuns) :
    (afterRequests isAlnum s (runs :: requests) st).index.segments.get? s.id = none := by
  rw [afterRequests_cons hs hclosed, deleteSegment_first hs hclosed]
  simp [SegmentIndex.get?_delete]

/-- **A deletion keeps its promise exactly when its first request does**: on every store, for
every closed segment and however the steps of each request go. The first request drops the entry
of the index and is answered 204 whatever its steps did, so what it leaves stays, and every retry
is answered 404.
SOURCE: http/routes/segments.py:438-523 -/
theorem delete_honoured (isAlnum : Char → Bool) (made : String → String → Prop)
    (s : SessionSegment) (st : SegmentStores) (runs : CascadeRuns) (retries : List CascadeRuns)
    (hs : st.index.segments.get? s.id = some s) (hclosed : s.closed = true) :
    Honoured isAlnum made s st (runs :: retries) ↔ Clean isAlnum made s st runs := by
  have hfirst : ∀ requests, afterRequests isAlnum s (runs :: requests) st =
      { st.cascade isAlnum runs s with
        index := ((st.cascade isAlnum runs s).index.delete s.id).2 } := by
    intro requests
    rw [afterRequests_cons hs hclosed, deleteSegment_first hs hclosed]
  rw [← complete_and_confined_iff]
  constructor
  · intro h
    have hleft := h.deleted [] runs retries rfl
      (congrArg Prod.fst (deleteSegment_first hs hclosed))
    rw [List.nil_append, hfirst] at hleft
    exact ⟨⟨hleft.1.events, hleft.1.atoms, hleft.1.vectors, hleft.1.audio⟩,
      ⟨hleft.2.events, hleft.2.audio, hleft.2.atoms⟩⟩
  · rintro ⟨hcomplete, hconfined⟩
    have hleft : ∀ requests,
        Complete isAlnum made s st (afterRequests isAlnum s (runs :: requests) st) ∧
          Confined isAlnum made s st (afterRequests isAlnum s (runs :: requests) st) := by
      intro requests
      rw [hfirst]
      exact ⟨⟨hcomplete.events, hcomplete.atoms, hcomplete.vectors, hcomplete.audio⟩,
        ⟨hconfined.events, hconfined.audio, hconfined.atoms⟩⟩
    refine ⟨fun before runs' after hsplit _ => ?_, fun before runs' after hsplit hopen => ?_⟩
    · cases before with
      | nil =>
        obtain ⟨rfl, -⟩ := List.cons.inj hsplit
        exact hleft []
      | cons first before =>
        obtain ⟨rfl, -⟩ := List.cons.inj hsplit
        exact hleft (before ++ [runs'])
    · cases before with
      | nil =>
        have hanswer : (st.deleteSegment isAlnum s.id runs').1 = .noContent :=
          congrArg Prod.fst (deleteSegment_first hs hclosed)
        show (st.deleteSegment isAlnum s.id runs').1 ≠ .notFound
        rw [hanswer]
        simp
      | cons first before =>
        obtain ⟨rfl, -⟩ := List.cons.inj hsplit
        exact absurd (hleft before).1 hopen

end

/-! ## One recording -/

/-- What was said in the recording. -/
def remark : CaptureEvent where
  eventId := "s1:0"
  sessionId := "s1"
  seq := 0
  kind := .transcript
  createdAt := 0
  text := "line 0"
  durationMs := 1000
  startMs := 0

/-- The memory made from it. -/
def remarkRow : AtomRow where
  atomId := "s1:0:0"
  sessionId := "s1"
  sourceEventId := "s1:0"
  kind := "fact"
  text := "memory"
  createdAt := []
  startMs := 0
  occurredAt := none
  speaker := none
  speakerConfidence := none
  speakerAssignment := none

/-- The closed segment of the one event. -/
def remarkSegment : SessionSegment := (SessionSegment.ofEvent remark).close

/-- The stores with the recording, its memory and one frame of its audio. -/
def remarkStores : SegmentStores where
  index := SegmentIndex.put remarkSegment {}
  events := some (InMemoryEventStore.append remark {}).2
  atoms := some ⟨[remarkRow]⟩
  memory := some ⟨Dict.set .empty "s1:0:0" (⟨"s1:0:0", some "s1", "s1:0", "fact", "memory", 0, 0,
    none, none, none, none⟩, [])⟩
  audio := some { logs := Dict.set .empty "s1" [2, 0, 7, 7] }
  titles := none

/-- Each atom is made from the event that its row names. -/
def namedSource (atomId eventId : String) : Prop := atomId = "s1:0:0" ∧ eventId = "s1:0"

/-- The event step of the first request fails: the event is still there, the answer is 204, and
the retry is answered 404.
SOURCE: http/routes/segments.py:438-523 -/
theorem delete_half_done : ∃ (s : SessionSegment) (st : SegmentStores) (runs : CascadeRuns),
    st.index.segments.get? s.id = some s ∧ s.closed = true ∧
      ¬ Honoured (fun c => c.isAlphanum) namedSource s st [runs, {}] := by
  refine ⟨remarkSegment, remarkStores, { events := .failed }, by decide, by decide, ?_⟩
  intro h
  have hleft := (h.deleted [] { events := .failed } [{}] rfl (by decide)).1.events
  have hevent : remark ∈ eventsOf remarkSegment remarkStores := by decide
  have hsame : eventsOf remarkSegment (afterRequests (fun c => c.isAlphanum) remarkSegment
      [{ events := .failed }] remarkStores) = eventsOf remarkSegment remarkStores := by decide
  rw [List.nil_append, hsame] at hleft
  rw [hleft] at hevent
  cases hevent

/-- The recording can be deleted without a trace. -/
theorem clean_remark :
    Clean (fun c => c.isAlphanum) namedSource remarkSegment remarkStores {} where
  eventsGone := by simp
  eventsApart := by
    intro _ id t ht hid
    have hnone : remarkStores.index.segments.get? id = none := by
      simp [remarkStores, SegmentIndex.put, Dict.get?_set, hid]
    simp [hnone] at ht
  atomsGone := by
    intro row hrow _
    rw [show atomRows remarkStores = [remarkRow] from rfl, List.mem_singleton] at hrow
    subst hrow
    decide
  atomsApart := by
    intro _ row hrow _
    rw [show atomRows remarkStores = [remarkRow] from rfl, List.mem_singleton] at hrow
    subst hrow
    exact ⟨remark, by decide, rfl, rfl⟩
  vectorsGone := by
    intro id hid _
    rw [show vectorIds remarkStores = ["s1:0:0"] from rfl, List.mem_singleton] at hid
    subst hid
    exact ⟨rfl, by simp, remarkRow, List.mem_singleton_self _, by decide, rfl⟩
  audioGone := by
    intro h
    refine absurd ⟨by simp, ?_⟩ h
    intro audio haudio
    obtain rfl := Option.some.inj haudio
    apply Slots.not_hasStretch_of_length_lt
    rw [Slots.length_blankOut]
    have hlength : (AudioStore.slotsOf (fun c => c.isAlphanum) "s1"
      { logs := Dict.set .empty "s1" [2, 0, 7, 7] }).length = 1 := by decide
    exact lt_of_eq_of_lt hlength (by simp)
  audioApart := by
    intro _ id t ht hid
    have hnone : remarkStores.index.segments.get? id = none := by
      simp [remarkStores, SegmentIndex.put, Dict.get?_set, hid]
    simp [hnone] at ht

/-- A deletion whose steps all work takes the recording and its memory. -/
theorem delete_honoured_remark : remarkSegment.closed = true ∧
    Honoured (fun c => c.isAlphanum) namedSource remarkSegment remarkStores [{}, {}] :=
  ⟨by decide, (delete_honoured _ _ _ _ _ _ (by decide) (by decide)).mpr clean_remark⟩

end OpenRecall.Analysis.SegmentErasure
