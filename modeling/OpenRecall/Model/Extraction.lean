import OpenRecall.Model.MemoryStores

/-!
# The extraction pipeline

`ExtractionStage` cuts the pending events into time windows and calls the extractor once
per window; the pipeline then embeds the atoms in one batch, adds them to the index and
appends the ones the index took to the atom store. The extractor and the embedder are
outside the repository's control, so they are functions the stages carry.

What a run hands to the extractor is part of its outcome (`handed`), also when it fails.
`PipelineEnv` says which calls of a run raise.
-/

set_option autoImplicit false

namespace OpenRecall.Model

open Foundation

/-- What a run can raise: the extractor's parse error, or anything else. -/
inductive PipelineError where
  | llmParseError
  | other
  deriving DecidableEq

/-- SOURCE: memory/extract.py:70-72 -/
structure ExtractedMemory where
  kind : String
  text : String
  deriving DecidableEq

/-- The events of a window that carry a speaker, with it. -/
def attributed (window : List CaptureEvent) : List (String × CaptureEvent) :=
  window.filterMap fun e => match e.speaker with
    | none => none
    | some speaker =>
      if speaker = "" ∨ e.speakerAssignment = some "none" then none else some (speaker, e)

/-- The speaker with more than half of the window's confidence, if there is one.
SOURCE: memory/stages.py:34-59 -/
def majoritySpeaker (window : List CaptureEvent) : Option SpeakerAssignment :=
  let weights : Dict String ℚ := (attributed window).foldl
    (fun d (speaker, e) =>
      d.set speaker ((d.get? speaker).getD 0 + e.speakerConfidence.getD 0)) .empty
  let assignment : Dict String (Option String) := (attributed window).foldl
    (fun d (speaker, e) => d.set speaker e.speakerAssignment) .empty
  let total := weights.values.sum
  if total ≤ 0 then none
  else match weights.entries.maxOn? Prod.snd with
    | none => none
    | some (leaderId, leaderW) =>
      if leaderW ≤ total / 2 then none
      else some ⟨leaderId, leaderW / total, (assignment.get? leaderId).join⟩

/-! ## The extraction stage -/

/-- SOURCE: memory/stages.py:87-108 -/
structure ExtractionStage where
  extractor : String → Except PipelineError (List ExtractedMemory)
  windowMs : ℤ := 60000
  windowMs_pos : windowMs > 0
  version : String := "v1"

namespace ExtractionStage

/-- The windowing loop, with the windows closed so far, the current one and its start.
SOURCE: memory/stages.py:242-270 -/
def windowsLoop (windowMs : ℤ) : List CaptureEvent → List (List CaptureEvent) →
    List CaptureEvent → Option ℤ → List (List CaptureEvent)
  | [], windows, current, _ => if current ≠ [] then windows ++ [current] else windows
  | event :: events, windows, current, none =>
    windowsLoop windowMs events (if current ≠ [] then windows ++ [current] else windows)
      [event] (some event.startMs)
  | event :: events, windows, current, some windowStartMs =>
    if event.startMs - windowStartMs ≥ windowMs then
      windowsLoop windowMs events (if current ≠ [] then windows ++ [current] else windows)
        [event] (some event.startMs)
    else windowsLoop windowMs events windows (current ++ [event]) (some windowStartMs)

/-- SOURCE: memory/stages.py:242-270 -/
def windows (stage : ExtractionStage) (events : List CaptureEvent) : List (List CaptureEvent) :=
  windowsLoop stage.windowMs events [] [] none

/-- The windows the extractor is called on: without the trailing one unless `finalize`.
SOURCE: memory/stages.py:223-240 -/
def extractedWindows (stage : ExtractionStage) (events : List CaptureEvent) (finalize : Bool) :
    List (List CaptureEvent) :=
  let windows := stage.windows events
  if finalize then windows else windows.dropLast

/-- The atoms of one window, attributed to its last event.
SOURCE: memory/stages.py:174-207 -/
def windowAtoms (sessionId : String) (now : Time) (window : List CaptureEvent)
    (last : CaptureEvent) (memories : List ExtractedMemory) : List MemoryAtom :=
  let majority := majoritySpeaker window
  memories.zipIdx.map fun (memory, index) =>
    { atomId := last.eventId ++ ":" ++ toString index
      sessionId := some sessionId
      sourceEventId := last.eventId
      kind := memory.kind
      text := memory.text
      createdAt := now
      startMs := last.startMs
      occurredAt := some last.createdAt
      speaker := majority.map SpeakerAssignment.speakerId
      speakerConfidence := majority.map SpeakerAssignment.confidence
      speakerAssignment := majority.bind SpeakerAssignment.assignment }

/-- What the extractor answers to a window: it gets the joined texts. -/
def reply (stage : ExtractionStage) (window : List CaptureEvent) :
    Except PipelineError (List ExtractedMemory) :=
  stage.extractor (" ".intercalate (window.map CaptureEvent.text))

/-- The windows handed to the extractor, and the atoms with how far the cursor may move,
or what the extractor raised. -/
structure Outcome where
  handed : List (List CaptureEvent)
  result : Except PipelineError (List MemoryAtom × Option ℤ)

/-- The loop over the windows. No window is empty.
SOURCE: memory/stages.py:172-208 -/
def extractLoop (stage : ExtractionStage) (sessionId : String) (now : Time) :
    List (List CaptureEvent) → List MemoryAtom → Option ℤ → Outcome
  | [], atoms, consumedSeq => ⟨[], .ok (atoms, consumedSeq)⟩
  | window :: windows, atoms, consumedSeq =>
    match window.getLast? with
    | none => extractLoop stage sessionId now windows atoms consumedSeq
    | some last =>
      match stage.reply window with
      | .error e => ⟨[window], .error e⟩
      | .ok memories =>
        let rest := extractLoop stage sessionId now windows
          (atoms ++ windowAtoms sessionId now window last memories) (some last.seq)
        ⟨window :: rest.handed, rest.result⟩

/-- SOURCE: memory/stages.py:122-208 -/
def extract (stage : ExtractionStage) (sessionId : String) (events : List CaptureEvent)
    (finalize : Bool) (now : Time) : Outcome :=
  stage.extractLoop sessionId now (stage.extractedWindows events finalize) [] none

/-- The `seq` of the last event of the last window. -/
def lastSeq (windows : List (List CaptureEvent)) : Option ℤ :=
  (windows.getLast?.bind List.getLast?).map CaptureEvent.seq

/-- How far the cursor may move, without calling the extractor.
SOURCE: memory/stages.py:210-221 -/
def consumedSeq (stage : ExtractionStage) (events : List CaptureEvent) (finalize : Bool) :
    Option ℤ :=
  lastSeq (stage.extractedWindows events finalize)

/-! ### The loop over the windows -/

/-- The extractor can read the window. -/
def Parses (stage : ExtractionStage) (window : List CaptureEvent) : Prop :=
  ∃ memories, stage.reply window = .ok memories

/-- The atoms a window forms. -/
def formed (stage : ExtractionStage) (sessionId : String) (now : Time)
    (window : List CaptureEvent) : List MemoryAtom :=
  match window.getLast?, stage.reply window with
  | some last, .ok memories => windowAtoms sessionId now window last memories
  | _, _ => []

/-- An atom's id depends neither on the session nor on the clock. -/
theorem formed_atomIds (stage : ExtractionStage) (sid sid' : String) (now now' : Time)
    (window : List CaptureEvent) :
    (stage.formed sid now window).map MemoryAtom.atomId =
      (stage.formed sid' now' window).map MemoryAtom.atomId := by
  unfold formed
  split
  · simp [windowAtoms, Function.comp_def]
  · rfl

/-- If the extractor can read every window, all are handed over and all their atoms formed. -/
theorem extractLoop_of_parses (stage : ExtractionStage) (sid : String) (now : Time)
    {windows : List (List CaptureEvent)} (hne : ∀ w ∈ windows, w ≠ [])
    (hparses : ∀ w ∈ windows, stage.Parses w) (atoms : List MemoryAtom) (c : Option ℤ) :
    stage.extractLoop sid now windows atoms c =
      ⟨windows, .ok (atoms ++ windows.flatMap (stage.formed sid now), (lastSeq windows).or c)⟩ := by
  induction windows generalizing atoms c with
  | nil => simp [extractLoop, lastSeq]
  | cons w ws ih =>
    obtain ⟨memories, hreply⟩ := hparses w List.mem_cons_self
    obtain ⟨last, hlast⟩ : ∃ last, w.getLast? = some last :=
      ⟨_, List.getLast?_eq_some_getLast (hne w List.mem_cons_self)⟩
    have ih' := ih (fun v hv => hne v (List.mem_cons_of_mem w hv))
      (fun v hv => hparses v (List.mem_cons_of_mem w hv))
      (atoms ++ windowAtoms sid now w last memories) (some last.seq)
    have hformed : stage.formed sid now w = windowAtoms sid now w last memories := by
      simp only [formed, hlast, hreply]
    simp only [extractLoop, hlast, hreply, ih', List.flatMap_cons, hformed, List.append_assoc]
    cases ws with
    | nil => simp [lastSeq, hlast]
    | cons v vs =>
      obtain ⟨last', hlast'⟩ : ∃ last', ((v :: vs).getLast?.bind List.getLast?) = some last' := by
        have hmem := List.getLast_mem (List.cons_ne_nil v vs)
        have hv := hne _ (List.mem_cons_of_mem w hmem)
        rw [List.getLast?_eq_some_getLast (List.cons_ne_nil v vs), Option.bind_some]
        exact ⟨_, List.getLast?_eq_some_getLast hv⟩
      simp [lastSeq, List.getLast?_cons_cons, hlast']

/-- If it cannot read some window, the loop raises what it raised for one of them. -/
theorem extractLoop_of_not_parses (stage : ExtractionStage) (sid : String) (now : Time)
    {windows : List (List CaptureEvent)} (hne : ∀ w ∈ windows, w ≠ [])
    (h : ∃ w ∈ windows, ¬ stage.Parses w) (atoms : List MemoryAtom) (c : Option ℤ) :
    ∃ e, (stage.extractLoop sid now windows atoms c).result = .error e ∧
      ∃ w ∈ windows, stage.reply w = .error e := by
  induction windows generalizing atoms c with
  | nil => simp at h
  | cons w ws ih =>
    obtain ⟨last, hlast⟩ : ∃ last, w.getLast? = some last :=
      ⟨_, List.getLast?_eq_some_getLast (hne w List.mem_cons_self)⟩
    cases hreply : stage.reply w with
    | error e => exact ⟨e, by simp [extractLoop, hlast, hreply], w, List.mem_cons_self, hreply⟩
    | ok memories =>
      obtain ⟨v, hv, hnot⟩ := h
      have hmem : v ∈ ws := by
        rcases List.mem_cons.mp hv with rfl | hv
        · exact absurd ⟨memories, hreply⟩ hnot
        · exact hv
      obtain ⟨e, he, u, hu, hue⟩ := ih (fun v hv => hne v (List.mem_cons_of_mem w hv))
        ⟨v, hmem, hnot⟩ (atoms ++ windowAtoms sid now w last memories) (some last.seq)
      exact ⟨e, by simpa [extractLoop, hlast, hreply] using he, u, List.mem_cons_of_mem w hu, hue⟩

/-- An extraction that succeeds forms the atoms of its windows. -/
theorem atoms_of_extract_ok {stage : ExtractionStage} {sid : String} {now : Time}
    {events : List CaptureEvent} {finalize : Bool} {atoms : List MemoryAtom} {c : Option ℤ}
    (hne : ∀ w ∈ stage.extractedWindows events finalize, w ≠ [])
    (h : (stage.extract sid events finalize now).result = .ok (atoms, c)) :
    atoms = (stage.extractedWindows events finalize).flatMap (stage.formed sid now) := by
  by_cases hparses : ∀ w ∈ stage.extractedWindows events finalize, stage.Parses w
  · rw [extract, extractLoop_of_parses stage sid now hne hparses] at h
    simpa using (Prod.mk.inj (Except.ok.inj h)).1.symm
  · push Not at hparses
    obtain ⟨e, he, -⟩ := extractLoop_of_not_parses stage sid now hne hparses [] none
    rw [extract, he] at h
    cases h

end ExtractionStage

/-! ## The pipeline -/

/-- The calls of one run that raise: the embedder, the `k`-th `add` of the index and the
`k`-th `append` of the store. A call that raises changes nothing. -/
structure PipelineEnv where
  now : Time := 0
  embedRaises : Bool := false
  addRaises : ℕ → Bool := fun _ => false
  appendRaises : ℕ → Bool := fun _ => false

/-- The two places an atom lives in. -/
structure MemoryStores where
  index : InMemoryMemoryIndex := {}
  atoms : InMemoryAtomStore := {}
  deriving DecidableEq

/-- Add the pairs one by one; the atoms the index took come back.
SOURCE: memory/stages.py:321-328 -/
def IndexingStage.run : (ℕ → Bool) → List (MemoryAtom × Embedding) → InMemoryMemoryIndex →
    Except PipelineError (List MemoryAtom) × InMemoryMemoryIndex
  | _, [], index => (.ok [], index)
  | raises, (atom, vector) :: pairs, index =>
    if raises 0 then (.error .other, index)
    else
      let (added, index') := index.add atom vector
      match run (fun k => raises (k + 1)) pairs index' with
      | (.ok rest, index'') => (.ok (if added then atom :: rest else rest), index'')
      | (.error e, index'') => (.error e, index'')

/-- Append the atoms one by one.
SOURCE: memory/stages.py:394-395 -/
def appendAll : (ℕ → Bool) → List MemoryAtom → InMemoryAtomStore →
    Except PipelineError Unit × InMemoryAtomStore
  | _, [], store => (.ok (), store)
  | raises, atom :: atoms, store =>
    if raises 0 then (.error .other, store)
    else appendAll (fun k => raises (k + 1)) atoms (store.append atom).2

/-- The pipeline's stages; the stores are passed to its run.
SOURCE: memory/stages.py:343-357 -/
structure Pipeline where
  extraction : ExtractionStage
  embedder : List String → List Embedding

/-- What a run handed to the extractor, the atoms that extraction formed, and the newly
indexed ones or what was raised. -/
structure PipelineRun where
  handed : List (List CaptureEvent) := []
  extracted : List MemoryAtom := []
  result : Except PipelineError (List MemoryAtom)

/-- Extract, embed, index and persist. The version stamp between the first two changes
nothing.
SOURCE: memory/stages.py:364-396 -/
def Pipeline.run (p : Pipeline) (env : PipelineEnv) (sessionId : String)
    (events : List CaptureEvent) (finalize : Bool) (stores : MemoryStores) :
    PipelineRun × MemoryStores :=
  let extraction := p.extraction.extract sessionId events finalize env.now
  match extraction.result with
  | .error e => (⟨extraction.handed, [], .error e⟩, stores)
  | .ok (atoms, _) =>
    if atoms = [] then (⟨extraction.handed, [], .ok []⟩, stores)
    else if env.embedRaises then (⟨extraction.handed, atoms, .error .other⟩, stores)
    else
      let pairs := atoms.zip (p.embedder (atoms.map MemoryAtom.text))
      match IndexingStage.run env.addRaises pairs stores.index with
      | (.error e, index) => (⟨extraction.handed, atoms, .error e⟩, { stores with index := index })
      | (.ok indexed, index) =>
        match appendAll env.appendRaises indexed stores.atoms with
        | (.error e, store) => (⟨extraction.handed, atoms, .error e⟩, ⟨index, store⟩)
        | (.ok (), store) => (⟨extraction.handed, atoms, .ok indexed⟩, ⟨index, store⟩)

/-! ### What the two loops leave -/

/-- How many of `n` calls return before one raises. -/
def returned : (ℕ → Bool) → ℕ → ℕ
  | _, 0 => 0
  | raises, n + 1 => if raises 0 then 0 else returned (fun k => raises (k + 1)) n + 1

theorem returned_le (raises : ℕ → Bool) (n : ℕ) : returned raises n ≤ n := by
  induction n generalizing raises with
  | zero => rfl
  | succ n ih =>
    unfold returned
    split_ifs
    · omega
    · have := ih fun k => raises (k + 1)
      omega

theorem returned_of_quiet {raises : ℕ → Bool} (h : ∀ k, raises k = false) (n : ℕ) :
    returned raises n = n := by
  induction n generalizing raises with
  | zero => rfl
  | succ n ih => simp [returned, h 0, ih fun k => h (k + 1)]

/-- The ids of the atoms in some pairs. -/
def pairIds (pairs : List (MemoryAtom × Embedding)) : List String :=
  pairs.map fun pair => pair.1.atomId

/-- A pair whose add returns, in front of the loop. -/
theorem IndexingStage.run_cons {raises : ℕ → Bool} (h : raises 0 = false) (atom : MemoryAtom)
    (vector : Embedding) (pairs : List (MemoryAtom × Embedding)) (index : InMemoryMemoryIndex) :
    IndexingStage.run raises ((atom, vector) :: pairs) index =
      ((IndexingStage.run (fun k => raises (k + 1)) pairs (index.add atom vector).2).1.map
          (fun rest => if (index.add atom vector).1 then atom :: rest else rest),
        (IndexingStage.run (fun k => raises (k + 1)) pairs (index.add atom vector).2).2) := by
  rw [IndexingStage.run, if_neg (by simp [h])]
  dsimp only
  split
  all_goals
    rename_i heq
    rw [heq]
    rfl

/-- The index after the loop holds what it held and what was added before a call raised. -/
theorem IndexingStage.mem_ids_run (raises : ℕ → Bool) (pairs : List (MemoryAtom × Embedding))
    (index : InMemoryMemoryIndex) (id : String) :
    id ∈ (IndexingStage.run raises pairs index).2.ids ↔
      id ∈ index.ids ∨ id ∈ pairIds (pairs.take (returned raises pairs.length)) := by
  induction pairs generalizing raises index with
  | nil => simp [IndexingStage.run, pairIds]
  | cons pair pairs ih =>
    obtain ⟨atom, vector⟩ := pair
    rw [List.length_cons, returned]
    cases hraises : raises 0 with
    | true => simp [IndexingStage.run, hraises, pairIds]
    | false =>
      rw [IndexingStage.run_cons hraises, ih, InMemoryMemoryIndex.mem_ids_add]
      simp only [Bool.false_eq_true, if_false, List.take_succ_cons, pairIds, List.map_cons,
        List.mem_cons, or_assoc, or_left_comm]

/-- The loop succeeds when no call raises; it then gives back, once each, the atoms that were
new to the index. -/
theorem IndexingStage.run_result (raises : ℕ → Bool) (pairs : List (MemoryAtom × Embedding))
    (index : InMemoryMemoryIndex) :
    (returned raises pairs.length < pairs.length ∧
      (IndexingStage.run raises pairs index).1 = .error .other) ∨
    (returned raises pairs.length = pairs.length ∧
      ∃ added, (IndexingStage.run raises pairs index).1 = .ok added ∧
        (added.map MemoryAtom.atomId).Nodup ∧
        ∀ id, id ∈ added.map MemoryAtom.atomId ↔ id ∈ pairIds pairs ∧ id ∉ index.ids) := by
  induction pairs generalizing raises index with
  | nil =>
    refine Or.inr ⟨rfl, [], rfl, List.nodup_nil, ?_⟩
    simp [pairIds]
  | cons pair pairs ih =>
    obtain ⟨atom, vector⟩ := pair
    rw [List.length_cons, returned]
    cases hraises : raises 0 with
    | true => exact Or.inl ⟨by simp, by simp [IndexingStage.run, hraises]⟩
    | false =>
      have hids := InMemoryMemoryIndex.mem_ids_add atom vector index
      rw [IndexingStage.run_cons hraises, if_neg (by decide)]
      rcases ih (fun k => raises (k + 1)) (index.add atom vector).2 with
        ⟨hlt, herror⟩ | ⟨hreturned, added, hok, hnodup, hmem⟩
      · rw [herror]
        exact Or.inl ⟨by omega, rfl⟩
      · rw [hok]
        refine Or.inr ⟨by omega, if (index.add atom vector).1 then atom :: added else added, rfl,
          ?_, ?_⟩
        · split_ifs
          · rw [List.map_cons, List.nodup_cons]
            refine ⟨?_, hnodup⟩
            rw [hmem, hids]
            simp
          · exact hnodup
        · intro id
          rw [pairIds, List.map_cons, List.mem_cons, ← pairIds]
          by_cases hatom : atom.atomId ∈ index.ids
          · -- the index refused the atom, and its id stays out of the result
            have hadd : (index.add atom vector).1 = false := by
              simp [InMemoryMemoryIndex.add, hatom]
            rw [hadd, if_neg (by decide), hmem, hids]
            constructor
            · rintro ⟨hin, hnot⟩
              exact ⟨Or.inr hin, fun h => hnot (Or.inr h)⟩
            · rintro ⟨rfl | hin, hnot⟩
              · exact absurd hatom hnot
              · refine ⟨hin, ?_⟩
                rintro (rfl | h)
                · exact hnot hatom
                · exact hnot h
          · have hadd : (index.add atom vector).1 = true := by
              simp [InMemoryMemoryIndex.add, hatom]
            rw [hadd, if_pos rfl, List.map_cons, List.mem_cons, hmem, hids]
            constructor
            · rintro (rfl | ⟨hin, hnot⟩)
              · exact ⟨Or.inl rfl, hatom⟩
              · exact ⟨Or.inr hin, fun h => hnot (Or.inr h)⟩
            · rintro ⟨rfl | hin, hnot⟩
              · exact Or.inl rfl
              · by_cases heq : id = atom.atomId
                · exact Or.inl heq
                · exact Or.inr ⟨hin, fun h => h.elim heq hnot⟩

/-- A loop that succeeds over pairs with different ids gives back those new to the index. -/
theorem IndexingStage.run_of_nodup {raises : ℕ → Bool} {pairs : List (MemoryAtom × Embedding)}
    (hnodup : (pairIds pairs).Nodup) {index : InMemoryMemoryIndex} {added : List MemoryAtom}
    (h : (IndexingStage.run raises pairs index).1 = .ok added) :
    added = (pairs.map Prod.fst).filter fun atom => atom.atomId ∉ index.ids := by
  induction pairs generalizing raises index added with
  | nil => simpa [IndexingStage.run, eq_comm] using h
  | cons pair pairs ih =>
    obtain ⟨atom, vector⟩ := pair
    rw [pairIds, List.map_cons, List.nodup_cons] at hnodup
    cases hraises : raises 0 with
    | true => simp [IndexingStage.run, hraises] at h
    | false =>
      rw [IndexingStage.run_cons hraises] at h
      cases hrest : (IndexingStage.run (fun k => raises (k + 1)) pairs
        (index.add atom vector).2).1 with
      | error e =>
        rw [hrest] at h
        cases h
      | ok rest =>
        -- the atoms after the first have other ids, so adding that one does not matter to them
        have hsame : rest = (pairs.map Prod.fst).filter fun b => b.atomId ∉ index.ids := by
          rw [ih hnodup.2 hrest]
          apply List.filter_congr
          intro b hb
          rw [decide_eq_decide, InMemoryMemoryIndex.mem_ids_add, not_or]
          refine ⟨And.right, fun hnot => ⟨fun heq => hnodup.1 ?_, hnot⟩⟩
          obtain ⟨pair, hpair, rfl⟩ := List.mem_map.mp hb
          exact heq ▸ List.mem_map_of_mem hpair
        rw [hrest] at h
        rw [← Except.ok.inj h, hsame, List.map_cons]
        by_cases hatom : atom.atomId ∈ index.ids
        · simp [InMemoryMemoryIndex.add, hatom]
        · simp [InMemoryMemoryIndex.add, hatom]

/-- The store after the loop holds what it held and what was appended before a call raised. -/
theorem mem_seen_appendAll (raises : ℕ → Bool) (atoms : List MemoryAtom)
    (store : InMemoryAtomStore) (id : String) :
    id ∈ (appendAll raises atoms store).2.seen ↔
      id ∈ store.seen ∨
        id ∈ (atoms.take (returned raises atoms.length)).map MemoryAtom.atomId := by
  induction atoms generalizing raises store with
  | nil => simp [appendAll]
  | cons atom atoms ih =>
    rw [appendAll, List.length_cons, returned]
    split_ifs
    · simp
    · rw [ih, InMemoryAtomStore.mem_seen_append, List.take_succ_cons, List.map_cons,
        List.mem_cons, or_assoc, or_left_comm]

/-- The atoms of a session after the loop are the ones it had and, of the atoms that were appended
before a call raised, those of the session. Here no id is there yet, nor occurs twice. -/
theorem mem_atoms_appendAll (raises : ℕ → Bool) {atoms : List MemoryAtom}
    (hnodup : (atoms.map MemoryAtom.atomId).Nodup) (store : InMemoryAtomStore)
    (hnew : ∀ atom ∈ atoms, atom.atomId ∉ store.seen) (sessionId : Option String)
    (a : MemoryAtom) :
    a ∈ (appendAll raises atoms store).2.atoms sessionId ↔
      a ∈ store.atoms sessionId ∨
        a ∈ atoms.take (returned raises atoms.length) ∧ a.sessionId = sessionId := by
  induction atoms generalizing raises store with
  | nil => simp [appendAll]
  | cons atom atoms ih =>
    rw [appendAll, List.length_cons, returned]
    rw [List.map_cons, List.nodup_cons] at hnodup
    split_ifs
    · simp
    · have hfresh := hnew atom List.mem_cons_self
      rw [ih _ hnodup.2 _ fun b hb => ?_, InMemoryAtomStore.mem_atoms_append, List.take_succ_cons,
        List.mem_cons]
      · constructor
        · rintro ((hin | ⟨rfl, hsid, -⟩) | ⟨hin, hsid⟩)
          · exact Or.inl hin
          · exact Or.inr ⟨Or.inl rfl, hsid⟩
          · exact Or.inr ⟨Or.inr hin, hsid⟩
        · rintro (hin | ⟨rfl | hin, hsid⟩)
          · exact Or.inl (Or.inl hin)
          · exact Or.inl (Or.inr ⟨rfl, hsid, hfresh⟩)
          · exact Or.inr ⟨hin, hsid⟩
      · rw [InMemoryAtomStore.mem_seen_append, not_or]
        refine ⟨fun heq => hnodup.1 ?_, hnew b (List.mem_cons_of_mem atom hb)⟩
        exact heq ▸ List.mem_map_of_mem hb

/-- What a loop over the atoms of other sessions leaves a session. -/
theorem mem_atoms_appendAll_of_ne (raises : ℕ → Bool) {atoms : List MemoryAtom}
    (store : InMemoryAtomStore) {sessionId : Option String}
    (hne : ∀ atom ∈ atoms, atom.sessionId ≠ sessionId) (a : MemoryAtom) :
    a ∈ (appendAll raises atoms store).2.atoms sessionId ↔ a ∈ store.atoms sessionId := by
  induction atoms generalizing raises store with
  | nil => rfl
  | cons atom atoms ih =>
    rw [appendAll]
    split_ifs
    · rfl
    · rw [ih _ _ fun b hb => hne b (List.mem_cons_of_mem atom hb),
        InMemoryAtomStore.mem_atoms_append]
      simp [hne atom List.mem_cons_self]

/-- The loop succeeds when no call raises. -/
theorem appendAll_result (raises : ℕ → Bool) (atoms : List MemoryAtom)
    (store : InMemoryAtomStore) : (appendAll raises atoms store).1 =
      if returned raises atoms.length = atoms.length then .ok () else .error .other := by
  induction atoms generalizing raises store with
  | nil => rfl
  | cons atom atoms ih =>
    rw [appendAll, List.length_cons, returned]
    split_ifs with hraises hlen
    · omega
    · rfl
    all_goals simp_all

/-! ### What a run leaves -/

/-- A run hands over what its extraction does. -/
theorem Pipeline.run_handed (p : Pipeline) (env : PipelineEnv) (sessionId : String)
    (events : List CaptureEvent) (finalize : Bool) (stores : MemoryStores) :
    (p.run env sessionId events finalize stores).1.handed =
      (p.extraction.extract sessionId events finalize env.now).handed := by
  unfold run
  dsimp only
  repeat' split
  all_goals rfl

/-- A run reports the atoms of its extraction, whatever raises after it. -/
theorem Pipeline.run_extracted (p : Pipeline) (env : PipelineEnv) {sessionId : String}
    {events : List CaptureEvent} {finalize : Bool} (stores : MemoryStores)
    {atoms : List MemoryAtom} {c : Option ℤ}
    (h : (p.extraction.extract sessionId events finalize env.now).result = .ok (atoms, c)) :
    (p.run env sessionId events finalize stores).1.extracted = atoms := by
  unfold run
  simp only [h]
  split_ifs with hatoms
  · exact hatoms.symm
  · rfl
  · repeat' split
    all_goals rfl

/-- A run that succeeds comes from an extraction that did. -/
theorem Pipeline.run_ok {p : Pipeline} {env : PipelineEnv} {sessionId : String}
    {events : List CaptureEvent} {finalize : Bool} {stores : MemoryStores}
    {indexed : List MemoryAtom}
    (h : (p.run env sessionId events finalize stores).1.result = .ok indexed) :
    ∃ atoms c, (p.extraction.extract sessionId events finalize env.now).result =
      .ok (atoms, c) := by
  cases hres : (p.extraction.extract sessionId events finalize env.now).result with
  | ok pair => exact ⟨pair.1, pair.2, rfl⟩
  | error e =>
    unfold run at h
    simp [hres] at h

/-- Without events a run has nothing to do. -/
theorem Pipeline.run_of_nil (p : Pipeline) (env : PipelineEnv) (sessionId : String)
    (finalize : Bool) (stores : MemoryStores) :
    p.run env sessionId [] finalize stores = (⟨[], [], .ok []⟩, stores) := by
  cases finalize <;> rfl

/-- The pairs a run has to index: none if the extraction or the embedder raises. -/
def Pipeline.pairs (p : Pipeline) (env : PipelineEnv) (sessionId : String)
    (events : List CaptureEvent) (finalize : Bool) : List (MemoryAtom × Embedding) :=
  match (p.extraction.extract sessionId events finalize env.now).result with
  | .error _ => []
  | .ok (atoms, _) =>
    if env.embedRaises then [] else atoms.zip (p.embedder (atoms.map MemoryAtom.text))

/-- What a run does to the index is what the indexing loop does with its pairs. -/
theorem Pipeline.run_index (p : Pipeline) (env : PipelineEnv) (sessionId : String)
    (events : List CaptureEvent) (finalize : Bool) (stores : MemoryStores) :
    (p.run env sessionId events finalize stores).2.index =
      (IndexingStage.run env.addRaises (p.pairs env sessionId events finalize)
        stores.index).2 := by
  unfold run pairs
  dsimp only
  cases (p.extraction.extract sessionId events finalize env.now).result with
  | error e => rfl
  | ok pair =>
    obtain ⟨atoms, c⟩ := pair
    dsimp only
    split_ifs with hatoms hembed hembed
    · rfl
    · subst hatoms
      rfl
    · rfl
    · split
      · rename_i heq
        rw [heq]
      · rename_i heq
        rw [heq]
        split <;> rfl

/-- What a run does to the atom store is what the appending loop does with the atoms the
indexing loop gave back, and nothing if that one raised. -/
theorem Pipeline.run_atoms (p : Pipeline) (env : PipelineEnv) (sessionId : String)
    (events : List CaptureEvent) (finalize : Bool) (stores : MemoryStores) :
    (p.run env sessionId events finalize stores).2.atoms =
      match (IndexingStage.run env.addRaises (p.pairs env sessionId events finalize)
        stores.index).1 with
      | .error _ => stores.atoms
      | .ok added => (appendAll env.appendRaises added stores.atoms).2 := by
  unfold run pairs
  dsimp only
  cases (p.extraction.extract sessionId events finalize env.now).result with
  | error e => rfl
  | ok pair =>
    obtain ⟨atoms, c⟩ := pair
    dsimp only
    split_ifs with hatoms hembed hembed
    · rfl
    · subst hatoms
      rfl
    · rfl
    · split
      · rename_i heq
        rw [heq]
      · rename_i heq
        rw [heq]
        dsimp only
        split
        · rename_i heq'
          rw [heq']
        · rename_i heq'
          rw [heq']

/-- A run succeeds when its loops do, and its result is what the index took. -/
theorem Pipeline.run_ok_loops {p : Pipeline} {env : PipelineEnv} {sessionId : String}
    {events : List CaptureEvent} {finalize : Bool} {stores : MemoryStores}
    {indexed atoms : List MemoryAtom} {c : Option ℤ}
    (h : (p.run env sessionId events finalize stores).1.result = .ok indexed)
    (hextract : (p.extraction.extract sessionId events finalize env.now).result =
      .ok (atoms, c)) :
    p.pairs env sessionId events finalize =
        atoms.zip (p.embedder (atoms.map MemoryAtom.text)) ∧
      (IndexingStage.run env.addRaises (p.pairs env sessionId events finalize)
        stores.index).1 = .ok indexed ∧
      (appendAll env.appendRaises indexed stores.atoms).1 = .ok () := by
  unfold run at h
  unfold pairs
  simp only [hextract] at h ⊢
  by_cases hatoms : atoms = []
  · subst hatoms
    obtain rfl : indexed = [] := by simpa [eq_comm] using h
    simp [IndexingStage.run, appendAll]
  · by_cases hembed : env.embedRaises = true
    · simp [hatoms, hembed] at h
    · simp only [hatoms, hembed, if_false, Bool.false_eq_true] at h ⊢
      refine ⟨trivial, ?_⟩
      split at h
      · cases h
      · rename_i taken index hrun
        split at h
        · cases h
        · rename_i store happend
          obtain rfl := Except.ok.inj h
          rw [hrun, happend]
          exact ⟨rfl, rfl⟩

/-- What the extraction raises, the run raises, and it touches neither store. -/
theorem Pipeline.run_of_extract_error (p : Pipeline) (env : PipelineEnv) {sessionId : String}
    {events : List CaptureEvent} {finalize : Bool} (stores : MemoryStores) {e : PipelineError}
    (h : (p.extraction.extract sessionId events finalize env.now).result = .error e) :
    (p.run env sessionId events finalize stores).1.result = .error e ∧
      (p.run env sessionId events finalize stores).2 = stores := by
  unfold run
  simp only [h, and_self]

/-- No call raises. -/
structure PipelineEnv.Quiet (env : PipelineEnv) : Prop where
  embed : env.embedRaises = false
  add : ∀ k, env.addRaises k = false
  append : ∀ k, env.appendRaises k = false

/-- If nothing raises, a run succeeds. -/
theorem Pipeline.run_quiet {p : Pipeline} {env : PipelineEnv} (hquiet : env.Quiet)
    {sessionId : String} {events : List CaptureEvent} {finalize : Bool} (stores : MemoryStores)
    {atoms : List MemoryAtom} {c : Option ℤ}
    (h : (p.extraction.extract sessionId events finalize env.now).result = .ok (atoms, c)) :
    ∃ added, (p.run env sessionId events finalize stores).1.result = .ok added := by
  unfold run
  simp only [h, hquiet.embed, Bool.false_eq_true, if_false]
  split_ifs
  · exact ⟨[], rfl⟩
  · rcases IndexingStage.run_result env.addRaises
      (atoms.zip (p.embedder (atoms.map MemoryAtom.text))) stores.index with
      ⟨hlt, -⟩ | ⟨-, added, hok, -⟩
    · rw [returned_of_quiet hquiet.add] at hlt
      omega
    · have happend := appendAll_result env.appendRaises added stores.atoms
      rw [if_pos (returned_of_quiet hquiet.append _)] at happend
      refine ⟨added, ?_⟩
      split
      · rename_i heq
        rw [heq] at hok
        cases hok
      · rename_i heq
        rw [heq] at hok
        obtain rfl := Except.ok.inj hok
        split
        · rename_i heq'
          rw [heq'] at happend
          cases happend
        · rfl

/-- No run moves a cursor. -/
theorem appendAll_cursor (raises : ℕ → Bool) (atoms : List MemoryAtom)
    (store : InMemoryAtomStore) : (appendAll raises atoms store).2.cursor = store.cursor := by
  induction atoms generalizing raises store with
  | nil => rfl
  | cons atom atoms ih =>
    unfold appendAll
    split_ifs
    · rfl
    · rw [ih, InMemoryAtomStore.append_cursor]

/-- The pipeline leaves the cursors to the worker. -/
theorem Pipeline.run_cursor (p : Pipeline) (env : PipelineEnv) (sessionId : String)
    (events : List CaptureEvent) (finalize : Bool) (stores : MemoryStores) :
    (p.run env sessionId events finalize stores).2.atoms.cursor = stores.atoms.cursor := by
  unfold run
  dsimp only
  split
  · rfl
  · split_ifs
    · rfl
    · rfl
    · split
      · rfl
      · rename_i indexed index _
        have hcursor := appendAll_cursor env.appendRaises indexed stores.atoms
        split <;> simp_all

end OpenRecall.Model
