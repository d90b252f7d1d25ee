import OpenRecall.Model.SpeakerClustering

/-!
# What operations leave of a speaker's row

Of a row the identifier's decisions need the number of turns and whether the speaker is the wearer:
its mark. Every operation of the registry does to the marks what `markAfter` says, and a run of
operations does what some first ones of them do, all of them unless one raised.
-/

set_option autoImplicit false

namespace OpenRecall.Analysis.RegistryOps

open Foundation Model

/-- The turns of a speaker and whether it is the wearer. -/
structure Mark where
  turns : ℤ
  wearer : Bool
  deriving DecidableEq

def markOf (row : SpeakerRow) : Mark := ⟨row.turnCount, row.isWearer⟩

def mark (reg : SpeakerRegistry) (id : String) : Option Mark :=
  (reg.speakers.get? id).map markOf

/-- What an operation does to a speaker's mark. -/
def markAfter (id : String) (m : Option Mark) : RegistryOp → Option Mark
  | .addSpeaker s => if id = s.speakerId then some (markOf s.toSpeakerRow) else m
  | .incrementTurn id' => if id = id' then m.map fun r => { r with turns := r.turns + 1 } else m
  | .setIsWearer id' isWearer =>
    if id = id' then m.map fun r => { r with wearer := isWearer } else m
  | .deleteSpeaker id' => if id = id' then none else m
  | _ => m

/-- A change of a row that its mark does not show. -/
theorem map_get?_modifyRow {speakerId : String} {f : SpeakerRow → SpeakerRow}
    (hf : ∀ row, markOf (f row) = markOf row) (speakers : Dict String SpeakerRow) (id : String) :
    ((modifyRow speakerId f speakers).get? id).map markOf = (speakers.get? id).map markOf := by
  rw [get?_modifyRow]
  split_ifs
  · rw [Option.map_map]
    exact congrArg (fun g => (speakers.get? id).map g) (funext hf)
  · rfl

theorem mark_recomputeCentroid {cfg : SpeakerConfig} {ops : FloatOps} {now speakerId : String}
    {reg reg' : SpeakerRegistry} (h : reg.recomputeCentroid cfg ops now speakerId = some reg')
    (id : String) : mark reg' id = mark reg id := by
  rcases SpeakerRegistry.recomputeCentroid_cases h with rfl | ⟨c, rfl⟩
  · rfl
  · simp only [mark, SpeakerRegistry.speakers_mapSpeakers]
    exact map_get?_modifyRow (fun row => by rfl) reg.speakers id

theorem mark_mapSpeakers {speakerId : String} {f : SpeakerRow → SpeakerRow} {g : Mark → Mark}
    (hf : ∀ row, markOf (f row) = g (markOf row)) (reg : SpeakerRegistry) (id : String) :
    mark (reg.mapSpeakers (modifyRow speakerId f)) id =
      if id = speakerId then (mark reg id).map g else mark reg id := by
  unfold mark
  rw [SpeakerRegistry.speakers_mapSpeakers, get?_modifyRow]
  split_ifs
  · rw [Option.map_map, Option.map_map]
    exact congrArg (fun g => (reg.speakers.get? id).map g) (funext hf)
  · rfl

theorem mark_addSpeaker (s : Speaker) (reg : SpeakerRegistry) (id : String) :
    mark (reg.addSpeaker s) id =
      if id = s.speakerId then some (markOf s.toSpeakerRow) else mark reg id := by
  split_ifs with hid
  · subst hid
    unfold mark
    cases reg with
    | inMemory reg =>
      simp [SpeakerRegistry.addSpeaker, InMemorySpeakerRegistry.addSpeaker,
        SpeakerRegistry.speakers]
    | sqlite reg =>
      simp [SpeakerRegistry.addSpeaker, SqliteSpeakerRegistry.addSpeaker,
        SpeakerRegistry.speakers, markOf]
  · unfold mark
    rw [SpeakerRegistry.get?_addSpeaker_of_ne hid]

/-- **What an operation does to the marks.**
SOURCE: memory/speaker_registry.py:125-247, memory/speaker_registry.py:288-438 -/
theorem mark_attempt {cfg : SpeakerConfig} {ops : FloatOps} {now : String} {op : RegistryOp}
    {reg reg' : SpeakerRegistry} (h : op.attempt cfg ops now reg = some reg') (id : String) :
    mark reg' id = markAfter id (mark reg id) op := by
  cases op with
  | recomputeCentroid id' => exact mark_recomputeCentroid h id
  | addSpeaker s =>
    obtain rfl := Option.some.inj h
    exact mark_addSpeaker s reg id
  | addConfirmedEmbedding id' e confidence =>
    obtain rfl := Option.some.inj h
    simp [RegistryOp.apply, mark, markAfter]
  | incrementTurn id' =>
    obtain rfl := Option.some.inj h
    exact mark_mapSpeakers (fun _ => rfl) reg id
  | setDisplayName id' name =>
    obtain rfl := Option.some.inj h
    simp only [RegistryOp.apply, SpeakerRegistry.setDisplayName, mark,
      SpeakerRegistry.speakers_mapSpeakers]
    exact map_get?_modifyRow (fun row => by rfl) reg.speakers id
  | updateEnrollment id' status =>
    obtain rfl := Option.some.inj h
    simp only [RegistryOp.apply, SpeakerRegistry.updateEnrollment, mark,
      SpeakerRegistry.speakers_mapSpeakers]
    exact map_get?_modifyRow (fun row => by rfl) reg.speakers id
  | setIsWearer id' isWearer =>
    obtain rfl := Option.some.inj h
    exact mark_mapSpeakers (fun _ => rfl) reg id
  | moveEmbeddings fromId toId =>
    obtain rfl := Option.some.inj h
    simp [RegistryOp.apply, mark, markAfter]
  | deleteSpeaker id' =>
    obtain rfl := Option.some.inj h
    simp only [RegistryOp.apply, mark, markAfter, SpeakerRegistry.speakers_deleteSpeaker,
      Dict.get?_erase]
    split_ifs <;> rfl

/-- **What a run of operations does to the marks**: as some first ones of them do, and as all do
when none raised. -/
theorem mark_runAll (cfg : SpeakerConfig) (ops : FloatOps) (iso : ℕ → String) (k : ℕ)
    (todo : List RegistryOp) (reg : SpeakerRegistry) :
    ∃ done, done <+: todo ∧
      (∀ id, mark (RegistryOp.runAll cfg ops iso k todo reg).1 id =
        done.foldl (markAfter id) (mark reg id)) ∧
      ((RegistryOp.runAll cfg ops iso k todo reg).2 = true → done = todo) := by
  induction todo generalizing k reg with
  | nil => exact ⟨[], List.prefix_rfl, fun _ => rfl, fun _ => rfl⟩
  | cons op todo ih =>
    rw [RegistryOp.runAll]
    cases hop : op.attempt cfg ops (iso k) reg with
    | none => exact ⟨[], List.nil_prefix, fun _ => rfl, fun h => by cases h⟩
    | some reg' =>
      obtain ⟨done, hfirst, hmark, hall⟩ := ih (k + 1) reg'
      refine ⟨op :: done, (List.prefix_cons_inj op).mpr hfirst, fun id => ?_, fun h => ?_⟩
      · rw [List.foldl_cons, ← mark_attempt hop]
        exact hmark id
      · rw [hall h]

/-- What every operation of a run keeps of a speaker's mark, the run keeps. -/
theorem invariant_runAll {cfg : SpeakerConfig} {ops : FloatOps} {id : String}
    {todo : List RegistryOp} {I : Option Mark → Prop}
    (h : ∀ op ∈ todo, ∀ m, I m → I (markAfter id m op)) (iso : ℕ → String) (k : ℕ)
    {reg : SpeakerRegistry} (hreg : I (mark reg id)) :
    I (mark (RegistryOp.runAll cfg ops iso k todo reg).1 id) := by
  obtain ⟨done, hfirst, hmark, -⟩ := mark_runAll cfg ops iso k todo reg
  rw [hmark]
  have hdone : ∀ op ∈ done, ∀ m, I m → I (markAfter id m op) :=
    fun op hop => h op (hfirst.subset hop)
  clear hfirst hmark
  generalize mark reg id = m at hreg ⊢
  induction done generalizing m with
  | nil => exact hreg
  | cons op done ih =>
    exact ih (fun op' hop' => hdone op' (List.mem_cons_of_mem op hop')) _
      (hdone op List.mem_cons_self m hreg)

end OpenRecall.Analysis.RegistryOps
