import OpenRecall.Analysis.RegistryOps
import OpenRecall.Analysis.SpeakerCorrection

/-!
# When a new speaker is made

A pending cluster is to become a speaker as soon as enough embeddings have come within the window.
What the identifier looks at is whether the cluster began within the window. A cluster that began
earlier never becomes a speaker, however much its voice talks: each hop keeps it from being
dropped, and its beginning stays.
-/

set_option autoImplicit false

namespace OpenRecall.Analysis.SpeakerMinting

open Foundation Model OpenRecall.Analysis.RegistryOps

/-- A call to `identify`, or what else becomes of the registry between two calls. -/
inductive SpeakerStep where
  | hop (h : Hop)
  | registry (reg : SpeakerRegistry)

section

variable (cfg : IdentifierConfig) (ops : FloatOps) (embedder : SpeakerEmbedder)

def step (s : SpeakerIdentifier) : SpeakerStep → SpeakerIdentifier
  | .hop h => (s.identify cfg ops embedder h).1
  | .registry reg => { s with registry := reg }

/-- The pending cluster that gets the embedding of a hop, with it; none when the hop is matched to
a speaker.
SOURCE: ingest/speaker_identifier.py:144-192 -/
def assignedTo (h : Hop) (s : SpeakerIdentifier) : Option PendingCluster :=
  match h.vec with
  | none => none
  | some vec =>
    if (recognised cfg.toSpeakerConfig ops vec s.registry).isSome then none
    else
      match SpeakerIdentifier.closestPending cfg ops vec (s.gcPending cfg (h.clock 0)).pending with
      | none => some (SpeakerIdentifier.newCluster h vec)
      | some (p, _) => some (SpeakerIdentifier.joined h vec p)

/-- The cluster has enough embeddings, and the last of them were assigned within the window. -/
def LastWithin (now : ℚ) (p : PendingCluster) : Prop :=
  cfg.corroborateN ≤ p.joinedS.length ∧
    ∀ t ∈ p.joinedS.rtake cfg.corroborateN, now - t ≤ cfg.corroborateWindowS

/-- The call makes a new speaker. -/
def Mints (s : SpeakerIdentifier) (h : Hop) (id : String) : Prop :=
  mark s.registry id = none ∧ mark (s.identify cfg ops embedder h).1.registry id ≠ none

/-- **A call makes a new speaker exactly of a cluster whose last embeddings are within the
window**, and never of fewer.
SOURCE: ingest/speaker_identifier.py:11-16, ingest/speaker_identifier.py:95-99 -/
def MintsExactly (s : SpeakerIdentifier) : SpeakerStep → Prop
  | .hop h => ∀ id, mark s.registry id = none →
    (Mints cfg ops embedder s h id → ∃ p, assignedTo cfg ops h s = some p ∧ p.speakerId = id ∧
      cfg.corroborateN ≤ p.embeddings.length) ∧
    (Mints cfg ops embedder s h id ↔ ∃ p, assignedTo cfg ops h s = some p ∧ p.speakerId = id ∧
      LastWithin cfg (h.clock 2) p)
  | .registry _ => True

/-- **The window counts from the first embedding as it does from the last ones**: the embeddings
of a cluster that has enough have one mean, and the first of them is within the window, exactly
when the last ones are.
SOURCE: ingest/speaker_identifier.py:192-199 -/
def FirstCounts (s : SpeakerIdentifier) : SpeakerStep → Prop
  | .hop h => ∀ p, assignedTo cfg ops h s = some p → mark s.registry p.speakerId = none →
    cfg.corroborateN ≤ p.joinedS.length →
      ((mean ops p.embeddings).isSome ∧ h.clock 2 - p.firstSeenS ≤ cfg.corroborateWindowS ↔
        ∀ t ∈ p.joinedS.rtake cfg.corroborateN, h.clock 2 - t ≤ cfg.corroborateWindowS)
  | .registry _ => True

end

variable {cfg : IdentifierConfig} {ops : FloatOps} {embedder : SpeakerEmbedder}

/-! ## Rows -/

/-- Operations that leave the rows that there are. -/
theorem mark_runAll_eq_none {id : String} {todo : List RegistryOp}
    (h : ∀ op ∈ todo, ∀ m, markAfter id m op = none ↔ m = none) (iso : ℕ → String) (k : ℕ)
    (reg : SpeakerRegistry) :
    mark (RegistryOp.runAll cfg.toSpeakerConfig ops iso k todo reg).1 id = none ↔
      mark reg id = none := by
  constructor
  · intro hnone
    by_contra hsome
    exact invariant_runAll (I := (· ≠ none)) (fun op hop m => mt (h op hop m).mp) iso k hsome hnone
  · exact invariant_runAll (I := (· = none)) (fun op hop m => (h op hop m).mpr) iso k

theorem markAfter_incrementTurn_eq_none (id id' : String) (m : Option Mark) :
    markAfter id m (.incrementTurn id') = none ↔ m = none := by
  rw [markAfter]
  split_ifs
  · exact Option.map_eq_none_iff
  · rfl

theorem markAfter_setIsWearer_eq_none (id id' : String) (isWearer : Bool) (m : Option Mark) :
    markAfter id m (.setIsWearer id' isWearer) = none ↔ m = none := by
  rw [markAfter]
  split_ifs
  · exact Option.map_eq_none_iff
  · rfl

/-- Confirming a speaker makes none. -/
theorem mark_confirm_eq_none (h : Hop) (speakerId : String) (vec : Embedding) (confidence : Double)
    (s : SpeakerIdentifier) (id : String) :
    mark (s.confirm cfg ops h speakerId vec confidence).1.registry id = none ↔
      mark s.registry id = none := by
  have hrun := @mark_runAll_eq_none cfg ops id (confirmOps speakerId vec confidence) (by
    intro op hop m
    simp only [confirmOps, List.mem_cons, List.not_mem_nil, or_false] at hop
    obtain rfl | rfl | rfl := hop
    · rfl
    · rfl
    · exact markAfter_incrementTurn_eq_none id speakerId m) h.iso 0 s.registry
  unfold SpeakerIdentifier.confirm
  split
  · rename_i heq
    rwa [heq] at hrun
  · rename_i heq
    rwa [heq] at hrun

/-- Neither does taking one for the wearer. -/
theorem mark_tagWearer_eq_none (h : Hop) (k : ℕ) (sid : String) (s : SpeakerIdentifier)
    (id : String) : mark (s.tagWearer cfg ops h k sid).registry id = none ↔
      mark s.registry id = none := by
  refine mark_runAll_eq_none (fun op hop m => ?_) h.iso k s.registry
  simp only [tagWearerOps, List.mem_cons, List.not_mem_nil, or_false] at hop
  obtain rfl | rfl | rfl := hop
  · exact markAfter_setIsWearer_eq_none id sid true m
  · rfl
  · rfl

/-- What the enrollment comes to. -/
theorem applyColdstartEnrollment_cases (h : Hop) (k : ℕ) (sid : String) (s : SpeakerIdentifier) :
    s.applyColdstartEnrollment cfg ops h k sid = s ∨
      s.applyColdstartEnrollment cfg ops h k sid = s.tagWearer cfg ops h k sid := by
  unfold SpeakerIdentifier.applyColdstartEnrollment
  dsimp only
  split_ifs
  · exact .inl rfl
  · exact .inl rfl
  · exact .inr rfl
  · cases s.registry.get sid with
    | none => exact .inl rfl
    | some me =>
      dsimp only
      split
      · exact .inr rfl
      · split_ifs
        · exact .inr rfl
        · exact .inl rfl

/-- **A cluster that becomes a speaker has a row then**, also when its centroid cannot be computed.
SOURCE: ingest/speaker_identifier.py:202-219 -/
theorem mark_mint_eq_none (h : Hop) (p : PendingCluster) (s : SpeakerIdentifier) (id : String) :
    mark (s.mint cfg ops embedder h p).1.registry id = none ↔
      id ≠ p.speakerId ∧ mark s.registry id = none := by
  have hrun : mark (RegistryOp.runAll cfg.toSpeakerConfig ops h.iso 1
      (mintOps embedder p (h.iso 0)) s.registry).1 id = none ↔
        id ≠ p.speakerId ∧ mark s.registry id = none := by
    have hrest := @mark_runAll_eq_none cfg ops id
      (p.embeddings.map (fun e => .addConfirmedEmbedding p.speakerId e (.finite 1)) ++
        .recomputeCentroid p.speakerId :: p.embeddings.map fun _ => .incrementTurn p.speakerId) (by
      intro op hop m
      rcases List.mem_append.mp hop with hadd | hlater
      · obtain ⟨e, -, rfl⟩ := List.mem_map.mp hadd
        rfl
      · rcases List.mem_cons.mp hlater with rfl | hturn
        · rfl
        · obtain ⟨e, -, rfl⟩ := List.mem_map.mp hturn
          exact markAfter_incrementTurn_eq_none id p.speakerId m) h.iso 2
      (s.registry.addSpeaker (newSpeakerRow embedder p.speakerId p.centroid (h.iso 0)))
    rw [mark_addSpeaker] at hrest
    refine Iff.trans hrest ?_
    show (if id = p.speakerId then _ else _) = none ↔ _
    split_ifs with hid
    · simp [hid]
    · simp [hid]
  unfold SpeakerIdentifier.mint
  dsimp only
  split
  · rename_i heq
    rwa [heq] at hrun
  · rename_i heq
    rw [heq] at hrun
    obtain hsame | htag := @applyColdstartEnrollment_cases cfg ops h
      ((mintOps embedder p (h.iso 0)).length + 1) p.speakerId _
    · rw [hsame]
      exact hrun
    · rw [htag, mark_tagWearer_eq_none]
      exact hrun

theorem mark_cluster_eq_none (h : Hop) (vec : Embedding) (s : SpeakerIdentifier) (id : String) :
    mark (s.cluster cfg ops embedder h vec).1.registry id = none ↔
      (∀ p, s.completed cfg ops h vec = some p → id ≠ p.speakerId) ∧ mark s.registry id = none := by
  cases hp : s.completed cfg ops h vec with
  | none =>
    rw [(@SpeakerIdentifier.cluster_of_not_completed cfg ops embedder h vec s hp).1]
    simp
  | some p =>
    rw [SpeakerIdentifier.cluster_of_completed hp, mark_mint_eq_none]
    simp

/-! ## What a call makes -/

/-- A call makes a speaker of the cluster that its hop completes. -/
theorem mints_iff_completed {s : SpeakerIdentifier} {h : Hop} {id : String}
    (hnew : mark s.registry id = none) :
    Mints cfg ops embedder s h id ↔ ∃ vec p, h.vec = some vec ∧
      recognised cfg.toSpeakerConfig ops vec s.registry = none ∧
      s.completed cfg ops h vec = some p ∧ p.speakerId = id := by
  rw [Mints, and_iff_right hnew, SpeakerIdentifier.identify]
  cases hvec : h.vec with
  | none => simpa using hnew
  | some vec =>
    have hdecided := @SpeakerIdentifier.decided_matchVec cfg ops embedder h vec s
    dsimp only
    generalize s.matchVec cfg ops embedder h vec = result at hdecided ⊢
    cases hdecided with
    | confirmed matched sim hid hsim =>
      rw [ne_eq, mark_confirm_eq_none]
      simp [hnew, hid]
    | counted matched sim hid hsim hstreak => simp [hnew, hid]
    | promoted matched sim hid hsim hstreak =>
      rw [ne_eq, mark_confirm_eq_none]
      simp [hnew, hid]
    | clustered streaks hnone hstreaks =>
      rw [ne_eq, mark_cluster_eq_none, and_iff_left hnew]
      have hsame : ({ s with tentativeStreak := streaks } : SpeakerIdentifier).completed cfg ops h
        vec = s.completed cfg ops h vec := rfl
      rw [hsame]
      push Not
      constructor
      · rintro ⟨p, hp, rfl⟩
        exact ⟨vec, p, rfl, hnone, hp, rfl⟩
      · rintro ⟨vec', p, hvec', -, hp, rfl⟩
        obtain rfl := Option.some.inj hvec'
        exact ⟨p, hp, rfl⟩

/-- **What the identifier looks at**: whether the embeddings of the cluster have a mean, and
whether there are enough since the first one.
SOURCE: ingest/speaker_identifier.py:192-199 -/
theorem mints_iff_corroborated (hn : 2 ≤ cfg.corroborateN) {s : SpeakerIdentifier} {h : Hop}
    {id : String} (hnew : mark s.registry id = none) :
    Mints cfg ops embedder s h id ↔ ∃ p, assignedTo cfg ops h s = some p ∧ p.speakerId = id ∧
      (mean ops p.embeddings).isSome ∧ cfg.corroborateN ≤ p.embeddings.length ∧
      h.clock 2 - p.firstSeenS ≤ cfg.corroborateWindowS := by
  rw [mints_iff_completed hnew]
  unfold assignedTo
  cases hvec : h.vec with
  | none => simp
  | some vec =>
    dsimp only
    cases hmatched : recognised cfg.toSpeakerConfig ops vec s.registry with
    | some matched => simp [hmatched]
    | none =>
      rw [Option.isSome_none, if_neg Bool.false_ne_true]
      have hfirst : ∀ p, (SpeakerIdentifier.joined h vec p).firstSeenS = p.firstSeenS :=
        fun _ => rfl
      constructor
      · rintro ⟨vec', q, hvec', -, hq, rfl⟩
        obtain rfl := Option.some.inj hvec'
        obtain ⟨p, i, centroid, hclosest, hmean, hcount, hwindow, rfl⟩ :=
          SpeakerIdentifier.completed_eq_some_iff.mp hq
        rw [hclosest]
        exact ⟨_, rfl, rfl, Option.isSome_of_eq_some hmean, hcount, hwindow⟩
      · rintro ⟨p, hp, rfl, hmean, hcount, hwindow⟩
        cases hclosest : SpeakerIdentifier.closestPending cfg ops vec
          (s.gcPending cfg (h.clock 0)).pending with
        | none =>
          -- a cluster that has just begun has one embedding
          rw [hclosest] at hp
          obtain rfl := Option.some.inj hp
          have hone : cfg.corroborateN ≤ 1 := hcount
          omega
        | some best =>
          obtain ⟨q, i⟩ := best
          rw [hclosest] at hp
          obtain rfl := Option.some.inj hp
          obtain ⟨centroid, hcentroid⟩ := Option.isSome_iff_exists.mp hmean
          exact ⟨vec, _, rfl, hmatched, SpeakerIdentifier.completed_eq_some_iff.mpr
            ⟨q, i, centroid, hclosest, hcentroid, hcount, hwindow, rfl⟩, rfl⟩

/-! ## Runs -/

/-- Every cluster has the time of each of its embeddings. -/
def Timed (s : SpeakerIdentifier) : Prop :=
  ∀ p ∈ s.pending, p.joinedS.length = p.embeddings.length

theorem mem_gcPending {now : ℚ} {s : SpeakerIdentifier} {p : PendingCluster}
    (hp : p ∈ (s.gcPending cfg now).pending) : p ∈ s.pending :=
  List.mem_of_mem_filter hp

/-- The closest cluster is one of them. -/
theorem mem_of_closestPending {vec : Embedding} {pending : List PendingCluster}
    {best : PendingCluster × ℕ}
    (h : SpeakerIdentifier.closestPending cfg ops vec pending = some best) :
    pending[best.2]? = some best.1 := by
  unfold SpeakerIdentifier.closestPending at h
  dsimp only at h
  split_ifs at h
  have hfold : ∀ (clusters : List (PendingCluster × ℕ)) (start : Option (PendingCluster × ℕ) × Double),
      (clusters.foldl (SpeakerIdentifier.closerCluster ops vec) start).1 = some best →
        best ∈ clusters ∨ start.1 = some best := by
    intro clusters
    induction clusters with
    | nil => exact fun start hstart => .inr hstart
    | cons c clusters ih =>
      intro start hstart
      rw [List.foldl_cons] at hstart
      obtain hmem | hnext := ih _ hstart
      · exact .inl (List.mem_cons_of_mem c hmem)
      · unfold SpeakerIdentifier.closerCluster at hnext
        dsimp only at hnext
        split_ifs at hnext
        · obtain rfl := Option.some.inj hnext
          exact .inl List.mem_cons_self
        · exact .inr hnext
  obtain hmem | hnone := hfold _ _ h
  · exact List.mem_zipIdx_iff_getElem?.mp hmem
  · cases hnone

theorem Timed.joined {p : PendingCluster} (hp : p.joinedS.length = p.embeddings.length) (h : Hop)
    (vec : Embedding) :
    (SpeakerIdentifier.joined h vec p).joinedS.length =
      (SpeakerIdentifier.joined h vec p).embeddings.length := by
  unfold SpeakerIdentifier.joined
  rw [List.length_append, List.length_append, hp, List.length_singleton, List.length_singleton]

theorem Timed.gcPending {s : SpeakerIdentifier} (h : Timed s) (now : ℚ) :
    Timed (s.gcPending cfg now) :=
  fun p hp => h p (mem_gcPending hp)

/-- With a hop in one of them the clusters are those from before, but for that one. -/
theorem Timed.clustersAfter {s : SpeakerIdentifier} (hs : Timed s) (h : Hop) (vec : Embedding) :
    ∀ p ∈ s.clustersAfter cfg ops h vec, p.joinedS.length = p.embeddings.length := by
  have hkept := @Timed.gcPending cfg s hs (h.clock 0)
  unfold SpeakerIdentifier.clustersAfter
  dsimp only
  cases hclosest : SpeakerIdentifier.closestPending cfg ops vec
    (s.gcPending cfg (h.clock 0)).pending with
  | none =>
    intro p hp
    rcases List.mem_append.mp hp with hold | hnew
    · exact hkept p hold
    · obtain rfl := List.mem_singleton.mp hnew
      rfl
  | some best =>
    obtain ⟨q, i⟩ := best
    have hq := Timed.joined (hkept q (List.mem_of_getElem? (mem_of_closestPending hclosest))) h vec
    dsimp only
    cases mean ops (SpeakerIdentifier.joined h vec q).embeddings with
    | none =>
      intro p hp
      obtain hold | rfl := List.mem_or_eq_of_mem_set hp
      · exact hkept p hold
      · exact hq
    | some centroid =>
      intro p hp
      obtain hold | rfl := List.mem_or_eq_of_mem_set hp
      · exact hkept p hold
      · exact hq

/-- Making a speaker takes clusters away. -/
theorem pending_mint_subset {h : Hop} {q : PendingCluster} {s : SpeakerIdentifier} :
    ∀ p ∈ (s.mint cfg ops embedder h q).1.pending, p ∈ s.pending := by
  intro p hp
  unfold SpeakerIdentifier.mint at hp
  dsimp only at hp
  split at hp
  · exact hp
  · obtain hsame | htag := @applyColdstartEnrollment_cases cfg ops h
      ((mintOps embedder q (h.iso 0)).length + 1) q.speakerId _
    · rw [hsame] at hp
      exact List.mem_of_mem_filter hp
    · rw [htag] at hp
      exact List.mem_of_mem_filter hp

theorem Timed.cluster {s : SpeakerIdentifier} (hs : Timed s) (h : Hop) (vec : Embedding) :
    Timed (s.cluster cfg ops embedder h vec).1 := by
  have hafter := @Timed.clustersAfter cfg ops s hs h vec
  cases hp : s.completed cfg ops h vec with
  | none =>
    rw [Timed, (@SpeakerIdentifier.cluster_of_not_completed cfg ops embedder h vec s hp).1]
    exact hafter
  | some p =>
    rw [SpeakerIdentifier.cluster_of_completed hp]
    exact fun q hq => hafter q (pending_mint_subset q hq)

/-- Confirming a speaker leaves the clusters. -/
theorem pending_confirm (h : Hop) (id : String) (vec : Embedding) (sim : Double)
    (s : SpeakerIdentifier) : (s.confirm cfg ops h id vec sim).1.pending = s.pending := by
  unfold SpeakerIdentifier.confirm
  split <;> rfl

theorem Timed.step {s : SpeakerIdentifier} (hs : Timed s) (st : SpeakerStep) :
    Timed (step cfg ops embedder s st) := by
  cases st with
  | registry reg => exact hs
  | hop h =>
    show Timed (s.identify cfg ops embedder h).1
    rw [SpeakerIdentifier.identify]
    cases h.vec with
    | none => exact hs
    | some vec =>
      have hdecided := @SpeakerIdentifier.decided_matchVec cfg ops embedder h vec s
      dsimp only
      generalize s.matchVec cfg ops embedder h vec = result at hdecided ⊢
      cases hdecided with
      | confirmed id sim hid hsim =>
        rw [Timed, pending_confirm]
        exact hs
      | counted id sim hid hsim hstreak => exact hs
      | promoted id sim hid hsim hstreak =>
        rw [Timed, pending_confirm]
        exact hs
      | clustered streaks hnone hstreaks =>
        have hsame : Timed { s with tentativeStreak := streaks } := hs
        exact hsame.cluster h vec

theorem length_assignedTo {s : SpeakerIdentifier} (hs : Timed s) {h : Hop} {p : PendingCluster}
    (hp : assignedTo cfg ops h s = some p) : p.joinedS.length = p.embeddings.length := by
  unfold assignedTo at hp
  cases hvec : h.vec with
  | none =>
    rw [hvec] at hp
    cases hp
  | some vec =>
    rw [hvec] at hp
    dsimp only at hp
    split_ifs at hp
    cases hclosest : SpeakerIdentifier.closestPending cfg ops vec
      (s.gcPending cfg (h.clock 0)).pending with
    | none =>
      rw [hclosest] at hp
      obtain rfl := Option.some.inj hp
      rfl
    | some best =>
      obtain ⟨q, i⟩ := best
      rw [hclosest] at hp
      obtain rfl := Option.some.inj hp
      exact Timed.joined (@Timed.gcPending cfg s hs (h.clock 0) q
        (List.mem_of_getElem? (mem_of_closestPending hclosest))) h vec

/-- A call makes speakers as it should exactly when its window counts from the right
embedding. -/
theorem mintsExactly_iff (hn : 2 ≤ cfg.corroborateN) {s : SpeakerIdentifier} (hs : Timed s)
    (st : SpeakerStep) :
    MintsExactly cfg ops embedder s st ↔ FirstCounts cfg ops s st := by
  cases st with
  | registry reg => exact Iff.rfl
  | hop h =>
    constructor
    · intro hexact p hp hnew hcount
      have hmints := (hexact p.speakerId hnew).2
      rw [mints_iff_corroborated hn hnew] at hmints
      have hlength := length_assignedTo hs hp
      constructor
      · rintro ⟨hmean, hwindow⟩
        obtain ⟨q, hq, -, -, hlast⟩ := hmints.mp ⟨p, hp, rfl, hmean, hlength ▸ hcount, hwindow⟩
        rw [hp] at hq
        obtain rfl := Option.some.inj hq
        exact hlast
      · intro hlast
        obtain ⟨q, hq, -, hmean, -, hwindow⟩ := hmints.mpr ⟨p, hp, rfl, hcount, hlast⟩
        rw [hp] at hq
        obtain rfl := Option.some.inj hq
        exact ⟨hmean, hwindow⟩
    · intro hfirst id hnew
      rw [mints_iff_corroborated hn hnew]
      constructor
      · rintro ⟨p, hp, hid, -, hcount, -⟩
        exact ⟨p, hp, hid, hcount⟩
      · constructor
        · rintro ⟨p, hp, rfl, hmean, hcount, hwindow⟩
          have hcount' := (length_assignedTo hs hp).symm ▸ hcount
          exact ⟨p, hp, rfl, hcount', (hfirst p hp hnew hcount').mp ⟨hmean, hwindow⟩⟩
        · rintro ⟨p, hp, rfl, hcount, hlast⟩
          obtain ⟨hmean, hwindow⟩ := (hfirst p hp hnew hcount).mpr hlast
          exact ⟨p, hp, rfl, hmean, length_assignedTo hs hp ▸ hcount, hwindow⟩

/-- **In every run, speakers are made as they should be exactly when the window counts from the
right embedding at every hop.**
SOURCE: ingest/speaker_identifier.py:157-219 -/
theorem minting_iff (cfg : IdentifierConfig) (hn : 2 ≤ cfg.corroborateN) (ops : FloatOps)
    (embedder : SpeakerEmbedder) (reg : SpeakerRegistry) (steps : List SpeakerStep) :
    EveryStep (step cfg ops embedder) (MintsExactly cfg ops embedder) { registry := reg } steps ↔
      EveryStep (step cfg ops embedder) (FirstCounts cfg ops) { registry := reg } steps := by
  apply everyStep_iff_of_invariant (I := Timed) (A := fun _ _ => True)
  · exact fun _ st hs _ _ => hs.step st
  · exact fun _ st hs _ => mintsExactly_iff hn hs st
  · exact fun p hp => by cases hp
  · exact everyStep_true _ steps

/-! ## A slow start -/

/-- A hop of one voice at a time. -/
def hopAt (now : ℚ) : Hop := ⟨some [.finite 1, .finite 0], fun _ => now, fun _ => "t", "c"⟩

/-- The voice is heard every twenty seconds, and then once more. -/
def slowStart : List SpeakerStep := [.hop (hopAt 0), .hop (hopAt 20), .hop (hopAt 40)]

/-- **A voice that begins slowly is not made a speaker**: its last three hops are within 21
seconds. -/
theorem not_always_mintsExactly : ¬ ∀ (cfg : IdentifierConfig), 2 ≤ cfg.corroborateN →
    ∀ (ops : FloatOps) (embedder : SpeakerEmbedder) (reg : SpeakerRegistry)
      (steps : List SpeakerStep),
      EveryStep (step cfg ops embedder) (MintsExactly cfg ops embedder) { registry := reg }
        steps := by
  intro h
  have hlast := (h {} (by decide) SpeakerCorrection.exactOps ⟨2, none⟩ (.inMemory {})
    (slowStart ++ [.hop (hopAt 41)])).at_split "c" (by decide +kernel)
  have hmints := hlast.2.mpr ⟨⟨"c", List.replicate 4 [.finite 1, .finite 0],
    [.finite 1, .finite 0], 0, 41, [0, 20, 40, 41]⟩, by decide +kernel, rfl, by decide +kernel,
    by decide +kernel⟩
  exact hmints.2 (by decide +kernel)

/-- With the default settings the condition is the exact one for a voice that begins slowly. -/
theorem minting_iff_slowStart :
    EveryStep (step {} SpeakerCorrection.exactOps ⟨2, none⟩)
        (MintsExactly {} SpeakerCorrection.exactOps ⟨2, none⟩) { registry := .inMemory {} }
        slowStart ↔
      EveryStep (step {} SpeakerCorrection.exactOps ⟨2, none⟩)
        (FirstCounts {} SpeakerCorrection.exactOps) { registry := .inMemory {} } slowStart :=
  minting_iff {} (by decide) SpeakerCorrection.exactOps ⟨2, none⟩ (.inMemory {}) slowStart

end OpenRecall.Analysis.SpeakerMinting
