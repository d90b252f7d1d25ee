import OpenRecall.Analysis.SpeakerMinting

/-!
# Who is taken for the wearer

A speaker is taken for the wearer when it is made, if it leads all others by a turn and no other
cluster is close to becoming a speaker. There is never a second wearer. But this is the only time
that a speaker is looked at. A speaker that is passed over then, because somebody else was close or
had as many turns, is not looked at again, however far it leads later on.
-/

set_option autoImplicit false

namespace OpenRecall.Analysis.WearerEnrollment

open Foundation Model OpenRecall.Analysis.RegistryOps OpenRecall.Analysis.SpeakerMinting

/-- The speaker is tagged as the wearer. -/
def Wears (reg : SpeakerRegistry) (id : String) : Prop :=
  (mark reg id).map Mark.wearer = some true

/-- The speaker has a turn more than every other one. -/
def Leads (marks : String → Option Mark) (id : String) : Prop :=
  ∃ m, marks id = some m ∧
    ∀ other m', other ≠ id → marks other = some m' → m'.turns + 1 ≤ m.turns

section

variable (cfg : IdentifierConfig) (ops : FloatOps) (embedder : SpeakerEmbedder)

/-- No cluster but the speaker's own is within one embedding of corroboration. -/
def Quiet (pending : List PendingCluster) (id : String) : Prop :=
  ∀ q ∈ pending, q.speakerId ≠ id → q.embeddings.length + 1 < cfg.corroborateN

/-- The id that is drawn is new, as ids that are drawn are. -/
def FreshId (s : SpeakerIdentifier) (h : Hop) : Prop :=
  (∀ q ∈ s.pending, q.speakerId ≠ h.newId) ∧ mark s.registry h.newId = none

def step (s : SpeakerIdentifier) (h : Hop) : SpeakerIdentifier :=
  (s.identify cfg ops embedder h).1

/-- **At most one wearer, tagged when it leads and no other voice is close; and after a call that
confirms a speaker there is one, if somebody leads and no other voice is close.**
SOURCE: ingest/speaker_identifier.py:18-20, ingest/speaker_identifier.py:223-253 -/
structure Enrolled (reg : SpeakerRegistry) (s' : SpeakerIdentifier) (answer : Identified) :
    Prop where
  one : ∀ a b, Wears s'.registry a → Wears s'.registry b → a = b
  stays : ∀ a, Wears reg a → Wears s'.registry a
  tagged : ∀ a, Wears s'.registry a → ¬ Wears reg a →
    Leads (mark s'.registry) a ∧ Quiet cfg s'.pending a
  resolved : (∃ id confidence, answer = .speaker id confidence .confirmed) →
    ∀ a, Leads (mark s'.registry) a → Quiet cfg s'.pending a → ∃ b, Wears s'.registry b

/-- A call enrolls as it should. -/
def Enrolls (s : SpeakerIdentifier) (h : Hop) : Prop :=
  Enrolled cfg s.registry (s.identify cfg ops embedder h).1 (s.identify cfg ops embedder h).2

/-- The marks once a speaker has one more turn. -/
def withTurn (marks : String → Option Mark) (id : String) : String → Option Mark :=
  Function.update marks id ((marks id).map fun m => { m with turns := m.turns + 1 })

/-- The marks once a cluster is a speaker. -/
def withSpeaker (marks : String → Option Mark) (p : PendingCluster) : String → Option Mark :=
  Function.update marks p.speakerId (some ⟨p.embeddings.length, false⟩)

/-- **Nobody is left to be tagged**: there is a wearer, or a match that confirms a speaker leaves no
leader without another voice close, and neither does a cluster that becomes a speaker, unless it
is the one that leads. -/
def Settled (s : SpeakerIdentifier) (h : Hop) : Prop :=
  (∃ b, Wears s.registry b) ∨ ∀ vec, h.vec = some vec →
    (∀ id, recognised cfg.toSpeakerConfig ops vec s.registry = some id →
      ((bestMatch ops vec s.registry.matchable).2.ge cfg.confirmThreshold ∨
        cfg.corroborateN ≤ (s.tentativeStreak.get? id).getD 0 + 1) →
      ∀ a, Leads (withTurn (mark s.registry) id) a → ¬ Quiet cfg s.pending a) ∧
    (recognised cfg.toSpeakerConfig ops vec s.registry = none →
      ∀ p, s.completed cfg ops h vec = some p →
        ∀ a, a ≠ p.speakerId → Leads (withSpeaker (mark s.registry) p) a →
          ¬ Quiet cfg ((s.clustersAfter cfg ops h vec).filter fun q => q.speakerId ≠ p.speakerId) a)

end

variable {cfg : IdentifierConfig} {ops : FloatOps} {embedder : SpeakerEmbedder}

/-! ## Marks -/

theorem mark_tagWearer (h : Hop) (k : ℕ) (sid : String) (s : SpeakerIdentifier) (id : String) :
    mark (s.tagWearer cfg ops h k sid).registry id =
      if id = sid then (mark s.registry id).map fun m => { m with wearer := true }
      else mark s.registry id := by
  obtain ⟨done, -, hmark, hall⟩ := mark_runAll cfg.toSpeakerConfig ops h.iso k (tagWearerOps sid)
    s.registry
  obtain rfl := hall rfl
  exact hmark id

theorem wears_tagWearer {h : Hop} {k : ℕ} {sid : String} {s : SpeakerIdentifier} {a : String}
    (hsid : mark s.registry sid ≠ none) :
    Wears (s.tagWearer cfg ops h k sid).registry a ↔ a = sid ∨ Wears s.registry a := by
  obtain ⟨m, hm⟩ := Option.ne_none_iff_exists'.mp hsid
  unfold Wears
  rw [mark_tagWearer]
  split_ifs with ha
  · simp [ha, hm]
  · simp [ha]

/-- Tagging leaves the turns. -/
theorem leads_tagWearer (h : Hop) (k : ℕ) (sid : String) (s : SpeakerIdentifier) {a : String}
    (hleads : Leads (mark s.registry) a) :
    Leads (mark (s.tagWearer cfg ops h k sid).registry) a := by
  have hturns : ∀ id, (mark (s.tagWearer cfg ops h k sid).registry id).map Mark.turns =
      (mark s.registry id).map Mark.turns := by
    intro id
    rw [mark_tagWearer]
    split_ifs
    · rw [Option.map_map]
      rfl
    · rfl
  obtain ⟨m, hm, hothers⟩ := hleads
  have ha := hturns a
  rw [hm, Option.map_some] at ha
  obtain ⟨m₁, hm₁, hturns₁⟩ := Option.map_eq_some_iff.mp ha
  refine ⟨m₁, hm₁, fun other m' hne hm' => ?_⟩
  have hother := hturns other
  rw [hm', Option.map_some] at hother
  obtain ⟨m₂, hm₂, hturns₂⟩ := Option.map_eq_some_iff.mp hother.symm
  have hle := hothers other m₂ hne hm₂
  omega

/-- A match that is confirmed adds a turn. -/
theorem mark_confirm {h : Hop} {id : String} {vec : Embedding} {sim : Double}
    {s : SpeakerIdentifier} (hok : (s.confirm cfg ops h id vec sim).2 ≠ .raised) :
    mark (s.confirm cfg ops h id vec sim).1.registry = withTurn (mark s.registry) id := by
  obtain ⟨done, -, hmark, hall⟩ := mark_runAll cfg.toSpeakerConfig ops h.iso 0
    (confirmOps id vec sim) s.registry
  unfold SpeakerIdentifier.confirm at hok ⊢
  split at hok
  · exact absurd rfl hok
  · rename_i heq
    rw [heq] at hmark hall
    obtain rfl := hall rfl
    funext a
    refine (hmark a).trans ?_
    unfold withTurn
    rw [Function.update_apply]
    show (if a = id then _ else _) = _
    split_ifs with ha
    · rw [ha]
      rfl
    · rfl

/-- A turn does not make a wearer. -/
theorem wearer_incrementTurn {id sid : String} {m : Option Mark} {w : Option Bool}
    (hm : m.map Mark.wearer = w) :
    (markAfter id m (.incrementTurn sid)).map Mark.wearer = w := by
  rw [markAfter]
  split_ifs
  · rw [Option.map_map]
    exact hm
  · exact hm

theorem wears_confirm {h : Hop} {id : String} {vec : Embedding} {sim : Double}
    {s : SpeakerIdentifier} {a : String} :
    Wears (s.confirm cfg ops h id vec sim).1.registry a ↔ Wears s.registry a := by
  have hops : ∀ w : Option Bool, ∀ op ∈ confirmOps id vec sim, ∀ m : Option Mark,
      m.map Mark.wearer = w → (markAfter a m op).map Mark.wearer = w := by
    intro w op hop m hm
    simp only [confirmOps, List.mem_cons, List.not_mem_nil, or_false] at hop
    obtain rfl | rfl | rfl := hop
    · exact hm
    · exact hm
    · exact wearer_incrementTurn hm
  have hrun := @invariant_runAll cfg.toSpeakerConfig ops a _ _
    (hops ((mark s.registry a).map Mark.wearer)) h.iso 0 s.registry rfl
  unfold Wears
  unfold SpeakerIdentifier.confirm
  split
  · rename_i heq
    rw [heq] at hrun
    rw [hrun]
  · rename_i heq
    rw [heq] at hrun
    rw [hrun]

/-! ## Making a speaker -/

/-- Turns are counted for each embedding. -/
theorem foldl_incrementTurn (sid : String) (embeddings : List Embedding) (turns : ℤ)
    (wearer : Bool) :
    (embeddings.map fun _ => RegistryOp.incrementTurn sid).foldl (markAfter sid)
        (some ⟨turns, wearer⟩) = some ⟨turns + embeddings.length, wearer⟩ := by
  induction embeddings generalizing turns with
  | nil => simp
  | cons e embeddings ih =>
    rw [List.map_cons, List.foldl_cons, markAfter, if_pos rfl, Option.map_some, ih]
    simp only [List.length_cons]
    congr 2
    push_cast
    ring

theorem foldl_addConfirmedEmbedding (sid id : String) (embeddings : List Embedding)
    (m : Option Mark) :
    (embeddings.map fun e => RegistryOp.addConfirmedEmbedding sid e (.finite 1)).foldl
      (markAfter id) m = m := by
  induction embeddings with
  | nil => rfl
  | cons e embeddings ih => exact ih

/-- A speaker that is new has a turn for each embedding. -/
theorem foldl_mintOps (p : PendingCluster) (ts id : String) (m : Option Mark) :
    (mintOps embedder p ts).foldl (markAfter id) m =
      if id = p.speakerId then some ⟨p.embeddings.length, false⟩ else m := by
  unfold mintOps
  rw [List.cons_append, List.foldl_cons, List.foldl_append, foldl_addConfirmedEmbedding,
    List.foldl_cons]
  show (List.map (fun _ => RegistryOp.incrementTurn p.speakerId) p.embeddings).foldl (markAfter id)
    (if id = p.speakerId then some ⟨0, false⟩ else m) = _
  split_ifs with hid
  · rw [hid, foldl_incrementTurn, Int.zero_add]
  · have hsame : ∀ es : List Embedding,
        (es.map fun _ => RegistryOp.incrementTurn p.speakerId).foldl (markAfter id) m = m := by
      intro es
      induction es with
      | nil => rfl
      | cons e es ih => rw [List.map_cons, List.foldl_cons, markAfter, if_neg hid, ih]
    exact hsame p.embeddings

/-- What making a speaker keeps of a mark. -/
theorem invariant_mintOps {p : PendingCluster} {ts id : String} {I : Option Mark → Prop}
    (hadd : ∀ m, I m → I (if id = p.speakerId then some ⟨0, false⟩ else m))
    (hturn : ∀ m, I m → I (markAfter id m (.incrementTurn p.speakerId))) :
    ∀ op ∈ mintOps embedder p ts, ∀ m, I m → I (markAfter id m op) := by
  intro op hop
  unfold mintOps at hop
  rcases List.mem_cons.mp hop with rfl | hlater
  · exact hadd
  · rcases List.mem_append.mp hlater with hembedding | hrest
    · obtain ⟨e, -, rfl⟩ := List.mem_map.mp hembedding
      exact fun _ hm => hm
    · rcases List.mem_cons.mp hrest with rfl | hincrement
      · exact fun _ hm => hm
      · obtain ⟨e, -, rfl⟩ := List.mem_map.mp hincrement
        exact hturn

/-- A speaker that could not be made is not the wearer. -/
theorem not_wears_runAll_mintOps {h : Hop} {k : ℕ} {p : PendingCluster} {reg : SpeakerRegistry}
    {a : String} (ha : ¬ Wears reg a) :
    ¬ Wears (RegistryOp.runAll cfg.toSpeakerConfig ops h.iso k (mintOps embedder p (h.iso 0))
      reg).1 a := by
  refine @invariant_runAll cfg.toSpeakerConfig ops a _ (fun m => ¬ m.map Mark.wearer = some true)
    (invariant_mintOps (fun m hm => ?_) fun m hm => ?_) h.iso k reg ha
  · split_ifs
    · simp
    · exact hm
  · rw [wearer_incrementTurn rfl]
    exact hm

/-- The others are as they were. -/
theorem wears_runAll_mintOps_of_ne {h : Hop} {k : ℕ} {p : PendingCluster} {reg : SpeakerRegistry}
    {a : String} (hne : a ≠ p.speakerId) (ha : Wears reg a) :
    Wears (RegistryOp.runAll cfg.toSpeakerConfig ops h.iso k (mintOps embedder p (h.iso 0))
      reg).1 a := by
  refine @invariant_runAll cfg.toSpeakerConfig ops a _ (fun m => m.map Mark.wearer = some true)
    (invariant_mintOps (fun m hm => ?_) fun m hm => ?_) h.iso k reg ha
  · rw [if_neg hne]
    exact hm
  · exact wearer_incrementTurn hm

/-! ## The enrollment -/

theorem mem_listSpeakers {reg : SpeakerRegistry} {t : Speaker} :
    t ∈ reg.listSpeakers ↔ reg.speakers.get? t.speakerId = some t.toSpeakerRow := by
  unfold SpeakerRegistry.listSpeakers
  rw [List.mem_map, Dict.get?_eq_some_iff]
  constructor
  · rintro ⟨e, he, rfl⟩
    exact he
  · intro he
    exact ⟨(t.speakerId, t.toSpeakerRow), he, rfl⟩

theorem exists_listed {reg : SpeakerRegistry} {id : String} {m : Mark}
    (h : mark reg id = some m) :
    ∃ t ∈ reg.listSpeakers, t.speakerId = id ∧ t.turnCount = m.turns ∧ t.isWearer = m.wearer := by
  obtain ⟨row, hrow, rfl⟩ := Option.map_eq_some_iff.mp h
  exact ⟨Speaker.ofEntry (id, row), mem_listSpeakers.mpr hrow, rfl, rfl, rfl⟩

theorem mark_of_listed {reg : SpeakerRegistry} {t : Speaker} (h : t ∈ reg.listSpeakers) :
    mark reg t.speakerId = some ⟨t.turnCount, t.isWearer⟩ := by
  unfold mark
  rw [mem_listSpeakers.mp h]
  rfl

theorem any_isWearer_iff (reg : SpeakerRegistry) :
    (reg.listSpeakers.any fun t => t.isWearer) = true ↔ ∃ b, Wears reg b := by
  rw [List.any_eq_true]
  constructor
  · rintro ⟨t, ht, hwearer⟩
    refine ⟨t.speakerId, ?_⟩
    rw [Wears, mark_of_listed ht, Option.map_some, hwearer]
  · rintro ⟨b, hb⟩
    obtain ⟨m, hm, hwearer⟩ := Option.map_eq_some_iff.mp hb
    obtain ⟨t, ht, -, -, hflag⟩ := exists_listed hm
    exact ⟨t, ht, hflag.trans hwearer⟩

theorem closeToCorroborating_iff (s : SpeakerIdentifier) (sid : String) :
    s.closeToCorroborating cfg sid = true ↔ ¬ Quiet cfg s.pending sid := by
  have hpos := cfg.corroborateN_pos
  unfold SpeakerIdentifier.closeToCorroborating Quiet
  rw [List.any_eq_true]
  push Not
  simp only [decide_eq_true_eq]
  constructor
  · rintro ⟨q, hq, hne, hcount⟩
    exact ⟨q, hq, hne, by omega⟩
  · rintro ⟨q, hq, hne, hcount⟩
    exact ⟨q, hq, hne, by omega⟩

/-- The speaker leads when it has a turn more than the most that another one has. -/
theorem leads_iff_max {reg : SpeakerRegistry} {sid : String} {m : Mark}
    (hm : mark reg sid = some m) {maxOther : ℤ}
    (hmax : ((reg.listSpeakers.filter (·.speakerId ≠ sid)).map (·.turnCount)).max? =
      some maxOther) : 1 ≤ m.turns - maxOther ↔ Leads (mark reg) sid := by
  obtain ⟨hmem, hle⟩ := List.max?_eq_some_iff.mp hmax
  constructor
  · intro hlead
    refine ⟨m, hm, fun other m' hne hm' => ?_⟩
    obtain ⟨t, ht, rfl, hturns, -⟩ := exists_listed hm'
    have hbelow := hle t.turnCount (List.mem_map_of_mem
      (List.mem_filter.mpr ⟨ht, by simpa using hne⟩))
    omega
  · rintro ⟨m₁, hm₁, hothers⟩
    rw [hm] at hm₁
    obtain rfl := Option.some.inj hm₁
    obtain ⟨t, ht, rfl⟩ := List.mem_map.mp hmem
    obtain ⟨hlisted, hne⟩ := List.mem_filter.mp ht
    have hlead := hothers t.speakerId _ (by simpa using hne) (mark_of_listed hlisted)
    dsimp only at hlead
    omega

/-- Without others a speaker leads. -/
theorem leads_of_alone {reg : SpeakerRegistry} {sid : String} {m : Mark}
    (hm : mark reg sid = some m) (halone : ∀ t ∈ reg.listSpeakers, t.speakerId = sid) :
    Leads (mark reg) sid := by
  refine ⟨m, hm, fun other m' hne hm' => ?_⟩
  obtain ⟨t, ht, rfl, -, -⟩ := exists_listed hm'
  exact absurd (halone t ht) hne

/-- **What the enrollment decides**: the speaker is tagged exactly when there is no wearer, no other
cluster is close, and it leads.
SOURCE: ingest/speaker_identifier.py:223-253 -/
theorem enrollment_spec (h : Hop) (k : ℕ) {sid : String} {s : SpeakerIdentifier} {m : Mark}
    (hm : mark s.registry sid = some m) :
    (s.applyColdstartEnrollment cfg ops h k sid = s.tagWearer cfg ops h k sid ∧
        (¬ ∃ b, Wears s.registry b) ∧ Quiet cfg s.pending sid ∧ Leads (mark s.registry) sid) ∨
      (s.applyColdstartEnrollment cfg ops h k sid = s ∧
        ((∃ b, Wears s.registry b) ∨ ¬ Quiet cfg s.pending sid ∨
          ¬ Leads (mark s.registry) sid)) := by
  obtain ⟨t, ht, rfl, hturns, -⟩ := exists_listed hm
  unfold SpeakerIdentifier.applyColdstartEnrollment
  dsimp only
  by_cases hwearer : ∃ b, Wears s.registry b
  · rw [if_pos ((any_isWearer_iff s.registry).mpr hwearer)]
    exact .inr ⟨rfl, .inl hwearer⟩
  · rw [if_neg (mt (any_isWearer_iff s.registry).mp hwearer)]
    by_cases hquiet : Quiet cfg s.pending t.speakerId
    · rw [if_neg fun hclose => (closeToCorroborating_iff s t.speakerId).mp hclose hquiet]
      by_cases hsole : s.registry.listSpeakers.length ≤ 1
      · rw [if_pos hsole]
        refine .inl ⟨rfl, hwearer, hquiet, leads_of_alone hm fun t' ht' => ?_⟩
        obtain ⟨only, honly⟩ := List.length_eq_one_iff.mp
          (le_antisymm hsole (List.length_pos_of_mem ht))
        rw [honly, List.mem_singleton] at ht ht'
        rw [ht, ht']
      · rw [if_neg hsole]
        have hget : s.registry.get t.speakerId = some t := by
          unfold SpeakerRegistry.get
          rw [mem_listSpeakers.mp ht]
          rfl
        rw [hget]
        dsimp only
        cases hmax : ((s.registry.listSpeakers.filter
            (·.speakerId ≠ t.speakerId)).map (·.turnCount)).max? with
        | none =>
          refine .inl ⟨rfl, hwearer, hquiet, leads_of_alone hm fun t' ht' => ?_⟩
          by_contra hne
          have hnil := List.map_eq_nil_iff.mp (List.max?_eq_none_iff.mp hmax)
          exact List.filter_eq_nil_iff.mp hnil t' ht' (by simpa using hne)
        | some maxOther =>
          dsimp only
          have hleads := leads_iff_max hm hmax
          rw [hturns]
          by_cases hlead : 1 ≤ m.turns - maxOther
          · rw [if_pos hlead]
            exact .inl ⟨rfl, hwearer, hquiet, hleads.mp hlead⟩
          · rw [if_neg hlead]
            exact .inr ⟨rfl, .inr (.inr (mt hleads.mpr hlead))⟩
    · rw [if_pos ((closeToCorroborating_iff s t.speakerId).mpr hquiet)]
      exact .inr ⟨rfl, .inr (.inl hquiet)⟩

/-! ## Steps -/

/-- There is one wearer at most, it is no pending cluster, and the clusters have different ids. -/
structure Sound (s : SpeakerIdentifier) : Prop where
  ids : (s.pending.map PendingCluster.speakerId).Nodup
  one : ∀ a b, Wears s.registry a → Wears s.registry b → a = b
  pending : ∀ q ∈ s.pending, ¬ Wears s.registry q.speakerId

/-- A hop joins a cluster or begins one. -/
theorem ids_clustersAfter (h : Hop) (vec : Embedding) (s : SpeakerIdentifier) :
    (s.clustersAfter cfg ops h vec).map PendingCluster.speakerId =
        (s.gcPending cfg (h.clock 0)).pending.map PendingCluster.speakerId ∨
      (s.clustersAfter cfg ops h vec).map PendingCluster.speakerId =
        (s.gcPending cfg (h.clock 0)).pending.map PendingCluster.speakerId ++ [h.newId] := by
  have hset : ∀ (pending : List PendingCluster) (p q : PendingCluster) (i : ℕ),
      pending[i]? = some p → q.speakerId = p.speakerId →
        (pending.set i q).map PendingCluster.speakerId = pending.map PendingCluster.speakerId := by
    intro pending p q i hp hq
    obtain ⟨hlt, hget⟩ := List.getElem?_eq_some_iff.mp hp
    have hlength : i < (pending.map PendingCluster.speakerId).length := by rwa [List.length_map]
    have hsame : (pending.map PendingCluster.speakerId)[i] = q.speakerId := by
      rw [List.getElem_map, hget, hq]
    rw [List.map_set, ← hsame, List.set_getElem_self]
  unfold SpeakerIdentifier.clustersAfter
  dsimp only
  cases hclosest : SpeakerIdentifier.closestPending cfg ops vec
    (s.gcPending cfg (h.clock 0)).pending with
  | none =>
    refine .inr ?_
    rw [List.map_append]
    rfl
  | some best =>
    obtain ⟨p, i⟩ := best
    have hp := mem_of_closestPending hclosest
    dsimp only
    cases mean ops (SpeakerIdentifier.joined h vec p).embeddings with
    | none => exact .inl (hset _ p _ i hp rfl)
    | some centroid => exact .inl (hset _ p _ i hp rfl)

/-- The completed cluster is one of them. -/
theorem mem_clustersAfter {h : Hop} {vec : Embedding} {s : SpeakerIdentifier} {p : PendingCluster}
    (hp : s.completed cfg ops h vec = some p) : p ∈ s.clustersAfter cfg ops h vec := by
  obtain ⟨q, i, centroid, hclosest, hmean, -, -, rfl⟩ :=
    SpeakerIdentifier.completed_eq_some_iff.mp hp
  obtain ⟨hlt, -⟩ := List.getElem?_eq_some_iff.mp (mem_of_closestPending hclosest)
  unfold SpeakerIdentifier.clustersAfter
  dsimp only
  rw [hclosest]
  dsimp only
  rw [hmean]
  exact List.mem_set hlt _

theorem not_wears_of_none {reg : SpeakerRegistry} {id : String} (h : mark reg id = none) :
    ¬ Wears reg id := by
  rw [Wears, h]
  simp

/-- With a hop in one of the clusters. -/
theorem Sound.clustersAfter {s : SpeakerIdentifier} (hs : Sound s) {h : Hop} (hnew : FreshId s h)
    (vec : Embedding) : Sound { s with pending := s.clustersAfter cfg ops h vec } := by
  have hkept : ∀ id ∈ (s.gcPending cfg (h.clock 0)).pending.map PendingCluster.speakerId,
      ∃ q ∈ s.pending, q.speakerId = id := by
    intro id hid
    obtain ⟨q, hq, rfl⟩ := List.mem_map.mp hid
    exact ⟨q, mem_gcPending hq, rfl⟩
  have hids : ((s.gcPending cfg (h.clock 0)).pending.map PendingCluster.speakerId).Nodup :=
    hs.ids.sublist (List.filter_sublist.map _)
  have hsafe : ∀ id ∈ (s.gcPending cfg (h.clock 0)).pending.map PendingCluster.speakerId,
      ¬ Wears s.registry id := by
    intro id hid
    obtain ⟨q, hq, rfl⟩ := hkept id hid
    exact hs.pending q hq
  obtain hsame | hmore := @ids_clustersAfter cfg ops h vec s
  · refine ⟨hsame ▸ hids, hs.one, fun q hq => hsafe _ ?_⟩
    rw [← hsame]
    exact List.mem_map_of_mem hq
  · refine ⟨?_, hs.one, fun q hq => ?_⟩
    · show List.Nodup ((s.clustersAfter cfg ops h vec).map PendingCluster.speakerId)
      rw [hmore]
      refine List.nodup_append.mpr ⟨hids, List.nodup_singleton _, fun a ha b hb => ?_⟩
      obtain rfl := List.mem_singleton.mp hb
      obtain ⟨q, hq, rfl⟩ := hkept a ha
      exact hnew.1 q hq
    · have hmem := List.mem_map_of_mem (f := PendingCluster.speakerId) hq
      rw [hmore] at hmem
      rcases List.mem_append.mp hmem with hold | hlast
      · exact hsafe _ hold
      · rw [List.mem_singleton.mp hlast]
        exact not_wears_of_none hnew.2

theorem Sound.confirm {s : SpeakerIdentifier} (hs : Sound s) (h : Hop) (id : String)
    (vec : Embedding) (sim : Double) : Sound (s.confirm cfg ops h id vec sim).1 := by
  refine ⟨by rw [pending_confirm]; exact hs.ids, fun a b ha hb => ?_, fun q hq hwears => ?_⟩
  · exact hs.one a b (wears_confirm.mp ha) (wears_confirm.mp hb)
  · rw [pending_confirm] at hq
    exact hs.pending q hq (wears_confirm.mp hwears)

/-- **How a cluster becomes a speaker**: unless it raises, the speaker has a turn for each
embedding, is enrolled, and is no cluster any more. No other speaker's tag changes before.
SOURCE: ingest/speaker_identifier.py:202-219 -/
theorem mint_spec {s : SpeakerIdentifier} (hs : Sound s) (h : Hop) {p : PendingCluster}
    (hp : p ∈ s.pending) :
    ((s.mint cfg ops embedder h p).2 = .raised ∧
        (s.mint cfg ops embedder h p).1.pending = s.pending ∧
        ∀ a, Wears (s.mint cfg ops embedder h p).1.registry a ↔ Wears s.registry a) ∨
      ∃ (k : ℕ) (t : SpeakerIdentifier),
        t.pending = s.pending.filter (fun q => q.speakerId ≠ p.speakerId) ∧
        mark t.registry = withSpeaker (mark s.registry) p ∧
        (s.mint cfg ops embedder h p).1 = t.applyColdstartEnrollment cfg ops h k p.speakerId := by
  obtain ⟨done, -, hmark, hall⟩ := mark_runAll cfg.toSpeakerConfig ops h.iso 1
    (mintOps embedder p (h.iso 0)) s.registry
  have hwears : ∀ a, Wears (RegistryOp.runAll cfg.toSpeakerConfig ops h.iso 1
      (mintOps embedder p (h.iso 0)) s.registry).1 a ↔ Wears s.registry a := by
    intro a
    constructor
    · intro ha
      by_contra hnot
      exact not_wears_runAll_mintOps hnot ha
    · intro ha
      have hne : a ≠ p.speakerId := fun heq => hs.pending p hp (heq ▸ ha)
      exact wears_runAll_mintOps_of_ne hne ha
  unfold SpeakerIdentifier.mint
  dsimp only
  split
  · rename_i heq
    rw [heq] at hwears
    exact .inl ⟨rfl, rfl, hwears⟩
  · rename_i heq
    rw [heq] at hmark hall
    obtain rfl := hall rfl
    refine .inr ⟨_, _, ?_, ?_, rfl⟩
    · rfl
    · funext a
      refine (hmark a).trans ?_
      rw [foldl_mintOps, withSpeaker, Function.update_apply]

/-- The tags are as before where a speaker has just been made. -/
theorem wears_withSpeaker {s t : SpeakerIdentifier} (hs : Sound s) {p : PendingCluster}
    (hp : p ∈ s.pending) (hmark : mark t.registry = withSpeaker (mark s.registry) p) (a : String) :
    Wears t.registry a ↔ Wears s.registry a := by
  unfold Wears
  rw [hmark, withSpeaker, Function.update_apply]
  split_ifs with ha
  · have hnot := hs.pending p hp
    rw [Wears, ← ha] at hnot
    simp [hnot]
  · rfl

/-- A call after which the same speakers are tagged as before. -/
theorem Enrolled.of_same {s s' : SpeakerIdentifier} {answer : Identified} (hs : Sound s)
    (hwears : ∀ a, Wears s'.registry a ↔ Wears s.registry a)
    (hresolved : (∃ id confidence, answer = .speaker id confidence .confirmed) →
      (¬ ∃ b, Wears s.registry b) → ∀ a, Leads (mark s'.registry) a → ¬ Quiet cfg s'.pending a) :
    Enrolled cfg s.registry s' answer where
  one a b ha hb := hs.one a b ((hwears a).mp ha) ((hwears b).mp hb)
  stays a ha := (hwears a).mpr ha
  tagged a ha hnot := absurd ((hwears a).mp ha) hnot
  resolved hanswer a hleads hquiet := by
    by_contra hnobody
    refine hresolved hanswer (fun hsome => hnobody ?_) a hleads hquiet
    obtain ⟨b, hb⟩ := hsome
    exact ⟨b, (hwears b).mpr hb⟩

/-- **A cluster that becomes a speaker is enrolled as it should be**, and what follows it is sound.
SOURCE: ingest/speaker_identifier.py:202-253 -/
theorem enrolled_mint {s : SpeakerIdentifier} (hs : Sound s) (h : Hop) {p : PendingCluster}
    (hp : p ∈ s.pending)
    (hsettled : (∃ b, Wears s.registry b) ∨ ∀ a, a ≠ p.speakerId →
      Leads (withSpeaker (mark s.registry) p) a →
        ¬ Quiet cfg (s.pending.filter fun q => q.speakerId ≠ p.speakerId) a) :
    Enrolled cfg s.registry (s.mint cfg ops embedder h p).1
        (s.mint cfg ops embedder h p).2 ∧
      Sound (s.mint cfg ops embedder h p).1 := by
  obtain ⟨hraised, hpending, hwears⟩ | ⟨k, t, hpending, hmark, hstate⟩ :=
    @mint_spec cfg ops embedder s hs h p hp
  · constructor
    · refine Enrolled.of_same hs hwears fun hanswer => ?_
      obtain ⟨id, confidence, hspeaker⟩ := hanswer
      rw [hraised] at hspeaker
      cases hspeaker
    · refine ⟨hpending ▸ hs.ids, fun a b ha hb => ?_, fun q hq hwearer => ?_⟩
      · exact hs.one a b ((hwears a).mp ha) ((hwears b).mp hb)
      · exact hs.pending q (hpending ▸ hq) ((hwears _).mp hwearer)
  · have hwears := wears_withSpeaker hs hp hmark
    have hm : mark t.registry p.speakerId = some ⟨p.embeddings.length, false⟩ := by
      rw [hmark, withSpeaker, Function.update_self]
    have hids : (t.pending.map PendingCluster.speakerId).Nodup := by
      rw [hpending]
      exact hs.ids.sublist (List.filter_sublist.map _)
    have hkept : ∀ q ∈ t.pending, q ∈ s.pending ∧ q.speakerId ≠ p.speakerId := by
      intro q hq
      rw [hpending] at hq
      obtain ⟨hmem, hne⟩ := List.mem_filter.mp hq
      exact ⟨hmem, by simpa using hne⟩
    rw [hstate]
    obtain ⟨htag, hnobody, hquiet, hleads⟩ | ⟨hsame, hwhy⟩ :=
      @enrollment_spec cfg ops h k p.speakerId t _ hm
    · -- the new speaker is tagged, and it is the only one
      rw [htag]
      have hnew : ∀ a, Wears (t.tagWearer cfg ops h k p.speakerId).registry a →
          a = p.speakerId := by
        intro a ha
        obtain heq | hold := (wears_tagWearer (by rw [hm]; exact Option.some_ne_none _)).mp ha
        · exact heq
        · exact absurd ⟨a, hold⟩ hnobody
      refine ⟨⟨fun a b ha hb => (hnew a ha).trans (hnew b hb).symm, fun a ha => ?_,
        fun a ha _ => ?_, fun _ a _ _ => ⟨p.speakerId, ?_⟩⟩, hids, ?_, fun q hq hwearer => ?_⟩
      · exact absurd ⟨a, (hwears a).mpr ha⟩ hnobody
      · rw [hnew a ha]
        exact ⟨leads_tagWearer h k p.speakerId t hleads, hquiet⟩
      · exact (wears_tagWearer (by rw [hm]; exact Option.some_ne_none _)).mpr (.inl rfl)
      · exact fun a b ha hb => (hnew a ha).trans (hnew b hb).symm
      · exact (hkept q hq).2 (hnew _ hwearer)
    · rw [hsame]
      refine ⟨Enrolled.of_same hs hwears fun _ hnobody a hleads hquiet => ?_, hids, ?_,
        fun q hq hwearer => ?_⟩
      · by_cases ha : a = p.speakerId
        · subst ha
          obtain ⟨b, hb⟩ | hnoisy | hbehind := hwhy
          · exact hnobody ⟨b, (hwears b).mp hb⟩
          · exact hnoisy hquiet
          · exact hbehind hleads
        · rw [hmark] at hleads
          rw [hpending] at hquiet
          exact hsettled.resolve_left hnobody a ha hleads hquiet
      · exact fun a b ha hb => hs.one a b ((hwears a).mp ha) ((hwears b).mp hb)
      · exact hs.pending q (hkept q hq).1 ((hwears _).mp hwearer)

/-- **A call enrolls as it should when nobody is left to be tagged.** -/
theorem enrolls_step {s : SpeakerIdentifier} (hs : Sound s) {h : Hop} (hnew : FreshId s h)
    (hsettled : Settled cfg ops s h) :
    Enrolls cfg ops embedder s h ∧ Sound (step cfg ops embedder s h) := by
  unfold Enrolls step
  rw [SpeakerIdentifier.identify]
  cases hvec : h.vec with
  | none =>
    refine ⟨Enrolled.of_same hs (fun _ => Iff.rfl) fun hanswer => ?_, hs⟩
    obtain ⟨id, confidence, hspeaker⟩ := hanswer
    cases hspeaker
  | some vec =>
    have hdecided := @SpeakerIdentifier.decided_matchVec cfg ops embedder h vec s
    dsimp only
    generalize s.matchVec cfg ops embedder h vec = result at hdecided ⊢
    cases hdecided with
    | confirmed id sim hid hsim hbest =>
      refine ⟨Enrolled.of_same hs (fun _ => wears_confirm) fun hanswer hnobody => ?_,
        hs.confirm h id vec sim⟩
      obtain ⟨id', confidence, hspeaker⟩ := hanswer
      rw [mark_confirm (by rw [hspeaker]; exact Identified.noConfusion), pending_confirm]
      exact ((hsettled.resolve_left hnobody) vec hvec).1 id hid (.inl (by rw [hbest]; exact hsim))
    | counted id sim hid hsim hstreak =>
      refine ⟨Enrolled.of_same hs (fun _ => Iff.rfl) fun hanswer => ?_, hs.ids, hs.one, hs.pending⟩
      obtain ⟨id', confidence, hspeaker⟩ := hanswer
      cases hspeaker
    | promoted id sim hid hsim hstreak =>
      have hs' : ∀ streaks, Sound { s with tentativeStreak := streaks } :=
        fun _ => ⟨hs.ids, hs.one, hs.pending⟩
      refine ⟨Enrolled.of_same hs (fun _ => wears_confirm) fun hanswer hnobody => ?_,
        (hs' _).confirm h id vec sim⟩
      obtain ⟨id', confidence, hspeaker⟩ := hanswer
      rw [mark_confirm (by rw [hspeaker]; exact Identified.noConfusion), pending_confirm]
      exact ((hsettled.resolve_left hnobody) vec hvec).1 id hid (.inr hstreak)
    | clustered streaks hnone hstreaks =>
      have hs' : Sound { s with
          tentativeStreak := streaks
          pending := s.clustersAfter cfg ops h vec } := by
        obtain ⟨hids, hone, hpending⟩ := @Sound.clustersAfter cfg ops s hs h hnew vec
        exact ⟨hids, hone, hpending⟩
      cases hp : ({ s with tentativeStreak := streaks } : SpeakerIdentifier).completed cfg ops h
        vec with
      | none =>
        obtain ⟨hstate, hanswer⟩ := @SpeakerIdentifier.cluster_of_not_completed cfg ops embedder h vec
          { s with tentativeStreak := streaks } hp
        rw [hstate]
        refine ⟨Enrolled.of_same hs (fun _ => Iff.rfl) fun hconfirmed => ?_, hs'⟩
        obtain ⟨id, confidence, hspeaker⟩ := hconfirmed
        obtain hraised | hnobody := hanswer
        · rw [hraised] at hspeaker
          cases hspeaker
        · rw [hnobody] at hspeaker
          cases hspeaker
      | some p =>
        rw [SpeakerIdentifier.cluster_of_completed hp]
        exact enrolled_mint hs' h (mem_clustersAfter hp)
          (hsettled.imp_right fun hopen => (hopen vec hvec).2 hnone p hp)

/-- **In every run from an empty registry in which nobody is left to be tagged, the wearer is
enrolled as it should be.**
SOURCE: ingest/speaker_identifier.py:202-258, ingest/speaker_identifier.py:18-20 -/
theorem enrolls_run (cfg : IdentifierConfig) (ops : FloatOps) (embedder : SpeakerEmbedder)
    {reg : SpeakerRegistry} (hempty : ∀ id, mark reg id = none) (hops : List Hop)
    (hsteps : EveryStep (step cfg ops embedder)
      (fun s h => FreshId s h ∧ Settled cfg ops s h) { registry := reg } hops) :
    EveryStep (step cfg ops embedder) (Enrolls cfg ops embedder) { registry := reg } hops := by
  refine EveryStep.of_invariant (I := Sound) (fun s h hs hstep => ?_) (fun s h hs hstep => ?_) ?_
    hsteps
  · exact (enrolls_step hs hstep.1 hstep.2).2
  · exact (enrolls_step hs hstep.1 hstep.2).1
  · exact ⟨List.nodup_nil, fun a _ ha => absurd ha (not_wears_of_none (hempty a)),
      fun q hq => by cases hq⟩

/-! ## Two voices at once -/

instance (pending : List PendingCluster) (id : String) : Decidable (Quiet cfg pending id) :=
  inferInstanceAs (Decidable (∀ q ∈ pending, _ → _))

instance (s : SpeakerIdentifier) (h : Hop) : Decidable (FreshId s h) :=
  inferInstanceAs (Decidable (_ ∧ _))

theorem mark_of_no_speakers {reg : SpeakerRegistry} (h : reg.listSpeakers = []) (id : String) :
    mark reg id = none := by
  by_contra hsome
  obtain ⟨m, hm⟩ := Option.ne_none_iff_exists'.mp hsome
  obtain ⟨t, ht, -⟩ := exists_listed hm
  rw [h] at ht
  cases ht

/-- A speaker that is listed leads when the others that are listed have fewer turns. -/
theorem leads_of_listed {reg : SpeakerRegistry} {t : Speaker} (ht : t ∈ reg.listSpeakers)
    (h : ∀ t' ∈ reg.listSpeakers, t'.speakerId ≠ t.speakerId → t'.turnCount + 1 ≤ t.turnCount) :
    Leads (mark reg) t.speakerId := by
  refine ⟨_, mark_of_listed ht, fun other m' hne hm' => ?_⟩
  obtain ⟨t', ht', rfl, hturns, -⟩ := exists_listed hm'
  have hle := h t' ht' hne
  rw [hturns] at hle
  exact hle

/-- A hop of one of two voices at right angles. -/
def hopOf (vec : Embedding) (newId : String) : Hop := ⟨some vec, fun _ => 0, fun _ => "t", newId⟩

def voiceA : Embedding := [.finite 1, .finite 0]

def voiceB : Embedding := [.finite 0, .finite 1]

/-- Two voices that talk in turn until both are speakers. -/
def interleaved : List Hop :=
  [hopOf voiceA "a", hopOf voiceB "b", hopOf voiceA "x", hopOf voiceB "x", hopOf voiceA "x",
    hopOf voiceB "x"]

/-- **Nobody is tagged when one of two voices goes on**: the first one then leads by a turn. -/
theorem not_always_enrolls : ¬ ∀ (cfg : IdentifierConfig) (ops : FloatOps)
    (embedder : SpeakerEmbedder) (reg : SpeakerRegistry), (∀ id, mark reg id = none) →
      ∀ hops : List Hop, EveryStep (step cfg ops embedder) FreshId { registry := reg } hops →
        EveryStep (step cfg ops embedder) (Enrolls cfg ops embedder) { registry := reg } hops := by
  intro h
  have hlast := (h {} SpeakerCorrection.exactOps ⟨2, none⟩ (.inMemory {}) (fun _ => rfl)
    (interleaved ++ [hopOf voiceA "x"])
    ⟨by decide +kernel, by decide +kernel, by decide +kernel, by decide +kernel,
      by decide +kernel, by decide +kernel, by decide +kernel, trivial⟩).at_split
  have hwearer := hlast.resolved ⟨"a", .finite 1, by decide +kernel⟩ "a"
    (leads_of_listed (t := { newSpeakerRow ⟨2, none⟩ "a" voiceA "t" with turnCount := 4 })
      (by decide +kernel) (by decide +kernel)) (by decide +kernel)
  rw [← any_isWearer_iff] at hwearer
  revert hwearer
  decide +kernel

/-- Before there is a speaker nobody is left to be tagged. -/
theorem settled_of_no_speakers {ops : FloatOps} {s : SpeakerIdentifier}
    (hempty : s.registry.listSpeakers = []) (h : Hop) : Settled cfg ops s h := by
  refine .inr fun vec _ => ⟨fun id hid => ?_, fun _ p _ a ha hleads => ?_⟩
  · obtain ⟨row, hrow, -⟩ := recognised_spec hid
    have hnone := mark_of_no_speakers hempty id
    rw [mark, hrow] at hnone
    cases hnone
  · obtain ⟨m, hm, -⟩ := hleads
    rw [withSpeaker, Function.update_of_ne ha, mark_of_no_speakers hempty] at hm
    cases hm

/-- One voice that talks is enrolled. -/
theorem enrolls_run_alone :
    EveryStep (step {} SpeakerCorrection.exactOps ⟨2, none⟩)
      (Enrolls {} SpeakerCorrection.exactOps ⟨2, none⟩) { registry := .inMemory {} }
      [hopOf voiceA "a", hopOf voiceA "x", hopOf voiceA "x"] :=
  enrolls_run {} SpeakerCorrection.exactOps ⟨2, none⟩ (fun _ => rfl) _
    ⟨⟨by decide +kernel, settled_of_no_speakers (by decide +kernel) _⟩,
      ⟨by decide +kernel, settled_of_no_speakers (by decide +kernel) _⟩,
      ⟨by decide +kernel, settled_of_no_speakers (by decide +kernel) _⟩, trivial⟩

end OpenRecall.Analysis.WearerEnrollment
