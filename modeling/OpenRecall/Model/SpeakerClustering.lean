import OpenRecall.Model.SpeakerIdentifier

/-!
# Identifying the speaker of a hop

A hop that is close enough to a speaker is attributed to them: as confirmed when it is very close,
else as tentative, until enough tentative hops have come. Any other hop goes into a pending cluster
of hops like it, and a cluster that has enough of them becomes a speaker. A speaker that is new may
be taken for the wearer.

The embedder, the clocks and the ids that are drawn are inputs. A call reads its clock up to three
times, and the registry stamps each of its operations.
-/

set_option autoImplicit false

namespace OpenRecall.Model

open Foundation

/-- The validated settings of the identifier.
SOURCE: ingest/speaker_config.py:38-89 -/
structure IdentifierConfig extends SpeakerConfig where
  corroborateN : ℕ := 3
  corroborateWindowS : ℕ := 30
  pendingTtlS : ℕ := 60
  corroborateN_pos : 0 < corroborateN := by norm_num
  corroborateWindowS_pos : 0 < corroborateWindowS := by norm_num
  pendingTtlS_pos : 0 < pendingTtlS := by norm_num

/-- What a speaker's row says of the embedder. -/
structure SpeakerEmbedder where
  dim : ℤ
  modelName : Option String
  deriving DecidableEq

inductive Assignment where
  | confirmed
  | tentative
  deriving DecidableEq

/-- What a call to `identify` comes to; it raises when embeddings have several lengths.
SOURCE: ingest/speaker_identifier.py:43-47 -/
inductive Identified where
  | raised
  | nobody
  | speaker (speakerId : String) (confidence : Double) (assignment : Assignment)
  deriving DecidableEq

/-- A scratch cluster. No code reads `joinedS`, when each embedding was assigned.
SOURCE: ingest/speaker_identifier.py:95-99, ingest/speaker_identifier.py:181-187 -/
structure PendingCluster where
  speakerId : String
  embeddings : List Embedding
  centroid : Embedding
  firstSeenS : ℚ
  lastSeenS : ℚ
  joinedS : List ℚ
  deriving DecidableEq

/-- A hop: its embedding, if there is one, the readings of the clock and of the registry's clock,
and the id that is drawn. -/
structure Hop where
  vec : Option Embedding
  clock : ℕ → ℚ
  iso : ℕ → String
  newId : String

/-- SOURCE: ingest/speaker_identifier.py:83-100 -/
structure SpeakerIdentifier where
  registry : SpeakerRegistry
  tentativeStreak : Dict String ℕ := .empty
  pending : List PendingCluster := []

/-! ## The registry's operations -/

namespace RegistryOp

/-- An operation; only a centroid may fail to be computed. -/
def attempt (cfg : SpeakerConfig) (ops : FloatOps) (now : String) (op : RegistryOp)
    (reg : SpeakerRegistry) : Option SpeakerRegistry :=
  match op with
  | recomputeCentroid id => reg.recomputeCentroid cfg ops now id
  | op => some (op.apply cfg ops now reg)

/-- Operations one after the other, up to one that raises; the second component says that none
did. -/
def runAll (cfg : SpeakerConfig) (ops : FloatOps) (iso : ℕ → String) :
    ℕ → List RegistryOp → SpeakerRegistry → SpeakerRegistry × Bool
  | _, [], reg => (reg, true)
  | k, op :: rest, reg =>
    match op.attempt cfg ops (iso k) reg with
    | none => (reg, false)
    | some reg => runAll cfg ops iso (k + 1) rest reg

end RegistryOp

/-- SOURCE: memory/speaker_registry.py:167-169, 317-320 -/
def SpeakerRegistry.listSpeakers (reg : SpeakerRegistry) : List Speaker :=
  reg.speakers.entries.map Speaker.ofEntry

/-- SOURCE: ingest/speaker_identifier.py:149-153 -/
def confirmOps (speakerId : String) (vec : Embedding) (confidence : Double) : List RegistryOp :=
  [.addConfirmedEmbedding speakerId vec confidence, .recomputeCentroid speakerId,
    .incrementTurn speakerId]

/-- SOURCE: ingest/speaker_identifier.py:68-79 -/
def newSpeakerRow (embedder : SpeakerEmbedder) (speakerId : String) (centroid : Embedding)
    (ts : String) : Speaker where
  speakerId := speakerId
  displayName := none
  isWearer := false
  enrollmentStatus := "confirmed"
  centroid := some centroid
  embeddingModel := (embedder.modelName.filter (· ≠ "")).getD "unknown"
  dim := embedder.dim
  turnCount := 0
  firstSeen := ts
  updatedAt := ts

/-- SOURCE: ingest/speaker_identifier.py:207-217 -/
def mintOps (embedder : SpeakerEmbedder) (p : PendingCluster) (ts : String) : List RegistryOp :=
  .addSpeaker (newSpeakerRow embedder p.speakerId p.centroid ts) ::
    p.embeddings.map (fun e => .addConfirmedEmbedding p.speakerId e (.finite 1)) ++
    .recomputeCentroid p.speakerId :: p.embeddings.map fun _ => .incrementTurn p.speakerId

/-- SOURCE: ingest/speaker_identifier.py:255-258 -/
def tagWearerOps (speakerId : String) : List RegistryOp :=
  [.setIsWearer speakerId true, .setDisplayName speakerId "You",
    .updateEnrollment speakerId "implicit"]

namespace SpeakerIdentifier

section

variable (cfg : IdentifierConfig) (ops : FloatOps) (embedder : SpeakerEmbedder)

/-! ## Clusters -/

/-- SOURCE: ingest/speaker_identifier.py:157-163 -/
def gcPending (now : ℚ) (s : SpeakerIdentifier) : SpeakerIdentifier :=
  { s with pending := s.pending.filter fun p => now - p.lastSeenS < cfg.pendingTtlS }

/-- SOURCE: ingest/speaker_identifier.py:173-176 -/
def closerCluster (vec : Embedding) (best : Option (PendingCluster × ℕ) × Double)
    (p : PendingCluster × ℕ) : Option (PendingCluster × ℕ) × Double :=
  let sim := cosine ops vec p.1.centroid
  if best.2.less sim then (some p, sim) else best

/-- The cluster that a hop belongs to, and where it is.
SOURCE: ingest/speaker_identifier.py:172-178 -/
def closestPending (vec : Embedding) (pending : List PendingCluster) :
    Option (PendingCluster × ℕ) :=
  let best := pending.zipIdx.foldl (closerCluster ops vec) (none, .finite (-1))
  if best.2.less (.finite cfg.clusterThreshold) then none else best.1

/-- SOURCE: ingest/speaker_identifier.py:181-187 -/
def newCluster (h : Hop) (vec : Embedding) : PendingCluster where
  speakerId := h.newId
  embeddings := [vec]
  centroid := vec
  firstSeenS := h.clock 1
  lastSeenS := h.clock 2
  joinedS := [h.clock 1]

/-- A cluster with one more hop, before its centroid is computed.
SOURCE: ingest/speaker_identifier.py:190-192 -/
def joined (h : Hop) (vec : Embedding) (p : PendingCluster) : PendingCluster :=
  { p with
    embeddings := p.embeddings ++ [vec]
    lastSeenS := h.clock 1
    joinedS := p.joinedS ++ [h.clock 1] }

/-- SOURCE: ingest/speaker_identifier.py:195-199 -/
def corroborated (now : ℚ) (p : PendingCluster) : Bool :=
  cfg.corroborateN ≤ p.embeddings.length ∧ now - p.firstSeenS ≤ cfg.corroborateWindowS

/-! ## The wearer -/

/-- SOURCE: ingest/speaker_identifier.py:255-258 -/
def tagWearer (h : Hop) (k : ℕ) (sid : String) (s : SpeakerIdentifier) : SpeakerIdentifier :=
  { s with registry :=
    (RegistryOp.runAll cfg.toSpeakerConfig ops h.iso k (tagWearerOps sid) s.registry).1 }

/-- Another cluster has nearly enough hops.
SOURCE: ingest/speaker_identifier.py:239-241 -/
def closeToCorroborating (sid : String) (s : SpeakerIdentifier) : Bool :=
  s.pending.any fun q => q.speakerId ≠ sid ∧ cfg.corroborateN - 1 ≤ q.embeddings.length

/-- SOURCE: ingest/speaker_identifier.py:223-253 -/
def applyColdstartEnrollment (h : Hop) (k : ℕ) (sid : String) (s : SpeakerIdentifier) :
    SpeakerIdentifier :=
  let speakers := s.registry.listSpeakers
  if speakers.any fun t => t.isWearer then s
  else if s.closeToCorroborating cfg sid then s
  else if speakers.length ≤ 1 then s.tagWearer cfg ops h k sid
  else
    match s.registry.get sid with
    | none => s
    | some me =>
      match ((speakers.filter (·.speakerId ≠ sid)).map (·.turnCount)).max? with
      | none => s.tagWearer cfg ops h k sid
      | some maxOtherTurns =>
        if 1 ≤ me.turnCount - maxOtherTurns then s.tagWearer cfg ops h k sid else s

/-- A cluster becomes a speaker.
SOURCE: ingest/speaker_identifier.py:202-219 -/
def mint (h : Hop) (p : PendingCluster) (s : SpeakerIdentifier) : SpeakerIdentifier × Identified :=
  let minting := mintOps embedder p (h.iso 0)
  match RegistryOp.runAll cfg.toSpeakerConfig ops h.iso 1 minting s.registry with
  | (registry, false) => ({ s with registry := registry }, .raised)
  | (registry, true) =>
    let s := { s with
      registry := registry
      pending := s.pending.filter fun q => q.speakerId ≠ p.speakerId }
    (s.applyColdstartEnrollment cfg ops h (minting.length + 1) p.speakerId,
      .speaker p.speakerId (.finite 1) .confirmed)

/-- SOURCE: ingest/speaker_identifier.py:165-200 -/
def cluster (h : Hop) (vec : Embedding) (s : SpeakerIdentifier) :
    SpeakerIdentifier × Identified :=
  let s := s.gcPending cfg (h.clock 0)
  match closestPending cfg ops vec s.pending with
  | none => ({ s with pending := s.pending ++ [newCluster h vec] }, .nobody)
  | some (p, i) =>
    let p := joined h vec p
    match mean ops p.embeddings with
    | none => ({ s with pending := s.pending.set i p }, .raised)
    | some centroid =>
      let p := { p with centroid := centroid }
      let s := { s with pending := s.pending.set i p }
      if corroborated cfg (h.clock 2) p then s.mint cfg ops embedder h p else (s, .nobody)

/-! ## Recognition -/

/-- SOURCE: ingest/speaker_identifier.py:149-153 -/
def confirm (h : Hop) (speakerId : String) (vec : Embedding) (confidence : Double)
    (s : SpeakerIdentifier) : SpeakerIdentifier × Identified :=
  match RegistryOp.runAll cfg.toSpeakerConfig ops h.iso 0 (confirmOps speakerId vec confidence)
    s.registry with
  | (registry, false) => ({ s with registry := registry }, .raised)
  | (registry, true) =>
    ({ s with registry := registry, tentativeStreak := s.tentativeStreak.erase speakerId },
      .speaker speakerId confidence .confirmed)

/-- SOURCE: ingest/speaker_identifier.py:123-147 -/
def matchVec (h : Hop) (vec : Embedding) (s : SpeakerIdentifier) :
    SpeakerIdentifier × Identified :=
  match bestMatch ops vec s.registry.matchable with
  | (none, _) => s.cluster cfg ops embedder h vec
  | (some bestId, bestSim) =>
    if bestSim.ge cfg.confirmThreshold then s.confirm cfg ops h bestId vec bestSim
    else if bestSim.ge cfg.tentativeThreshold then
      let streak := (s.tentativeStreak.get? bestId).getD 0 + 1
      let s := { s with tentativeStreak := s.tentativeStreak.set bestId streak }
      if cfg.corroborateN ≤ streak then s.confirm cfg ops h bestId vec bestSim
      else (s, .speaker bestId bestSim .tentative)
    else
      { s with tentativeStreak := s.tentativeStreak.erase bestId }.cluster cfg ops embedder h vec

/-- Nothing happens for a hop without an embedding.
SOURCE: ingest/speaker_identifier.py:113-121 -/
def identify (h : Hop) (s : SpeakerIdentifier) : SpeakerIdentifier × Identified :=
  match h.vec with
  | none => (s, .nobody)
  | some vec => s.matchVec cfg ops embedder h vec

/-! ## What a call can come to -/

/-- The cluster that a hop completes, if it does.
SOURCE: ingest/speaker_identifier.py:170-199 -/
def completed (h : Hop) (vec : Embedding) (s : SpeakerIdentifier) : Option PendingCluster := do
  let (p, _) ← closestPending cfg ops vec (s.gcPending cfg (h.clock 0)).pending
  let centroid ← mean ops (joined h vec p).embeddings
  let p := { joined h vec p with centroid := centroid }
  if corroborated cfg (h.clock 2) p then some p else none

/-- The pending clusters with the hop in one of them, before one becomes a speaker.
SOURCE: ingest/speaker_identifier.py:170-192 -/
def clustersAfter (h : Hop) (vec : Embedding) (s : SpeakerIdentifier) : List PendingCluster :=
  let pending := (s.gcPending cfg (h.clock 0)).pending
  match closestPending cfg ops vec pending with
  | none => pending ++ [newCluster h vec]
  | some (p, i) =>
    match mean ops (joined h vec p).embeddings with
    | none => pending.set i (joined h vec p)
    | some centroid => pending.set i { joined h vec p with centroid := centroid }

variable {cfg ops embedder}

@[simp] theorem tentativeStreak_tagWearer (h : Hop) (k : ℕ) (sid : String)
    (s : SpeakerIdentifier) :
    (s.tagWearer cfg ops h k sid).tentativeStreak = s.tentativeStreak := rfl

@[simp] theorem tentativeStreak_applyColdstartEnrollment (h : Hop) (k : ℕ) (sid : String)
    (s : SpeakerIdentifier) :
    (s.applyColdstartEnrollment cfg ops h k sid).tentativeStreak = s.tentativeStreak := by
  unfold applyColdstartEnrollment
  dsimp only
  split_ifs
  · rfl
  · rfl
  · rfl
  · cases s.registry.get sid with
    | none => rfl
    | some me =>
      dsimp only
      split
      · rfl
      · split_ifs <;> rfl

/-- A cluster that becomes a speaker is attributed to it, unless that raises. -/
theorem mint_cases (h : Hop) (p : PendingCluster) (s : SpeakerIdentifier) :
    (s.mint cfg ops embedder h p).1.tentativeStreak = s.tentativeStreak ∧
      ((s.mint cfg ops embedder h p).2 = .raised ∨
        (s.mint cfg ops embedder h p).2 = .speaker p.speakerId (.finite 1) .confirmed) := by
  unfold mint
  dsimp only
  split
  · exact ⟨rfl, .inl rfl⟩
  · exact ⟨by simp, .inr rfl⟩

/-- The cluster that a hop completes is the closest one, with its mean, when it has enough
embeddings and began within the window. -/
theorem completed_eq_some_iff {h : Hop} {vec : Embedding} {s : SpeakerIdentifier}
    {q : PendingCluster} : s.completed cfg ops h vec = some q ↔
      ∃ p i centroid,
        closestPending cfg ops vec (s.gcPending cfg (h.clock 0)).pending = some (p, i) ∧
        mean ops (joined h vec p).embeddings = some centroid ∧
        cfg.corroborateN ≤ (joined h vec p).embeddings.length ∧
        h.clock 2 - p.firstSeenS ≤ cfg.corroborateWindowS ∧
        q = { joined h vec p with centroid := centroid } := by
  unfold completed corroborated
  cases closestPending cfg ops vec (s.gcPending cfg (h.clock 0)).pending with
  | none => simp
  | some best =>
    obtain ⟨p, i⟩ := best
    cases hmean : mean ops (joined h vec p).embeddings with
    | none => simp [hmean]
    | some centroid =>
      simp only [Option.bind_eq_bind, Option.bind_some, hmean, decide_eq_true_eq,
        Option.ite_none_right_eq_some, Option.some.injEq]
      constructor
      · rintro ⟨⟨hcount, hwindow⟩, rfl⟩
        exact ⟨p, i, centroid, rfl, hmean, hcount, hwindow, rfl⟩
      · rintro ⟨p', i', centroid', hbest, hmean', hcount, hwindow, rfl⟩
        obtain ⟨rfl, rfl⟩ := Prod.mk.inj hbest
        rw [hmean] at hmean'
        obtain rfl := Option.some.inj hmean'
        exact ⟨⟨hcount, hwindow⟩, rfl⟩

/-- A hop that completes a cluster makes a speaker of it. -/
theorem cluster_of_completed {h : Hop} {vec : Embedding} {s : SpeakerIdentifier}
    {p : PendingCluster} (hp : s.completed cfg ops h vec = some p) :
    s.cluster cfg ops embedder h vec =
      { s with pending := s.clustersAfter cfg ops h vec }.mint cfg ops embedder h p := by
  unfold cluster clustersAfter
  unfold completed at hp
  dsimp only
  cases hclosest : closestPending cfg ops vec (s.gcPending cfg (h.clock 0)).pending with
  | none => simp [hclosest] at hp
  | some best =>
    obtain ⟨q, i⟩ := best
    dsimp only
    cases hmean : mean ops (joined h vec q).embeddings with
    | none => simp [hclosest, hmean] at hp
    | some centroid =>
      simp only [hclosest, hmean, Option.bind_eq_bind, Option.bind_some,
        Option.ite_none_right_eq_some, Option.some.injEq] at hp
      obtain ⟨hready, rfl⟩ := hp
      exact if_pos hready

/-- A hop that completes no cluster is attributed to nobody. -/
theorem cluster_of_not_completed {h : Hop} {vec : Embedding} {s : SpeakerIdentifier}
    (hnone : s.completed cfg ops h vec = none) :
    (s.cluster cfg ops embedder h vec).1 =
        { s with pending := s.clustersAfter cfg ops h vec } ∧
      ((s.cluster cfg ops embedder h vec).2 = .raised ∨
        (s.cluster cfg ops embedder h vec).2 = .nobody) := by
  unfold cluster clustersAfter
  unfold completed at hnone
  dsimp only
  cases hclosest : closestPending cfg ops vec (s.gcPending cfg (h.clock 0)).pending with
  | none => exact ⟨rfl, .inr rfl⟩
  | some best =>
    obtain ⟨q, i⟩ := best
    dsimp only
    cases hmean : mean ops (joined h vec q).embeddings with
    | none => exact ⟨rfl, .inl rfl⟩
    | some centroid =>
      simp only [hclosest, hmean, Option.bind_eq_bind, Option.bind_some, ite_eq_right_iff,
        reduceCtorEq, imp_false] at hnone
      dsimp only
      rw [if_neg hnone]
      exact ⟨rfl, .inr rfl⟩

/-- A hop that goes to the clusters is attributed to nobody, except when it completes one. -/
theorem cluster_cases (h : Hop) (vec : Embedding) (s : SpeakerIdentifier) :
    (s.cluster cfg ops embedder h vec).1.tentativeStreak = s.tentativeStreak ∧
      ((s.cluster cfg ops embedder h vec).2 = .raised ∨
        (s.cluster cfg ops embedder h vec).2 = .nobody ∨
        ∃ p, s.completed cfg ops h vec = some p ∧
          (s.cluster cfg ops embedder h vec).2 = .speaker p.speakerId (.finite 1) .confirmed) := by
  cases hp : s.completed cfg ops h vec with
  | none =>
    obtain ⟨hsame, hresult⟩ := @cluster_of_not_completed cfg ops embedder h vec s hp
    rw [hsame]
    exact ⟨rfl, hresult.imp_right .inl⟩
  | some p =>
    rw [cluster_of_completed hp]
    obtain ⟨hstreak, hresult⟩ := @mint_cases cfg ops embedder h p
      { s with pending := s.clustersAfter cfg ops h vec }
    exact ⟨hstreak, hresult.imp_right fun hminted => .inr ⟨p, rfl, hminted⟩⟩

/-- A hop is attributed to the speaker it is confirmed for, whose streak is over. -/
theorem confirm_cases (h : Hop) (speakerId : String) (vec : Embedding) (confidence : Double)
    (s : SpeakerIdentifier) :
    ((s.confirm cfg ops h speakerId vec confidence).2 = .raised ∧
        (s.confirm cfg ops h speakerId vec confidence).1.tentativeStreak = s.tentativeStreak) ∨
      ((s.confirm cfg ops h speakerId vec confidence).2 =
          .speaker speakerId confidence .confirmed ∧
        (s.confirm cfg ops h speakerId vec confidence).1.tentativeStreak =
          s.tentativeStreak.erase speakerId) := by
  unfold confirm
  split
  · exact .inl ⟨rfl, rfl⟩
  · exact .inr ⟨rfl, rfl⟩

/-- How a hop with an embedding is decided. -/
inductive Decided (cfg : IdentifierConfig) (ops : FloatOps) (embedder : SpeakerEmbedder) (h : Hop)
    (vec : Embedding) (s : SpeakerIdentifier) : SpeakerIdentifier × Identified → Prop where
  | confirmed (id : String) (sim : Double)
    (hid : recognised cfg.toSpeakerConfig ops vec s.registry = some id)
    (hsim : sim.ge cfg.confirmThreshold = true)
    (hbest : (bestMatch ops vec s.registry.matchable).2 = sim) :
    Decided cfg ops embedder h vec s (s.confirm cfg ops h id vec sim)
  | counted (id : String) (sim : Double)
    (hid : recognised cfg.toSpeakerConfig ops vec s.registry = some id)
    (hsim : ¬ sim.ge cfg.confirmThreshold = true)
    (hstreak : (s.tentativeStreak.get? id).getD 0 + 1 < cfg.corroborateN) :
    Decided cfg ops embedder h vec s
      ({ s with tentativeStreak :=
          s.tentativeStreak.set id ((s.tentativeStreak.get? id).getD 0 + 1) },
        .speaker id sim .tentative)
  | promoted (id : String) (sim : Double)
    (hid : recognised cfg.toSpeakerConfig ops vec s.registry = some id)
    (hsim : ¬ sim.ge cfg.confirmThreshold = true)
    (hstreak : cfg.corroborateN ≤ (s.tentativeStreak.get? id).getD 0 + 1) :
    Decided cfg ops embedder h vec s
      ({ s with tentativeStreak :=
          s.tentativeStreak.set id ((s.tentativeStreak.get? id).getD 0 + 1) }.confirm cfg ops h id
            vec sim)
  | clustered (streaks : Dict String ℕ)
    (hnone : recognised cfg.toSpeakerConfig ops vec s.registry = none)
    (hstreaks : ∀ other k, streaks.get? other = some k →
      s.tentativeStreak.get? other = some k ∧
        (bestMatch ops vec s.registry.matchable).1 ≠ some other) :
    Decided cfg ops embedder h vec s
      ({ s with tentativeStreak := streaks }.cluster cfg ops embedder h vec)

/-- **Every hop is decided in one of four ways.**
SOURCE: ingest/speaker_identifier.py:123-147 -/
theorem decided_matchVec (h : Hop) (vec : Embedding) (s : SpeakerIdentifier) :
    Decided cfg ops embedder h vec s (s.matchVec cfg ops embedder h vec) := by
  have hrecognised := recognised_eq cfg.toSpeakerConfig ops vec s.registry
  unfold matchVec
  cases hbest : bestMatch ops vec s.registry.matchable with
  | mk best sim =>
    rw [hbest] at hrecognised
    cases best with
    | none =>
      refine .clustered s.tentativeStreak (by simpa using hrecognised) fun other k hk => ⟨hk, ?_⟩
      simp [hbest]
    | some id =>
      dsimp only at hrecognised ⊢
      split_ifs at hrecognised ⊢ with hconfirm htentative hstreak
      · exact .confirmed id sim hrecognised hconfirm (by rw [hbest])
      · exact .promoted id sim hrecognised hconfirm hstreak
      · exact .counted id sim hrecognised hconfirm (not_le.mp hstreak)
      · refine .clustered _ hrecognised fun other k hk => ?_
        rw [Dict.get?_erase] at hk
        split_ifs at hk with hother
        refine ⟨hk, fun heq => hother ?_⟩
        rw [hbest] at heq
        exact (Option.some.inj heq).symm

end

end SpeakerIdentifier

end OpenRecall.Model
