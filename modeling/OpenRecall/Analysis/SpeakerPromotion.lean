import OpenRecall.Model.SpeakerClustering
import OpenRecall.Analysis.SpeakerCorrection

/-!
# The promotion of a tentative match

A tentative match counts for its speaker, and the count starts over when the speaker is confirmed
or is the closest to a hop that is not close enough to anybody. A match to another speaker leaves
it. So the hops that promote a speaker are consecutive as long as no hop is attributed to a speaker
while another has a count.
-/

set_option autoImplicit false

namespace OpenRecall.Analysis.SpeakerPromotion

open Foundation Model

/-! ## The hops and what they were attributed to -/

/-- The identifier, and the speakers that hops were attributed to, in order. -/
structure Listening where
  identifier : SpeakerIdentifier
  heard : List String := []

/-- A call to `identify`, or what else becomes of the registry between two calls. -/
inductive SpeakerStep where
  | hop (h : Hop)
  | registry (reg : SpeakerRegistry)

/-- Who an answer names. -/
def Identified.who : Identified → List String
  | .speaker id _ _ => [id]
  | _ => []

section

variable (cfg : IdentifierConfig) (ops : FloatOps) (embedder : SpeakerEmbedder)

def step (s : Listening) : SpeakerStep → Listening
  | .hop h =>
    { identifier := (s.identifier.identify cfg ops embedder h).1
      heard := s.heard ++ Identified.who (s.identifier.identify cfg ops embedder h).2 }
  | .registry reg => { s with identifier := { s.identifier with registry := reg } }

/-- **A promotion is the last of `corroborate_n` hops in a row that are attributed to the
speaker**: one that is confirmed although it is not close enough for that by itself.
SOURCE: ingest/speaker_identifier.py:5-9 -/
def Agreed (s : Listening) : SpeakerStep → Prop
  | .hop h => ∀ id confidence,
    (s.identifier.identify cfg ops embedder h).2 = .speaker id confidence .confirmed →
      ¬ confidence.ge cfg.confirmThreshold →
        List.replicate cfg.corroborateN id <:+ (step cfg ops embedder s (.hop h)).heard
  | .registry _ => True

/-- While a speaker has a count, no hop is matched to another speaker, and a hop that makes a new
speaker is closest to the one with the count, which starts it over. -/
def Steady (s : Listening) : SpeakerStep → Prop
  | .hop h => ∀ vec, h.vec = some vec → ∀ other streak,
    s.identifier.tentativeStreak.get? other = some streak →
      (∀ id, recognised cfg.toSpeakerConfig ops vec s.identifier.registry = some id → id = other) ∧
        (recognised cfg.toSpeakerConfig ops vec s.identifier.registry = none →
          s.identifier.completed cfg ops h vec = none ∨
            (bestMatch ops vec s.identifier.registry.matchable).1 = some other)
  | .registry _ => True

/-! ## The counts -/

/-- A count is of hops in a row; it may be higher when attributing one raised. -/
def Counted (s : Listening) : Prop :=
  ∀ id streak, s.identifier.tentativeStreak.get? id = some streak →
    List.replicate (min streak (cfg.corroborateN - 1)) id <:+ s.heard

end

variable {cfg : IdentifierConfig} {ops : FloatOps} {embedder : SpeakerEmbedder}

theorem counted_new (reg : SpeakerRegistry) : Counted cfg { identifier := { registry := reg } } := by
  intro id streak h
  simp at h

/-- One more hop in a row. -/
theorem replicate_succ_suffix {heard : List String} {id : String} {k n : ℕ}
    (h : List.replicate k id <:+ heard) (hn : n ≤ k + 1) :
    List.replicate n id <:+ heard ++ [id] := by
  obtain ⟨earlier, rfl⟩ := h
  obtain ⟨m, hm⟩ := Nat.exists_eq_add_of_le hn
  refine ⟨earlier ++ List.replicate m id, ?_⟩
  rw [List.append_assoc, List.append_assoc, List.replicate_append_replicate, Nat.add_comm m, ← hm,
    List.replicate_succ']

section

variable {s : Listening}

/-- The hops in a row that a count stands for; without a count there are none. -/
theorem Counted.suffix (h : Counted cfg s) (id : String) :
    List.replicate (min ((s.identifier.tentativeStreak.get? id).getD 0) (cfg.corroborateN - 1)) id
      <:+ s.heard := by
  cases hstreak : s.identifier.tentativeStreak.get? id with
  | none =>
    rw [Option.getD_none, Nat.zero_min]
    exact List.nil_suffix
  | some streak => exact h id streak hstreak

/-- The hop that promotes a speaker ends a row of hops. -/
theorem Counted.promotes (h : Counted cfg s) {id : String}
    (hstreak : cfg.corroborateN ≤ (s.identifier.tentativeStreak.get? id).getD 0 + 1) :
    List.replicate cfg.corroborateN id <:+ s.heard ++ [id] :=
  replicate_succ_suffix (h.suffix id) (by omega)

/-- No speaker is promoted by a hop that goes to the clusters. -/
theorem not_promoted_cluster {h : Hop} {vec : Embedding} {t : SpeakerIdentifier} {id : String}
    {confidence : Double} (hanswer : (t.cluster cfg ops embedder h vec).2 =
      .speaker id confidence .confirmed) : confidence.ge cfg.confirmThreshold = true := by
  obtain ⟨-, hraised | hnobody | ⟨p, -, hminted⟩⟩ :=
    @SpeakerIdentifier.cluster_cases cfg ops embedder h vec t
  · rw [hraised] at hanswer
    cases hanswer
  · rw [hnobody] at hanswer
    cases hanswer
  · rw [hminted] at hanswer
    cases hanswer
    simpa [Double.ge] using cfg.confirm_le

/-- A promotion is agreed on when the counts are of hops in a row. -/
theorem Counted.agreed (h : Counted cfg s) (st : SpeakerStep) : Agreed cfg ops embedder s st := by
  cases st with
  | registry reg => trivial
  | hop hop =>
    intro id confidence hanswer hlow
    show _ <:+ s.heard ++ Identified.who _
    rw [hanswer]
    unfold SpeakerIdentifier.identify at hanswer
    cases hvec : hop.vec with
    | none =>
      rw [hvec] at hanswer
      cases hanswer
    | some vec =>
      rw [hvec] at hanswer
      dsimp only at hanswer
      have hdecided := @SpeakerIdentifier.decided_matchVec cfg ops embedder hop vec s.identifier
      generalize s.identifier.matchVec cfg ops embedder hop vec = result at hanswer hdecided
      cases hdecided with
      | confirmed matched sim hid hsim =>
        obtain ⟨hraised, -⟩ | ⟨hmatched, -⟩ :=
          @SpeakerIdentifier.confirm_cases cfg ops hop matched vec sim s.identifier
        · rw [hraised] at hanswer
          cases hanswer
        · rw [hmatched] at hanswer
          cases hanswer
          exact absurd hsim hlow
      | counted matched sim hid hsim hstreak => cases hanswer
      | promoted matched sim hid hsim hstreak =>
        obtain ⟨hraised, -⟩ | ⟨hmatched, -⟩ :=
          @SpeakerIdentifier.confirm_cases cfg ops hop matched vec sim
            { s.identifier with tentativeStreak := s.identifier.tentativeStreak.set matched _ }
        · rw [hraised] at hanswer
          cases hanswer
        · rw [hmatched] at hanswer
          cases hanswer
          exact h.promotes hstreak
      | clustered streaks hnone hstreaks => exact absurd (not_promoted_cluster hanswer) hlow

/-! ## Runs -/

/-- What a hop leaves of the counts, when it is not attributed to anybody. -/
theorem Counted.of_same {t : Listening} (h : Counted cfg s) (hheard : t.heard = s.heard)
    (hstreaks : ∀ id streak, t.identifier.tentativeStreak.get? id = some streak →
      s.identifier.tentativeStreak.get? id = some streak) : Counted cfg t := by
  intro id streak hstreak
  rw [hheard]
  exact h id streak (hstreaks id streak hstreak)

/-- When only the speaker of a hop may have a count, the hop that confirms it leaves none. -/
theorem counted_confirmed {t : Listening} {id : String}
    (honly : ∀ other streak, s.identifier.tentativeStreak.get? other = some streak → id = other)
    (hstreaks : ∀ other streak, t.identifier.tentativeStreak.get? other = some streak →
      other ≠ id ∧ s.identifier.tentativeStreak.get? other = some streak) : Counted cfg t := by
  intro other streak hstreak
  obtain ⟨hne, hold⟩ := hstreaks other streak hstreak
  exact absurd (honly other streak hold).symm hne

/-- Any step that is steady keeps the counts those of hops in a row. -/
theorem Counted.step (h : Counted cfg s) {st : SpeakerStep} (hsteady : Steady cfg ops s st) :
    Counted cfg (step cfg ops embedder s st) := by
  cases st with
  | registry reg => exact h
  | hop hop =>
    show Counted cfg ⟨(s.identifier.identify cfg ops embedder hop).1,
      s.heard ++ Identified.who (s.identifier.identify cfg ops embedder hop).2⟩
    rw [SpeakerIdentifier.identify]
    cases hvec : hop.vec with
    | none => exact h.of_same (List.append_nil _) fun _ _ hstreak => hstreak
    | some vec =>
      have honly := fun other streak hstreak => hsteady vec hvec other streak hstreak
      have hdecided := @SpeakerIdentifier.decided_matchVec cfg ops embedder hop vec s.identifier
      dsimp only
      generalize s.identifier.matchVec cfg ops embedder hop vec = result at hdecided ⊢
      cases hdecided with
      | confirmed id sim hid hsim =>
        obtain ⟨hraised, hstreaks⟩ | ⟨hmatched, hstreaks⟩ :=
          @SpeakerIdentifier.confirm_cases cfg ops hop id vec sim s.identifier
        · apply h.of_same
          · simp [hraised, Identified.who]
          · intro other streak hstreak
            rwa [hstreaks] at hstreak
        · refine @counted_confirmed cfg s _ id ?_ ?_
          · exact fun other streak hstreak => (honly other streak hstreak).1 id hid
          · intro other streak hstreak
            rw [hstreaks, Dict.get?_erase] at hstreak
            split_ifs at hstreak with hother
            exact ⟨hother, hstreak⟩
      | counted id sim hid hsim hstreak =>
        intro other streak hother
        show _ <:+ s.heard ++ [id]
        rw [Dict.get?_set] at hother
        split_ifs at hother with heq
        · obtain rfl := Option.some.inj hother
          rw [heq]
          exact replicate_succ_suffix (h.suffix id) (by omega)
        · exact absurd ((honly other streak hother).1 id hid).symm heq
      | promoted id sim hid hsim hstreak =>
        obtain ⟨hraised, hstreaks⟩ | ⟨hmatched, hstreaks⟩ :=
          @SpeakerIdentifier.confirm_cases cfg ops hop id vec sim
            { s.identifier with tentativeStreak := s.identifier.tentativeStreak.set id _ }
        · intro other streak hother
          rw [hraised]
          show _ <:+ s.heard ++ []
          rw [List.append_nil]
          rw [hstreaks, Dict.get?_set] at hother
          split_ifs at hother with heq
          · have hsuffix := h.suffix id
            obtain rfl := Option.some.inj hother
            have hmin : min ((s.identifier.tentativeStreak.get? id).getD 0 + 1)
                (cfg.corroborateN - 1) =
                  min ((s.identifier.tentativeStreak.get? id).getD 0) (cfg.corroborateN - 1) := by
              omega
            rwa [heq, hmin]
          · exact h other streak hother
        · refine @counted_confirmed cfg s _ id ?_ ?_
          · exact fun other streak hstreak => (honly other streak hstreak).1 id hid
          · intro other streak hother
            rw [hstreaks, Dict.get?_erase, Dict.get?_set] at hother
            split_ifs at hother with heq
            exact ⟨heq, hother⟩
      | clustered streaks hnone hstreaks =>
        obtain ⟨hsame, hcases⟩ := @SpeakerIdentifier.cluster_cases cfg ops embedder hop vec
          { s.identifier with tentativeStreak := streaks }
        obtain hraised | hnobody | ⟨p, hcompleted, hminted⟩ := hcases
        · apply h.of_same
          · simp [hraised, Identified.who]
          · intro other streak hother
            rw [hsame] at hother
            exact (hstreaks other streak hother).1
        · apply h.of_same
          · simp [hnobody, Identified.who]
          · intro other streak hother
            rw [hsame] at hother
            exact (hstreaks other streak hother).1
        · intro other streak hother
          rw [hsame] at hother
          obtain ⟨hold, hbest⟩ := hstreaks other streak hother
          obtain hincomplete | hclosest := (honly other streak hold).2 hnone
          · have hcompleted' : s.identifier.completed cfg ops hop vec = some p := hcompleted
            rw [hincomplete] at hcompleted'
            cases hcompleted'
          · exact absurd hclosest hbest

end

/-- **In every run in which no hop is attributed to a speaker while another has a count, each
promotion is the last of `corroborate_n` hops in a row that are attributed to the speaker.**
SOURCE: ingest/speaker_identifier.py:113-153, ingest/speaker_identifier.py:5-9 -/
theorem promotions_agreed (cfg : IdentifierConfig) (ops : FloatOps) (embedder : SpeakerEmbedder)
    (reg : SpeakerRegistry) (steps : List SpeakerStep)
    (hsteady : EveryStep (step cfg ops embedder) (Steady cfg ops)
      { identifier := { registry := reg } } steps) :
    EveryStep (step cfg ops embedder) (Agreed cfg ops embedder)
      { identifier := { registry := reg } } steps := by
  apply EveryStep.of_invariant (I := Counted cfg) _ _ (counted_new reg) hsteady
  · exact fun _ _ hcounted hstep => hcounted.step hstep
  · exact fun _ st hcounted _ => hcounted.agreed st

/-! ## Two speakers in turn -/

/-- Two speakers at right angles. -/
def twoVoices : SpeakerRegistry := .inMemory
  { speakers := (Dict.empty.set "a" (SpeakerCorrection.voice "A" [.finite 1, .finite 0])).set "b"
      (SpeakerCorrection.voice "B" [.finite 0, .finite 1]) }

def hopOf (vec : Embedding) : SpeakerStep := .hop ⟨some vec, fun _ => 0, fun _ => "t", "c"⟩

/-- Rather close to the first speaker: a similarity of 21 to 29. -/
def likeA : SpeakerStep := hopOf [.finite 21, .finite 20]

/-- Rather close to the second speaker. -/
def likeB : SpeakerStep := hopOf [.finite 20, .finite 21]

/-- What the promotion of `a` has been heard as. -/
theorem promoted_by_turns :
    ((step {} SpeakerCorrection.exactOps ⟨2, none⟩)
      (run (step {} SpeakerCorrection.exactOps ⟨2, none⟩) { identifier := { registry := twoVoices } }
        [likeA, likeB, likeA]) likeA).heard = ["a", "b", "a", "a"] := by
  decide +kernel

/-- **Another speaker in between does not start the count over.** -/
theorem not_always_agreed : ¬ ∀ (cfg : IdentifierConfig) (ops : FloatOps)
    (embedder : SpeakerEmbedder) (reg : SpeakerRegistry) (steps : List SpeakerStep),
      EveryStep (step cfg ops embedder) (Agreed cfg ops embedder)
        { identifier := { registry := reg } } steps := by
  intro h
  have hturns := (h {} SpeakerCorrection.exactOps ⟨2, none⟩ twoVoices
    ([likeA, likeB, likeA] ++ [likeA])).at_split
  have hlast := hturns "a" (.finite (21 / 29)) (by decide +kernel) (by decide +kernel)
  have hsuffix : List.replicate 3 "a" <:+ ["a", "b", "a", "a"] := promoted_by_turns ▸ hlast
  exact absurd hsuffix (by decide)

/-- A hop that is matched to the only speaker with a count is steady. -/
theorem steady_of_entries {cfg : IdentifierConfig} {ops : FloatOps} {s : Listening} {vec : Embedding}
    (h : ∀ e ∈ s.identifier.tentativeStreak.entries,
      recognised cfg.toSpeakerConfig ops vec s.identifier.registry = some e.1) :
    Steady cfg ops s (hopOf vec) := by
  intro vec' hvec other streak hstreak
  obtain rfl := Option.some.inj hvec
  have hmatched := h _ ((Dict.get?_eq_some_iff _ _ _).mp hstreak)
  refine ⟨fun id hid => ?_, fun hnone => ?_⟩
  · rw [hmatched] at hid
    exact (Option.some.inj hid).symm
  · rw [hmatched] at hnone
    cases hnone

/-- Three hops like the first speaker promote it. -/
theorem promotions_agreed_three :
    EveryStep (step {} SpeakerCorrection.exactOps ⟨2, none⟩)
      (Agreed {} SpeakerCorrection.exactOps ⟨2, none⟩) { identifier := { registry := twoVoices } }
      [likeA, likeA, likeA] :=
  promotions_agreed {} SpeakerCorrection.exactOps ⟨2, none⟩ twoVoices [likeA, likeA, likeA]
    ⟨steady_of_entries (by decide +kernel), steady_of_entries (by decide +kernel),
      steady_of_entries (by decide +kernel), trivial⟩

end OpenRecall.Analysis.SpeakerPromotion
