import OpenRecall.Model.SpeakerRegistry

/-!
# Recognising a speaker

A hop's embedding is compared with the centroid of every speaker that has one. The closest speaker
is the one the hop is attributed to, when it is close enough; otherwise the embedding goes on to
clustering.
-/

set_option autoImplicit false

namespace OpenRecall.Model

open Foundation

/-- The closest speaker so far and its similarity, after one more speaker.
SOURCE: ingest/speaker_identifier.py:125-128 -/
def closer (ops : FloatOps) (vec : Embedding) (best : Option String × Double) (s : Speaker) :
    Option String × Double :=
  -- `_cosine` of an absent centroid is 0, as that of an empty one
  let sim := cosine ops vec (s.centroid.getD [])
  if best.2.less sim then (some s.speakerId, sim) else best

/-- SOURCE: ingest/speaker_identifier.py:124-128 -/
def bestMatch (ops : FloatOps) (vec : Embedding) (speakers : List Speaker) :
    Option String × Double :=
  speakers.foldl (closer ops vec) (none, .finite (-1))

/-- The speaker a hop is attributed to, confirmed or tentative; none when it goes on to clustering.
SOURCE: ingest/speaker_identifier.py:123-147 -/
def recognised (cfg : SpeakerConfig) (ops : FloatOps) (vec : Embedding) (reg : SpeakerRegistry) :
    Option String :=
  let best := bestMatch ops vec reg.matchable
  if best.2.ge cfg.confirmThreshold then best.1
  else if best.2.ge cfg.tentativeThreshold then best.1
  else none

theorem closer_eq (ops : FloatOps) (vec : Embedding) (best : Option String × Double)
    (s : Speaker) : closer ops vec best s =
      if best.2.less (cosine ops vec (s.centroid.getD [])) then
        (some s.speakerId, cosine ops vec (s.centroid.getD []))
      else best := rfl

theorem recognised_eq (cfg : SpeakerConfig) (ops : FloatOps) (vec : Embedding)
    (reg : SpeakerRegistry) : recognised cfg ops vec reg =
      if (bestMatch ops vec reg.matchable).2.ge cfg.confirmThreshold then
        (bestMatch ops vec reg.matchable).1
      else if (bestMatch ops vec reg.matchable).2.ge cfg.tentativeThreshold then
        (bestMatch ops vec reg.matchable).1
      else none := rfl

namespace SpeakerConfig

theorem tentative_pos (cfg : SpeakerConfig) : 0 < cfg.tentativeThreshold :=
  cfg.cluster_nonneg.trans_lt cfg.cluster_lt

/-- A similarity that is enough for a confirmed match is enough for a tentative one. -/
theorem ge_tentative {cfg : SpeakerConfig} {sim : Double} (h : sim.ge cfg.confirmThreshold) :
    sim.ge cfg.tentativeThreshold := by
  cases sim with
  | finite q =>
    have hq : cfg.confirmThreshold ≤ q := by simpa [Double.ge] using h
    simpa [Double.ge] using cfg.tentative_lt.le.trans hq
  | infinite negative => exact h
  | nan => exact h

/-- A similarity that is enough for a match is more than what the search starts from. -/
theorem less_of_ge_tentative {cfg : SpeakerConfig} {sim : Double}
    (h : sim.ge cfg.tentativeThreshold) : (Double.finite (-1)).less sim := by
  have hpos := cfg.tentative_pos
  cases sim with
  | finite q =>
    have hq : cfg.tentativeThreshold ≤ q := by simpa [Double.ge] using h
    have hlt : (-1 : ℚ) < q := by linarith
    simpa [Double.less, Double.lt] using hlt
  | infinite negative =>
    have hneg : negative = false := by simpa [Double.ge] using h
    simp [Double.less, hneg]
  | nan => simp [Double.ge] at h

end SpeakerConfig

/-- What the search has found is a speaker of the list, with its similarity. -/
theorem bestMatch_mem (ops : FloatOps) (vec : Embedding) (speakers : List Speaker) {id : String}
    (h : (bestMatch ops vec speakers).1 = some id) :
    ∃ s ∈ speakers, s.speakerId = id ∧
      (bestMatch ops vec speakers).2 = cosine ops vec (s.centroid.getD []) := by
  unfold bestMatch at h ⊢
  induction speakers using List.reverseRecOn with
  | nil => simp at h
  | append_singleton speakers last ih =>
    rw [List.foldl_append, List.foldl_cons, List.foldl_nil] at h ⊢
    rw [closer_eq] at h ⊢
    split_ifs at h ⊢ with hless
    · exact ⟨last, by simp, by simpa using h, rfl⟩
    · obtain ⟨s, hs, hid, hsim⟩ := ih h
      exact ⟨s, by simp [hs], hid, hsim⟩

/-- When no speaker is left but one, and that one is close enough, the search finds it. -/
theorem bestMatch_of_only {cfg : SpeakerConfig} {ops : FloatOps} {vec : Embedding} {s : Speaker}
    {speakers : List Speaker} (hne : speakers ≠ []) (honly : ∀ t ∈ speakers, t = s)
    (hsim : (cosine ops vec (s.centroid.getD [])).ge cfg.tentativeThreshold) :
    bestMatch ops vec speakers = (some s.speakerId, cosine ops vec (s.centroid.getD [])) := by
  have hkeep : ∀ rest : List Speaker, (∀ t ∈ rest, t = s) →
      rest.foldl (closer ops vec) (some s.speakerId, cosine ops vec (s.centroid.getD [])) =
        (some s.speakerId, cosine ops vec (s.centroid.getD [])) := by
    intro rest hrest
    induction rest with
    | nil => rfl
    | cons t rest ih =>
      obtain rfl := hrest t (by simp)
      rw [List.foldl_cons]
      have hsame : closer ops vec (some t.speakerId, cosine ops vec (t.centroid.getD [])) t =
          (some t.speakerId, cosine ops vec (t.centroid.getD [])) := by
        rw [closer_eq]
        split_ifs <;> rfl
      rw [hsame]
      exact ih fun u hu => hrest u (by simp [hu])
  obtain ⟨t, rest, rfl⟩ := List.exists_cons_of_ne_nil hne
  obtain rfl := honly t (by simp)
  have hfirst : closer ops vec (none, .finite (-1)) t =
      (some t.speakerId, cosine ops vec (t.centroid.getD [])) := by
    rw [closer_eq, if_pos (SpeakerConfig.less_of_ge_tentative hsim)]
  rw [bestMatch, List.foldl_cons, hfirst]
  exact hkeep rest fun u hu => honly u (by simp [hu])

/-- **Who a hop is attributed to has a centroid that is close enough to it.** -/
theorem recognised_spec {cfg : SpeakerConfig} {ops : FloatOps} {vec : Embedding}
    {reg : SpeakerRegistry} {id : String} (h : recognised cfg ops vec reg = some id) :
    ∃ row, reg.speakers.get? id = some row ∧ row.centroid.isSome ∧
      (cosine ops vec (row.centroid.getD [])).ge cfg.tentativeThreshold := by
  have hbest : (bestMatch ops vec reg.matchable).1 = some id ∧
      (bestMatch ops vec reg.matchable).2.ge cfg.tentativeThreshold := by
    rw [recognised_eq] at h
    split_ifs at h with hconfirm htentative
    · exact ⟨h, SpeakerConfig.ge_tentative hconfirm⟩
    · exact ⟨h, htentative⟩
  obtain ⟨s, hs, hid, hsim⟩ := bestMatch_mem ops vec reg.matchable hbest.1
  obtain ⟨hrow, hsome⟩ := (reg.mem_matchable s).mp hs
  subst hid
  exact ⟨s.toSpeakerRow, hrow, hsome, hsim ▸ hbest.2⟩

/-- With one matchable speaker, a hop that is close enough to it is attributed to it. -/
theorem recognised_of_only {cfg : SpeakerConfig} {ops : FloatOps} {vec : Embedding}
    {reg : SpeakerRegistry} {s : Speaker} (hne : reg.matchable ≠ [])
    (honly : ∀ t ∈ reg.matchable, t = s)
    (hsim : (cosine ops vec (s.centroid.getD [])).ge cfg.tentativeThreshold) :
    recognised cfg ops vec reg = some s.speakerId := by
  rw [recognised_eq, bestMatch_of_only hne honly hsim]
  simp [hsim]

end OpenRecall.Model
