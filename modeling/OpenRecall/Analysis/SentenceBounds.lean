import OpenRecall.Model.SentenceCoalescer

/-!
# The bounds of sentences

Whatever the streamer returns, the sentences are made of all its segments in their order. In a
sentence no segment comes after a pause or after one that ends a sentence (`Joined`).

Between calls the pending segments are such a piece too, and none of them ends a sentence. They have
fewer words than the cap. Their time is below the cap when there are two or more of them: a lone
segment is not cut by its length, which the source guards by a test of its own (`Open`).

Each emission keeps this (`Coalesced.emitPending`), and each new segment (`Coalesced.absorbAll`).
-/

set_option autoImplicit false

namespace OpenRecall.Analysis.SentenceBounds

open OpenRecall.Model OpenRecall.Model.SentenceCoalescer

/-! ## Sentences -/

/-- The sentence made of some segments.
SOURCE: ingest/sentence_coalescer.py:201-213 -/
def sentenceOf (group : List TranscriptSegment) : TranscriptSegment where
  text := joinSpaced (group.map TranscriptSegment.text)
  startMs := (group.head?.map TranscriptSegment.startMs).getD 0
  endMs := (group.getLast?.map TranscriptSegment.endMs).getD 0
  sentenceId := (group.head?.map TranscriptSegment.sentenceId).getD 0

/-- Segments without a pause between them, of which only the last may end a sentence. -/
structure Joined (cfg : CoalescerConfig) (group : List TranscriptSegment) : Prop where
  ne_nil : group ≠ []
  gap : group.IsChain fun a b => b.startMs - a.endMs < cfg.pauseMs
  no_end : ∀ seg ∈ group.dropLast, endsSentence cfg.py cfg.isAlpha seg.text = false

/-- The time from the start of the first segment to the end of the last. -/
def span (group : List TranscriptSegment) : ℤ :=
  (group.getLast?.map TranscriptSegment.endMs).getD 0 -
    (group.head?.map TranscriptSegment.startMs).getD 0

/-- Segments that wait for the end of their sentence. -/
structure Open (cfg : CoalescerConfig) (pending : List TranscriptSegment) : Prop where
  gap : pending.IsChain fun a b => b.startMs - a.endMs < cfg.pauseMs
  no_end : ∀ seg ∈ pending, endsSentence cfg.py cfg.isAlpha seg.text = false
  words : (pending.map fun seg => wordCount seg.text).sum < maxSentenceWords
  time : 2 ≤ pending.length → span pending < maxSentenceMs

theorem open_nil (cfg : CoalescerConfig) : Open cfg [] :=
  ⟨List.isChain_nil, by simp, by simp [maxSentenceWords], by simp⟩

theorem Open.joined {cfg : CoalescerConfig} {pending : List TranscriptSegment}
    (h : Open cfg pending) (hne : pending ≠ []) : Joined cfg pending :=
  ⟨hne, h.gap, fun seg hseg => h.no_end seg (List.mem_of_mem_dropLast hseg)⟩

/-- A segment that comes without a pause may be added, and may be the last. -/
theorem Open.joined_append {cfg : CoalescerConfig} {pending : List TranscriptSegment}
    (h : Open cfg pending) {seg : TranscriptSegment}
    (hgap : ∀ last ∈ pending.getLast?, seg.startMs - last.endMs < cfg.pauseMs) :
    Joined cfg (pending ++ [seg]) where
  ne_nil := by simp
  gap := by
    refine List.isChain_append.mpr ⟨h.gap, List.isChain_singleton _, fun last hlast next hnext => ?_⟩
    obtain rfl : seg = next := by simpa using hnext
    exact hgap last hlast
  no_end := by simpa using h.no_end

/-! ## The state -/

/-- The sentences so far are made of groups, which are with the pending segments all the segments
the streamer returned. -/
structure Coalesced (cfg : CoalescerConfig) (raw : List TranscriptSegment)
    (out : List TranscriptSegment) (st : SentenceCoalescer)
    (groups : List (List TranscriptSegment)) : Prop where
  out_eq : out = groups.map sentenceOf
  flatten : groups.flatten ++ st.pending = raw
  joined : ∀ group ∈ groups, Joined cfg group
  sentenceId : st.pendingSentenceId = (st.pending.head?.map TranscriptSegment.sentenceId).getD 0

variable {cfg : CoalescerConfig} {raw out : List TranscriptSegment} {st : SentenceCoalescer}
  {groups : List (List TranscriptSegment)}

theorem emitPending_pending (st : SentenceCoalescer) : st.emitPending.2.pending = [] := by
  rw [SentenceCoalescer.emitPending]
  split_ifs with h
  · exact h
  · rfl

/-- Emitting makes a sentence of the pending segments. -/
theorem Coalesced.emitPending (h : Coalesced cfg raw out st groups)
    (hpending : st.pending = [] ∨ Joined cfg st.pending) :
    ∃ groups', Coalesced cfg raw (out ++ st.emitPending.1) st.emitPending.2 groups' := by
  rw [SentenceCoalescer.emitPending]
  split_ifs with hnil
  · exact ⟨groups, by simpa using h⟩
  · refine ⟨groups ++ [st.pending], ?_, ?_, ?_, rfl⟩
    · simp [h.out_eq, sentenceOf, h.sentenceId]
    · simpa using h.flatten
    · intro group hgroup
      rcases List.mem_append.mp hgroup with hgroup | hgroup
      · exact h.joined group hgroup
      · rw [List.mem_singleton.mp hgroup]
        exact hpending.resolve_left hnil

/-- A segment that comes without a pause is taken up. -/
theorem Coalesced.append (h : Coalesced cfg raw out st groups) (hopen : Open cfg st.pending)
    {seg : TranscriptSegment}
    (hgap : ∀ last ∈ st.pending.getLast?, seg.startMs - last.endMs < cfg.pauseMs) :
    ∃ groups', Coalesced cfg (raw ++ [seg]) (out ++ (SentenceCoalescer.append cfg seg st).1)
        (SentenceCoalescer.append cfg seg st).2 groups' ∧
      Open cfg (SentenceCoalescer.append cfg seg st).2.pending := by
  have hpushed : Coalesced cfg (raw ++ [seg]) out (st.push seg) groups := by
    refine ⟨h.out_eq, by simp [push, ← h.flatten], h.joined, ?_⟩
    cases hpending : st.pending with
    | nil => simp [push, hpending]
    | cons first rest => simp [push, h.sentenceId, hpending]
  have hjoined : Joined cfg (st.push seg).pending := hopen.joined_append hgap
  rw [SentenceCoalescer.append]
  split_ifs with hend
  · obtain ⟨groups', hemitted⟩ := hpushed.emitPending (Or.inr hjoined)
    exact ⟨groups', hemitted, (emitPending_pending _).symm ▸ open_nil cfg⟩
  · obtain ⟨hend, hcap⟩ := not_or.mp hend
    refine ⟨groups, by simpa using hpushed, hjoined.gap, ?_, ?_, ?_⟩
    · intro s hs
      rcases List.mem_append.mp hs with hs | hs
      · exact hopen.no_end s hs
      · rw [List.mem_singleton.mp hs]
        simpa using hend
    · by_contra hwords
      exact hcap (if_pos (not_lt.mp hwords))
    · intro htwo
      by_contra htime
      refine hcap ?_
      rw [capReached]
      split_ifs
      · rfl
      · exact decide_eq_true ⟨htwo, not_lt.mp htime⟩

/-- Whether a pause comes before a time is a matter of the last pending segment. -/
theorem not_isPause {cfg : CoalescerConfig} {st : SentenceCoalescer} {time : ℤ}
    (h : isPause cfg st time = false) :
    ∀ last ∈ st.pending.getLast?, time - last.endMs < cfg.pauseMs := by
  intro last hlast
  rw [isPause, Option.mem_def.mp hlast] at h
  simpa using h

/-- **The segments of a hop** are all taken up, in their order. -/
theorem Coalesced.absorbAll (h : Coalesced cfg raw out st groups) (hopen : Open cfg st.pending)
    (more : List TranscriptSegment) :
    ∃ groups', Coalesced cfg (raw ++ more) (out ++ (SentenceCoalescer.absorbAll cfg more st).1)
        (SentenceCoalescer.absorbAll cfg more st).2 groups' ∧
      Open cfg (SentenceCoalescer.absorbAll cfg more st).2.pending := by
  induction more generalizing raw out st groups with
  | nil => exact ⟨groups, by simpa [SentenceCoalescer.absorbAll] using h, hopen⟩
  | cons seg more ih =>
    rw [SentenceCoalescer.absorbAll]
    -- The segment is appended to what is pending after the pause before it, if there is one.
    obtain ⟨groups₁, h₁, hopen₁, hgap⟩ : ∃ groups₁,
        Coalesced cfg raw (out ++ (if isPause cfg st seg.startMs then st.emitPending else ([], st)).1)
          (if isPause cfg st seg.startMs then st.emitPending else ([], st)).2 groups₁ ∧
        Open cfg (if isPause cfg st seg.startMs then st.emitPending else ([], st)).2.pending ∧
        ∀ last ∈ (if isPause cfg st seg.startMs then st.emitPending else ([], st)).2.pending.getLast?,
          seg.startMs - last.endMs < cfg.pauseMs := by
      cases hpause : isPause cfg st seg.startMs with
      | true =>
        have hjoined : st.pending = [] ∨ Joined cfg st.pending :=
          (eq_or_ne st.pending []).imp_right hopen.joined
        obtain ⟨groups₁, h₁⟩ := h.emitPending hjoined
        refine ⟨groups₁, h₁, ?_, ?_⟩
        · simpa [emitPending_pending] using open_nil cfg
        · simp [emitPending_pending]
      | false => exact ⟨groups, by simpa using h, hopen, not_isPause hpause⟩
    obtain ⟨groups₂, h₂, hopen₂⟩ := h₁.append hopen₁ hgap
    obtain ⟨groups₃, h₃, hopen₃⟩ := ih h₂ hopen₂
    refine ⟨groups₃, ?_, hopen₃⟩
    simpa using h₃

/-- One call. -/
theorem Coalesced.absorb (h : Coalesced cfg raw out st groups) (hopen : Open cfg st.pending)
    (more : List TranscriptSegment) (finalize : Bool) :
    ∃ groups', Coalesced cfg (raw ++ more) (out ++ (SentenceCoalescer.absorb cfg more finalize st).1)
        (SentenceCoalescer.absorb cfg more finalize st).2 groups' ∧
      Open cfg (SentenceCoalescer.absorb cfg more finalize st).2.pending := by
  obtain ⟨groups₁, h₁, hopen₁⟩ := h.absorbAll hopen more
  simp only [SentenceCoalescer.absorb]
  split_ifs
  · obtain ⟨groups₂, h₂⟩ := h₁.emitPending ((eq_or_ne _ []).imp_right hopen₁.joined)
    refine ⟨groups₂, by simpa using h₂, ?_⟩
    rw [emitPending_pending]
    exact open_nil cfg
  · exact ⟨groups₁, by simpa using h₁, hopen₁⟩

/-! ## The run -/

/-- **Between calls** all the segments are in sentences or pending, and the pending ones are below the
caps. -/
theorem coalesced_feedAll (cfg : CoalescerConfig) (hops : List (Bytes × List TranscriptSegment)) :
    ∃ groups, Coalesced cfg (hops.flatMap Prod.snd) (feedAll cfg hops {}).1 (feedAll cfg hops {}).2
        groups ∧
      Open cfg (feedAll cfg hops {}).2.pending := by
  suffices hall : ∀ (raw out : List TranscriptSegment) (st : SentenceCoalescer)
      (groups : List (List TranscriptSegment)), Coalesced cfg raw out st groups →
      Open cfg st.pending →
      ∃ groups', Coalesced cfg (raw ++ hops.flatMap Prod.snd) (out ++ (feedAll cfg hops st).1)
          (feedAll cfg hops st).2 groups' ∧ Open cfg (feedAll cfg hops st).2.pending by
    simpa using hall [] [] {} [] ⟨rfl, rfl, by simp, rfl⟩ (open_nil cfg)
  induction hops with
  | nil =>
    intro raw out st groups h hopen
    exact ⟨groups, by simpa [feedAll] using h, hopen⟩
  | cons hop hops ih =>
    intro raw out st groups h hopen
    have hclock : Coalesced cfg raw out
        { st with audioMs := st.audioMs + (hop.1.length * 1000 / (cfg.sampleRate * 2) : ℕ) } groups :=
      ⟨h.out_eq, h.flatten, h.joined, h.sentenceId⟩
    obtain ⟨groups₁, h₁, hopen₁⟩ := hclock.absorb hopen hop.2 false
    obtain ⟨groups₂, h₂, hopen₂⟩ := ih _ _ _ _ h₁ hopen₁
    refine ⟨groups₂, ?_, hopen₂⟩
    simpa [feedAll, feed] using h₂

/-- **Lossless and bounded.** After any calls and the flush the sentences are made of all the segments
the streamer returned, in their order, each once, with no pause inside and nothing after a segment
that ends a sentence. Between calls the pending segments are below the word cap, and below the
duration cap when there are two or more.
SOURCE: ingest/sentence_coalescer.py:152-223 -/
theorem sentences_bounds (cfg : CoalescerConfig) (hops : List (Bytes × List TranscriptSegment))
    (last : List TranscriptSegment) :
    let run := feedAll cfg hops {}
    (∃ groups : List (List TranscriptSegment),
      run.1 ++ (run.2.flush cfg last).1 = groups.map sentenceOf ∧
      groups.flatten = hops.flatMap Prod.snd ++ last ∧ ∀ group ∈ groups, Joined cfg group) ∧
      (run.2.flush cfg last).2.pending = [] ∧
      (run.2.pending.map fun seg => wordCount seg.text).sum < maxSentenceWords ∧
      (2 ≤ run.2.pending.length → span run.2.pending < maxSentenceMs) := by
  intro run
  obtain ⟨groups, h, hopen⟩ := coalesced_feedAll cfg hops
  have hclosed : (run.2.flush cfg last).2.pending = [] := by
    simp [run, SentenceCoalescer.flush, SentenceCoalescer.absorb, emitPending_pending]
  obtain ⟨all, hflush, -⟩ := h.absorb hopen last true
  refine ⟨⟨all, hflush.out_eq, ?_, hflush.joined⟩, hclosed, hopen.words, hopen.time⟩
  have hflat := hflush.flatten
  rwa [show (SentenceCoalescer.absorb cfg last true run.2).2.pending = [] from hclosed,
    List.append_nil] at hflat

/-- One word that takes twelve seconds is pending after the hop in which it ends. -/
theorem pending_over_duration_cap :
    ¬ ∀ (cfg : CoalescerConfig) (hops : List (Bytes × List TranscriptSegment)),
      ((feedAll cfg hops {}).2.pending.map fun seg => wordCount seg.text).sum < maxSentenceWords ∧
      span (feedAll cfg hops {}).2.pending < maxSentenceMs := by
  intro hall
  have hspan := (hall { py := asciiLower, isAlpha := fun _ => true, sampleRate := 1 }
    [(List.replicate 24 0, [{ text := ['o', 'h'], startMs := 0, endMs := 12000 }])]).2
  revert hspan
  decide

end OpenRecall.Analysis.SentenceBounds
