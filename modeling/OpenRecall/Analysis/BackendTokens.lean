import OpenRecall.Foundation.SortedGroups
import OpenRecall.Model.AsrBackends
import OpenRecall.Analysis.AtomBackends
import OpenRecall.Analysis.EachWordOnce

/-!
# From a backend's answer to the transcript

A backend numbers its sentences and gives their words in this order, so a hop's segments are of
different sentences, each of just the new words of its own. Of Whisper nothing is left of what it made
up; Parakeet's pieces are put together without losing any text.
-/

set_option autoImplicit false

namespace OpenRecall.Analysis.BackendTokens

open Foundation OpenRecall.Model OpenRecall.Model.AsrBackends
open OpenRecall.Model.StreamingTranscriber (newTokens isNew segmentOf textOf emit feed extend commit
  isRepeat hopHasVoicedFrames windowIsSilent)

variable (py : LowerCase) {msOf : ℚ → Option ℤ}

/-! ## Sentences in their order -/

/-- The sentences' numbers do not go down. -/
def InOrder (tokens : List Token) : Prop := tokens.Pairwise fun a b => a.sentenceId ≤ b.sentenceId

theorem groupBySentenceId_eq (tokens : List Token) : groupBySentenceId tokens =
    (SortedGroups.groups Token.sentenceId tokens).map fun group =>
      ((group.head?.map Token.sentenceId).getD 0, group) := rfl

/-- A sentence is made of the tokens with its number. -/
theorem eq_filter_of_mem {tokens : List Token} (h : InOrder tokens) {group : ℤ × List Token}
    (hgroup : group ∈ groupBySentenceId tokens) :
    group.2 = tokens.filter (fun t => t.sentenceId = group.1) ∧ ∃ t ∈ group.2, t.sentenceId = group.1 := by
  rw [groupBySentenceId_eq] at hgroup
  obtain ⟨g, hg, rfl⟩ := List.mem_map.mp hgroup
  obtain ⟨t, ts, rfl⟩ := List.exists_cons_of_ne_nil (List.ne_nil_of_mem_splitBy hg)
  exact ⟨(SortedGroups.filter_key h hg List.mem_cons_self).symm, t, List.mem_cons_self, rfl⟩

/-- The numbers of the sentences go up. -/
theorem pairwise_groupBySentenceId {tokens : List Token} (h : InOrder tokens) :
    (groupBySentenceId tokens).Pairwise fun g g' => g.1 < g'.1 := by
  rw [groupBySentenceId_eq, List.pairwise_map]
  refine (List.Pairwise.and_mem.mp (SortedGroups.ascending_groups h)).imp ?_
  rintro g g' ⟨hg, hg', hlt⟩
  obtain ⟨t, ts, rfl⟩ := List.exists_cons_of_ne_nil (List.ne_nil_of_mem_splitBy hg)
  obtain ⟨t', ts', rfl⟩ := List.exists_cons_of_ne_nil (List.ne_nil_of_mem_splitBy hg')
  exact hlt t List.mem_cons_self t' List.mem_cons_self

/-- New tokens are in the order of the tokens. -/
theorem inOrder_newTokens {tokens : List Token} (h : InOrder tokens) (st : StreamingTranscriber) :
    InOrder (newTokens py st tokens) := by
  rw [InOrder, newTokens, List.pairwise_map]
  exact h.filter _

theorem filter_newTokens (st : StreamingTranscriber) (tokens : List Token) (id : ℤ) :
    (newTokens py st tokens).filter (fun t => t.sentenceId = id) =
      newTokens py st (tokens.filter fun t => t.sentenceId = id) := by
  rw [newTokens, newTokens, List.filter_map, List.filter_filter, List.filter_filter]
  congr 1
  refine List.filter_congr fun t _ => ?_
  rw [Bool.and_comm]
  rfl

/-- What is passed on are sentences, in their order. -/
theorem emit_sublist (groups : List (ℤ × List Token)) (st : StreamingTranscriber) :
    List.Sublist (emit py groups st).1 (groups.map segmentOf) := by
  induction groups generalizing st with
  | nil => exact List.Sublist.slnil
  | cons group groups ih =>
    rw [emit]
    split_ifs
    · exact (ih st).cons _
    · exact (ih _).cons_cons _

/-- What a hop passes on is of sentences of the new words, or nothing. -/
theorem feed_cases (cfg : StreamingConfig) (pcm : Bytes) (st : StreamingTranscriber) :
    (st.feed py cfg pcm).1 = [] ∨
      (st.feed py cfg pcm).1 = (emit py (groupBySentenceId (newTokens py (st.extend cfg pcm)
        (cfg.transcribe (st.extend cfg pcm).buffer cfg.sampleRate))) (st.extend cfg pcm)).1 := by
  unfold feed
  by_cases hpcm : pcm = []
  · exact .inl (by rw [if_pos hpcm])
  · rw [if_neg hpcm]
    dsimp only
    split_ifs
    · exact .inl rfl
    · exact .inl rfl
    · exact .inr rfl

/-- **One segment for each sentence.** The segments of a hop are of different sentences, in their
order, and each is made of just the new words of its sentence. -/
theorem sentences_of_inOrder {cfg : StreamingConfig} {pcm : Bytes} {st : StreamingTranscriber}
    {tokens : List Token}
    (htokens : cfg.transcribe (st.extend cfg pcm).buffer cfg.sampleRate = tokens)
    (h : InOrder tokens) :
    (st.feed py cfg pcm).1.Pairwise (fun s s' => s.sentenceId < s'.sentenceId) ∧
      ∀ s ∈ (st.feed py cfg pcm).1, (∃ t ∈ tokens, t.sentenceId = s.sentenceId) ∧
        s = segmentOf (s.sentenceId, newTokens py (st.extend cfg pcm)
          (tokens.filter fun t => t.sentenceId = s.sentenceId)) := by
  rcases feed_cases py cfg pcm st with hnone | hsome
  · simp [hnone]
  · rw [hsome, htokens]
    have hsub := emit_sublist py
      (groupBySentenceId (newTokens py (st.extend cfg pcm) tokens)) (st.extend cfg pcm)
    have horder := inOrder_newTokens py h (st.extend cfg pcm)
    refine ⟨List.Pairwise.sublist hsub ?_, fun s hs => ?_⟩
    · rw [List.pairwise_map]
      exact pairwise_groupBySentenceId horder
    · obtain ⟨group, hgroup, rfl⟩ := List.mem_map.mp (hsub.subset hs)
      obtain ⟨hfilter, t, ht, hid⟩ := eq_filter_of_mem horder hgroup
      constructor
      · rw [hfilter, List.mem_filter, newTokens, List.mem_map] at ht
        obtain ⟨⟨t, ht, rfl⟩, -⟩ := ht
        exact ⟨t, List.mem_of_mem_filter ht, hid⟩
      · have hgroup' : group = (group.1, group.2) := rfl
        rw [hgroup', hfilter, filter_newTokens]
        rfl

/-! ## Numbered sentences -/

universe u

variable {α : Type u}

/-- The tokens of parts that are numbered one after the other. -/
def numbered (tokensOf : ℤ → α → Option (List Token)) : ℕ → List α → Option (List Token)
  | _, [] => some []
  | i, part :: rest => do
    let tokens ← tokensOf (i + 1) part
    let more ← numbered tokensOf (i + 1) rest
    return tokens ++ more

theorem sentenceTokens_eq_numbered (i : ℕ) (sentences : List (List Piece)) :
    sentenceTokens msOf i sentences = numbered (alignedTokensToTokens msOf) i sentences := by
  induction sentences generalizing i with
  | nil => rfl
  | cons pieces sentences ih => rw [sentenceTokens, numbered, ih]

/-- The tokens are in the order of the parts, and those with a part's number are the part's. -/
structure Numbered (tokensOf : ℤ → α → Option (List Token)) (i : ℕ) (parts : List α)
    (tokens : List Token) : Prop where
  inOrder : InOrder tokens
  exists_part : ∀ t ∈ tokens, ∃ (k : ℕ) (part : α), parts[k]? = some part ∧
    t.sentenceId = (i : ℤ) + k + 1
  filter_eq : ∀ (k : ℕ) (part : α), parts[k]? = some part →
    tokensOf (i + k + 1) part = some (tokens.filter fun t => t.sentenceId = (i : ℤ) + k + 1)

theorem numbered_spec {tokensOf : ℤ → α → Option (List Token)}
    (hid : ∀ id part tokens, tokensOf id part = some tokens → ∀ t ∈ tokens, t.sentenceId = id)
    {i : ℕ} {parts : List α} {tokens : List Token} (h : numbered tokensOf i parts = some tokens) :
    Numbered tokensOf i parts tokens := by
  induction parts generalizing i tokens with
  | nil =>
    obtain rfl : [] = tokens := Option.some.inj h
    exact ⟨List.Pairwise.nil, by simp, by simp⟩
  | cons part parts ih =>
    rw [numbered] at h
    obtain ⟨first, hfirst, h⟩ := Option.bind_eq_some_iff.mp h
    obtain ⟨more, hmore, h⟩ := Option.bind_eq_some_iff.mp h
    obtain rfl : first ++ more = tokens := Option.some.inj h
    obtain ⟨horder, hpart, hfilter⟩ := ih hmore
    have hids := hid _ _ _ hfirst
    have hlater : ∀ t ∈ more, (i : ℤ) + 1 < t.sentenceId := by
      intro t ht
      obtain ⟨k, part, -, hk⟩ := hpart t ht
      push_cast at hk
      omega
    refine ⟨List.pairwise_append.mpr ⟨?_, horder, fun a ha b hb => ?_⟩, fun t ht => ?_, ?_⟩
    · exact List.pairwise_iff_forall_sublist.mpr fun {a b} hab => by
        rw [hids a (hab.subset (by simp)), hids b (hab.subset (by simp))]
    · exact (hids a ha).trans_le (hlater b hb).le
    · rcases List.mem_append.mp ht with ht | ht
      · exact ⟨0, part, rfl, by rw [hids t ht]; simp⟩
      · obtain ⟨k, part, hget, hk⟩ := hpart t ht
        exact ⟨k + 1, part, by simpa using hget, by push_cast at hk ⊢; omega⟩
    · intro k part' hget
      cases k with
      | zero =>
        obtain rfl : part = part' := by simpa using hget
        have hall : first.filter (fun t => t.sentenceId = (i : ℤ) + (0 : ℕ) + 1) = first :=
          List.filter_eq_self.mpr fun t ht => by simp [hids t ht]
        have hnone : more.filter (fun t => t.sentenceId = (i : ℤ) + (0 : ℕ) + 1) = [] :=
          List.filter_eq_nil_iff.mpr fun t ht => by simpa using (hlater t ht).ne'
        rw [List.filter_append, hall, hnone, List.append_nil]
        simpa using hfirst
      | succ k =>
        have hnone : first.filter (fun t => t.sentenceId = (i : ℤ) + (k + 1 : ℕ) + 1) = [] := by
          refine List.filter_eq_nil_iff.mpr fun t ht => ?_
          have := hids t ht
          simp only [decide_eq_true_eq]
          push_cast
          omega
        have hk : (i : ℤ) + (k + 1 : ℕ) + 1 = (i + 1 : ℕ) + k + 1 := by push_cast; ring
        rw [List.filter_append, hnone, List.nil_append, hk]
        exact hfilter k part' (by simpa using hget)

/-! ## Whisper's loops -/

def wholeMs (q : ℚ) : Option ℤ := some (q * 1000).floor

/-- A piece that ends after it starts. -/
def Lasting (msOf : ℚ → Option ℤ) (piece : Piece) : Prop :=
  ∀ startMs ∈ secondsToMs msOf piece.start, ∀ endMs ∈ secondsToMs msOf piece.finish, startMs < endMs

instance (piece : Piece) : Decidable (Lasting msOf piece) :=
  inferInstanceAs (Decidable (∀ startMs ∈ secondsToMs msOf piece.start, ∀ endMs ∈ _, startMs < endMs))

/-- A text that begins with a space does not go on with the word before it. -/
theorem splitText_append {before text : Text} (h : before = [] ∨ text.head?.any isSpace = true) :
    splitText (before ++ text) = splitText before ++ splitText text := by
  rcases h with rfl | h
  · simp [splitText]
  · cases text with
    | nil => simp [splitText]
    | cons c text =>
      have hc : isSpace c = true := by simpa using h
      have hfirst : splitText (c :: text) = splitText text := by
        simpa [splitText] using SpacedWords.words_append_space hc [] text
      rw [hfirst]
      exact SpacedWords.words_append_space hc before text

/-- The text so far is that of the words and of the one under way. -/
structure Keeps (text : Text) (m : Merging) : Prop where
  split : ∃ before, text = before ++ m.text ∧ m.words.flatMap (fun t => splitText t.text) =
    splitText before ∧ (before = [] ∨ m.text.head?.any isSpace = true)
  start_eq : m.text = [] → m.start = none
  lasting : m.text ≠ [] → ∃ start, m.start = some start ∧ start < m.finish

/-- A word that is put away keeps its text. -/
theorem words_flush {text : Text} {m : Merging} (h : Keeps text m) (id : ℤ) :
    (m.flush id).words.flatMap (fun t => splitText t.text) = splitText text := by
  obtain ⟨⟨before, rfl, hwords, hspace⟩, hstart, hlasting⟩ := h
  rw [splitText_append hspace, ← hwords, Merging.flush]
  by_cases hnil : m.text = []
  · simp [hstart hnil, hnil, splitText]
  · obtain ⟨start, hsome, hlt⟩ := hlasting hnil
    rw [hsome]
    by_cases hblank : stripText m.text = []
    · have hnone : splitText m.text = [] := by
        rw [← EachWordOnce.splitText_stripText, hblank]
        simp [splitText]
      simp [hblank, hnone]
    · simp [hblank, hlt, EachWordOnce.splitText_stripText]

/-- A piece adds its text. -/
theorem keeps_add {text : Text} {m m' : Merging} {id : ℤ} {piece : Piece} (h : Keeps text m)
    (hpiece : Lasting msOf piece) (hadd : m.add msOf id piece = some m') :
    Keeps (text ++ piece.text) m' := by
  unfold Merging.add at hadd
  split_ifs at hadd with hnil hspace
  · obtain rfl := Option.some.inj hadd
    simpa [hnil] using h
  · obtain ⟨startMs, hstart, hadd⟩ := Option.bind_eq_some_iff.mp hadd
    obtain ⟨endMs, hend, hadd⟩ := Option.bind_eq_some_iff.mp hadd
    obtain rfl := Option.some.inj hadd
    have hlt := hpiece startMs hstart endMs hend
    refine ⟨⟨text, by simp [Merging.flush], words_flush h id, .inr hspace.1⟩, ?_, ?_⟩
    · intro htext
      exact absurd (List.append_eq_nil_iff.mp htext).2 hnil
    · intro _
      exact ⟨startMs, rfl, lt_max_of_lt_right hlt⟩
  · obtain ⟨startMs, hstart, hadd⟩ := Option.bind_eq_some_iff.mp hadd
    obtain ⟨endMs, hend, hadd⟩ := Option.bind_eq_some_iff.mp hadd
    obtain rfl := Option.some.inj hadd
    have hlt := hpiece startMs hstart endMs hend
    obtain ⟨⟨before, rfl, hwords, hbefore⟩, hnone, hlasting⟩ := h
    refine ⟨⟨before, List.append_assoc _ _ _, hwords, hbefore.imp_right fun hhead => ?_⟩, ?_, ?_⟩
    · cases htext : m.text with
      | nil => simp [htext] at hhead
      | cons c cs => simpa [htext] using hhead
    · intro htext
      exact absurd (List.append_eq_nil_iff.mp htext).2 hnil
    · intro _
      by_cases htext : m.text = []
      · exact ⟨startMs, by simp [hnone htext], lt_max_of_lt_right hlt⟩
      · obtain ⟨start, hsome, hlt⟩ := hlasting htext
        exact ⟨start, by simp [hsome], lt_max_of_lt_left hlt⟩

/-- The invariant of a fold that may fail, over the items that were read. -/
theorem foldlM_induction {σ : Type} {f : σ → α → Option σ} {P : List α → σ → Prop} {items : List α}
    {start finish : σ} (hstart : P [] start)
    (hstep : ∀ read x s s', x ∈ items → P read s → f s x = some s' → P (read ++ [x]) s')
    (h : items.foldlM f start = some finish) : P items finish := by
  induction items using List.reverseRecOn generalizing finish with
  | nil =>
    obtain rfl := Option.some.inj h
    exact hstart
  | append_singleton items x ih =>
    rw [List.foldlM_append] at h
    obtain ⟨s, hs, h⟩ := Option.bind_eq_some_iff.mp h
    have hread := ih (fun read y s s' hy => hstep read y s s' (List.mem_append_left _ hy)) hs
    exact hstep items x s finish (by simp) hread (by simpa using h)

/-- The words of pieces have the text of the pieces. -/
theorem words_of_pieces {id : ℤ} {pieces : List Piece} {tokens : List Token}
    (hpieces : ∀ piece ∈ pieces, Lasting msOf piece)
    (h : alignedTokensToTokens msOf id pieces = some tokens) :
    tokens.flatMap (fun t => splitText t.text) = splitText (pieces.flatMap Piece.text) := by
  obtain ⟨m, hm, h⟩ := Option.bind_eq_some_iff.mp h
  obtain rfl := Option.some.inj h
  have hstart : Keeps [] {} := ⟨⟨[], rfl, by simp [splitText], .inl rfl⟩, fun _ => rfl, by simp⟩
  refine words_flush (foldlM_induction (P := fun read m => Keeps (read.flatMap Piece.text) m) hstart
    (fun read piece m m' hmem hkeeps hadd => ?_) hm) id
  simpa using keeps_add hkeeps (hpieces piece hmem) hadd

/-- Words have the number of their sentence. -/
theorem sentenceId_of_pieces {id : ℤ} {pieces : List Piece} {tokens : List Token}
    (h : alignedTokensToTokens msOf id pieces = some tokens) : ∀ t ∈ tokens, t.sentenceId = id := by
  have hflush : ∀ m : Merging, (∀ t ∈ m.words, t.sentenceId = id) →
      ∀ t ∈ (m.flush id).words, t.sentenceId = id := by
    intro m hm t ht
    unfold Merging.flush at ht
    dsimp only at ht
    split at ht
    · split_ifs at ht
      · rcases List.mem_append.mp ht with ht | ht
        · exact hm t ht
        · obtain rfl := List.mem_singleton.mp ht
          rfl
      · exact hm t ht
    · exact hm t ht
  obtain ⟨m, hm, h⟩ := Option.bind_eq_some_iff.mp h
  obtain rfl := Option.some.inj h
  refine hflush m (foldlM_induction (P := fun _ m => ∀ t ∈ m.words, t.sentenceId = id) (by simp)
    (fun _ piece m m' _ hids hadd => ?_) hm)
  unfold Merging.add at hadd
  split_ifs at hadd
  · obtain rfl := Option.some.inj hadd
    exact hids
  · obtain ⟨_, -, hadd⟩ := Option.bind_eq_some_iff.mp hadd
    obtain ⟨_, -, hadd⟩ := Option.bind_eq_some_iff.mp hadd
    obtain rfl := Option.some.inj hadd
    exact hflush m hids
  · obtain ⟨_, -, hadd⟩ := Option.bind_eq_some_iff.mp hadd
    obtain ⟨_, -, hadd⟩ := Option.bind_eq_some_iff.mp hadd
    obtain rfl := Option.some.inj hadd
    exact hids

/-- The new words of one sentence; they spell what its pieces do when all of them are new. -/
def FromParakeet (py : LowerCase) (sentences : List (List Piece)) (tokens : List Token)
    (st : StreamingTranscriber) (s : TranscriptSegment) : Prop :=
  ∃ (k : ℕ) (pieces : List Piece), sentences[k]? = some pieces ∧ s.sentenceId = k + 1 ∧
    s = segmentOf (s.sentenceId,
      newTokens py st (tokens.filter fun t => t.sentenceId = s.sentenceId)) ∧
    ((∀ t ∈ tokens, t.sentenceId = s.sentenceId → isNew py st t = true) →
      splitText s.text = splitText (pieces.flatMap Piece.text))

variable (msOf) in
/-- **Parakeet's words have the text of its pieces.** When every piece takes some time, the words of a
sentence are those that its pieces spell. The segments of a hop are of different sentences, in their
order, each of just the new words of its own. -/
theorem parakeet_sentences {cfg : StreamingConfig} {pcm : Bytes} {st : StreamingTranscriber}
    {sentences : List (List Piece)} (pieces : Option (List Piece)) {tokens : List Token}
    (hne : sentences ≠ []) (hlasting : ∀ pieces ∈ sentences, ∀ piece ∈ pieces, Lasting msOf piece)
    (hresult : resultToTokens msOf sentences pieces = some tokens)
    (htokens : cfg.transcribe (st.extend cfg pcm).buffer cfg.sampleRate = tokens) :
    (∀ (k : ℕ) (pieces : List Piece), sentences[k]? = some pieces →
        (tokens.filter fun t => t.sentenceId = (k : ℤ) + 1).flatMap (fun t => splitText t.text) =
          splitText (pieces.flatMap Piece.text)) ∧
      (st.feed py cfg pcm).1.Pairwise (fun s s' => s.sentenceId < s'.sentenceId) ∧
      ∀ s ∈ (st.feed py cfg pcm).1, FromParakeet py sentences tokens (st.extend cfg pcm) s := by
  rw [resultToTokens, if_pos hne, sentenceTokens_eq_numbered] at hresult
  obtain ⟨horder, hpart, hfilter⟩ := numbered_spec (fun _ _ _ => sentenceId_of_pieces) hresult
  have hspell : ∀ (k : ℕ) (pieces : List Piece), sentences[k]? = some pieces →
      (tokens.filter fun t => t.sentenceId = (k : ℤ) + 1).flatMap (fun t => splitText t.text) =
        splitText (pieces.flatMap Piece.text) := by
    intro k pieces hget
    have hwords := hfilter k pieces hget
    simp only [Nat.cast_zero, zero_add] at hwords
    exact words_of_pieces (hlasting pieces (List.mem_of_getElem? hget)) hwords
  obtain ⟨hup, hof⟩ := sentences_of_inOrder py htokens horder
  refine ⟨hspell, hup, fun s hs => ?_⟩
  obtain ⟨⟨t, ht, hid⟩, hs'⟩ := hof s hs
  obtain ⟨k, pieces, hget, hk⟩ := hpart t ht
  have hid' : s.sentenceId = k + 1 := by
    rw [← hid, hk]
    simp
  refine ⟨k, pieces, hget, hid', hs', fun hnew => ?_⟩
  have hall : (tokens.filter fun t => t.sentenceId = s.sentenceId).filter (isNew py (st.extend cfg pcm)) =
      tokens.filter fun t => t.sentenceId = s.sentenceId := by
    refine List.filter_eq_self.mpr fun t ht => ?_
    obtain ⟨ht, hid⟩ := List.mem_filter.mp ht
    exact hnew t ht (by simpa using hid)
  rw [← hspell k pieces hget, ← hid']
  calc splitText s.text = (newTokens py (st.extend cfg pcm)
        (tokens.filter fun t => t.sentenceId = s.sentenceId)).flatMap (fun t => splitText t.text) := by
        conv_lhs => rw [hs']
        exact EachWordOnce.splitText_textOf _
    _ = _ := by
        rw [newTokens, hall, List.flatMap_map]

/-- A greeting in pieces of words, and a word of its own. -/
def greetingPieces : List (List Piece) :=
  [[⟨"Hel".toList, some (.finite 0), some (.finite (1 / 2))⟩,
      ⟨"lo".toList, some (.finite (1 / 2)), some (.finite 1)⟩,
      ⟨" there".toList, some (.finite 1), some (.finite 2)⟩],
    [⟨" Hi".toList, some (.finite 2), some (.finite 3)⟩]]

def greetingWords : List Token :=
  [⟨"Hello".toList, 0, 1000, 1⟩, ⟨"there".toList, 1000, 2000, 1⟩, ⟨"Hi".toList, 2000, 3000, 2⟩]

theorem parakeet_sentences_greeting :
    (∀ (k : ℕ) (pieces : List Piece), greetingPieces[k]? = some pieces →
        (greetingWords.filter fun t => t.sentenceId = (k : ℤ) + 1).flatMap
          (fun t => splitText t.text) = splitText (pieces.flatMap Piece.text)) ∧
      (feed asciiLower { transcribe := fun _ _ => greetingWords } [0, 1] {}).1.Pairwise
        (fun s s' => s.sentenceId < s'.sentenceId) ∧
      ∀ s ∈ (feed asciiLower { transcribe := fun _ _ => greetingWords } [0, 1] {}).1,
        FromParakeet asciiLower greetingPieces greetingWords
          (extend { transcribe := fun _ _ => greetingWords } [0, 1] {}) s :=
  parakeet_sentences asciiLower wholeMs none (by simp [greetingPieces])
    (by decide +kernel) (by decide +kernel) rfl

end OpenRecall.Analysis.BackendTokens
