import OpenRecall.Analysis.HeardWords

/-!
# Each word once

With an ideal backend the transcriber passes on every word of the audio once. A word that is no
longer than the window without a hop lies fully in the window of the feed in which it ends
(`heard_of_within`). It could only be lost as a part of a sentence that repeats the last one, and two
sentences of words with different texts are not normalised alike (`exists_common_word`,
`not_missed`).
-/

set_option autoImplicit false

namespace OpenRecall.Analysis.EachWordOnce

open Foundation OpenRecall.Model OpenRecall.Model.StreamingTranscriber HeardWords

/-! ## Texts that are normalised alike -/

theorem isSpace_of_mem_punctuation (c : Char) (h : decide (c ∈ punctuation) = true) :
    isSpace c = false := by
  have hall : ∀ c ∈ punctuation, isSpace c = false := by simp [punctuation, isSpace]
  exact hall c (of_decide_eq_true h)

theorem splitText_stripText (text : Text) : splitText (stripText text) = splitText text :=
  SpacedWords.words_trim text

theorem splitText_joinSpaced_splitText (text : Text) :
    splitText (joinSpaced (splitText text)) = splitText text :=
  SpacedWords.words_intercalate_of_words (by decide) fun _ hw => SpacedWords.of_mem_words hw

/-- The words of a sentence are those of its tokens. -/
theorem splitText_textOf (group : List Token) :
    splitText (textOf group) = group.flatMap fun tok => splitText tok.text := by
  rw [splitText, textOf, joinSpaced, SpacedWords.words_intercalate (by decide), List.flatMap_map]
  exact List.flatMap_congr fun tok _ => SpacedWords.words_dropWhile tok.text

/-- The words of segments are those of their sentences. -/
theorem splitText_segments (sentences : List (ℤ × List Token)) :
    (sentences.map segmentOf).flatMap (fun segment => splitText segment.text) =
      (spoken sentences).flatMap fun w => splitText w.text := by
  have htexts : ∀ group : ℤ × List Token, splitText (segmentOf group).text =
      group.2.flatMap fun tok => splitText (spokenAt 0 tok).text :=
    fun group => splitText_textOf group.2
  rw [spoken, List.flatMap_map, List.flatMap_map, List.flatMap_assoc]
  simp only [htexts]

/-- Lowering works word by word. -/
theorem exists_of_mem_splitText_lower {py : LowerCase} {text v : Text}
    (h : v ∈ splitText (py.lower text)) : ∃ u ∈ splitText text, v = py.lower u := by
  induction text using SpacedWords.induction_on_words (p := isSpace) with
  | single text htext =>
    rw [splitText, SpacedWords.words_of_forall (py.not_isSpace text htext)] at h
    rw [splitText, SpacedWords.words_of_forall htext]
    by_cases hnil : text = []
    · simp [hnil, py.lower_nil] at h
    · split_ifs at h with hlower
      · simp at h
      · exact ⟨text, by simp [hnil], by simpa using h⟩
  | space xs c ys hc hxs ih =>
    rw [splitText, py.lower_append_space _ _ _ hc, SpacedWords.words_append_space hc,
      List.mem_append] at h
    rw [splitText, SpacedWords.words_append_space hc]
    rcases h with h | h
    · rw [SpacedWords.words_of_forall (py.not_isSpace xs hxs)] at h
      split_ifs at h with hlower
      · simp at h
      · have hne : xs ≠ [] := fun hnil => hlower (by rw [hnil, py.lower_nil])
        rw [SpacedWords.words_of_forall hxs, if_neg hne]
        exact ⟨xs, by simp, by simpa using h⟩
    · obtain ⟨u, hu, huv⟩ := ih h
      exact ⟨u, List.mem_append_right _ hu, huv⟩

/-- A word of a normalised text comes from a word of the text. -/
theorem exists_of_mem_normalized {py : LowerCase} {text x : Text}
    (h : x ∈ splitText (normalizeSegmentText py text)) :
    ∃ u ∈ splitText text,
      SpacedWords.trim (· ∈ punctuation) x = SpacedWords.trim (· ∈ punctuation) (py.lower u) := by
  have hx : x ∈ splitText (SpacedWords.trim (· ∈ punctuation) (py.lower (stripText text))) := by
    rwa [normalizeSegmentText, splitText_joinSpaced_splitText] at h
  obtain ⟨v, hv, hxv⟩ := SpacedWords.exists_mem_words_of_trim isSpace_of_mem_punctuation hx
  obtain ⟨u, hu, rfl⟩ := exists_of_mem_splitText_lower hv
  exact ⟨u, by rwa [splitText_stripText] at hu, hxv⟩

/-- A text of one word is normalised by that word. -/
theorem normalizeSegmentText_of_word {py : LowerCase} {text u : Text} (hword : wordCount text = 1)
    (hu : u ∈ splitText text) : normalizeSegmentText py text =
      joinSpaced (splitText (SpacedWords.trim (· ∈ punctuation) (py.lower u))) := by
  obtain ⟨v, hv⟩ := List.length_eq_one_iff.mp hword
  obtain rfl : u = v := by simpa [hv] using hu
  have hstrip : stripText text = u := SpacedWords.trim_eq_of_words_eq_singleton hv
  rw [normalizeSegmentText, hstrip]

/-- **Two sentences that are normalised alike** have words that are normalised alike. -/
theorem exists_common_word {py : LowerCase} {xs ys : List Token}
    (hxs : ∀ tok ∈ xs, wordCount tok.text = 1) (hys : ∀ tok ∈ ys, wordCount tok.text = 1)
    (hne : normalizeSegmentText py (textOf xs) ≠ [])
    (heq : normalizeSegmentText py (textOf xs) = normalizeSegmentText py (textOf ys)) :
    ∃ x ∈ xs, ∃ y ∈ ys, normalizeSegmentText py x.text = normalizeSegmentText py y.text := by
  obtain ⟨w, hw⟩ : ∃ w, w ∈ splitText (normalizeSegmentText py (textOf xs)) := by
    refine List.exists_mem_of_ne_nil _ fun hnil => hne ?_
    rw [normalizeSegmentText, splitText_joinSpaced_splitText] at hnil
    rw [normalizeSegmentText, hnil]
    rfl
  obtain ⟨u, hu, hwu⟩ := exists_of_mem_normalized hw
  obtain ⟨v, hv, hwv⟩ := exists_of_mem_normalized (heq ▸ hw)
  rw [splitText_textOf, List.mem_flatMap] at hu hv
  obtain ⟨x, hx, hu⟩ := hu
  obtain ⟨y, hy, hv⟩ := hv
  refine ⟨x, hx, y, hy, ?_⟩
  rw [normalizeSegmentText_of_word (hxs x hx) hu, normalizeSegmentText_of_word (hys y hy) hv,
    ← hwu, ← hwv]

/-! ## No word is missed -/

section

variable {py : LowerCase} {cfg : StreamingConfig} {words : List SpokenWord} {hops : List Bytes}

/-- Words with different texts are in no sentence that is taken for a repeat. -/
theorem not_missed (hturn : SaidInTurn words) (hfeed : Feeding cfg hops)
    (hears : HearsWords cfg hops.flatten words) (hword : ∀ w ∈ words, wordCount w.text = 1)
    (hdistinct : words.Pairwise fun a b =>
      normalizeSegmentText py a.text ≠ normalizeSegmentText py b.text) (w : SpokenWord) :
    ¬ Missed py cfg hops w := by
  rintro ⟨before, hop, after, rfl, -, -, pre, sentence, post, hsplit, -, hrepeat⟩
  have hhops : before ++ hop :: after = (before ++ [hop]) ++ after := by simp
  rw [hhops] at hfeed
  rw [hhops, List.flatten_append] at hears
  have hfeed' := hfeed.of_append
  have hears' := hears.of_append
  have hbefore : HearsWords cfg before.flatten words := by
    rw [List.flatten_append] at hears'
    exact hears'.of_append
  obtain ⟨sentences, hrun⟩ := followed hturn hfeed'.of_append hbefore
  obtain ⟨kept, -, hkept, hsub, -⟩ := hrun.emit_prefix hturn hfeed' hears' hsplit
  obtain ⟨last, hlast, -, hne, heq, -⟩ := hkept.exists_last hrepeat
  have htexts : ∀ group ∈ sentences ++ (kept ++ sentence :: post), ∀ tok ∈ group.2,
      spokenAt 0 tok ∈ words := by
    intro group hgroup tok htok
    refine hsub.subset (mem_spoken.mpr ⟨group, hgroup, ?_⟩)
    simp only [spoken, List.flatMap_cons, List.flatMap_nil, List.append_nil]
    exact List.mem_map_of_mem htok
  have hsentence : sentence ∈ sentences ++ (kept ++ sentence :: post) := by simp
  have hlast' : last ∈ sentences ++ (kept ++ sentence :: post) := by
    rw [← List.append_assoc]
    exact List.mem_append_left _ hlast
  obtain ⟨x, hx, y, hy, hxy⟩ := exists_common_word
    (fun tok htok => hword _ (htexts sentence hsentence tok htok))
    (fun tok htok => hword _ (htexts last hlast' tok htok)) hne heq
  have hpair := hdistinct.sublist hsub
  rw [← List.append_assoc, spoken_append, spoken_cons] at hpair
  refine (List.pairwise_append.mp hpair).2.2 (spokenAt 0 y) (mem_spoken.mpr ⟨last, hlast, ?_⟩)
    (spokenAt 0 x) (List.mem_append_left _ ?_) hxy.symm
  · simpa [spoken] using ⟨y, hy, rfl⟩
  · simpa [spoken] using ⟨x, hx, rfl⟩

/-- **A word that is short enough is heard**: the window reaches back to its start in the feed in
which it ends. -/
theorem heard_of_within (hfeed : Feeding cfg hops) (hvad : cfg.vad = none)
    (hskip : cfg.skipSilentWindows = false) {w : SpokenWord} (hstart : 0 ≤ w.startMs)
    (hlt : w.startMs < w.endMs) (hlen : w.endMs - w.startMs ≤ cfg.windowMs - cfg.hopMs)
    (hin : w.Within cfg.sampleRate 0 hops.flatten.length) : Heard py cfg hops w := by
  have hrate : (0 : ℤ) < 2 * cfg.sampleRate := by exact_mod_cast Nat.mul_pos two_pos hfeed.rate_pos
  induction hops using List.reverseRecOn with
  | nil =>
    have hend : 2 * (cfg.sampleRate : ℤ) * w.endMs ≤ 0 := by simpa using hin.2
    have hpos := mul_pos hrate (hstart.trans_lt hlt)
    omega
  | append_singleton hops hop ih =>
    by_cases hbefore : 2 * (cfg.sampleRate : ℤ) * w.endMs ≤ 1000 * hops.flatten.length
    · exact heard_append.mpr (Or.inl (ih hfeed.of_append ⟨hin.1, hbefore⟩))
    · refine heard_append.mpr (Or.inr ⟨⟨?_, by simp [hvad], by simp [hskip]⟩, ?_, hin.2⟩)
      · rintro rfl
        exact hbefore (by simpa using hin.2)
      · have hflat : (hops ++ [hop]).flatten.length = hops.flatten.length + hop.length := by simp
        obtain ⟨hopSamples, hhop, hhopMs⟩ := hfeed.isMs_hopBytes
        obtain ⟨windowSamples, hwindow, hwindowMs⟩ := hfeed.isMs_windowBytes
        have hshort := hfeed.short hop (by simp)
        have hscaled := mul_le_mul_of_nonneg_left hlen hrate.le
        have hfirst := mul_nonneg hrate.le hstart
        zify at hhopMs hwindowMs hshort hhop hwindow
        rcases Nat.le_total (hops ++ [hop]).flatten.length cfg.windowBytes with hle | hle
        · rwa [Nat.sub_eq_zero_of_le hle, Nat.cast_zero, mul_zero]
        · rw [Nat.cast_sub hle, hflat, Nat.cast_add]
          linarith

/-- What was heard lies in the audio. -/
theorem within_of_heard {w : SpokenWord}
    (h : InWindow cfg hops.flatten.length w ∨ Heard py cfg hops w) (hstart : 0 ≤ w.startMs) :
    w.Within cfg.sampleRate 0 hops.flatten.length := by
  have hfirst : 1000 * ((0 : ℕ) : ℤ) ≤ 2 * cfg.sampleRate * w.startMs := by
    rw [Nat.cast_zero, mul_zero]
    exact mul_nonneg (by positivity) hstart
  rcases h with h | ⟨before, hop, after, rfl, -, h⟩
  · exact ⟨hfirst, h.2⟩
  · refine ⟨hfirst, h.2.trans ?_⟩
    simp only [List.flatten_append, List.flatten_cons, List.length_append, List.flatten_nil,
      List.length_nil]
    push_cast
    omega

/-! ## The cursor -/

theorem committedMs_le_emit (py : LowerCase) (groups : List (ℤ × List Token))
    (st : StreamingTranscriber) : st.committedMs ≤ (emit py groups st).2.committedMs := by
  induction groups generalizing st with
  | nil => exact le_rfl
  | cons group groups ih =>
    rw [emit]
    split_ifs
    · exact ih st
    · exact (le_max_left _ _).trans (ih (commit py group st))

theorem committedMs_le_feed (py : LowerCase) (cfg : StreamingConfig) (hop : Bytes)
    (st : StreamingTranscriber) : st.committedMs ≤ (st.feed py cfg hop).2.committedMs := by
  by_cases hasked : IsAsked cfg hop st
  · rw [feed_of_isAsked hasked]
    exact (extend_committedMs cfg hop st).symm.trans_le (committedMs_le_emit _ _ _)
  · rw [feed_of_not_isAsked hasked]
    split_ifs <;> simp

theorem committedMs_le_flush (py : LowerCase) (cfg : StreamingConfig) (st : StreamingTranscriber) :
    st.committedMs ≤ (st.flush py cfg).2.committedMs := by
  rw [flush]
  split_ifs
  · exact le_rfl
  · dsimp only
    split
    · exact le_rfl
    · exact le_max_left _ _

/-! ## The run -/

/-- **Each word once.** After any feeding and the flush, the segments are sentences of just the words
that lie fully in the audio, in their order, and so are the words of their texts. The cursor never
goes back, and the buffer starts where the audio without it ends.
SOURCE: ingest/streaming_transcriber.py:332-511 -/
theorem each_word_once (hturn : SaidInTurn words) (hfeed : Feeding cfg hops)
    (hears : HearsWords cfg hops.flatten words) (hvad : cfg.vad = none)
    (hskip : cfg.skipSilentWindows = false)
    (hlen : ∀ w ∈ words, w.endMs - w.startMs ≤ cfg.windowMs - cfg.hopMs)
    (hword : ∀ w ∈ words, wordCount w.text = 1)
    (hdistinct : words.Pairwise fun a b =>
      normalizeSegmentText py a.text ≠ normalizeSegmentText py b.text) :
    let run := feedAll py cfg hops {}
    let segments := run.1 ++ (run.2.flush py cfg).1
    let whole := words.filter (SpokenWord.Within cfg.sampleRate 0 hops.flatten.length)
    (∃ sentences, segments = sentences.map segmentOf ∧ spoken sentences = whole) ∧
      (segments.flatMap fun segment => splitText segment.text) =
        whole.flatMap (fun w => splitText w.text) ∧
      (∀ before hop after, hops = before ++ hop :: after →
        (feedAll py cfg before {}).2.committedMs ≤
          (feedAll py cfg (before ++ [hop]) {}).2.committedMs) ∧
      run.2.committedMs ≤ (run.2.flush py cfg).2.committedMs ∧
      ∀ before after, hops = before ++ after →
        (feedAll py cfg before {}).2.bufferStartMs = msOf cfg.sampleRate
          (before.flatten.length - (feedAll py cfg before {}).2.buffer.length) := by
  intro run segments whole
  obtain ⟨sentences, h⟩ : ∃ sentences, Followed py cfg words hops sentences :=
    followed hturn hfeed hears
  obtain ⟨left, hleft, hsub, hleftIn, hcaught⟩ := h.flush hturn hfeed.rate_pos hears
  have hall : segments = (sentences ++ left).map segmentOf := by
    rw [List.map_append, ← hleft, ← h.passedOn.out_eq]
  have hspoken : spoken (sentences ++ left) = whole := by
    refine hturn.inTurn.eq_filter hsub fun w hw => ⟨fun hemitted => ?_, fun hwithin => ?_⟩
    · rw [spoken_append, List.mem_append] at hemitted
      have hin : InWindow cfg hops.flatten.length w ∨ Heard py cfg hops w :=
        hemitted.symm.imp (fun hw => (hleftIn w hw).1) (h.heard w)
      simpa using within_of_heard hin (hturn.start_nonneg w hw)
    · have hheard : Heard py cfg hops w := heard_of_within hfeed hvad hskip
        (hturn.start_nonneg w hw) (hturn.inTurn.lt w hw) (hlen w hw) (by simpa using hwithin)
      exact (hcaught w hw (Or.inl hheard)).resolve_right
        (not_missed hturn hfeed hears hword hdistinct w)
  refine ⟨⟨_, hall, hspoken⟩, ?_, ?_, committedMs_le_flush py cfg run.2, ?_⟩
  · rw [hall, ← hspoken, splitText_segments]
  · intro before hop after _
    rw [feedAll_append]
    exact committedMs_le_feed py cfg hop _
  · rintro before after rfl
    rw [List.flatten_append] at hears
    obtain ⟨_, hbefore⟩ : ∃ sentences, Followed py cfg words before sentences :=
      followed hturn hfeed.of_append hears.of_append
    have hlength : before.flatten.length - min cfg.windowBytes before.flatten.length =
        before.flatten.length - cfg.windowBytes := by omega
    rw [hbefore.buffers.bufferStart, hbefore.buffers.buffer, SlidingWindow.length_rtake, hlength]

end

/-- Hops of 2 ms and windows of 4 ms at 1000 Hz. -/
def shortHops (words : List SpokenWord) : StreamingConfig where
  transcribe := numberedBackend words
  sampleRate := 1000
  hopMs := 2
  windowMs := 4

/-- Three words, of which the second goes over the end of a hop. -/
def threeWords : List SpokenWord :=
  [⟨['a'], 0, 1⟩, ⟨['b'], 1, 3⟩, ⟨[' ', 'c', '.'], 4, 5⟩]

/-- Two hops and half a hop. -/
def threeHops : List Bytes :=
  [(numberedAudio 10).take 4, ((numberedAudio 10).drop 4).take 4, (numberedAudio 10).drop 8]

theorem each_word_once_threeWords :
    ((feedAll asciiLower (shortHops threeWords) threeHops {}).1 ++
      ((feedAll asciiLower (shortHops threeWords) threeHops {}).2.flush asciiLower
        (shortHops threeWords)).1).flatMap (fun segment => splitText segment.text) =
      [['a'], ['b'], ['c', '.']] := by
  have hturn : SaidInTurn threeWords :=
    ⟨⟨by simp [threeWords], by simp [threeWords]⟩, by simp [threeWords]⟩
  have hfeed : Feeding (shortHops threeWords) threeHops :=
    ⟨by decide, by decide, by decide, by decide, by decide⟩
  have hears : HearsWords (shortHops threeWords) threeHops.flatten threeWords :=
    hearsWords_numberedAudio (n := 10) rfl (by decide) (by decide) hturn
  have hrun := @each_word_once asciiLower (shortHops threeWords) threeWords threeHops hturn hfeed hears
    rfl rfl (by decide) (by decide) (by decide)
  exact hrun.2.1.trans (by decide)

end OpenRecall.Analysis.EachWordOnce
