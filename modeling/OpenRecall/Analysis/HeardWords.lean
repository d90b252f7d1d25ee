import OpenRecall.Model.StreamingTranscriber
import OpenRecall.Foundation.SlidingWindow
import OpenRecall.Foundation.Run

/-!
# What a streaming transcriber makes of words it hears

Words are said one after the other, and the backend returns of any window those that lie fully in it,
at their times. Each word is then new to the transcriber the first time a window contains it: the
cursor stands at the end of a word of an earlier window, and what stops before that word and lies in
the later window lay in the earlier one (`HeardIn.of_le`).

`Followed` says how the state of a transcriber and the segments it has passed on belong together.
Every feed keeps it (`Followed.feed`), so after any feeding the segments are sentences of words in
their order, and a word that some window contained is among them, or its sentence was taken for a
repeat at the first such window (`followed`, `followed_flush`).

The voice gate and the silence gate may close: a hop they close on is not heard.
-/

set_option autoImplicit false

namespace OpenRecall.Analysis.HeardWords

open Foundation OpenRecall.Model OpenRecall.Model.StreamingTranscriber

/-! ## Words in the audio -/

/-- A word as it was said, by its times in the audio. -/
structure SpokenWord where
  text : Text
  startMs : ℤ
  endMs : ℤ
  deriving DecidableEq

/-- The whole milliseconds in a number of bytes, two to a sample. -/
def msOf (sampleRate n : ℕ) : ℕ := n / 2 * 1000 / sampleRate

/-- The word lies between two places of the audio, given in bytes. A millisecond is
`2 * sampleRate / 1000` of them. -/
def SpokenWord.Within (sampleRate first last : ℕ) (w : SpokenWord) : Prop :=
  1000 * first ≤ 2 * sampleRate * w.startMs ∧ 2 * sampleRate * w.endMs ≤ 1000 * last

instance (sampleRate first last : ℕ) (w : SpokenWord) :
    Decidable (w.Within sampleRate first last) :=
  inferInstanceAs (Decidable (_ ∧ _))

/-- A token as a word, when the window starts at a time. -/
def spokenAt (offset : ℤ) (tok : Token) : SpokenWord where
  text := tok.text
  startMs := offset + tok.startMs
  endMs := offset + tok.endMs

/-- The words of some sentences with their times in the session. -/
def spoken (sentences : List (ℤ × List Token)) : List SpokenWord :=
  (sentences.flatMap Prod.snd).map (spokenAt 0)

/-- Words that take time and do not overlap, from the start of the audio on. -/
structure SaidInTurn (words : List SpokenWord) : Prop where
  inTurn : SlidingWindow.InTurn SpokenWord.startMs SpokenWord.endMs words
  start_nonneg : ∀ w ∈ words, 0 ≤ w.startMs

/-- The backend is ideal for some audio: of every window it returns just the words that lie fully
in it, at their times from its start. -/
def HearsWords (cfg : StreamingConfig) (audio : Bytes) (words : List SpokenWord) : Prop :=
  ∀ last ≤ audio.length, ∀ first ≤ last,
    (cfg.transcribe ((audio.take last).drop first) cfg.sampleRate).map
        (spokenAt (msOf cfg.sampleRate first)) =
      words.filter (SpokenWord.Within cfg.sampleRate first last)

/-- The audio comes in full hops, except that the last may be shorter. The hop and the window are
whole milliseconds, so a window starts at one.
SOURCE: ingest/streaming_transcriber.py:335-337 -/
structure Feeding (cfg : StreamingConfig) (hops : List Bytes) : Prop where
  rate_pos : 0 < cfg.sampleRate
  hop_whole : 1000 ∣ cfg.sampleRate * cfg.hopMs
  window_whole : 1000 ∣ cfg.sampleRate * cfg.windowMs
  full : ∀ hop ∈ hops.dropLast, hop.length = cfg.hopBytes
  short : ∀ hop ∈ hops, hop.length ≤ cfg.hopBytes

/-! ## Whole milliseconds -/

/-- So many bytes are so many milliseconds. -/
def IsMs (sampleRate n ms : ℕ) : Prop := ∃ samples, n = 2 * samples ∧ 1000 * samples = sampleRate * ms

theorem isMs_zero (sampleRate : ℕ) : IsMs sampleRate 0 0 := ⟨0, rfl, by simp⟩

theorem IsMs.add {sampleRate a b s t : ℕ} (ha : IsMs sampleRate a s) (hb : IsMs sampleRate b t) :
    IsMs sampleRate (a + b) (s + t) := by
  obtain ⟨x, rfl, hx⟩ := ha
  obtain ⟨y, rfl, hy⟩ := hb
  exact ⟨x + y, by ring, by rw [mul_add, mul_add, hx, hy]⟩

/-- Whole milliseconds count in full, whatever comes after them. -/
theorem IsMs.msOf_add {sampleRate a s : ℕ} (ha : IsMs sampleRate a s) (hpos : 0 < sampleRate)
    (b : ℕ) : msOf sampleRate (a + b) = s + msOf sampleRate b := by
  obtain ⟨x, rfl, hx⟩ := ha
  have hhalf : (2 * x + b) / 2 * 1000 = sampleRate * s + b / 2 * 1000 := by omega
  rw [msOf, msOf, hhalf, Nat.mul_add_div hpos]

theorem IsMs.msOf_eq {sampleRate a s : ℕ} (ha : IsMs sampleRate a s) (hpos : 0 < sampleRate) :
    msOf sampleRate a = s := by
  simpa [msOf] using ha.msOf_add hpos 0

/-- What is over a whole number of milliseconds is one too. -/
theorem IsMs.sub {sampleRate a b s t : ℕ} (ha : IsMs sampleRate a s) (hb : IsMs sampleRate b t) :
    IsMs sampleRate (a - b) (s - t) := by
  obtain ⟨x, rfl, hx⟩ := ha
  obtain ⟨y, rfl, hy⟩ := hb
  exact ⟨x - y, by omega, by rw [Nat.mul_sub, Nat.mul_sub, hx, hy]⟩

namespace Feeding

variable {cfg : StreamingConfig} {hops : List Bytes} {hop : Bytes}

theorem isMs_hopBytes (h : Feeding cfg hops) : IsMs cfg.sampleRate cfg.hopBytes cfg.hopMs := by
  obtain ⟨k, hk⟩ := h.hop_whole
  refine ⟨k, ?_, hk.symm⟩
  rw [StreamingConfig.hopBytes, hk]
  omega

theorem isMs_windowBytes (h : Feeding cfg hops) :
    IsMs cfg.sampleRate cfg.windowBytes cfg.windowMs := by
  obtain ⟨k, hk⟩ := h.window_whole
  refine ⟨k, ?_, hk.symm⟩
  rw [StreamingConfig.windowBytes, hk]
  omega

theorem of_append {more : List Bytes} (h : Feeding cfg (hops ++ more)) : Feeding cfg hops where
  rate_pos := h.rate_pos
  hop_whole := h.hop_whole
  window_whole := h.window_whole
  full x hx := by
    refine h.full x ?_
    rcases eq_or_ne more [] with rfl | hne
    · simpa using hx
    · rw [List.dropLast_append_of_ne_nil hne]
      exact List.mem_append_left _ (List.mem_of_mem_dropLast hx)
  short x hx := h.short x (List.mem_append_left _ hx)

/-- Before another hop all the hops were full. -/
theorem exists_isMs (h : Feeding cfg (hops ++ [hop])) :
    ∃ ms, IsMs cfg.sampleRate hops.flatten.length ms := by
  have hfull : ∀ x ∈ hops, x.length = cfg.hopBytes := fun x hx => h.full x (by simpa using hx)
  have hwhole := h.isMs_hopBytes
  clear h
  induction hops with
  | nil => exact ⟨0, isMs_zero _⟩
  | cons x hops ih =>
    obtain ⟨ms, hms⟩ := ih fun y hy => hfull y (List.mem_cons_of_mem _ hy)
    refine ⟨cfg.hopMs + ms, ?_⟩
    rw [List.flatten_cons, List.length_append, hfull x (by simp)]
    exact hwhole.add hms

end Feeding

theorem HearsWords.of_append {cfg : StreamingConfig} {audio more : Bytes}
    {words : List SpokenWord} (h : HearsWords cfg (audio ++ more) words) :
    HearsWords cfg audio words := by
  intro last hlast first hfirst
  have hwindow := h last (by rw [List.length_append]; omega) first hfirst
  rwa [List.take_append_of_le_length hlast] at hwindow

/-! ## Which words are heard -/

/-- Whether the backend is asked in a feed: the hop is not empty and no gate closes on it. -/
def IsAsked (cfg : StreamingConfig) (hop : Bytes) (st : StreamingTranscriber) : Prop :=
  hop ≠ [] ∧ ¬ (cfg.vad.isSome ∧ ¬ hopHasVoicedFrames cfg hop) ∧
    ¬ (cfg.skipSilentWindows ∧ hop.all (· = 0) ∧ windowIsSilent (st.extend cfg hop).buffer)

/-- The window the backend is given after so many bytes contains the word. -/
def InWindow (cfg : StreamingConfig) (fed : ℕ) (w : SpokenWord) : Prop :=
  w.Within cfg.sampleRate (fed - cfg.windowBytes) fed

instance (cfg : StreamingConfig) (fed : ℕ) (w : SpokenWord) : Decidable (InWindow cfg fed w) :=
  inferInstanceAs (Decidable (w.Within _ _ _))

/-- The word is heard in a hop after some others. -/
def HeardIn (py : LowerCase) (cfg : StreamingConfig) (before : List Bytes) (hop : Bytes)
    (w : SpokenWord) : Prop :=
  IsAsked cfg hop (feedAll py cfg before {}).2 ∧ InWindow cfg (before ++ [hop]).flatten.length w

/-- What stops no later than a word of an earlier window, and lies in a later one, lay in the
earlier one. -/
theorem InWindow.of_le {cfg : StreamingConfig} {m n : ℕ} {w e : SpokenWord}
    (hw : InWindow cfg n w) (he : InWindow cfg m e) (hmn : m ≤ n) (hle : w.endMs ≤ e.endMs) :
    InWindow cfg m w := by
  refine ⟨le_trans ?_ hw.1, le_trans ?_ he.2⟩
  · exact_mod_cast Nat.mul_le_mul_left 1000 (Nat.sub_le_sub_right hmn _)
  · exact mul_le_mul_of_nonneg_left hle (by positivity)

/-- The word is heard in one of the hops. -/
def Heard (py : LowerCase) (cfg : StreamingConfig) (hops : List Bytes) (w : SpokenWord) : Prop :=
  ∃ before hop after, hops = before ++ hop :: after ∧ HeardIn py cfg before hop w

theorem heard_append {py : LowerCase} {cfg : StreamingConfig} {hops : List Bytes} {hop : Bytes}
    {w : SpokenWord} :
    Heard py cfg (hops ++ [hop]) w ↔ Heard py cfg hops w ∨ HeardIn py cfg hops hop w := by
  constructor
  · rintro ⟨before, hop', after, heq, hw⟩
    rcases concat_split heq with ⟨-, rfl, rfl⟩ | ⟨after', -, rfl⟩
    · exact Or.inr hw
    · exact Or.inl ⟨before, hop', after', rfl, hw⟩
  · rintro (⟨before, hop', after, rfl, hw⟩ | hw)
    · exact ⟨before, hop', after ++ [hop], by simp, hw⟩
    · exact ⟨hops, hop, [], rfl, hw⟩

/-! ## Tokens and sentences -/

@[simp] theorem spoken_nil : spoken [] = [] := rfl

@[simp] theorem spoken_append (xs ys : List (ℤ × List Token)) :
    spoken (xs ++ ys) = spoken xs ++ spoken ys := by
  simp [spoken]

theorem spoken_cons (x : ℤ × List Token) (xs : List (ℤ × List Token)) :
    spoken (x :: xs) = spoken [x] ++ spoken xs := by
  simp [spoken]

theorem mem_spoken {sentences : List (ℤ × List Token)} {w : SpokenWord} :
    w ∈ spoken sentences ↔ ∃ sentence ∈ sentences, w ∈ spoken [sentence] := by
  induction sentences with
  | nil => simp
  | cons x xs ih =>
    rw [spoken_cons, List.mem_append, ih]
    simp

theorem spoken_sublist {xs ys : List (ℤ × List Token)} (h : xs.Sublist ys) :
    (spoken xs).Sublist (spoken ys) :=
  (h.flatMap Prod.snd).map _

/-- Grouping keeps the tokens. -/
theorem flatMap_groupBySentenceId (tokens : List Token) :
    (groupBySentenceId tokens).flatMap Prod.snd = tokens := by
  simp [groupBySentenceId, List.flatMap_map, List.flatMap_id', List.flatten_splitBy]

theorem ne_nil_of_mem_groupBySentenceId {tokens : List Token} {group : ℤ × List Token}
    (h : group ∈ groupBySentenceId tokens) : group.2 ≠ [] := by
  obtain ⟨g, hg, rfl⟩ := List.mem_map.mp h
  exact List.ne_nil_of_mem_splitBy hg

/-- When no token has the cursor inside it, the new ones are those that stop after it. -/
theorem spoken_newTokens {py : LowerCase} {st : StreamingTranscriber} {tokens : List Token}
    (hcut : ∀ w ∈ tokens.map (spokenAt st.bufferStartMs),
      w.endMs ≤ st.committedMs ∨ st.committedMs ≤ w.startMs) :
    (newTokens py st tokens).map (spokenAt 0) =
      (tokens.map (spokenAt st.bufferStartMs)).filter fun w => st.committedMs < w.endMs := by
  have hnew : ∀ tok ∈ tokens, isNew py st tok =
      decide (st.committedMs < (spokenAt st.bufferStartMs tok).endMs) := by
    intro tok htok
    have hcut := hcut _ (List.mem_map_of_mem htok)
    simp only [spokenAt] at hcut
    unfold isNew
    by_cases hend : st.bufferStartMs + tok.endMs ≤ st.committedMs
    · simp [spokenAt, hend, not_lt.mpr hend]
    · have hstart : ¬ st.bufferStartMs + tok.startMs < st.committedMs := by omega
      simp [spokenAt, hend, hstart, not_le.mp hend]
  rw [newTokens, List.filter_congr hnew, List.map_map, List.filter_map]
  apply List.map_congr_left
  intro tok _
  simp [spokenAt]

/-! ## Passing on -/

@[simp] theorem emit_buffer (py : LowerCase) (groups : List (ℤ × List Token))
    (st : StreamingTranscriber) : (emit py groups st).2.buffer = st.buffer := by
  induction groups generalizing st with
  | nil => rfl
  | cons group groups ih =>
    rw [emit]
    split_ifs
    · exact ih st
    · exact ih _

@[simp] theorem emit_bufferStartMs (py : LowerCase) (groups : List (ℤ × List Token))
    (st : StreamingTranscriber) : (emit py groups st).2.bufferStartMs = st.bufferStartMs := by
  induction groups generalizing st with
  | nil => rfl
  | cons group groups ih =>
    rw [emit]
    split_ifs
    · exact ih st
    · exact ih _

@[simp] theorem extend_committedMs (cfg : StreamingConfig) (hop : Bytes)
    (st : StreamingTranscriber) : (st.extend cfg hop).committedMs = st.committedMs := by
  simp only [StreamingTranscriber.extend]
  split_ifs <;> simp

@[simp] theorem extend_lastEmittedTextNorm (cfg : StreamingConfig) (hop : Bytes)
    (st : StreamingTranscriber) :
    (st.extend cfg hop).lastEmittedTextNorm = st.lastEmittedTextNorm := by
  simp only [StreamingTranscriber.extend]
  split_ifs <;> simp

/-- The segments are these sentences. The cursor has passed all their words and stands at the end
of one, and the text of the last one is remembered. -/
structure PassedOn (py : LowerCase) (sentences : List (ℤ × List Token))
    (out : List TranscriptSegment) (st : StreamingTranscriber) : Prop where
  out_eq : out = sentences.map segmentOf
  le_cursor : ∀ w ∈ spoken sentences, w.endMs ≤ st.committedMs
  cursor : st.committedMs = 0 ∨ ∃ w ∈ spoken sentences, w.endMs = st.committedMs
  last : st.lastEmittedTextNorm =
    ((out.getLast?).map fun segment => normalizeSegmentText py segment.text).getD []

/-- The end of a segment is that of its last word. -/
theorem exists_endMs_segmentOf {group : ℤ × List Token} (hne : group.2 ≠ [])
    (hturn : SlidingWindow.InTurn SpokenWord.startMs SpokenWord.endMs (spoken [group])) :
    (∃ w ∈ spoken [group], w.endMs = (segmentOf group).endMs) ∧
      ∀ w ∈ spoken [group], w.endMs ≤ (segmentOf group).endMs := by
  have hspoken : spoken [group] = group.2.map (spokenAt 0) := by simp [spoken]
  have hne' : spoken [group] ≠ [] := by simpa [hspoken] using hne
  have hlast : ((spoken [group]).getLast hne').endMs = (segmentOf group).endMs := by
    simp only [hspoken, List.getLast_map, segmentOf, spokenAt]
    simp [List.getLast?_eq_some_getLast hne]
  exact ⟨⟨_, List.getLast_mem hne', hlast⟩, fun w hw => hlast ▸ hturn.stop_le_getLast hne' hw⟩

namespace PassedOn

variable {py : LowerCase} {sentences : List (ℤ × List Token)} {out : List TranscriptSegment}
  {st : StreamingTranscriber}

/-- One more sentence is passed on. -/
theorem commit (h : PassedOn py sentences out st) {group : ℤ × List Token} (hne : group.2 ≠ [])
    (hturn : SlidingWindow.InTurn SpokenWord.startMs SpokenWord.endMs (spoken [group])) :
    PassedOn py (sentences ++ [group]) (out ++ [segmentOf group])
      (StreamingTranscriber.commit py group st) := by
  obtain ⟨⟨w, hw, hend⟩, hle⟩ := exists_endMs_segmentOf hne hturn
  constructor
  · simp [h.out_eq]
  · intro v hv
    rw [spoken_append, List.mem_append] at hv
    rcases hv with hv | hv
    · exact (h.le_cursor v hv).trans (le_max_left _ _)
    · exact (hle v hv).trans (le_max_right _ _)
  · rcases max_cases st.committedMs (segmentOf group).endMs with ⟨hmax, -⟩ | ⟨hmax, -⟩
    · refine h.cursor.imp (fun h0 => hmax.trans h0) fun ⟨v, hv, hv'⟩ => ?_
      exact ⟨v, by simp [hv], hv'.trans hmax.symm⟩
    · exact Or.inr ⟨w, by simp [hw], hend.trans hmax.symm⟩
  · simp [StreamingTranscriber.commit, segmentOf]

/-- **A feed passes on some sentences** in their order, and each of the others was taken for a
repeat in its turn. -/
theorem emit (h : PassedOn py sentences out st) {groups : List (ℤ × List Token)}
    (hne : ∀ group ∈ groups, group.2 ≠ [])
    (hturn : SlidingWindow.InTurn SpokenWord.startMs SpokenWord.endMs (spoken groups)) :
    ∃ kept, kept.Sublist groups ∧
      PassedOn py (sentences ++ kept) (out ++ (emit py groups st).1) (emit py groups st).2 ∧
      ∀ pre group post, groups = pre ++ group :: post →
        group ∈ kept ∨ isRepeat py (StreamingTranscriber.emit py pre st).2 group.2 := by
  induction groups generalizing sentences out st with
  | nil => exact ⟨[], List.Sublist.refl _, by simpa [StreamingTranscriber.emit] using h, by simp⟩
  | cons group groups ih =>
    have hne' : ∀ g ∈ groups, g.2 ≠ [] := fun g hg => hne g (List.mem_cons_of_mem _ hg)
    have hturn' := hturn.sublist (spoken_sublist (List.sublist_cons_self group groups))
    by_cases hrepeat : isRepeat py st group.2
    · obtain ⟨kept, hsub, hkept, hall⟩ := ih h hne' hturn'
      refine ⟨kept, hsub.cons _, by simpa [StreamingTranscriber.emit, hrepeat] using hkept, ?_⟩
      intro pre g post heq
      cases pre with
      | nil =>
        obtain ⟨rfl, -⟩ := List.cons.inj heq
        exact Or.inr hrepeat
      | cons x pre =>
        rw [List.cons_append] at heq
        obtain ⟨rfl, htail⟩ := List.cons.inj heq
        simpa [StreamingTranscriber.emit, hrepeat] using hall pre g post htail
    · have hfirst : [group].Sublist (group :: groups) := by simp
      have hone := hturn.sublist (spoken_sublist hfirst)
      obtain ⟨kept, hsub, hkept, hall⟩ :=
        ih (h.commit (hne group (by simp)) hone) hne' hturn'
      refine ⟨group :: kept, hsub.cons_cons _,
        by simpa [StreamingTranscriber.emit, hrepeat] using hkept, ?_⟩
      intro pre g post heq
      cases pre with
      | nil =>
        obtain ⟨rfl, -⟩ := List.cons.inj heq
        exact Or.inl (by simp)
      | cons x pre =>
        rw [List.cons_append] at heq
        obtain ⟨rfl, htail⟩ := List.cons.inj heq
        refine (hall pre g post htail).imp (fun hg => List.mem_cons_of_mem _ hg) fun hg => ?_
        simpa [StreamingTranscriber.emit, hrepeat] using hg

theorem extend (h : PassedOn py sentences out st) (cfg : StreamingConfig) (hop : Bytes) :
    PassedOn py sentences out (st.extend cfg hop) := by
  have hcursor := extend_committedMs cfg hop st
  exact ⟨h.out_eq, hcursor ▸ h.le_cursor, hcursor ▸ h.cursor,
    (extend_lastEmittedTextNorm cfg hop st).trans h.last⟩

/-- A repeat has the text of the last sentence that was passed on, and two to five words. -/
theorem exists_last (h : PassedOn py sentences out st) {group : List Token}
    (hrepeat : isRepeat py st group) :
    ∃ last ∈ sentences, out.getLast? = some (segmentOf last) ∧
      normalizeSegmentText py (textOf group) ≠ [] ∧
      normalizeSegmentText py (textOf group) = normalizeSegmentText py (textOf last.2) ∧
      dedupMinWords ≤ wordCount (textOf group) ∧ wordCount (textOf group) ≤ dedupMaxWords := by
  obtain ⟨hne, heq, hmin, hmax⟩ : normalizeSegmentText py (textOf group) ≠ [] ∧
      normalizeSegmentText py (textOf group) = st.lastEmittedTextNorm ∧
      dedupMinWords ≤ wordCount (textOf group) ∧ wordCount (textOf group) ≤ dedupMaxWords := by
    simpa [isRepeat] using hrepeat
  rw [h.last, h.out_eq, List.getLast?_map] at heq
  cases hlast : sentences.getLast? with
  | none => simp [hlast, hne] at heq
  | some last =>
    refine ⟨last, List.mem_of_getLast? hlast, ?_, hne, ?_, hmin, hmax⟩
    · rw [h.out_eq, List.getLast?_map, hlast]
      rfl
    · rw [heq, hlast]
      rfl

end PassedOn

/-! ## A feed -/

theorem extend_buffer (cfg : StreamingConfig) (hop : Bytes) (st : StreamingTranscriber) :
    (st.extend cfg hop).buffer = (st.buffer ++ hop).rtake cfg.windowBytes := by
  simp only [StreamingTranscriber.extend]
  split_ifs with h
  · rw [List.rtake]
  · rw [SlidingWindow.rtake_of_length_le (not_lt.mp h)]

theorem extend_bufferStartMs (cfg : StreamingConfig) (hop : Bytes) (st : StreamingTranscriber) :
    (st.extend cfg hop).bufferStartMs =
      st.bufferStartMs + msOf cfg.sampleRate ((st.buffer ++ hop).length - cfg.windowBytes) := by
  simp only [StreamingTranscriber.extend]
  split_ifs with h
  · simp [msOf]
  · have hnone : (st.buffer ++ hop).length - cfg.windowBytes = 0 :=
      Nat.sub_eq_zero_of_le (not_lt.mp h)
    rw [hnone]
    simp [msOf]

/-- The sentences of the backend in a feed, by their new words. -/
def heardSentences (py : LowerCase) (cfg : StreamingConfig) (st : StreamingTranscriber) :
    List (ℤ × List Token) :=
  groupBySentenceId (newTokens py st (cfg.transcribe st.buffer cfg.sampleRate))

theorem ne_nil_of_mem_heardSentences {py : LowerCase} {cfg : StreamingConfig}
    {st : StreamingTranscriber} {group : ℤ × List Token}
    (h : group ∈ heardSentences py cfg st) : group.2 ≠ [] :=
  ne_nil_of_mem_groupBySentenceId h

theorem feed_of_isAsked {py : LowerCase} {cfg : StreamingConfig} {hop : Bytes}
    {st : StreamingTranscriber} (h : IsAsked cfg hop st) :
    st.feed py cfg hop =
      emit py (heardSentences py cfg (st.extend cfg hop)) (st.extend cfg hop) := by
  obtain ⟨hne, hvoice, hsilent⟩ := h
  rw [feed, if_neg hne]
  simp only
  rw [if_neg hvoice, if_neg hsilent]
  rfl

theorem feed_of_not_isAsked {py : LowerCase} {cfg : StreamingConfig} {hop : Bytes}
    {st : StreamingTranscriber} (h : ¬ IsAsked cfg hop st) :
    st.feed py cfg hop = ([], if hop = [] then st else st.extend cfg hop) := by
  rw [feed]
  by_cases hne : hop = []
  · simp [hne]
  · rw [if_neg hne, if_neg hne]
    simp only
    by_cases hvoice : cfg.vad.isSome ∧ ¬ hopHasVoicedFrames cfg hop
    · rw [if_pos hvoice]
    · rw [if_neg hvoice, if_pos (not_not.mp fun hsilent => h ⟨hne, hvoice, hsilent⟩)]

theorem flush_segments (py : LowerCase) (cfg : StreamingConfig) (st : StreamingTranscriber) :
    (st.flush py cfg).1 = if st.buffer = [] then [] else (heardSentences py cfg st).map segmentOf := by
  rw [flush]
  split_ifs with hnil
  · rfl
  · rw [heardSentences]
    dsimp only
    split
    · rename_i hlast
      exact (List.getLast?_eq_none_iff.mp hlast).symm
    · rfl

theorem feedAll_append (py : LowerCase) (cfg : StreamingConfig) (hops : List Bytes) (hop : Bytes)
    (st : StreamingTranscriber) :
    feedAll py cfg (hops ++ [hop]) st =
      ((feedAll py cfg hops st).1 ++ ((feedAll py cfg hops st).2.feed py cfg hop).1,
        ((feedAll py cfg hops st).2.feed py cfg hop).2) := by
  induction hops generalizing st with
  | nil => simp [feedAll]
  | cons x hops ih => simp [feedAll, ih]

/-- The buffer is the end of the audio, and starts where its first byte is. -/
structure Buffers (cfg : StreamingConfig) (audio : Bytes) (st : StreamingTranscriber) : Prop where
  buffer : st.buffer = audio.rtake cfg.windowBytes
  bufferStart : st.bufferStartMs = msOf cfg.sampleRate (audio.length - cfg.windowBytes)

theorem Buffers.extend {cfg : StreamingConfig} {hops : List Bytes} {hop : Bytes}
    {st : StreamingTranscriber} (h : Buffers cfg hops.flatten st)
    (hfeed : Feeding cfg (hops ++ [hop])) :
    Buffers cfg (hops ++ [hop]).flatten (st.extend cfg hop) := by
  have hflat : (hops ++ [hop]).flatten = hops.flatten ++ hop := by simp
  obtain ⟨ms, hms⟩ := hfeed.exists_isMs
  constructor
  · rw [extend_buffer, h.buffer, SlidingWindow.rtake_rtake_append, hflat]
  · have hstart := hms.sub hfeed.isMs_windowBytes
    have hlen : (hops ++ [hop]).flatten.length - cfg.windowBytes =
        (hops.flatten.length - cfg.windowBytes) +
          ((st.buffer ++ hop).length - cfg.windowBytes) := by
      rw [hflat, h.buffer, List.length_append, List.length_append, SlidingWindow.length_rtake]
      omega
    rw [extend_bufferStartMs, h.bufferStart, hlen, hstart.msOf_add hfeed.rate_pos,
      hstart.msOf_eq hfeed.rate_pos]
    push_cast
    rfl

/-- **The new words of a window** are those in it that stop after the cursor. -/
theorem Buffers.spoken_heardSentences {cfg : StreamingConfig} {audio : Bytes}
    {words : List SpokenWord} {st : StreamingTranscriber} (h : Buffers cfg audio st) (py : LowerCase)
    (hears : HearsWords cfg audio words)
    (hcut : ∀ w ∈ words, w.endMs ≤ st.committedMs ∨ st.committedMs ≤ w.startMs) :
    spoken (heardSentences py cfg st) =
      (words.filter (InWindow cfg audio.length)).filter fun w => st.committedMs < w.endMs := by
  have hwindow : (cfg.transcribe st.buffer cfg.sampleRate).map (spokenAt st.bufferStartMs) =
      words.filter (InWindow cfg audio.length) := by
    have hsub := hears audio.length le_rfl (audio.length - cfg.windowBytes) (Nat.sub_le _ _)
    rwa [List.take_length, ← List.rtake, ← h.buffer, ← h.bufferStart] at hsub
  rw [spoken, heardSentences, flatMap_groupBySentenceId, spoken_newTokens, hwindow]
  intro w hw
  rw [hwindow] at hw
  exact hcut w (List.mem_of_mem_filter hw)

/-- An empty window contains no word. -/
theorem not_inWindow_of_rtake_eq_nil {cfg : StreamingConfig} {audio : Bytes}
    {words : List SpokenWord} {w : SpokenWord} (hnil : audio.rtake cfg.windowBytes = [])
    (hpos : 0 < cfg.sampleRate) (hturn : SaidInTurn words) (hw : w ∈ words) :
    ¬ InWindow cfg audio.length w := by
  rintro ⟨hfirst, hlast⟩
  have hempty : (audio.rtake cfg.windowBytes).length = 0 := by simp [hnil]
  have hsame : audio.length - cfg.windowBytes = audio.length := by
    rw [SlidingWindow.length_rtake] at hempty
    omega
  have hlt : 2 * (cfg.sampleRate : ℤ) * w.startMs < 2 * cfg.sampleRate * w.endMs :=
    mul_lt_mul_of_pos_left (hturn.inTurn.lt w hw) (by positivity)
  rw [hsame] at hfirst
  exact absurd (hlt.trans_le (hlast.trans hfirst)) (lt_irrefl _)

/-! ## A feeding -/

/-- The word is first heard in a hop, in a sentence that is taken for a repeat. -/
def Missed (py : LowerCase) (cfg : StreamingConfig) (hops : List Bytes) (w : SpokenWord) : Prop :=
  ∃ before hop after, hops = before ++ hop :: after ∧ ¬ Heard py cfg before w ∧
    HeardIn py cfg before hop w ∧
    ∃ pre sentence post,
      heardSentences py cfg ((feedAll py cfg before {}).2.extend cfg hop) =
        pre ++ sentence :: post ∧
      w ∈ spoken [sentence] ∧
      isRepeat py (emit py pre ((feedAll py cfg before {}).2.extend cfg hop)).2 sentence.2

theorem Missed.append {py : LowerCase} {cfg : StreamingConfig} {hops : List Bytes} {w : SpokenWord}
    (h : Missed py cfg hops w) (hop : Bytes) : Missed py cfg (hops ++ [hop]) w := by
  obtain ⟨before, hop', after, rfl, hw⟩ := h
  exact ⟨before, hop', after ++ [hop], by simp, hw⟩

/-- What a transcriber has passed on of the hops so far, and what it keeps of them. -/
structure Followed (py : LowerCase) (cfg : StreamingConfig) (words : List SpokenWord)
    (hops : List Bytes) (sentences : List (ℤ × List Token)) : Prop where
  passedOn : PassedOn py sentences (feedAll py cfg hops {}).1 (feedAll py cfg hops {}).2
  buffers : Buffers cfg hops.flatten (feedAll py cfg hops {}).2
  sublist : (spoken sentences).Sublist words
  heard : ∀ w ∈ spoken sentences, Heard py cfg hops w
  caught : ∀ w ∈ words, Heard py cfg hops w → w ∈ spoken sentences ∨ Missed py cfg hops w

namespace Followed

variable {py : LowerCase} {cfg : StreamingConfig} {words : List SpokenWord} {hops : List Bytes}
  {hop : Bytes} {sentences : List (ℤ × List Token)}

theorem nil (py : LowerCase) (cfg : StreamingConfig) (words : List SpokenWord) :
    Followed py cfg words [] [] where
  passedOn := ⟨rfl, by simp, Or.inl rfl, rfl⟩
  buffers := ⟨by simp [feedAll, List.rtake], by simp [feedAll, msOf]⟩
  sublist := List.nil_sublist _
  heard := by simp
  caught := by
    rintro w - ⟨before, hop, after, heq, -⟩
    simp at heq

/-- The cursor is in no word. -/
theorem cut (h : Followed py cfg words hops sentences) (hturn : SaidInTurn words) {w : SpokenWord}
    (hw : w ∈ words) : w.endMs ≤ (feedAll py cfg hops {}).2.committedMs ∨
      (feedAll py cfg hops {}).2.committedMs ≤ w.startMs := by
  rcases h.passedOn.cursor with h0 | ⟨e, he, hend⟩
  · exact Or.inr (h0.trans_le (hturn.start_nonneg w hw))
  · exact hend ▸ hturn.inTurn.cut (h.sublist.subset he) hw

/-- What the cursor has passed and a later window contains was heard before. -/
theorem heard_of_le (h : Followed py cfg words hops sentences) (hturn : SaidInTurn words)
    {w : SpokenWord} {n : ℕ} (hw : w ∈ words) (hn : hops.flatten.length ≤ n)
    (hwindow : InWindow cfg n w) (hle : w.endMs ≤ (feedAll py cfg hops {}).2.committedMs) :
    Heard py cfg hops w := by
  rcases h.passedOn.cursor with h0 | ⟨e, he, hend⟩
  · have hstart := hturn.start_nonneg w hw
    have hlt := hturn.inTurn.lt w hw
    omega
  · obtain ⟨before, hop, after, rfl, hasked, hin⟩ := h.heard e he
    refine ⟨before, hop, after, rfl, hasked, hwindow.of_le hin ?_ (hle.trans_eq hend.symm)⟩
    simp only [List.flatten_append, List.flatten_cons, List.length_append] at hn ⊢
    simp only [List.flatten_nil, List.length_nil]
    omega

/-- More sentences of new words leave the words in their order. -/
theorem append_sublist (h : Followed py cfg words hops sentences) (hturn : SaidInTurn words)
    {new more : List (ℤ × List Token)} {p : SpokenWord → Bool}
    (hnew : spoken new = (words.filter p).filter fun w =>
      (feedAll py cfg hops {}).2.committedMs < w.endMs)
    (hmore : more.Sublist new) : (spoken (sentences ++ more)).Sublist words := by
  rw [spoken_append]
  refine hturn.inTurn.append_sublist h.sublist h.passedOn.le_cursor
    ((spoken_sublist hmore).trans ?_)
  rw [hnew]
  exact List.filter_sublist.filter _

/-- A hop that a gate closes on is only kept in the buffer. -/
theorem skip (h : Followed py cfg words hops sentences) (hfeed : Feeding cfg (hops ++ [hop]))
    (hasked : ¬ IsAsked cfg hop (feedAll py cfg hops {}).2) :
    Followed py cfg words (hops ++ [hop]) sentences := by
  have hrun : feedAll py cfg (hops ++ [hop]) {} = ((feedAll py cfg hops {}).1,
      if hop = [] then (feedAll py cfg hops {}).2 else (feedAll py cfg hops {}).2.extend cfg hop) := by
    rw [feedAll_append, feed_of_not_isAsked hasked, List.append_nil]
  refine ⟨?_, ?_, h.sublist, fun w hw => heard_append.mpr (Or.inl (h.heard w hw)), ?_⟩
  · rw [hrun]
    split_ifs
    · exact h.passedOn
    · exact h.passedOn.extend cfg hop
  · rw [hrun]
    split_ifs with hnil
    · simpa [hnil] using h.buffers
    · exact h.buffers.extend hfeed
  · intro w hw hheard
    rcases heard_append.mp hheard with hheard | hheard
    · exact (h.caught w hw hheard).imp_right fun hmissed => hmissed.append hop
    · exact absurd hheard.1 hasked

/-- The new words of a hop are those in the window that stop after the cursor. -/
theorem spoken_new (h : Followed py cfg words hops sentences) (hturn : SaidInTurn words)
    (hfeed : Feeding cfg (hops ++ [hop])) (hears : HearsWords cfg (hops ++ [hop]).flatten words) :
    spoken (heardSentences py cfg ((feedAll py cfg hops {}).2.extend cfg hop)) =
      (words.filter (InWindow cfg (hops ++ [hop]).flatten.length)).filter fun w =>
        (feedAll py cfg hops {}).2.committedMs < w.endMs := by
  have hcursor := extend_committedMs cfg hop (feedAll py cfg hops {}).2
  have hnew := (h.buffers.extend hfeed).spoken_heardSentences py hears
    (hcursor ▸ fun w hw => h.cut hturn hw)
  rwa [hcursor] at hnew

/-- The first sentences of a hop are passed on or taken for repeats, and the words of those that
were passed on, with those of the other sentences after them, are in their order. -/
theorem emit_prefix (h : Followed py cfg words hops sentences) (hturn : SaidInTurn words)
    (hfeed : Feeding cfg (hops ++ [hop])) (hears : HearsWords cfg (hops ++ [hop]).flatten words)
    {pre rest : List (ℤ × List Token)}
    (hsplit : heardSentences py cfg ((feedAll py cfg hops {}).2.extend cfg hop) = pre ++ rest) :
    ∃ kept, kept.Sublist pre ∧
      PassedOn py (sentences ++ kept)
        ((feedAll py cfg hops {}).1 ++ (emit py pre ((feedAll py cfg hops {}).2.extend cfg hop)).1)
        (emit py pre ((feedAll py cfg hops {}).2.extend cfg hop)).2 ∧
      (spoken (sentences ++ (kept ++ rest))).Sublist words ∧
      ∀ first group others, pre = first ++ group :: others → group ∈ kept ∨
        isRepeat py (emit py first ((feedAll py cfg hops {}).2.extend cfg hop)).2 group.2 := by
  have hnew := h.spoken_new hturn hfeed hears
  have hnewTurn : SlidingWindow.InTurn SpokenWord.startMs SpokenWord.endMs (spoken (pre ++ rest)) :=
    hsplit ▸ hnew ▸ hturn.inTurn.sublist (List.filter_sublist.trans List.filter_sublist)
  have hne : ∀ group ∈ pre, group.2 ≠ [] := fun group hgroup =>
    ne_nil_of_mem_heardSentences (hsplit ▸ List.mem_append_left rest hgroup)
  obtain ⟨kept, hsub, hkept, hall⟩ := (h.passedOn.extend cfg hop).emit hne
    (hnewTurn.sublist (spoken_sublist (List.sublist_append_left pre rest)))
  refine ⟨kept, hsub, hkept, h.append_sublist hturn hnew ?_, hall⟩
  rw [hsplit]
  exact hsub.append (List.Sublist.refl rest)

/-- **One feed.** A word that is heard for the first time stops after the cursor, so it is in a
sentence that is passed on or taken for a repeat. -/
theorem feed (h : Followed py cfg words hops sentences) (hturn : SaidInTurn words)
    (hfeed : Feeding cfg (hops ++ [hop])) (hears : HearsWords cfg (hops ++ [hop]).flatten words) :
    ∃ kept, Followed py cfg words (hops ++ [hop]) (sentences ++ kept) := by
  by_cases hasked : IsAsked cfg hop (feedAll py cfg hops {}).2
  swap
  · exact ⟨[], by simpa using h.skip hfeed hasked⟩
  have hbuffers := h.buffers.extend hfeed
  have hnew := h.spoken_new hturn hfeed hears
  obtain ⟨kept, hsub, hkept, hturnKept, hall⟩ :=
    h.emit_prefix hturn hfeed hears (List.append_nil _).symm
  rw [List.append_nil] at hturnKept
  refine ⟨kept, ?_, ?_, hturnKept, ?_, ?_⟩
  · rw [feedAll_append, feed_of_isAsked hasked]
    exact hkept
  · rw [feedAll_append, feed_of_isAsked hasked]
    exact ⟨by rw [emit_buffer, hbuffers.buffer], by rw [emit_bufferStartMs, hbuffers.bufferStart]⟩
  · intro w hw
    rw [spoken_append, List.mem_append] at hw
    refine heard_append.mpr (hw.imp (h.heard w) fun hw => ?_)
    have hin := (spoken_sublist hsub).subset hw
    rw [hnew, List.mem_filter, List.mem_filter] at hin
    exact ⟨hasked, by simpa using hin.1.2⟩
  · intro w hw hheard
    by_cases hbefore : Heard py cfg hops w
    · refine (h.caught w hw hbefore).imp (fun hw => ?_) fun hmissed => hmissed.append hop
      rw [spoken_append]
      exact List.mem_append_left _ hw
    · have hin := (heard_append.mp hheard).resolve_left hbefore
      have hafter : (feedAll py cfg hops {}).2.committedMs < w.endMs := by
        by_contra hle
        refine hbefore (h.heard_of_le hturn hw ?_ hin.2 (not_lt.mp hle))
        simp
      have hmem : w ∈ spoken (heardSentences py cfg ((feedAll py cfg hops {}).2.extend cfg hop)) := by
        rw [hnew, List.mem_filter, List.mem_filter]
        exact ⟨⟨hw, by simpa using hin.2⟩, by simpa using hafter⟩
      obtain ⟨sentence, hsentence, hword⟩ := mem_spoken.mp hmem
      obtain ⟨pre, post, hsplit⟩ := List.append_of_mem hsentence
      refine (hall pre sentence post hsplit).imp (fun hsentence => ?_) fun hrepeat => ?_
      · rw [spoken_append]
        exact List.mem_append_right _ (mem_spoken.mpr ⟨sentence, hsentence, hword⟩)
      · exact ⟨hops, hop, [], rfl, hbefore, hin, pre, sentence, post, hsplit, hword, hrepeat⟩

/-- **The flush** passes on what is left of the last window, repeats too. -/
theorem flush (h : Followed py cfg words hops sentences) (hturn : SaidInTurn words)
    (hpos : 0 < cfg.sampleRate) (hears : HearsWords cfg hops.flatten words) :
    ∃ left, ((feedAll py cfg hops {}).2.flush py cfg).1 = left.map segmentOf ∧
      (spoken (sentences ++ left)).Sublist words ∧
      (∀ w ∈ spoken left, InWindow cfg hops.flatten.length w ∧
        (feedAll py cfg hops {}).2.committedMs < w.endMs) ∧
      ∀ w ∈ words, Heard py cfg hops w ∨ InWindow cfg hops.flatten.length w →
        w ∈ spoken (sentences ++ left) ∨ Missed py cfg hops w := by
  have hcaught : ∀ left, ∀ w ∈ words, Heard py cfg hops w →
      w ∈ spoken (sentences ++ left) ∨ Missed py cfg hops w := by
    intro left w hw hheard
    refine (h.caught w hw hheard).imp_left fun hw => ?_
    rw [spoken_append]
    exact List.mem_append_left _ hw
  rw [flush_segments]
  by_cases hnil : (feedAll py cfg hops {}).2.buffer = []
  · refine ⟨[], by simp [hnil], by simpa using h.sublist, by simp, ?_⟩
    rintro w hw (hheard | hwindow)
    · exact hcaught [] w hw hheard
    · refine absurd hwindow (not_inWindow_of_rtake_eq_nil ?_ hpos hturn hw)
      rw [← h.buffers.buffer, hnil]
  · have hnew := h.buffers.spoken_heardSentences py hears fun w hw => h.cut hturn hw
    refine ⟨heardSentences py cfg (feedAll py cfg hops {}).2, by simp [hnil],
      h.append_sublist hturn hnew (List.Sublist.refl _), ?_, ?_⟩
    · intro w hw
      rw [hnew, List.mem_filter, List.mem_filter] at hw
      exact ⟨by simpa using hw.1.2, by simpa using hw.2⟩
    · rintro w hw (hheard | hwindow)
      · exact hcaught _ w hw hheard
      · rcases le_or_gt w.endMs (feedAll py cfg hops {}).2.committedMs with hle | hlt
        · exact hcaught _ w hw (h.heard_of_le hturn hw le_rfl hwindow hle)
        · refine Or.inl ?_
          rw [spoken_append, hnew, List.mem_append, List.mem_filter, List.mem_filter]
          exact Or.inr ⟨⟨hw, by simpa using hwindow⟩, by simpa using hlt⟩

end Followed

/-- **Any feeding** is followed: the segments are sentences of words in their order, and each word
that was heard is among them or was missed. -/
theorem followed {py : LowerCase} {cfg : StreamingConfig} {words : List SpokenWord}
    {hops : List Bytes} (hturn : SaidInTurn words) (hfeed : Feeding cfg hops)
    (hears : HearsWords cfg hops.flatten words) :
    ∃ sentences, Followed py cfg words hops sentences := by
  induction hops using List.reverseRecOn with
  | nil => exact ⟨[], Followed.nil py cfg words⟩
  | append_singleton hops hop ih =>
    have hprefix : HearsWords cfg hops.flatten words := by
      rw [List.flatten_append] at hears
      exact hears.of_append
    obtain ⟨sentences, h⟩ := ih hfeed.of_append hprefix
    obtain ⟨kept, hnext⟩ := h.feed hturn hfeed hears
    exact ⟨_, hnext⟩

/-! ## An ideal backend

For audio whose bytes number their places it can be written down. -/

/-- Bytes that number their places. -/
def numberedAudio (n : ℕ) : Bytes := (List.range n).map UInt8.ofNat

/-- The words of a window, which is found by its first byte. -/
def numberedBackend (words : List SpokenWord) (pcm : Bytes) (sampleRate : ℕ) : List Token :=
  let first := (pcm.head?.map UInt8.toNat).getD 0
  (words.filter (SpokenWord.Within sampleRate first (first + pcm.length))).map fun w =>
    { text := w.text
      startMs := w.startMs - msOf sampleRate first
      endMs := w.endMs - msOf sampleRate first
      sentenceId := 1 }

theorem filter_within_self {sampleRate : ℕ} (hpos : 0 < sampleRate) {words : List SpokenWord}
    (hturn : SaidInTurn words) (n : ℕ) : words.filter (SpokenWord.Within sampleRate n n) = [] := by
  refine List.filter_eq_nil_iff.mpr fun w hw hin => ?_
  have hin : w.Within sampleRate n n := by simpa using hin
  have hlt : 2 * (sampleRate : ℤ) * w.startMs < 2 * sampleRate * w.endMs :=
    mul_lt_mul_of_pos_left (hturn.inTurn.lt w hw) (by positivity)
  exact absurd (hlt.trans_le (hin.2.trans hin.1)) (lt_irrefl _)

theorem hearsWords_numberedAudio {cfg : StreamingConfig} {words : List SpokenWord} {n : ℕ}
    (hbackend : cfg.transcribe = numberedBackend words) (hpos : 0 < cfg.sampleRate)
    (hn : n ≤ 256) (hturn : SaidInTurn words) : HearsWords cfg (numberedAudio n) words := by
  intro last hlast first hfirst
  have hlen : (numberedAudio n).length = n := by simp [numberedAudio]
  rw [hlen] at hlast
  rw [hbackend, numberedBackend]
  have hwindow : (((numberedAudio n).take last).drop first).length = last - first := by
    rw [List.length_drop, List.length_take, hlen, Nat.min_eq_left hlast]
  rcases hfirst.eq_or_lt with rfl | hlt
  · have hnil : ((numberedAudio n).take first).drop first = [] :=
      List.length_eq_zero_iff.mp (by rw [hwindow, Nat.sub_self])
    simp [hnil, filter_within_self hpos hturn]
  · have hhead : (((numberedAudio n).take last).drop first).head? = some (UInt8.ofNat first) := by
      rw [List.head?_drop, List.getElem?_take_of_lt hlt]
      simp [numberedAudio, hlt.trans_le hlast]
    have hbyte : (UInt8.ofNat first).toNat = first :=
      Nat.mod_eq_of_lt (hlt.trans_le (hlast.trans hn))
    simp only [hhead, hwindow, Option.map_some, Option.getD_some, hbyte, List.map_map]
    rw [Nat.add_sub_cancel' hfirst]
    conv_rhs => rw [← List.map_id (words.filter _)]
    refine List.map_congr_left fun w _ => ?_
    simp [spokenAt]

end OpenRecall.Analysis.HeardWords
