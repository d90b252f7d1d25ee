import OpenRecall.Model.UtteranceTranscriber
import OpenRecall.Foundation.Run

/-!
# The slices that are utterances

The utterances that are closed in a run cut the audio into consecutive slices, and each starts at the
time its start offset says. The counter of zeros is the length of the zero run at the end of the
buffer.

Where two bursts of speech have only zeros between them, the run of zeros decides. When it is shorter
than the end silence no feed ends in enough zeros, so only the maximum length can cut there. When it
is longer by a hop or more some feed ends in enough zeros before the second burst
(`Recorded.gap_lt`).
-/

set_option autoImplicit false

namespace OpenRecall.Analysis.UtteranceSlices

open Foundation OpenRecall.Model OpenRecall.Model.UtteranceTranscriber

/-- An utterance that is closed, with its start offset. -/
structure Utterance where
  startMs : ℕ
  pcm : Bytes

def hopBytes (cfg : UtteranceConfig) : ℕ := cfg.hopMs * cfg.bytesPerMs

/-- The utterance that a feed closes. -/
def closedBy (cfg : UtteranceConfig) (pcm : Bytes) (st : UtteranceTranscriber) : List Utterance :=
  if pcm = [] then []
  else if (st.take cfg pcm).isEnd cfg then
    [⟨(st.take cfg pcm).utteranceStartMs, (st.take cfg pcm).buffer⟩]
  else []

/-- The utterances that some feeds close. -/
def closedAll (cfg : UtteranceConfig) : List Bytes → UtteranceTranscriber → List Utterance
  | [], _ => []
  | pcm :: feeds, st => closedBy cfg pcm st ++ closedAll cfg feeds (st.feed cfg pcm).2

/-- Two places of speech with only zeros between them. -/
structure ZeroRun (stream : Bytes) (i j : ℕ) : Prop where
  lt : i < j
  before : ∃ x, stream[i]? = some x ∧ x ≠ 0
  after : ∃ x, stream[j]? = some x ∧ x ≠ 0
  zeros : ∀ k x, i < k → k < j → stream[k]? = some x → x = 0

/-- The utterance that the flush closes. -/
def flushed (st : UtteranceTranscriber) : List Utterance :=
  if st.buffer = [] then [] else [⟨st.utteranceStartMs, st.buffer⟩]

/-- The bytes of some utterances. -/
def pcmOf (closed : List Utterance) : Bytes := closed.flatMap Utterance.pcm

@[simp] theorem pcmOf_append (xs ys : List Utterance) : pcmOf (xs ++ ys) = pcmOf xs ++ pcmOf ys := by
  simp [pcmOf]

/-! ## Runs of zeros -/

theorem trailingZeroBytes_append (xs ys : Bytes) :
    trailingZeroBytes (xs ++ ys) =
      if trailingZeroBytes ys = ys.length then trailingZeroBytes xs + trailingZeroBytes ys
      else trailingZeroBytes ys := by
  unfold trailingZeroBytes
  by_cases hall : ∀ c ∈ ys, decide (c = 0) = true
  · rw [TrailingRun.trailing_append_of_all hall, TrailingRun.trailing_eq_length hall, if_pos rfl]
  · push Not at hall
    obtain ⟨c, hc, hzero⟩ := hall
    have hnot : decide (c = 0) = false := by simpa using hzero
    obtain ⟨k, hk⟩ := List.getElem?_of_mem hc
    have hlt := TrailingRun.add_trailing_lt (p := fun c : UInt8 => decide (c = 0)) hk hnot
    rw [TrailingRun.trailing_append_of_not ⟨c, hc, hnot⟩, if_neg (by omega)]

/-- Speech in a buffer lies before the zeros at its end. -/
theorem add_trailingZeroBytes_lt {buffer : Bytes} {i : ℕ} (h : ∃ x, buffer[i]? = some x ∧ x ≠ 0) :
    i + trailingZeroBytes buffer < buffer.length := by
  obtain ⟨x, hx, hne⟩ := h
  exact TrailingRun.add_trailing_lt hx (by simpa using hne)

/-- When more audio comes, a run of zeros before it was at the end of the buffer, or it lies in one
of the two. -/
theorem gap_lt_of_append {buffer pcm : Bytes} {bound : ℕ} {i j : ℕ}
    (hbuffer : ∀ i j, ZeroRun buffer i j → j - i - 1 < bound)
    (hquiet : ∀ i : ℕ, (∃ x : UInt8, buffer[i]? = some x ∧ x ≠ 0) →
      trailingZeroBytes buffer + pcm.length ≤ bound)
    (hshort : pcm.length ≤ bound) (h : ZeroRun (buffer ++ pcm) i j) : j - i - 1 < bound := by
  obtain ⟨x, hx, hxne⟩ := h.before
  obtain ⟨y, hy, hyne⟩ := h.after
  have hlt := h.lt
  have hj : j < buffer.length + pcm.length := by
    have hget := (List.getElem?_eq_some_iff.mp hy).1
    rwa [List.length_append] at hget
  rcases Nat.lt_or_ge j buffer.length with hin | hin
  · refine hbuffer i j ⟨hlt, ⟨x, ?_, hxne⟩, ⟨y, ?_, hyne⟩, fun k z hik hkj hz => ?_⟩
    · rwa [List.getElem?_append_left (by omega)] at hx
    · rwa [List.getElem?_append_left hin] at hy
    · exact h.zeros k z hik hkj (by rwa [List.getElem?_append_left (by omega)])
  · rcases Nat.lt_or_ge i buffer.length with hi | hi
    · rw [List.getElem?_append_left hi] at hx
      have htrail : buffer.length ≤ i + 1 + trailingZeroBytes buffer := by
        refine TrailingRun.length_le_add_trailing fun k z hik hz => ?_
        have hk : k < buffer.length := (List.getElem?_eq_some_iff.mp hz).1
        simpa using h.zeros k z hik (by omega) (by rwa [List.getElem?_append_left hk])
      have hroom := hquiet i ⟨x, hx, hxne⟩
      omega
    · omega

/-! ## The run -/

/-- The utterances closed so far and the buffer are the audio so far. -/
structure Recorded (cfg : UtteranceConfig) (fed : Bytes) (closed : List Utterance)
    (st : UtteranceTranscriber) : Prop where
  bytes : pcmOf closed ++ st.buffer = fed
  fedMs : st.fedMs * cfg.bytesPerMs = fed.length
  start : st.buffer ≠ [] → st.utteranceStartMs * cfg.bytesPerMs = (pcmOf closed).length
  starts : ∀ pre u post, closed = pre ++ u :: post →
    u.startMs * cfg.bytesPerMs = (pcmOf pre).length
  zeros : st.trailingZeros = trailingZeroBytes st.buffer
  ends : ∀ u ∈ closed, cfg.maxUtteranceBytes ≤ u.pcm.length ∨
    cfg.endSilenceBytes ≤ trailingZeroBytes u.pcm
  gaps : ∀ u ∈ closed, ∀ i j, ZeroRun u.pcm i j → j - i - 1 < cfg.endSilenceBytes + hopBytes cfg
  gap : ∀ i j, ZeroRun st.buffer i j → j - i - 1 < cfg.endSilenceBytes + hopBytes cfg

/-- No utterance ends here. -/
structure Going (cfg : UtteranceConfig) (st : UtteranceTranscriber) : Prop where
  below : 0 < cfg.maxUtteranceBytes → st.buffer.length < cfg.maxUtteranceBytes
  quiet : st.buffer ≠ [] → st.trailingZeros < cfg.endSilenceBytes ∨
    st.buffer.length ≤ st.trailingZeros

theorem not_zeroRun_nil {i j : ℕ} : ¬ ZeroRun [] i j := by
  intro h
  obtain ⟨x, hx, -⟩ := h.before
  simp at hx

section

variable {cfg : UtteranceConfig} {fed pcm : Bytes} {closed : List Utterance}
  {st : UtteranceTranscriber}

theorem recorded_nil (cfg : UtteranceConfig) : Recorded cfg [] [] {} where
  bytes := rfl
  fedMs := by simp
  start := by simp
  starts := by simp
  zeros := by simp [trailingZeroBytes]
  ends := by simp
  gaps := by simp
  gap i j h := absurd h not_zeroRun_nil

theorem going_nil (cfg : UtteranceConfig) : Going cfg {} where
  below h := h
  quiet := by simp

/-- Audio that is taken keeps the record. -/
theorem Recorded.take (h : Recorded cfg fed closed st) (hgoing : Going cfg st)
    (hwhole : cfg.bytesPerMs ∣ pcm.length) (hhop : pcm.length ≤ hopBytes cfg) :
    Recorded cfg (fed ++ pcm) closed (st.take cfg pcm) where
  bytes := by simp [UtteranceTranscriber.take, ← h.bytes]
  fedMs := by
    rw [UtteranceTranscriber.take, add_mul, h.fedMs, Nat.div_mul_cancel hwhole, List.length_append]
  start := by
    intro _
    by_cases hnil : st.buffer = []
    · have hbytes := h.bytes
      rw [hnil, List.append_nil] at hbytes
      simp [UtteranceTranscriber.take, hnil, h.fedMs, hbytes]
    · simp [UtteranceTranscriber.take, hnil, h.start hnil]
  starts := h.starts
  zeros := by
    simp only [UtteranceTranscriber.take]
    rw [h.zeros, trailingZeroBytes_append]
  ends := h.ends
  gaps := h.gaps
  gap i j hrun := by
    refine gap_lt_of_append h.gap (fun k hk => ?_) (by omega) hrun
    have hlt := add_trailingZeroBytes_lt hk
    have hne : st.buffer ≠ [] := by
      rintro hnil
      simp [hnil] at hlt
    have hquiet := hgoing.quiet hne
    rw [h.zeros] at hquiet
    omega

/-- Closing makes an utterance of the buffer. -/
theorem Recorded.close (h : Recorded cfg fed closed st) (hne : st.buffer ≠ [])
    (hend : cfg.maxUtteranceBytes ≤ st.buffer.length ∨ cfg.endSilenceBytes ≤ st.trailingZeros) :
    Recorded cfg fed (closed ++ [⟨st.utteranceStartMs, st.buffer⟩])
      (st.closeUtterance cfg).2 where
  bytes := by simp [closeUtterance, ← h.bytes, pcmOf]
  fedMs := h.fedMs
  start := by simp [closeUtterance]
  starts pre u post hsplit := by
    rcases concat_split hsplit with ⟨-, rfl, rfl⟩ | ⟨post', -, hsplit⟩
    · exact h.start hne
    · exact h.starts pre u post' hsplit
  zeros := by simp [closeUtterance, trailingZeroBytes]
  ends u hu := by
    rcases List.mem_append.mp hu with hu | hu
    · exact h.ends u hu
    · rw [List.mem_singleton.mp hu]
      exact h.zeros ▸ hend
  gaps u hu := by
    rcases List.mem_append.mp hu with hu | hu
    · exact h.gaps u hu
    · rw [List.mem_singleton.mp hu]
      exact h.gap
  gap i j hrun := absurd hrun not_zeroRun_nil

/-- **One feed** keeps the record, and after it no utterance is at its end. -/
theorem Recorded.feed (h : Recorded cfg fed closed st) (hgoing : Going cfg st)
    (hwhole : cfg.bytesPerMs ∣ pcm.length) (hhop : pcm.length ≤ hopBytes cfg) :
    Recorded cfg (fed ++ pcm) (closed ++ closedBy cfg pcm st) (st.feed cfg pcm).2 ∧
      Going cfg (st.feed cfg pcm).2 := by
  rw [UtteranceTranscriber.feed, closedBy]
  by_cases hnil : pcm = []
  · simpa [hnil] using ⟨h, hgoing⟩
  · have htaken := h.take hgoing hwhole hhop
    rw [if_neg hnil, if_neg hnil]
    by_cases hend : (st.take cfg pcm).isEnd cfg
    · have hne : (st.take cfg pcm).buffer ≠ [] := by simp [UtteranceTranscriber.take, hnil]
      rw [if_pos hend, if_pos hend]
      refine ⟨htaken.close hne ?_, ⟨fun hpos => hpos, fun hbuffer => absurd rfl hbuffer⟩⟩
      simp only [isEnd, decide_eq_true_eq] at hend
      exact hend.imp_right And.left
    · rw [if_neg hend, if_neg hend, List.append_nil]
      simp only [isEnd, decide_eq_true_eq, not_or, not_and_or, not_le, not_lt] at hend
      exact ⟨htaken, ⟨fun _ => hend.1, fun _ => hend.2⟩⟩

end

theorem feedAll_append (cfg : UtteranceConfig) (feeds : List Bytes) (pcm : Bytes)
    (st : UtteranceTranscriber) :
    feedAll cfg (feeds ++ [pcm]) st =
      ((feedAll cfg feeds st).1 ++ ((feedAll cfg feeds st).2.feed cfg pcm).1,
        ((feedAll cfg feeds st).2.feed cfg pcm).2) := by
  induction feeds generalizing st with
  | nil => simp [feedAll]
  | cons x feeds ih => simp [feedAll, ih]

theorem closedAll_append (cfg : UtteranceConfig) (feeds : List Bytes) (pcm : Bytes)
    (st : UtteranceTranscriber) :
    closedAll cfg (feeds ++ [pcm]) st =
      closedAll cfg feeds st ++ closedBy cfg pcm (feedAll cfg feeds st).2 := by
  induction feeds generalizing st with
  | nil => simp [closedAll, feedAll]
  | cons x feeds ih => simp [closedAll, feedAll, ih]

/-- **After any feeds** of whole milliseconds the utterances and the buffer are the audio. -/
theorem recorded_feedAll {cfg : UtteranceConfig} {feeds : List Bytes}
    (hwhole : ∀ pcm ∈ feeds, cfg.bytesPerMs ∣ pcm.length)
    (hhop : ∀ pcm ∈ feeds, pcm.length ≤ hopBytes cfg) :
    Recorded cfg feeds.flatten (closedAll cfg feeds {}) (feedAll cfg feeds {}).2 ∧
      Going cfg (feedAll cfg feeds {}).2 := by
  induction feeds using List.reverseRecOn with
  | nil => exact ⟨recorded_nil cfg, going_nil cfg⟩
  | append_singleton feeds pcm ih =>
    obtain ⟨h, hgoing⟩ := ih (fun x hx => hwhole x (List.mem_append_left _ hx))
      fun x hx => hhop x (List.mem_append_left _ hx)
    have hnext := h.feed hgoing (hwhole pcm (by simp)) (hhop pcm (by simp))
    rw [feedAll_append, closedAll_append, List.flatten_append, List.flatten_singleton]
    exact hnext

/-- The segments are those of the utterances. -/
theorem feedAll_segments (cfg : UtteranceConfig) (feeds : List Bytes) (st : UtteranceTranscriber) :
    (feedAll cfg feeds st).1 =
      (closedAll cfg feeds st).flatMap fun u => utteranceSegments cfg u.startMs u.pcm := by
  induction feeds generalizing st with
  | nil => rfl
  | cons pcm feeds ih =>
    have hfeed : (st.feed cfg pcm).1 =
        (closedBy cfg pcm st).flatMap fun u => utteranceSegments cfg u.startMs u.pcm := by
      rw [UtteranceTranscriber.feed, closedBy]
      split_ifs <;> simp [closeUtterance]
    rw [feedAll, closedAll, List.flatMap_append, ← hfeed, ← ih]

/-! ## Bursts -/

/-- A place in a slice of a stream. -/
theorem getElem?_slice {pre slice post : Bytes} {k : ℕ} (hpre : pre.length ≤ k)
    (hk : k < pre.length + slice.length) :
    (pre ++ (slice ++ post))[k]? = slice[k - pre.length]? := by
  rw [List.getElem?_append_right hpre, List.getElem?_append_left (by omega)]

/-- A run of zeros in a stream that lies in a slice is one of the slice. -/
theorem ZeroRun.slice {pre slice post : Bytes} {i j : ℕ}
    (h : ZeroRun (pre ++ (slice ++ post)) i j) (hi : pre.length ≤ i)
    (hj : j < pre.length + slice.length) :
    ZeroRun slice (i - pre.length) (j - pre.length) := by
  have hlt := h.lt
  refine ⟨by omega, ?_, ?_, fun k x hik hkj hx => ?_⟩
  · rw [← getElem?_slice hi (by omega)]
    exact h.before
  · rw [← getElem?_slice (by omega) hj]
    exact h.after
  · refine h.zeros (pre.length + k) x (by omega) (by omega) ?_
    rw [getElem?_slice (by omega) (by omega)]
    simpa using hx

/-- A slice that ends before the second burst of a run has at most that many zeros at its end. -/
theorem trailingZeroBytes_slice_le {pre slice post : Bytes} {i j : ℕ}
    (h : ZeroRun (pre ++ (slice ++ post)) i j) (hi : pre.length ≤ i)
    (hin : i < pre.length + slice.length) (hj : pre.length + slice.length ≤ j) :
    trailingZeroBytes slice ≤ j - i - 1 := by
  have hburst := h.before
  rw [getElem?_slice hi hin] at hburst
  have hlt := add_trailingZeroBytes_lt hburst
  omega

/-- What holds of each utterance, the last one included, which the flush closes. -/
theorem Recorded.slice {cfg : UtteranceConfig} {fed : Bytes} {closed : List Utterance}
    {st : UtteranceTranscriber} (h : Recorded cfg fed closed st) {pre post : List Utterance}
    {u : Utterance} (hsplit : closed ++ flushed st = pre ++ u :: post) :
    u.startMs * cfg.bytesPerMs = (pcmOf pre).length ∧
      (∀ i j, ZeroRun u.pcm i j → j - i - 1 < cfg.endSilenceBytes + hopBytes cfg) ∧
      (cfg.maxUtteranceBytes ≤ u.pcm.length ∨ cfg.endSilenceBytes ≤ trailingZeroBytes u.pcm ∨
        post = []) := by
  have hclosed : ∀ post', closed = pre ++ u :: post' →
      u.startMs * cfg.bytesPerMs = (pcmOf pre).length ∧
        (∀ i j, ZeroRun u.pcm i j → j - i - 1 < cfg.endSilenceBytes + hopBytes cfg) ∧
        (cfg.maxUtteranceBytes ≤ u.pcm.length ∨ cfg.endSilenceBytes ≤ trailingZeroBytes u.pcm ∨
          post = []) := by
    intro post' hpost'
    have hu : u ∈ closed := by simp [hpost']
    exact ⟨h.starts pre u post' hpost', h.gaps u hu, (h.ends u hu).imp_right Or.inl⟩
  rw [flushed] at hsplit
  split_ifs at hsplit with hnil
  · rw [List.append_nil] at hsplit
    exact hclosed post hsplit
  · rcases concat_split hsplit with ⟨rfl, rfl, rfl⟩ | ⟨post', -, hpost'⟩
    · exact ⟨h.start hnil, h.gap, Or.inr (Or.inr rfl)⟩
    · exact hclosed post' hpost'

/-- **The utterances cut the audio.** After any feeds of whole milliseconds, each at most a hop, and
the flush, the utterances are consecutive slices that make up the audio, each starts at its offset,
and the segments are theirs. After every feed the counter is the number of zeros at the end of the
buffer, and the buffer is below the maximum. Two bursts with fewer zeros between them than the end
silence are in one utterance, if it does not reach the maximum; with a hop more zeros than the end
silence they are in different ones.
SOURCE: ingest/utterance_transcriber.py:117-184 -/
theorem utterances_slices {cfg : UtteranceConfig} {feeds : List Bytes}
    (hwhole : ∀ pcm ∈ feeds, cfg.bytesPerMs ∣ pcm.length)
    (hhop : ∀ pcm ∈ feeds, pcm.length ≤ hopBytes cfg) :
    let run := feedAll cfg feeds {}
    let closed := closedAll cfg feeds {} ++ flushed run.2
    pcmOf closed = feeds.flatten ∧
      run.1 ++ (run.2.flush cfg).1 =
        (closed.flatMap fun u => utteranceSegments cfg u.startMs u.pcm) ∧
      (∀ before after, feeds = before ++ after →
        (feedAll cfg before {}).2.trailingZeros =
            trailingZeroBytes (feedAll cfg before {}).2.buffer ∧
          (0 < cfg.maxUtteranceBytes →
            (feedAll cfg before {}).2.buffer.length < cfg.maxUtteranceBytes)) ∧
      ∀ pre u post, closed = pre ++ u :: post →
        u.startMs * cfg.bytesPerMs = (pcmOf pre).length ∧
        ∀ i j, ZeroRun feeds.flatten i j →
          (pcmOf pre).length ≤ i → i < (pcmOf pre).length + u.pcm.length →
          (j - i - 1 < cfg.endSilenceBytes →
            j < (pcmOf pre).length + u.pcm.length ∨ cfg.maxUtteranceBytes ≤ u.pcm.length) ∧
          (cfg.endSilenceBytes + hopBytes cfg ≤ j - i - 1 →
            (pcmOf pre).length + u.pcm.length ≤ j) := by
  intro run closed
  obtain ⟨h, -⟩ := recorded_feedAll hwhole hhop
  have hbytes : pcmOf closed = feeds.flatten := by
    rw [pcmOf_append, ← h.bytes, flushed]
    split_ifs with hnil
    · rw [show run.2.buffer = [] from hnil]
      simp [pcmOf]
    · simp [pcmOf, run]
  refine ⟨hbytes, ?_, ?_, fun pre u post hsplit => ?_⟩
  · rw [List.flatMap_append, ← feedAll_segments, flushed]
    by_cases hnil : run.2.buffer = []
    · simp [UtteranceTranscriber.flush, closeUtterance, utteranceSegments, hnil, run]
    · simp [UtteranceTranscriber.flush, closeUtterance, hnil, run]
  · rintro before after rfl
    obtain ⟨hbefore, hgoing⟩ := @recorded_feedAll cfg before
      (fun pcm hpcm => hwhole pcm (List.mem_append_left after hpcm))
      fun pcm hpcm => hhop pcm (List.mem_append_left after hpcm)
    exact ⟨hbefore.zeros, hgoing.below⟩
  · obtain ⟨hstart, hgaps, hends⟩ := h.slice hsplit
    refine ⟨hstart, fun i j hrun hi hin => ⟨fun hshort => ?_, fun hlong => ?_⟩⟩
    · have hstream : feeds.flatten = pcmOf pre ++ (u.pcm ++ pcmOf post) := by
        rw [← hbytes, hsplit]
        simp [pcmOf]
      rw [hstream] at hrun
      by_contra hcut
      obtain ⟨hj, hmax⟩ := not_or.mp hcut
      have hle := trailingZeroBytes_slice_le hrun hi hin (not_lt.mp hj)
      rcases hends with hends | hends | rfl
      · exact hmax hends
      · omega
      · obtain ⟨y, hy, -⟩ := hrun.after
        have hget := (List.getElem?_eq_some_iff.mp hy).1
        simp only [pcmOf, List.flatMap_nil, List.append_nil, List.length_append] at hget hj
        omega
    · have hstream : feeds.flatten = pcmOf pre ++ (u.pcm ++ pcmOf post) := by
        rw [← hbytes, hsplit]
        simp [pcmOf]
      rw [hstream] at hrun
      by_contra hj
      have hgap := hgaps _ _ (hrun.slice hi (not_le.mp hj))
      omega

/-- Hops of 2 ms and an end silence of 2 ms at 1000 Hz. -/
def shortConfig : UtteranceConfig where
  transcribe _ _ := []
  sampleRate := 1000
  hopMs := 2
  endSilenceMs := 2

/-- Two bursts with 5 ms of zeros between them. -/
def twoBursts : List Bytes :=
  [[7, 7, 7, 0], [0, 0, 0, 0], [0, 0, 0, 0], [0, 0, 7, 7], [7, 7]]

theorem utterances_slices_twoBursts :
    pcmOf (closedAll shortConfig twoBursts {} ++ flushed (feedAll shortConfig twoBursts {}).2) =
        twoBursts.flatten ∧
      (closedAll shortConfig twoBursts {} ++
        flushed (feedAll shortConfig twoBursts {}).2).map Utterance.startMs = [0, 4] :=
  ⟨(@utterances_slices shortConfig twoBursts (by decide) (by decide)).1, by decide⟩

end OpenRecall.Analysis.UtteranceSlices
