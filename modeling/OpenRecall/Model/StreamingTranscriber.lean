import OpenRecall.Model.Segments
import OpenRecall.Model.AudioPacket
import OpenRecall.Foundation.SpacedWords

/-!
# The streaming transcriber

Audio comes in hops, and each hop the backend transcribes the last seconds of it, so most words are
heard several times. The transcriber keeps a cursor to what is committed, passes on the words after
it, one segment for each sentence of the backend, and moves the cursor to the end of each segment. A
short segment that repeats the last one is taken for a phantom and left out.

Texts are lists of characters. The backend and the voice activity detector are parameters, and so
is lower-casing, with what is relied on: it works word by word and makes no space.
-/

set_option autoImplicit false

namespace OpenRecall.Model

open Foundation

abbrev Text := List Char

instance : LawfulBEq Text := inferInstance

/-- `str.lower`. Space is kept, and across it no letter changes how another is lowered. -/
structure LowerCase where
  lower : Text → Text
  lower_nil : lower [] = []
  lower_append_space : ∀ xs c ys, isSpace c = true →
    lower (xs ++ c :: ys) = lower xs ++ c :: lower ys
  not_isSpace : ∀ xs, (∀ c ∈ xs, isSpace c = false) → ∀ c ∈ lower xs, isSpace c = false

/-- No letter is space, in upper or lower case. -/
theorem isSpace_eq_false_of_letter {c : Char} (h : 65 ≤ c.toNat ∧ c.toNat ≤ 122) :
    isSpace c = false := by
  simp only [isSpace, List.mem_cons, List.not_mem_nil, or_false, decide_eq_false_iff_not]
  omega

theorem toNat_toLower {c : Char} (h : 65 ≤ c.toNat ∧ c.toNat ≤ 90) :
    c.toLower.toNat = c.toNat + 32 := by
  have hval : c.val ≥ 'A'.val ∧ c.val ≤ 'Z'.val := h
  rw [Char.toLower, dif_pos hval]
  change (c.val + 32).toNat = c.val.toNat + 32
  have h90 : c.val.toNat ≤ 90 := h.2
  rw [UInt32.toNat_add]
  exact Nat.mod_eq_of_lt (by change c.val.toNat + 32 < 2 ^ 32; omega)

theorem toLower_eq_self {c : Char} (h : ¬ (65 ≤ c.toNat ∧ c.toNat ≤ 90)) : c.toLower = c := by
  have hval : ¬ (c.val ≥ 'A'.val ∧ c.val ≤ 'Z'.val) := h
  rw [Char.toLower, dif_neg hval]

theorem isSpace_toLower (c : Char) : isSpace c.toLower = isSpace c := by
  by_cases h : 65 ≤ c.toNat ∧ c.toNat ≤ 90
  · have hlower := toNat_toLower h
    rw [isSpace_eq_false_of_letter (c := c) (by omega), isSpace_eq_false_of_letter (by omega)]
  · rw [toLower_eq_self h]
/-- Lower-casing of ASCII letters. -/
def asciiLower : LowerCase where
  lower text := text.map Char.toLower
  lower_nil := rfl
  lower_append_space xs c ys hc := by
    have hsame : c.toLower = c := toLower_eq_self fun h => by
      simp [isSpace_eq_false_of_letter (c := c) (by omega)] at hc
    simp [hsame]
  not_isSpace xs hxs c hc := by
    obtain ⟨d, hd, rfl⟩ := List.mem_map.mp hc
    exact (isSpace_toLower d).trans (hxs d hd)

/-- One word as the backend hears it, by its times in the window.
SOURCE: ingest/streaming_transcriber.py:57-80 -/
structure Token where
  text : Text
  startMs : ℤ
  endMs : ℤ
  sentenceId : ℤ := 0
  deriving DecidableEq

/-- A committed piece of the transcript, by its times in the session.
SOURCE: ingest/streaming_transcriber.py:83-95 -/
structure TranscriptSegment where
  text : Text
  startMs : ℤ
  endMs : ℤ
  sentenceId : ℤ := 0
  deriving DecidableEq

/-! ## Texts -/

/-- The punctuation that is stripped from the ends of a text. -/
def punctuation : List Char :=
  ['.', ',', '!', '?', ';', ':', '\'', '"', '-', '(', ')', '[', ']', '{', '}', '“', '”']

/-- `str.lstrip`. -/
def lstrip (text : Text) : Text := text.dropWhile isSpace

/-- `str.strip`. -/
def stripText (text : Text) : Text := rstripList (lstrip text)

/-- `" ".join`. -/
def joinSpaced (texts : List Text) : Text := [' '].intercalate texts

/-- `str.split`. -/
def splitText (text : Text) : List Text := SpacedWords.words isSpace text

/-- SOURCE: ingest/streaming_transcriber.py:149-154 -/
def normalizeSegmentText (py : LowerCase) (text : Text) : Text :=
  joinSpaced (splitText (SpacedWords.trim (· ∈ punctuation) (py.lower (stripText text))))

/-- SOURCE: ingest/streaming_transcriber.py:157-158 -/
def wordCount (text : Text) : ℕ := (splitText text).length

/-- Consecutive tokens of one sentence, with its id.
SOURCE: ingest/streaming_transcriber.py:161-184 -/
def groupBySentenceId (tokens : List Token) : List (ℤ × List Token) :=
  (tokens.splitBy fun a b => a.sentenceId == b.sentenceId).map fun group =>
    ((group.head?.map Token.sentenceId).getD 0, group)

/-! ## The transcriber -/

/-- What a transcriber is made with. The detector says whether a frame is speech, and none stands
for an exception.
SOURCE: ingest/streaming_transcriber.py:203-256 -/
structure StreamingConfig where
  transcribe : Bytes → ℕ → List Token
  sampleRate : ℕ := 16000
  hopMs : ℕ := 1000
  windowMs : ℕ := 5000
  vad : Option (Bytes → ℕ → Option Bool) := none
  skipSilentWindows : Bool := false
  hop_pos : 0 < hopMs := by norm_num
  hop_le : hopMs ≤ windowMs := by norm_num

/-- SOURCE: ingest/streaming_transcriber.py:254 -/
def StreamingConfig.hopBytes (cfg : StreamingConfig) : ℕ :=
  cfg.sampleRate * cfg.hopMs / 1000 * 2

/-- SOURCE: ingest/streaming_transcriber.py:255 -/
def StreamingConfig.windowBytes (cfg : StreamingConfig) : ℕ :=
  cfg.sampleRate * cfg.windowMs / 1000 * 2

/-- SOURCE: ingest/streaming_transcriber.py:258-279 -/
structure StreamingTranscriber where
  buffer : Bytes := []
  bufferStartMs : ℤ := 0
  committedMs : ℤ := 0
  lastEmittedTextNorm : Text := []
  lastEmittedWords : List Text := []

namespace StreamingTranscriber

/-- SOURCE: ingest/streaming_transcriber.py:42-54 -/
def dedupMinWords : ℕ := 2

def dedupMaxWords : ℕ := 5

def vadFrameBytes : ℕ := 640

def silenceEpsilon : ℤ := 32

/-- The samples of a buffer, without a stray last byte. -/
def samples : Bytes → List ℤ
  | lo :: hi :: rest =>
    let n : ℤ := lo.toNat + 256 * hi.toNat
    (if n < 32768 then n else n - 65536) :: samples rest
  | _ => []

/-- SOURCE: ingest/streaming_transcriber.py:295-306 -/
def windowIsSilent (buffer : Bytes) : Bool :=
  (samples buffer).all fun x => x < silenceEpsilon ∧ -silenceEpsilon < x

/-- Whether a frame is speech, or makes the detector raise; a trailing partial frame is not asked
for.
SOURCE: ingest/streaming_transcriber.py:308-326 -/
def hopHasVoicedFrames (cfg : StreamingConfig) (pcm : Bytes) : Bool :=
  match cfg.vad with
  | none => true
  | some isSpeech =>
    if pcm.length < vadFrameBytes then true
    else (List.range (pcm.length / vadFrameBytes)).any fun i =>
      (isSpeech ((pcm.drop (i * vadFrameBytes)).take vadFrameBytes) cfg.sampleRate).getD true

/-- The buffer with a hop, cut to the window at its front.
SOURCE: ingest/streaming_transcriber.py:342-349 -/
def extend (cfg : StreamingConfig) (pcm : Bytes) (st : StreamingTranscriber) :
    StreamingTranscriber :=
  let buffer := st.buffer ++ pcm
  if cfg.windowBytes < buffer.length then
    let trim := buffer.length - cfg.windowBytes
    { st with
      buffer := buffer.drop trim
      bufferStartMs := st.bufferStartMs + (trim / 2 * 1000 / cfg.sampleRate : ℕ) }
  else { st with buffer := buffer }

/-- Whether a token is new: not behind the cursor, nor a word of the last segment that straddles it.
SOURCE: ingest/streaming_transcriber.py:391-402 -/
def isNew (py : LowerCase) (st : StreamingTranscriber) (tok : Token) : Bool :=
  let absoluteStart := st.bufferStartMs + tok.startMs
  let absoluteEnd := st.bufferStartMs + tok.endMs
  let norm := normalizeSegmentText py tok.text
  if absoluteEnd ≤ st.committedMs then false
  else if absoluteStart < st.committedMs then ¬ (norm ≠ [] ∧ norm ∈ st.lastEmittedWords)
  else true

/-- The new tokens, by their times in the session.
SOURCE: ingest/streaming_transcriber.py:390-408 -/
def newTokens (py : LowerCase) (st : StreamingTranscriber) (tokens : List Token) : List Token :=
  (tokens.filter (isNew py st)).map fun tok =>
    { tok with
      startMs := st.bufferStartMs + tok.startMs
      endMs := st.bufferStartMs + tok.endMs }

/-- The text of a sentence.
SOURCE: ingest/streaming_transcriber.py:429 -/
def textOf (group : List Token) : Text := joinSpaced (group.map fun t => lstrip t.text)

/-- SOURCE: ingest/streaming_transcriber.py:443-448 -/
def segmentOf (group : ℤ × List Token) : TranscriptSegment where
  text := textOf group.2
  startMs := (group.2.head?.map Token.startMs).getD 0
  endMs := (group.2.getLast?.map Token.endMs).getD 0
  sentenceId := group.1

/-- A short sentence that repeats the last segment.
SOURCE: ingest/streaming_transcriber.py:430-442 -/
def isRepeat (py : LowerCase) (st : StreamingTranscriber) (group : List Token) : Bool :=
  let norm := normalizeSegmentText py (textOf group)
  norm ≠ [] ∧ norm = st.lastEmittedTextNorm ∧ dedupMinWords ≤ wordCount (textOf group) ∧
    wordCount (textOf group) ≤ dedupMaxWords

/-- The state after a sentence was passed on.
SOURCE: ingest/streaming_transcriber.py:449-459 -/
def commit (py : LowerCase) (group : ℤ × List Token) (st : StreamingTranscriber) :
    StreamingTranscriber :=
  { st with
    committedMs := max st.committedMs (segmentOf group).endMs
    lastEmittedTextNorm := normalizeSegmentText py (textOf group.2)
    lastEmittedWords := (splitText (textOf group.2)).map (normalizeSegmentText py) }

/-- Pass on the sentences of a hop, except repeats.
SOURCE: ingest/streaming_transcriber.py:424-461 -/
def emit (py : LowerCase) :
    List (ℤ × List Token) → StreamingTranscriber → List TranscriptSegment × StreamingTranscriber
  | [], st => ([], st)
  | group :: groups, st =>
    if isRepeat py st group.2 then emit py groups st
    else (segmentOf group :: (emit py groups (commit py group st)).1,
      (emit py groups (commit py group st)).2)

/-- SOURCE: ingest/streaming_transcriber.py:332-461 -/
def feed (py : LowerCase) (cfg : StreamingConfig) (pcm : Bytes) (st : StreamingTranscriber) :
    List TranscriptSegment × StreamingTranscriber :=
  if pcm = [] then ([], st)
  else
    let st := st.extend cfg pcm
    if cfg.vad.isSome ∧ ¬ hopHasVoicedFrames cfg pcm then ([], st)
    else if cfg.skipSilentWindows ∧ pcm.all (· = 0) ∧ windowIsSilent st.buffer then ([], st)
    else
      emit py (groupBySentenceId (newTokens py st (cfg.transcribe st.buffer cfg.sampleRate))) st

/-- Pass on what is left, repeats too; the text of the last segment is not remembered.
SOURCE: ingest/streaming_transcriber.py:463-511 -/
def flush (py : LowerCase) (cfg : StreamingConfig) (st : StreamingTranscriber) :
    List TranscriptSegment × StreamingTranscriber :=
  if st.buffer = [] then ([], st)
  else
    let segments := (groupBySentenceId
      (newTokens py st (cfg.transcribe st.buffer cfg.sampleRate))).map segmentOf
    match segments.getLast? with
    | none => ([], st)
    | some last =>
      (segments, { st with
        committedMs := max st.committedMs last.endMs
        lastEmittedWords := (splitText last.text).map (normalizeSegmentText py) })

/-- The segments of some hops, and the state after them. -/
def feedAll (py : LowerCase) (cfg : StreamingConfig) :
    List Bytes → StreamingTranscriber → List TranscriptSegment × StreamingTranscriber
  | [], st => ([], st)
  | pcm :: hops, st =>
    ((st.feed py cfg pcm).1 ++ (feedAll py cfg hops (st.feed py cfg pcm).2).1,
      (feedAll py cfg hops (st.feed py cfg pcm).2).2)

end StreamingTranscriber

end OpenRecall.Model
