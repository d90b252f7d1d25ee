import OpenRecall.Model.StreamingTranscriber

/-!
# The sentence coalescer

It wraps a streamer and joins the segments the streamer returns into sentences. A sentence ends at a
terminator, before a pause, after some silence, when it has grown too long, and at the flush.

What the wrapped streamer returns for a hop is an argument of `feed` and `flush`. Whether a character
is a letter is a parameter.
-/

set_option autoImplicit false

namespace OpenRecall.Model

/-- SOURCE: ingest/sentence_coalescer.py:66-76 -/
def maxSentenceWords : ℕ := 40

def maxSentenceMs : ℤ := 10000

def sentenceTerminators : List Char := ['.', '!', '?']

/-- SOURCE: ingest/sentence_coalescer.py:78-86 -/
def abbreviations : List Text :=
  ["mr.", "mrs.", "ms.", "dr.", "prof.", "st.", "sr.", "jr.", "vs.", "e.g.", "i.e.", "no."].map
    String.toList

/-- A single initial: a letter and a period. -/
def isInitial (isAlpha : Char → Bool) : Text → Bool
  | [letter, period] => isAlpha letter ∧ period = '.'
  | _ => false

/-- SOURCE: ingest/sentence_coalescer.py:89-106 -/
def endsSentence (py : LowerCase) (isAlpha : Char → Bool) (text : Text) : Bool :=
  let stripped := rstripList text
  if stripped.getLast?.any (· ∈ sentenceTerminators) then
    let last := py.lower ((splitText stripped).getLast?.getD [])
    if last ∈ abbreviations then false else ¬ isInitial isAlpha last
  else false

/-- SOURCE: ingest/sentence_coalescer.py:121-129 -/
structure CoalescerConfig where
  py : LowerCase
  isAlpha : Char → Bool
  sampleRate : ℕ := 16000
  pauseMs : ℤ := 1000

/-- The segments since the last boundary, the sentence id of the first of them, and the audio fed.
SOURCE: ingest/sentence_coalescer.py:131-143 -/
structure SentenceCoalescer where
  pending : List TranscriptSegment := []
  pendingSentenceId : ℤ := 0
  audioMs : ℤ := 0

namespace SentenceCoalescer

/-- SOURCE: ingest/sentence_coalescer.py:201-213 -/
def emitPending (st : SentenceCoalescer) : List TranscriptSegment × SentenceCoalescer :=
  if st.pending = [] then ([], st)
  else
    ([{ text := joinSpaced (st.pending.map TranscriptSegment.text)
        startMs := (st.pending.head?.map TranscriptSegment.startMs).getD 0
        endMs := (st.pending.getLast?.map TranscriptSegment.endMs).getD 0
        sentenceId := st.pendingSentenceId }],
      { st with pending := [], pendingSentenceId := 0 })

/-- SOURCE: ingest/sentence_coalescer.py:215-223 -/
def capReached (st : SentenceCoalescer) : Bool :=
  if maxSentenceWords ≤ (st.pending.map fun s => wordCount s.text).sum then true
  else
    2 ≤ st.pending.length ∧
      maxSentenceMs ≤ (st.pending.getLast?.map TranscriptSegment.endMs).getD 0 -
        (st.pending.head?.map TranscriptSegment.startMs).getD 0

/-- Whether a time is a pause after the last pending segment. -/
def isPause (cfg : CoalescerConfig) (st : SentenceCoalescer) (time : ℤ) : Bool :=
  st.pending.getLast?.any fun last => cfg.pauseMs ≤ time - last.endMs

/-- Take a segment to the pending ones.
SOURCE: ingest/sentence_coalescer.py:176-180 -/
def push (seg : TranscriptSegment) (st : SentenceCoalescer) : SentenceCoalescer where
  pending := st.pending ++ [seg]
  pendingSentenceId := if st.pending = [] then seg.sentenceId else st.pendingSentenceId
  audioMs := st.audioMs

/-- Take a segment, and emit if it ends a sentence or the pending ones have reached the cap.
SOURCE: ingest/sentence_coalescer.py:175-189 -/
def append (cfg : CoalescerConfig) (seg : TranscriptSegment) (st : SentenceCoalescer) :
    List TranscriptSegment × SentenceCoalescer :=
  if endsSentence cfg.py cfg.isAlpha seg.text ∨ (st.push seg).capReached then
    (st.push seg).emitPending
  else ([], st.push seg)

/-- SOURCE: ingest/sentence_coalescer.py:167-189 -/
def absorbAll (cfg : CoalescerConfig) :
    List TranscriptSegment → SentenceCoalescer → List TranscriptSegment × SentenceCoalescer
  | [], st => ([], st)
  | seg :: raw, st =>
    let paused := if isPause cfg st seg.startMs then st.emitPending else ([], st)
    let appended := append cfg seg paused.2
    let rest := absorbAll cfg raw appended.2
    (paused.1 ++ appended.1 ++ rest.1, rest.2)

/-- SOURCE: ingest/sentence_coalescer.py:165-199 -/
def absorb (cfg : CoalescerConfig) (raw : List TranscriptSegment) (finalize : Bool)
    (st : SentenceCoalescer) : List TranscriptSegment × SentenceCoalescer :=
  let absorbed := absorbAll cfg raw st
  let closed :=
    if finalize ∨ isPause cfg absorbed.2 absorbed.2.audioMs then absorbed.2.emitPending
    else ([], absorbed.2)
  (absorbed.1 ++ closed.1, closed.2)

/-- A hop, with what the streamer returns for it.
SOURCE: ingest/sentence_coalescer.py:152-156 -/
def feed (cfg : CoalescerConfig) (pcm : Bytes) (raw : List TranscriptSegment)
    (st : SentenceCoalescer) : List TranscriptSegment × SentenceCoalescer :=
  absorb cfg raw false
    { st with audioMs := st.audioMs + (pcm.length * 1000 / (cfg.sampleRate * 2) : ℕ) }

/-- SOURCE: ingest/sentence_coalescer.py:158-160 -/
def flush (cfg : CoalescerConfig) (raw : List TranscriptSegment) (st : SentenceCoalescer) :
    List TranscriptSegment × SentenceCoalescer :=
  absorb cfg raw true st

/-- The sentences of some hops, and the state after them. -/
def feedAll (cfg : CoalescerConfig) :
    List (Bytes × List TranscriptSegment) → SentenceCoalescer →
      List TranscriptSegment × SentenceCoalescer
  | [], st => ([], st)
  | hop :: hops, st =>
    ((st.feed cfg hop.1 hop.2).1 ++ (feedAll cfg hops (st.feed cfg hop.1 hop.2).2).1,
      (feedAll cfg hops (st.feed cfg hop.1 hop.2).2).2)

end SentenceCoalescer

end OpenRecall.Model
