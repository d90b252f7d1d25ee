import OpenRecall.Model.StreamingTranscriber
import OpenRecall.Foundation.TrailingRun

/-!
# The utterance transcriber

Audio is gathered until it ends in enough exact zeros, which are the fill for gaps, or until it is
too long. Then the whole utterance is transcribed once, unless too little of it is audible.
-/

set_option autoImplicit false

namespace OpenRecall.Model

open Foundation

/-- SOURCE: ingest/utterance_transcriber.py:62-64 -/
def audibleEpsilon : ℤ := 32

/-- SOURCE: ingest/utterance_transcriber.py:79-96 -/
structure UtteranceConfig where
  transcribe : Bytes → ℕ → List Token
  sampleRate : ℕ := 16000
  hopMs : ℕ := 240
  endSilenceMs : ℕ := 560
  minSpeechMs : ℕ := 240
  maxUtteranceMs : ℕ := 20000

namespace UtteranceConfig

def bytesPerMs (cfg : UtteranceConfig) : ℕ := cfg.sampleRate * 2 / 1000

def endSilenceBytes (cfg : UtteranceConfig) : ℕ := cfg.endSilenceMs * cfg.bytesPerMs

def maxUtteranceBytes (cfg : UtteranceConfig) : ℕ := cfg.maxUtteranceMs * cfg.bytesPerMs

end UtteranceConfig

/-- SOURCE: ingest/utterance_transcriber.py:97-110 -/
structure UtteranceTranscriber where
  buffer : Bytes := []
  trailingZeros : ℕ := 0
  fedMs : ℕ := 0
  utteranceStartMs : ℕ := 0
  lastUtterancePcm : Option Bytes := none

namespace UtteranceTranscriber

/-- SOURCE: ingest/utterance_transcriber.py:67-73 -/
def trailingZeroBytes (pcm : Bytes) : ℕ := TrailingRun.trailing (· = 0) pcm

/-- SOURCE: ingest/utterance_transcriber.py:145-151 -/
def audibleMs (cfg : UtteranceConfig) (pcm : Bytes) : ℕ :=
  (StreamingTranscriber.samples pcm).countP (fun s => audibleEpsilon < s ∨ s < -audibleEpsilon) *
    1000 / cfg.sampleRate

/-- The segments of an utterance: none when too little is audible, else one for each sentence that
has a text.
SOURCE: ingest/utterance_transcriber.py:159-184 -/
def utteranceSegments (cfg : UtteranceConfig) (startMs : ℕ) (pcm : Bytes) :
    List TranscriptSegment :=
  if pcm = [] then []
  else if audibleMs cfg pcm < cfg.minSpeechMs then []
  else
    ((groupBySentenceId (cfg.transcribe pcm cfg.sampleRate)).filter fun group =>
        stripText (StreamingTranscriber.textOf group.2) ≠ []).map fun group =>
      { StreamingTranscriber.segmentOf group with
        startMs := startMs + (StreamingTranscriber.segmentOf group).startMs
        endMs := startMs + (StreamingTranscriber.segmentOf group).endMs }

/-- SOURCE: ingest/utterance_transcriber.py:153-184 -/
def closeUtterance (cfg : UtteranceConfig) (st : UtteranceTranscriber) :
    List TranscriptSegment × UtteranceTranscriber :=
  (utteranceSegments cfg st.utteranceStartMs st.buffer,
    { buffer := []
      trailingZeros := 0
      fedMs := st.fedMs
      utteranceStartMs := st.fedMs
      lastUtterancePcm :=
        if st.buffer = [] ∨ audibleMs cfg st.buffer < cfg.minSpeechMs then st.lastUtterancePcm
        else some st.buffer })

/-- Take audio to the buffer and count the zeros at its end.
SOURCE: ingest/utterance_transcriber.py:120-128 -/
def take (cfg : UtteranceConfig) (pcm : Bytes) (st : UtteranceTranscriber) :
    UtteranceTranscriber where
  buffer := st.buffer ++ pcm
  trailingZeros :=
    if trailingZeroBytes pcm = pcm.length then st.trailingZeros + trailingZeroBytes pcm
    else trailingZeroBytes pcm
  fedMs := st.fedMs + pcm.length / cfg.bytesPerMs
  utteranceStartMs := if st.buffer = [] then st.fedMs else st.utteranceStartMs
  lastUtterancePcm := st.lastUtterancePcm

/-- Whether an utterance ends here.
SOURCE: ingest/utterance_transcriber.py:130-136 -/
def isEnd (cfg : UtteranceConfig) (st : UtteranceTranscriber) : Bool :=
  cfg.maxUtteranceBytes ≤ st.buffer.length ∨
    cfg.endSilenceBytes ≤ st.trailingZeros ∧ st.trailingZeros < st.buffer.length

/-- SOURCE: ingest/utterance_transcriber.py:117-137 -/
def feed (cfg : UtteranceConfig) (pcm : Bytes) (st : UtteranceTranscriber) :
    List TranscriptSegment × UtteranceTranscriber :=
  if pcm = [] then ([], st)
  else if (st.take cfg pcm).isEnd cfg then (st.take cfg pcm).closeUtterance cfg
  else ([], st.take cfg pcm)

/-- SOURCE: ingest/utterance_transcriber.py:139-141 -/
def flush (cfg : UtteranceConfig) (st : UtteranceTranscriber) :
    List TranscriptSegment × UtteranceTranscriber :=
  st.closeUtterance cfg

/-- The segments of some feeds, and the state after them. -/
def feedAll (cfg : UtteranceConfig) :
    List Bytes → UtteranceTranscriber → List TranscriptSegment × UtteranceTranscriber
  | [], st => ([], st)
  | pcm :: feeds, st =>
    ((st.feed cfg pcm).1 ++ (feedAll cfg feeds (st.feed cfg pcm).2).1,
      (feedAll cfg feeds (st.feed cfg pcm).2).2)

end UtteranceTranscriber

end OpenRecall.Model
