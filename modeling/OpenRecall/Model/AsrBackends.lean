import OpenRecall.Model.StreamingTranscriber

/-!
# The speech recognition backends

A backend's answer is made into words with their times. Of Whisper's segments those that it made up
are left out: what it takes for silence or is unsure of, a word said over and over, a short phrase
that it is known to hear in noise. Parakeet's pieces of words are put together.

The model's answer is an argument, and so is how a number of seconds is rounded to milliseconds; none
stands for a number that is too large, which raises.
-/

set_option autoImplicit false

namespace OpenRecall.Model

open Foundation

namespace AsrBackends

/-- SOURCE: ingest/whisper_streaming.py:40-49, ingest/parakeet_streaming.py:67-76 -/
def secondsToMs (msOf : ℚ → Option ℤ) : Option Double → Option ℤ
  | none | some .nan | some (.infinite true) => some 0
  | some (.infinite false) => none
  | some (.finite q) => if q < 0 then some 0 else msOf q

/-! ## Whisper -/

/-- A word of a segment, as either of the two Whisper libraries gives it. -/
structure AsrWord where
  text : Text
  start : Option Double
  finish : Option Double

structure AsrSegment where
  text : Text := []
  noSpeechProb : Option Double := none
  avgLogprob : Option Double := none
  compressionRatio : Option Double := none
  words : List AsrWord := []

/-- SOURCE: ingest/whisper_streaming.py:182-190 -/
structure FilterConfig where
  noSpeechThreshold : ℚ
  logprobThreshold : ℚ
  compressionRatioThreshold : ℚ
  blocklistEnabled : Bool := true
  maxWords : ℤ := 4
  phrases : Option (List Text) := none

/-- The punctuation that is stripped of a word: without the curly quotes. -/
def wordPunctuation : List Char :=
  ['.', ',', '!', '?', ';', ':', '\'', '"', '-', '(', ')', '[', ']', '{', '}']

variable (py : LowerCase)

/-- SOURCE: ingest/whisper_streaming.py:71-74 -/
def normalizeWord (text : Text) : Text :=
  SpacedWords.trim (· ∈ wordPunctuation) (py.lower (stripText text))

/-- SOURCE: ingest/whisper_streaming.py:153-162 -/
def normalizePhrase (text : Text) : Text :=
  joinSpaced (splitText (SpacedWords.trim (· ∈ punctuation) (py.lower (stripText text))))

/-- The longest run of one word, which goes on from the word before.
SOURCE: ingest/whisper_streaming.py:88-98 -/
def longestRun (previous : Text) (run maxRun : ℕ) : List Text → ℕ
  | [] => maxRun
  | text :: rest =>
    if text ≠ [] ∧ text = previous then longestRun text (run + 1) (max maxRun (run + 1)) rest
    else longestRun text 1 maxRun rest

/-- SOURCE: ingest/whisper_streaming.py:66-68 -/
def minRun : ℕ := 5

def minTokens : ℕ := 6

/-- SOURCE: ingest/whisper_streaming.py:77-106 -/
def textsAreHallucinatedRepetition (texts : List Text) : Bool :=
  match texts.map (normalizeWord py) with
  | [] => false
  | first :: rest =>
    minRun ≤ longestRun first 1 1 rest ∨
      minTokens ≤ (first :: rest).length ∧
        2 * ((first :: rest).filter (· ≠ [])).dedup.length < (first :: rest).length

/-- SOURCE: ingest/whisper_streaming.py:139-150 -/
def defaultPhrases : List Text :=
  ["thank you", "thanks for watching", "thank you for watching", "thanks for listening",
    "thank you for listening", "please subscribe", "please consider subscribing", "subscribe",
    "by amara", "amara"].map String.toList

/-- A short segment that is a known phrase.
SOURCE: ingest/whisper_streaming.py:165-179, 254-264 -/
def isBlocked (cfg : FilterConfig) (seg : AsrSegment) : Bool :=
  let count := if seg.words = [] then wordCount seg.text else seg.words.length
  cfg.blocklistEnabled ∧ count ≤ cfg.maxWords ∧
    normalizePhrase py seg.text ∈ (cfg.phrases.getD defaultPhrases).map (normalizePhrase py)

/-- The segment is taken for speech.
SOURCE: ingest/whisper_streaming.py:229-264, ingest/faster_whisper_streaming.py:168-196 -/
def isSpeech (cfg : FilterConfig) (seg : AsrSegment) : Bool :=
  ¬ (seg.noSpeechProb.any fun p => p.gt cfg.noSpeechThreshold) ∧
    ¬ (seg.avgLogprob.any fun p => p.lt cfg.logprobThreshold) ∧
    ¬ (seg.compressionRatio.any fun r => r.gt cfg.compressionRatioThreshold) ∧
    textsAreHallucinatedRepetition py ((seg.words.map AsrWord.text).filter (· ≠ [])) = false ∧
    isBlocked py cfg seg = false

/-- A piece of a word; one that begins with a space begins a word. -/
structure Piece where
  text : Text
  start : Option Double
  finish : Option Double

/-- The words so far, and the one under way. -/
structure Merging where
  words : List Token := []
  text : Text := []
  start : Option ℤ := none
  finish : ℤ := 0

namespace Merging

/-- SOURCE: ingest/parakeet_streaming.py:112-122 -/
def flush (sentenceId : ℤ) (m : Merging) : Merging where
  words :=
    match m.start with
    | some start =>
      if stripText m.text ≠ [] ∧ start < m.finish then
        m.words ++ [⟨stripText m.text, start, m.finish, sentenceId⟩]
      else m.words
    | none => m.words

/-- SOURCE: ingest/parakeet_streaming.py:124-139 -/
def add (msOf : ℚ → Option ℤ) (sentenceId : ℤ) (m : Merging) (piece : Piece) : Option Merging :=
  if piece.text = [] then some m
  else do
    let startMs ← secondsToMs msOf piece.start
    let endMs ← secondsToMs msOf piece.finish
    let m := if piece.text.head?.any isSpace ∧ m.text ≠ [] then m.flush sentenceId else m
    return { m with
      text := m.text ++ piece.text
      start := m.start.or (some startMs)
      finish := max m.finish endMs }

end Merging

/-- SOURCE: ingest/parakeet_streaming.py:79-140 -/
def alignedTokensToTokens (msOf : ℚ → Option ℤ) (sentenceId : ℤ) (pieces : List Piece) :
    Option (List Token) := do
  let m ← pieces.foldlM (Merging.add msOf sentenceId) {}
  return (m.flush sentenceId).words

/-- The tokens of the sentences from the given number on. -/
def sentenceTokens (msOf : ℚ → Option ℤ) : ℕ → List (List Piece) → Option (List Token)
  | _, [] => some []
  | i, pieces :: rest => do
    let tokens ← alignedTokensToTokens msOf (i + 1) pieces
    let more ← sentenceTokens msOf (i + 1) rest
    return tokens ++ more

/-- A result has sentences, or only pieces.
SOURCE: ingest/parakeet_streaming.py:143-170 -/
def resultToTokens (msOf : ℚ → Option ℤ) (sentences : List (List Piece))
    (pieces : Option (List Piece)) : Option (List Token) :=
  if sentences ≠ [] then sentenceTokens msOf 0 sentences
  else alignedTokensToTokens msOf 0 (pieces.getD [])

end AsrBackends

end OpenRecall.Model
