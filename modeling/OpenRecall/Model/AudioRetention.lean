import OpenRecall.Foundation.Run
import OpenRecall.Model.AudioStore
import OpenRecall.Model.Settings

/-!
# The retention sweep over recorded audio

The sweeper lists the logs, and deletes those not written to for longer than the retention
window. It deletes by the name of the file, which it takes for a session id. The time a file
was last written to comes from the file system, and is a parameter.
-/

set_option autoImplicit false

namespace OpenRecall.Model

open Foundation

/-- SOURCE: media/retention.py:26 -/
def secondsPerDay : ℤ := 86400

namespace AudioStore

section

variable (isAlnum : Char → Bool) (cutoff : Time) (mtime : String → Time)

/-- A log that is there and was not written to after the cutoff.
SOURCE: media/retention.py:61-64 -/
def Expired (sessionId : String) (st : AudioStore) : Prop :=
  (st.log? isAlnum sessionId).isSome ∧ mtime (safe isAlnum sessionId) ≤ cutoff

instance (sessionId : String) (st : AudioStore) :
    Decidable (Expired isAlnum cutoff mtime sessionId st) :=
  inferInstanceAs (Decidable (_ ∧ _))

/-- One turn of the sweep, with the sessions swept so far.
SOURCE: media/retention.py:61-68 -/
def sweepSession (turn : List String × AudioStore) (sessionId : String) :
    List String × AudioStore :=
  if Expired isAlnum cutoff mtime sessionId turn.2 then
    (turn.1 ++ [sessionId], (turn.2.delete isAlnum sessionId).2)
  else turn

end

/-- The last moment of writing that is too old.
SOURCE: media/retention.py:58 -/
def cutoffOf (retention : RetentionSettings) (now : Time) : Time :=
  now - (retention.audioDays : ℕ) * secondsPerDay * 1000000

/-- The sessions swept, and what is left; a window of no days turns the sweep off.
SOURCE: media/retention.py:53-74 -/
def sweepOnce (isAlnum : Char → Bool) (retention : RetentionSettings) (now : Time)
    (mtime : String → Time) (st : AudioStore) : List String × AudioStore :=
  if retention.audioDays = 0 then ([], st)
  else run (sweepSession isAlnum (cutoffOf retention now) mtime) ([], st) st.sessions

end AudioStore

end OpenRecall.Model
