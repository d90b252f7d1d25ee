import OpenRecall.Model.Manifest

/-!
# Video clips

Clips are started, stopped and recorded for a time by tasks of the sensor's operating system, which
share one set of static variables. A task runs up to its next access to what is shared, and then
any other task may run: a step of the model is one such access of one task. The card works, and a
frame is captured or dropped.
-/

set_option autoImplicit false

namespace OpenRecall.Model

namespace VideoCapture

/-- SOURCE: media_index.c:10-13 -/
def videoPath (bootId relTsMs seq : UInt32) : Bytes :=
  let digits (n : UInt32) := Nat.toDigits 10 n.toNat
  let text := "/sdcard/video/".toList ++ digits bootId ++ ['/'] ++
    List.replicate (10 - (digits relTsMs).length) '0' ++ digits relTsMs ++ ['_'] ++ digits seq ++
    ".mjpeg".toList
  text.map fun c => c.toNat.toUInt8

/-- The line of a clip; `118` is a `v`.
SOURCE: media_index.c:14-16, video_capture.c:135 -/
def manifestLine (path : Bytes) (relTsMs bootId : UInt32) : Manifest.Entry where
  path := path
  relTsMs := relTsMs.toNat
  bootId := bootId.toNat
  kind := 118

/-! ## Shared state -/

/-- What the tasks share: the static variables, where a task is its number and an open file the
name it was opened under; the manifest; and the tasks that have a notification to take.
SOURCE: video_capture.c:53-59 -/
structure Shared where
  recording : Bool := false
  task : Option ℕ := none
  stopWaiter : Option ℕ := none
  file : Option Bytes := none
  path : Bytes := []
  seq : UInt32 := 0
  startRelTsMs : UInt32 := 0
  manifest : List Manifest.Entry := []
  notified : List ℕ := []
  deriving DecidableEq

/-! ## Tasks -/

/-- What a call of `video_start` does next; it holds the number of its clip from `name` on.
SOURCE: video_capture.c:189-258 -/
inductive StartPc where
  | check
  | guard
  | number
  | name (seq : UInt32)
  | stamp (seq : UInt32)
  | openClip (seq : UInt32)
  | flag (seq : UInt32)
  | forget (seq : UInt32)
  | create (seq : UInt32)
  | undoFile
  | undoFlag
  deriving DecidableEq

/-- What a call of `video_stop` does next.
SOURCE: video_capture.c:260-291 -/
inductive StopPc where
  | check
  | announce
  | lower
  | drain
  | await
  | retire
  deriving DecidableEq

/-- What a `video_task` does next; it holds the task that waits for it from `release` on.
SOURCE: video_capture.c:73-165 -/
inductive FilmPc where
  | loop
  | frame
  | close
  | list
  | handOver
  | release (waiter : Option ℕ)
  | lower (waiter : Option ℕ)
  | notify (waiter : Option ℕ)
  | deleted
  deriving DecidableEq

/-- The clip that a `video_task` was created for: the task that started it, and the path and the
time it was started with. The program does not pass it on: a `video_task` reads the shared state. -/
structure Clip where
  starter : ℕ
  path : Bytes
  relTsMs : UInt32
  deriving DecidableEq

/-- A task: in `video_start`, which a `record_task` called or the handler of `start_video`; a
`record_task` in its delay; in `video_stop`, which a `record_task` called (`timed`) or a
`stop_task`; a `video_task`; or one that is over. -/
inductive RtosTask where
  | starting (record : Bool) (relTsMs : UInt32) (pc : StartPc)
  | waiting
  | stopping (timed : Bool) (pc : StopPc)
  | filming (clip : Clip) (pc : FilmPc)
  | ended
  deriving DecidableEq

/-- What one access of a task leaves: the shared state, the task, and the clip for which it
created a `video_task`. -/
structure Outcome where
  shared : Shared
  self : RtosTask
  created : Option Clip := none

/-- What follows a call of `video_start`: a `record_task` goes on when it succeeded.
SOURCE: video_capture.c:175-182 -/
def afterStart (record ok : Bool) : RtosTask := if record && ok then .waiting else .ended

/-- A step of `video_start` in the task `me`. A task that it creates gets the number `fresh`, and
`ok` tells whether the system can create it.
SOURCE: video_capture.c:189-258 -/
def videoStart (bootId : UInt32) (sh : Shared) (me fresh : ℕ) (ok record : Bool)
    (relTsMs : UInt32) : StartPc → Outcome
  | .check =>
    -- a clip is already being recorded: ignored, and reported as a success
    if sh.recording then ⟨sh, afterStart record true, none⟩
    else ⟨sh, .starting record relTsMs .guard, none⟩
  | .guard =>
    if sh.task.isSome then ⟨sh, afterStart record false, none⟩
    else ⟨sh, .starting record relTsMs .number, none⟩
  | .number => ⟨{ sh with seq := sh.seq + 1 }, .starting record relTsMs (.name sh.seq), none⟩
  | .name seq =>
    ⟨{ sh with path := videoPath bootId relTsMs seq }, .starting record relTsMs (.stamp seq), none⟩
  | .stamp seq =>
    ⟨{ sh with startRelTsMs := relTsMs }, .starting record relTsMs (.openClip seq), none⟩
  | .openClip seq => ⟨{ sh with file := some sh.path }, .starting record relTsMs (.flag seq), none⟩
  | .flag seq => ⟨{ sh with recording := true }, .starting record relTsMs (.forget seq), none⟩
  | .forget seq => ⟨{ sh with stopWaiter := none }, .starting record relTsMs (.create seq), none⟩
  | .create seq =>
    if ok then
      ⟨{ sh with task := some fresh }, afterStart record true,
        some ⟨me, videoPath bootId relTsMs seq, relTsMs⟩⟩
    else ⟨sh, .starting record relTsMs .undoFile, none⟩
  | .undoFile => ⟨{ sh with file := none }, .starting record relTsMs .undoFlag, none⟩
  | .undoFlag => ⟨{ sh with recording := false }, afterStart record false, none⟩

/-- A step of `video_stop` in the task `me`. Its wait ends with a notification or, when `ok` is
false, because five seconds have passed.
SOURCE: video_capture.c:260-291 -/
def videoStop (sh : Shared) (me : ℕ) (ok timed : Bool) : StopPc → Outcome
  | .check => if sh.recording then ⟨sh, .stopping timed .announce, none⟩ else ⟨sh, .ended, none⟩
  | .announce => ⟨{ sh with stopWaiter := some me }, .stopping timed .lower, none⟩
  | .lower => ⟨{ sh with recording := false }, .stopping timed .drain, none⟩
  | .drain => ⟨{ sh with notified := sh.notified.filter (· ≠ me) }, .stopping timed .await, none⟩
  | .await =>
    if ok then
      if me ∈ sh.notified then
        ⟨{ sh with notified := sh.notified.filter (· ≠ me) }, .stopping timed .retire, none⟩
      else ⟨sh, .stopping timed .await, none⟩
    else ⟨sh, .stopping timed .retire, none⟩
  | .retire => ⟨{ sh with stopWaiter := none }, .ended, none⟩

/-- A step of the `video_task` `me`. The line it lists is made of what is shared.
SOURCE: video_capture.c:73-165 -/
def videoTask (bootId : UInt32) (sh : Shared) (me : ℕ) (clip : Clip) : FilmPc → Outcome
  | .loop => ⟨sh, .filming clip (if sh.recording then .frame else .close), none⟩
  | .frame => ⟨sh, .filming clip .loop, none⟩
  | .close => ⟨{ sh with file := none }, .filming clip .list, none⟩
  | .list =>
    ⟨{ sh with manifest := sh.manifest ++ [manifestLine sh.path sh.startRelTsMs bootId] },
      .filming clip .handOver, none⟩
  | .handOver => ⟨sh, .filming clip (.release sh.stopWaiter), none⟩
  | .release waiter =>
    -- only the task that owns the handle clears it
    ⟨{ sh with task := if sh.task = some me then none else sh.task }, .filming clip (.lower waiter),
      none⟩
  | .lower waiter => ⟨{ sh with recording := false }, .filming clip (.notify waiter), none⟩
  | .notify waiter =>
    ⟨{ sh with notified := waiter.toList ++ sh.notified }, .filming clip .deleted, none⟩
  | .deleted => ⟨sh, .filming clip .deleted, none⟩

/-- One access of a task; what is over does nothing. After its delay a `record_task` stops.
SOURCE: video_capture.c:173-186 -/
def RtosTask.next (bootId : UInt32) (sh : Shared) (me fresh : ℕ) (ok : Bool) : RtosTask → Outcome
  | .starting record relTsMs pc => videoStart bootId sh me fresh ok record relTsMs pc
  | .waiting => ⟨sh, .stopping true .check, none⟩
  | .stopping timed pc => videoStop sh me ok timed pc
  | .filming clip pc => videoTask bootId sh me clip pc
  | .ended => ⟨sh, .ended, none⟩

/-! ## Runs -/

/-- The shared state and all tasks there have been, by their numbers. -/
structure State where
  shared : Shared := {}
  tasks : List RtosTask := []
  deriving DecidableEq

/-- A command arrives, or a task makes its next access. -/
inductive Event where
  | startVideo (relTsMs : UInt32)
  | stopVideo
  | recordVideo (relTsMs : UInt32)
  | run (task : ℕ) (ok : Bool)
  deriving DecidableEq

def State.spawn (s : State) (task : RtosTask) : State := { s with tasks := s.tasks ++ [task] }

/-- The state after an access of the task `t`. -/
def State.after (s : State) (t : ℕ) (o : Outcome) : State where
  shared := o.shared
  tasks := s.tasks.set t o.self ++ (o.created.map (RtosTask.filming · .loop)).toList

/-- SOURCE: executor.c:54-62, video_capture.c:302-349 -/
def step (bootId : UInt32) (s : State) : Event → State
  | .startVideo relTsMs => s.spawn (.starting false relTsMs .check)
  | .stopVideo => s.spawn (.stopping false .check)
  | .recordVideo relTsMs => s.spawn (.starting true relTsMs .check)
  | .run t ok =>
    match s.tasks[t]? with
    | some task => s.after t (task.next bootId s.shared t s.tasks.length ok)
    | none => s

end VideoCapture

end OpenRecall.Model
