import OpenRecall.Model.VideoCapture
import OpenRecall.Foundation.Run
import OpenRecall.Foundation.TaskTable

/-!
# Whose clip ends

A `record_task` starts a clip, waits and stops whatever is being recorded then. A start that finds a
clip being recorded is reported as a success, so the clip of another may be what it stops; and a
clip that is started while another start is under way, or while a `record_task` has its stop to
come, may be stopped for another or listed as another.

When no start does so, the timed stops end only the clips of their own tasks, and the manifest has
one line for each clip whose file is closed, with the path and the time of that clip.
-/

set_option autoImplicit false

namespace OpenRecall.Analysis

namespace ClipOwnership

open Foundation OpenRecall.Model OpenRecall.Model.VideoCapture
open Foundation.TaskTable

variable {bootId : UInt32}

/-! ## Ownership -/

/-- The task that started the clip that the task `t` records, or is about to have recorded. -/
def underWay (t : ℕ) : RtosTask → Option ℕ
  | .filming clip .loop => some clip.starter
  | .filming clip .frame => some clip.starter
  | .starting _ _ (.forget _) => some t
  | .starting _ _ (.create _) => some t
  | _ => none

/-- A timed stop ends only the clip that its own task started. -/
def EndsOwn (s : State) (e : Event) : Prop :=
  ∀ t ok, e = .run t ok → s.tasks[t]? = some (.stopping true .lower) →
    ∀ i task, s.tasks[i]? = some task → ∀ starter, underWay i task = some starter → starter = t

/-- A `video_task` that has not yet listed its clip. -/
def unlistedPc : FilmPc → Bool
  | .loop | .frame | .close | .list => true
  | _ => false

/-- The line of a clip whose file is closed and that has been listed. -/
def ownLine (bootId : UInt32) : RtosTask → Option Manifest.Entry
  | .filming clip pc =>
    if unlistedPc pc then none else some (manifestLine clip.path clip.relTsMs bootId)
  | _ => none

/-- The manifest has a line for each finished clip, with its path and its time, and no other. -/
def Listed (bootId : UInt32) (s : State) : Prop :=
  s.shared.manifest.Perm (s.tasks.filterMap (ownLine bootId))

/-! ## The condition -/

/-- A call of `video_start` that has found no clip being recorded and no `video_task`. -/
def inside : RtosTask → Bool
  | .starting _ _ .check | .starting _ _ .guard => false
  | .starting _ _ _ => true
  | _ => false

/-- A `record_task` with its stop to come. -/
def timed : RtosTask → Bool
  | .waiting => true
  | .stopping true .check | .stopping true .announce | .stopping true .lower => true
  | _ => false

/-- The task whose turn it is. -/
def turn (s : State) : Event → Option RtosTask
  | .run t _ => s.tasks[t]?
  | _ => none

/-- A `record_task` that looks whether a clip is being recorded. -/
def recordChecks : RtosTask → Bool
  | .starting true _ .check => true
  | _ => false

/-- A call of `video_start` that looks whether there is a `video_task`. -/
def guards : RtosTask → Bool
  | .starting _ _ .guard => true
  | _ => false

/-- A `record_task` does not find a clip being recorded, and a start does not find its way free
while another start is under way or a `record_task` has its stop to come. -/
def Undisturbed (s : State) (e : Event) : Prop :=
  ∀ task ∈ turn s e, (recordChecks task → s.shared.recording = false) ∧
    (guards task → s.shared.task = none →
      ∀ other ∈ s.tasks, inside other = false ∧ timed other = false)

instance (s : State) (e : Event) : Decidable (Undisturbed s e) :=
  inferInstanceAs (Decidable (∀ task ∈ turn s e, _))

/-! ## The invariant -/

/-- The clip of a `video_task` that has not yet given its handle back. -/
def holding : RtosTask → Option Clip
  | .filming _ (.lower _) | .filming _ (.notify _) | .filming _ .deleted => none
  | .filming clip _ => some clip
  | _ => none

/-- The clip of a `video_task` that is still to be listed. -/
def unlisted : RtosTask → Option Clip
  | .filming clip pc => if unlistedPc pc then some clip else none
  | _ => none

/-- The path that a call of `video_start` has set. -/
def named (bootId : UInt32) : RtosTask → Option Bytes
  | .starting _ relTsMs (.stamp seq) | .starting _ relTsMs (.openClip seq)
  | .starting _ relTsMs (.flag seq) | .starting _ relTsMs (.forget seq)
  | .starting _ relTsMs (.create seq) => some (videoPath bootId relTsMs seq)
  | _ => none

/-- The time that a call of `video_start` has set. -/
def stamped : RtosTask → Option UInt32
  | .starting _ relTsMs (.openClip _) | .starting _ relTsMs (.flag _)
  | .starting _ relTsMs (.forget _) | .starting _ relTsMs (.create _) => some relTsMs
  | _ => none

/-- Starts come one at a time and not beside a timed stop; the handle is that of the one
`video_task` that has not given it back, and then no start is past its guard; what is shared is what
the clip to be listed was started with; and with a timed stop to come, that clip is the task's own.
-/
structure Owned (bootId : UInt32) (sh : Shared) (tasks : ℕ → RtosTask) : Prop where
  inside_unique : ∀ i j, inside (tasks i) → inside (tasks j) → i = j
  not_timed : ∀ i j, inside (tasks i) → timed (tasks j) = false
  holder : ∀ i clip, holding (tasks i) = some clip → sh.task = some i
  guarded : ∀ i j, inside (tasks i) → holding (tasks j) = none
  current : ∀ i clip, unlisted (tasks i) = some clip →
    sh.path = clip.path ∧ sh.startRelTsMs = clip.relTsMs
  path_named : ∀ i path, named bootId (tasks i) = some path → sh.path = path
  time_stamped : ∀ i relTsMs, stamped (tasks i) = some relTsMs → sh.startRelTsMs = relTsMs
  own : ∀ i j clip, timed (tasks i) → holding (tasks j) = some clip → clip.starter = i

/-- A task that takes nothing up: what is said of it after a step was said of it before. -/
structure Quiet (bootId : UInt32) (old new : RtosTask) : Prop where
  inside : inside new → inside old
  timed : timed new → timed old
  holding : ∀ clip, holding new = some clip → holding old = some clip
  unlisted : ∀ clip, unlisted new = some clip → unlisted old = some clip
  named : ∀ path, named bootId new = some path → named bootId old = some path
  stamped : ∀ relTsMs, stamped new = some relTsMs → stamped old = some relTsMs

theorem Quiet.refl (task : RtosTask) : Quiet bootId task task :=
  ⟨id, id, fun _ => id, fun _ => id, fun _ => id, fun _ => id⟩

/-- A clip that is to be listed is one whose task holds the handle. -/
theorem holding_of_unlisted {task : RtosTask} {clip : Clip} (h : unlisted task = some clip) :
    holding task = some clip := by
  cases task with
  | filming c pc => cases pc <;> simp_all [unlisted, unlistedPc, holding]
  | _ => simp [unlisted] at h

section Steps

variable {sh : Shared} {tasks : ℕ → RtosTask} {t : ℕ} {task : RtosTask}

/-- **Quiet steps**: a task takes nothing up, and the handle, the path and the time stay. -/
theorem Owned.quiet (h : Owned bootId sh tasks) (sh' : Shared) (hq : Quiet bootId (tasks t) task)
    (htask : sh'.task = sh.task) (hpath : sh'.path = sh.path)
    (htime : sh'.startRelTsMs = sh.startRelTsMs) :
    Owned bootId sh' (Function.update tasks t task) := by
  have hall : ∀ i, Quiet bootId (tasks i) (Function.update tasks t task i) := by
    intro i
    by_cases hi : i = t
    · subst hi
      simpa using hq
    · rw [Function.update_of_ne hi]
      exact Quiet.refl _
  constructor
  · exact fun i j hi hj => h.inside_unique i j ((hall i).inside hi) ((hall j).inside hj)
  · intro i j hi
    have hj := h.not_timed i j ((hall i).inside hi)
    by_contra hne
    exact absurd ((hall j).timed (by simpa using hne)) (by simp [hj])
  · exact fun i clip hi => htask.trans (h.holder i clip ((hall i).holding clip hi))
  · intro i j hi
    have hj := h.guarded i j ((hall i).inside hi)
    cases hnew : holding (Function.update tasks t task j) with
    | none => rfl
    | some clip => exact absurd ((hall j).holding clip hnew) (by simp [hj])
  · intro i clip hi
    rw [hpath, htime]
    exact h.current i clip ((hall i).unlisted clip hi)
  · exact fun i path hi => hpath.trans (h.path_named i path ((hall i).named path hi))
  · exact fun i time hi => htime.trans (h.time_stamped i time ((hall i).stamped time hi))
  · exact fun i j clip hi hj => h.own i j clip ((hall i).timed hi) ((hall j).holding clip hj)

/-- The guard is passed when no task holds the handle, no start is under way and no timed stop is
to come. -/
theorem Owned.pass_guard {record : Bool} {relTsMs : UInt32} (h : Owned bootId sh tasks)
    (htask : sh.task = none) (hfree : ∀ i, inside (tasks i) = false ∧ timed (tasks i) = false) :
    Owned bootId sh (Function.update tasks t (.starting record relTsMs .number)) := by
  have hnew : ∀ i, Function.update tasks t (.starting record relTsMs .number) i =
      if i = t then .starting record relTsMs .number else tasks i := Function.update_apply tasks t _
  have hheld : ∀ i, holding (tasks i) = none := by
    intro i
    cases hi : holding (tasks i) with
    | none => rfl
    | some clip => exact absurd (h.holder i clip hi) (by simp [htask])
  constructor
  all_goals simp only [hnew]
  case inside_unique => grind
  case not_timed => grind [timed]
  case holder => grind [holding]
  case guarded => grind [holding]
  case current => grind [unlisted, h.current]
  case path_named => grind [named, h.path_named]
  case time_stamped => grind [stamped, h.time_stamped]
  case own => grind [timed, holding]

/-- Only one start has set the path or the time. -/
theorem Owned.of_named (h : Owned bootId sh tasks) (hself : inside (tasks t)) {i : ℕ}
    (hi : i ≠ t) : named bootId (tasks i) = none ∧ stamped (tasks i) = none := by
  have hout : inside (tasks i) = false := by
    by_contra hin
    exact hi (h.inside_unique i t (by simpa using hin) hself)
  generalize tasks i = other at hout
  cases other with
  | starting record relTsMs pc => cases pc <;> simp_all [inside, named, stamped]
  | _ => exact ⟨rfl, rfl⟩

/-- While a start is under way no clip is left to be listed. -/
theorem Owned.unlisted_none (h : Owned bootId sh tasks) (hself : inside (tasks t)) (i : ℕ) :
    unlisted (tasks i) = none := by
  cases hi : unlisted (tasks i) with
  | none => rfl
  | some clip => exact absurd (holding_of_unlisted hi) (by simp [h.guarded t i hself])

theorem Owned.name {record : Bool} {relTsMs seq : UInt32} (h : Owned bootId sh tasks)
    (hself : tasks t = .starting record relTsMs (.name seq)) :
    Owned bootId { sh with path := videoPath bootId relTsMs seq }
      (Function.update tasks t (.starting record relTsMs (.stamp seq))) := by
  have hnew : ∀ i, Function.update tasks t (.starting record relTsMs (.stamp seq)) i =
      if i = t then .starting record relTsMs (.stamp seq) else tasks i :=
    Function.update_apply tasks t _
  have hin : inside (tasks t) := by simp [hself, inside]
  have hlisted := h.unlisted_none hin
  have hothers : ∀ i, i ≠ t → named bootId (tasks i) = none ∧ stamped (tasks i) = none :=
    fun i => h.of_named hin
  constructor
  all_goals simp only [hnew]
  case inside_unique => grind [h.inside_unique]
  case not_timed => grind [h.not_timed, timed]
  case holder => grind [holding, h.holder]
  case guarded => grind [h.guarded, holding]
  case current => grind [unlisted]
  case path_named => grind [named]
  case time_stamped => grind [stamped]
  case own => grind [timed, holding, h.own]

theorem Owned.stamp {record : Bool} {relTsMs seq : UInt32} (h : Owned bootId sh tasks)
    (hself : tasks t = .starting record relTsMs (.stamp seq)) :
    Owned bootId { sh with startRelTsMs := relTsMs }
      (Function.update tasks t (.starting record relTsMs (.openClip seq))) := by
  have hnew : ∀ i, Function.update tasks t (.starting record relTsMs (.openClip seq)) i =
      if i = t then .starting record relTsMs (.openClip seq) else tasks i :=
    Function.update_apply tasks t _
  have hin : inside (tasks t) := by simp [hself, inside]
  have hlisted := h.unlisted_none hin
  have hothers : ∀ i, i ≠ t → named bootId (tasks i) = none ∧ stamped (tasks i) = none :=
    fun i => h.of_named hin
  have hpath : sh.path = videoPath bootId relTsMs seq := h.path_named t _ (by simp [hself, named])
  constructor
  all_goals simp only [hnew]
  case inside_unique => grind [h.inside_unique]
  case not_timed => grind [h.not_timed, timed]
  case holder => grind [holding, h.holder]
  case guarded => grind [h.guarded, holding]
  case current => grind [unlisted]
  case path_named => grind [named]
  case time_stamped => grind [stamped]
  case own => grind [timed, holding, h.own]

theorem Owned.create {record : Bool} {relTsMs seq : UInt32} {fresh : ℕ}
    (h : Owned bootId sh tasks) (hself : tasks t = .starting record relTsMs (.create seq))
    (hfresh : tasks fresh = .ended) :
    Owned bootId { sh with task := some fresh }
      (Function.update (Function.update tasks t (afterStart record true)) fresh
        (.filming ⟨t, videoPath bootId relTsMs seq, relTsMs⟩ .loop)) := by
  have hne : fresh ≠ t := by
    rintro rfl
    simp [hself] at hfresh
  have hnew : ∀ i, Function.update (Function.update tasks t (afterStart record true)) fresh
      (.filming ⟨t, videoPath bootId relTsMs seq, relTsMs⟩ .loop) i =
      if i = fresh then .filming ⟨t, videoPath bootId relTsMs seq, relTsMs⟩ .loop
      else if i = t then afterStart record true else tasks i := by
    intro i
    rw [Function.update_apply, Function.update_apply]
  have hin : inside (tasks t) := by simp [hself, inside]
  have hlisted := h.unlisted_none hin
  have hheld : ∀ i, holding (tasks i) = none := fun i => h.guarded t i hin
  have hothers : ∀ i, i ≠ t → named bootId (tasks i) = none ∧ stamped (tasks i) = none :=
    fun i => h.of_named hin
  have hout : ∀ i, i ≠ t → inside (tasks i) = false := by
    intro i hi
    by_contra hin'
    exact hi (h.inside_unique i t (by simpa using hin') hin)
  have huntimed : ∀ i, timed (tasks i) = false := fun i => h.not_timed t i hin
  have hpath : sh.path = videoPath bootId relTsMs seq := h.path_named t _ (by simp [hself, named])
  have htime : sh.startRelTsMs = relTsMs := h.time_stamped t _ (by simp [hself, stamped])
  have hafter : inside (afterStart record true) = false ∧
      holding (afterStart record true) = none ∧ unlisted (afterStart record true) = none ∧
      named bootId (afterStart record true) = none ∧ stamped (afterStart record true) = none := by
    cases record <;> exact ⟨rfl, rfl, rfl, rfl, rfl⟩
  constructor
  all_goals simp only [hnew]
  case inside_unique => grind [inside]
  case not_timed => grind [inside]
  case holder => grind [holding]
  case guarded => grind [inside]
  case current => grind [unlisted]
  case path_named => grind [named]
  case time_stamped => grind [stamped]
  case own => grind [timed, holding]

theorem Owned.release {clip : Clip} {waiter : Option ℕ} (h : Owned bootId sh tasks)
    (hself : tasks t = .filming clip (.release waiter)) :
    Owned bootId { sh with task := if sh.task = some t then none else sh.task }
      (Function.update tasks t (.filming clip (.lower waiter))) := by
  have hnew : ∀ i, Function.update tasks t (.filming clip (.lower waiter)) i =
      if i = t then .filming clip (.lower waiter) else tasks i := Function.update_apply tasks t _
  have htask : sh.task = some t := h.holder t clip (by simp [hself, holding])
  constructor
  all_goals simp only [hnew]
  case inside_unique => grind [inside, h.inside_unique]
  case not_timed => grind [inside, h.not_timed, timed]
  case holder => grind [holding, h.holder]
  case guarded => grind [inside, h.guarded, holding]
  case current => grind [unlisted, unlistedPc, h.current]
  case path_named => grind [named, h.path_named]
  case time_stamped => grind [stamped, h.time_stamped]
  case own => grind [timed, holding, h.own]

end Steps

/-! ## A step -/

theorem quiet_videoStop (sh : Shared) (me : ℕ) (ok : Bool) (byRecord : Bool) (pc : StopPc) :
    Quiet bootId (.stopping byRecord pc) (videoStop sh me ok byRecord pc).self := by
  cases pc <;> cases byRecord <;> simp only [videoStop] <;> (try split) <;> (try split) <;>
    constructor <;> simp [inside, timed, holding, unlisted, named, stamped]

/-- A step of `video_stop` leaves the handle, the path, the time and the manifest. -/
theorem videoStop_shared (sh : Shared) (me : ℕ) (ok : Bool) (byRecord : Bool) (pc : StopPc) :
    let o := videoStop sh me ok byRecord pc
    o.shared.task = sh.task ∧ o.shared.path = sh.path ∧
      o.shared.startRelTsMs = sh.startRelTsMs ∧ o.shared.manifest = sh.manifest ∧
      o.created = none := by
  cases pc <;> simp only [videoStop] <;> (try split) <;> (try split) <;> simp

theorem quiet_videoTask (sh : Shared) (me : ℕ) (clip : Clip) (pc : FilmPc) :
    Quiet bootId (.filming clip pc) (videoTask bootId sh me clip pc).self := by
  cases pc <;> simp only [videoTask] <;> (try split) <;> constructor <;>
    simp [inside, timed, holding, unlisted, unlistedPc, named, stamped]

theorem quiet_ended (task : RtosTask) : Quiet bootId task .ended := by
  constructor <;> simp [inside, timed, holding, unlisted, named, stamped]

/-- The tasks after a step, by their numbers. -/
def placed (tasks : ℕ → RtosTask) (t fresh : ℕ) (o : Outcome) : ℕ → RtosTask :=
  match o.created with
  | none => Function.update tasks t o.self
  | some clip => Function.update (Function.update tasks t o.self) fresh (.filming clip .loop)

theorem taskAt_after {s : State} {t : ℕ} (o : Outcome) (ht : t < s.tasks.length) :
    taskAt .ended (s.after t o).tasks = placed (taskAt .ended s.tasks) t s.tasks.length o := by
  cases hcreated : o.created with
  | none => simp [State.after, placed, hcreated, taskAt_set ht]
  | some clip =>
    have hlength : (s.tasks.set t o.self).length = s.tasks.length := List.length_set
    simp [State.after, placed, hcreated, taskAt_concat, taskAt_set ht, hlength]

section Steps

variable {sh : Shared} {tasks : ℕ → RtosTask} {t fresh : ℕ} {ok : Bool}

theorem Owned.videoStart {record : Bool} {relTsMs : UInt32} {pc : StartPc}
    (h : Owned bootId sh tasks) (hself : tasks t = .starting record relTsMs pc)
    (hfresh : tasks fresh = .ended)
    (hcheck : recordChecks (.starting record relTsMs pc) → sh.recording = false)
    (hguard : guards (.starting record relTsMs pc) → sh.task = none →
      ∀ i, inside (tasks i) = false ∧ timed (tasks i) = false) :
    let o := videoStart bootId sh t fresh ok record relTsMs pc
    Owned bootId o.shared (placed tasks t fresh o) := by
  cases pc with
  | check =>
    cases hrecording : sh.recording with
    | false =>
      have hquiet : Quiet bootId (tasks t) (.starting record relTsMs .guard) := by
        rw [hself]
        constructor <;> simp [inside, timed, holding, unlisted, named, stamped]
      simpa [VideoCapture.videoStart, hrecording, placed] using h.quiet sh hquiet rfl rfl rfl
    | true =>
      have hhandler : record = false := by
        cases record with
        | false => rfl
        | true => exact absurd (hcheck rfl) (by simp [hrecording])
      simpa [VideoCapture.videoStart, hrecording, hhandler, afterStart, placed] using
        h.quiet sh (quiet_ended _) rfl rfl rfl
  | guard =>
    cases htask : sh.task with
    | none =>
      simpa [VideoCapture.videoStart, htask, placed] using h.pass_guard htask (hguard rfl htask)
    | some owner =>
      simpa [VideoCapture.videoStart, htask, afterStart, placed] using
        h.quiet sh (quiet_ended _) rfl rfl rfl
  | name seq => exact h.name hself
  | stamp seq => exact h.stamp hself
  | create seq =>
    cases ok with
    | true => exact h.create hself hfresh
    | false =>
      refine h.quiet _ ?_ rfl rfl rfl
      rw [hself]
      constructor <;> simp [VideoCapture.videoStart, inside, timed, holding, unlisted,
        named, stamped]
  | undoFlag =>
    have hend : afterStart record false = .ended := by simp [afterStart]
    have hquiet : Quiet bootId (tasks t) (afterStart record false) := hend ▸ quiet_ended _
    exact h.quiet _ hquiet rfl rfl rfl
  | number | openClip seq | flag seq | forget seq | undoFile =>
    refine h.quiet _ ?_ rfl rfl rfl
    rw [hself]
    constructor <;> simp [VideoCapture.videoStart, inside, timed, holding, unlisted,
      named, stamped]

/-- **A step of a task**, which is not disturbed. -/
theorem Owned.next {task : RtosTask} (h : Owned bootId sh tasks) (hself : tasks t = task)
    (hfresh : tasks fresh = .ended) (hcheck : recordChecks task → sh.recording = false)
    (hguard : guards task → sh.task = none →
      ∀ i, inside (tasks i) = false ∧ timed (tasks i) = false) :
    let o := task.next bootId sh t fresh ok
    Owned bootId o.shared (placed tasks t fresh o) := by
  cases task with
  | starting record relTsMs pc => exact h.videoStart hself hfresh hcheck hguard
  | waiting =>
    refine h.quiet _ ?_ rfl rfl rfl
    rw [hself]
    constructor <;> simp [RtosTask.next, inside, timed, holding, unlisted, named, stamped]
  | stopping byRecord pc =>
    obtain ⟨htask, hpath, htime, -, hcreated⟩ := videoStop_shared sh t ok byRecord pc
    have hquiet : Quiet bootId (.stopping byRecord pc) _ := quiet_videoStop sh t ok byRecord pc
    rw [← hself] at hquiet
    simpa only [RtosTask.next, placed, hcreated] using h.quiet _ hquiet htask hpath htime
  | filming clip pc =>
    have hquiet : Quiet bootId (.filming clip pc) _ := quiet_videoTask sh t clip pc
    rw [← hself] at hquiet
    cases pc with
    | release waiter => exact h.release hself
    | loop | frame | close | list | handOver | lower waiter | notify waiter | deleted =>
      exact h.quiet _ hquiet rfl rfl rfl
  | ended => exact h.quiet _ (quiet_ended _) rfl rfl rfl

end Steps

/-! ## The manifest -/

theorem ownLine_videoStart (sh : Shared) (me fresh : ℕ) (ok record : Bool) (relTsMs : UInt32)
    (pc : StartPc) :
    ownLine bootId (videoStart bootId sh me fresh ok record relTsMs pc).self = none := by
  cases pc <;> cases record <;> simp only [videoStart] <;> (try split) <;>
    simp [ownLine, afterStart]

theorem ownLine_videoStop (sh : Shared) (me : ℕ) (ok byRecord : Bool) (pc : StopPc) :
    ownLine bootId (videoStop sh me ok byRecord pc).self = none := by
  cases pc <;> simp only [videoStop] <;> (try split) <;> (try split) <;> simp [ownLine]

theorem videoStart_manifest (sh : Shared) (me fresh : ℕ) (ok record : Bool) (relTsMs : UInt32)
    (pc : StartPc) :
    (videoStart bootId sh me fresh ok record relTsMs pc).shared.manifest = sh.manifest := by
  cases pc <;> simp only [videoStart] <;> (try split) <;> rfl

/-- A `video_task` that is created has listed nothing. -/
theorem filterMap_after (s : State) (t : ℕ) (o : Outcome) :
    (s.after t o).tasks.filterMap (ownLine bootId) =
      (s.tasks.set t o.self).filterMap (ownLine bootId) := by
  cases hcreated : o.created with
  | none => simp [State.after, hcreated]
  | some clip =>
    simp [State.after, hcreated, List.filterMap_append, ownLine, unlistedPc]

theorem Listed.same {s : State} {t : ℕ} {task : RtosTask} {o : Outcome} (h : Listed bootId s)
    (hself : s.tasks[t]? = some task) (hline : ownLine bootId o.self = ownLine bootId task)
    (hmanifest : o.shared.manifest = s.shared.manifest) : Listed bootId (s.after t o) := by
  have hperm : s.shared.manifest.Perm (s.tasks.filterMap (ownLine bootId)) := h
  rw [← hmanifest, ← filterMap_set hself hline, ← filterMap_after] at hperm
  exact hperm

/-- **The manifest after a step**: a clip is listed as what is shared says, which is right. -/
theorem Listed.next {s : State} {t : ℕ} {task : RtosTask} {fresh : ℕ} {ok : Bool}
    (h : Listed bootId s) (hself : s.tasks[t]? = some task)
    (hcurrent : ∀ clip, unlisted task = some clip →
      s.shared.path = clip.path ∧ s.shared.startRelTsMs = clip.relTsMs) :
    Listed bootId (s.after t (task.next bootId s.shared t fresh ok)) := by
  cases task with
  | starting record relTsMs pc =>
    exact h.same hself (ownLine_videoStart ..) (videoStart_manifest ..)
  | waiting => exact h.same hself rfl rfl
  | stopping byRecord pc =>
    exact h.same hself (ownLine_videoStop ..) (videoStop_shared ..).2.2.2.1
  | filming clip pc =>
    cases pc with
    | list =>
      obtain ⟨hpath, htime⟩ := hcurrent clip rfl
      have hline : ownLine bootId (.filming clip .handOver) =
          some (manifestLine s.shared.path s.shared.startRelTsMs bootId) := by
        rw [hpath, htime]
        rfl
      rw [Listed, filterMap_after]
      exact (h.append_right _).trans (filterMap_set_perm hself rfl hline).symm
    | loop =>
      refine h.same hself ?_ rfl
      simp only [RtosTask.next, videoTask]
      split <;> rfl
    | frame | close | handOver | release waiter | lower waiter | notify waiter | deleted =>
      exact h.same hself rfl rfl
  | ended => exact h.same hself rfl rfl

/-! ## Runs -/

/-- Whose clip is under way, and what is listed. -/
def Sound (bootId : UInt32) (s : State) : Prop :=
  Owned bootId s.shared (taskAt .ended s.tasks) ∧ Listed bootId s

theorem sound_initial : Sound bootId {} := by
  refine ⟨?_, List.Perm.refl _⟩
  constructor <;> simp [inside, timed, holding, unlisted, named, stamped]

/-- A command adds a task that has taken nothing up. -/
theorem Sound.spawn {s : State} {task : RtosTask} (h : Sound bootId s)
    (hq : Quiet bootId .ended task) (hline : ownLine bootId task = none) :
    Sound bootId (s.spawn task) := by
  refine ⟨?_, ?_⟩
  · rw [State.spawn, taskAt_concat]
    exact h.1.quiet _ (by simpa using hq) rfl rfl rfl
  · simpa [Listed, State.spawn, List.filterMap_append, hline] using h.2

/-- The tasks by their numbers are those in the list, and one that is over elsewhere. -/
theorem forall_taskAt {P : RtosTask → Prop} {tasks : List RtosTask} (hidle : P .ended)
    (h : ∀ task ∈ tasks, P task) (i : ℕ) : P (taskAt .ended tasks i) := by
  cases hi : tasks[i]? with
  | none => simpa [taskAt, hi] using hidle
  | some task => simpa [taskAt, hi] using h task (List.mem_of_getElem? hi)

/-- **What a step keeps**, when it does not disturb a clip. -/
theorem Sound.step {s : State} {e : Event} (h : Sound bootId s) (hu : Undisturbed s e) :
    Sound bootId (step bootId s e) := by
  cases e with
  | startVideo relTsMs | recordVideo relTsMs | stopVideo =>
    refine h.spawn ?_ rfl
    constructor <;> simp [inside, timed, holding, unlisted, named, stamped]
  | run t ok =>
    cases hself : s.tasks[t]? with
    | none => simpa [VideoCapture.step, hself] using h
    | some task =>
      obtain ⟨ht, -⟩ := List.getElem?_eq_some_iff.mp hself
      have hat : taskAt .ended s.tasks t = task := taskAt_of_getElem? hself
      simp only [VideoCapture.step, hself]
      refine ⟨?_, h.2.next hself fun clip hclip => h.1.current t clip (hat.symm ▸ hclip)⟩
      rw [taskAt_after _ ht]
      obtain ⟨hcheck, hguard⟩ := hu task hself
      exact h.1.next hat taskAt_length hcheck fun hguards htask =>
        forall_taskAt ⟨rfl, rfl⟩ (hguard hguards htask)

/-- A timed stop finds only its own clip. -/
theorem Sound.endsOwn {s : State} (h : Sound bootId s) (e : Event) : EndsOwn s e := by
  rintro t ok - hself i task hi starter hunder
  have ht : taskAt .ended s.tasks t = .stopping true .lower := taskAt_of_getElem? hself
  have hat : taskAt .ended s.tasks i = task := taskAt_of_getElem? hi
  have htimed : timed (taskAt .ended s.tasks t) := by simp [ht, timed]
  have hout : inside task = false := by
    by_contra hin
    have hnone := h.1.not_timed i t (by simpa [hat] using hin)
    simp [htimed] at hnone
  have hown : ∀ clip, holding task = some clip → clip.starter = t :=
    fun clip hclip => h.1.own t i clip htimed (hat.symm ▸ hclip)
  cases task with
  | filming clip pc =>
    cases pc <;> simp only [underWay, reduceCtorEq, Option.some.injEq] at hunder
    · exact hunder ▸ hown clip rfl
    · exact hunder ▸ hown clip rfl
  | starting record relTsMs pc =>
    cases pc <;> simp [underWay, inside] at hunder hout
  | _ => simp [underWay] at hunder

/-- **Whose clips end**: in a run in which no start disturbs a clip, each timed stop ends only the
clip of its own task, and at every point the manifest has one line for each finished clip, with its
own path and start time, and no other line. -/
theorem clips_owned (bootId : UInt32) (events : List Event)
    (h : EveryStep (step bootId) Undisturbed {} events) :
    EveryStep (step bootId) EndsOwn {} events ∧
      ∀ before, before <+: events → Listed bootId (run (step bootId) {} before) := by
  refine ⟨?_, ?_⟩
  · exact h.of_invariant (fun _ _ => Sound.step) (fun _ e hs _ => hs.endsOwn e) sound_initial
  · rintro before ⟨rest, rfl⟩
    exact (h.prefix_of.invariant (fun _ _ => Sound.step) sound_initial).2

/-- A clip that a `record_task` starts, stops and has listed. -/
def recorded : List Event :=
  .recordVideo 100 :: List.replicate 14 (.run 0 true) ++ List.replicate 7 (.run 1 true) ++
    List.replicate 2 (.run 0 true)

theorem clips_owned_recorded :
    EveryStep (step 7) EndsOwn {} recorded ∧ Listed 7 (run (step 7) {} recorded) := by
  have h := clips_owned 7 recorded (by decide)
  exact ⟨h.1, h.2 _ List.prefix_rfl⟩

/-- A clip is being recorded when a `record_task` starts; it waits, and it is about to stop. -/
def startedBefore : List Event :=
  .startVideo 0 :: List.replicate 9 (.run 0 true) ++
    .recordVideo 100 :: List.replicate 4 (.run 2 true)

/-- A timed stop ends the clip that `start_video` started before. -/
theorem stop_ends_other : ¬ ∀ (bootId : UInt32) (events : List Event),
    (∀ t, Event.run t false ∉ events) → EveryStep (step bootId) EndsOwn {} events ∧
      ∀ before, before <+: events → Listed bootId (run (step bootId) {} before) := by
  intro h
  have hended := h 7 (startedBefore ++ [.run 2 true]) (by simp [startedBefore])
  have hown := hended.1.at_split 2 true rfl rfl 1 _ rfl 0 rfl
  exact absurd hown (by decide)

end ClipOwnership

end OpenRecall.Analysis
