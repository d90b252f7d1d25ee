import Mathlib

/-!
# Tables of tasks

Tasks that take turns are kept in a list by their numbers: a task that takes its turn is replaced
where it stands, and a new one comes last. `taskAt` reads the list as a function of the number, with
a task that does nothing where there is none. `filterMap` over the list collects what tasks have
done, as far as they have done it.
-/

set_option autoImplicit false

namespace Foundation

namespace TaskTable

universe u v

variable {α : Type u} {β : Type v}

/-- The task with a number, or the idle one. -/
def taskAt (idle : α) (tasks : List α) (i : ℕ) : α := tasks[i]?.getD idle

variable {idle a b : α} {tasks : List α} {t : ℕ}

@[simp] theorem taskAt_nil (i : ℕ) : taskAt idle [] i = idle := by simp [taskAt]

theorem taskAt_of_getElem? (h : tasks[t]? = some a) : taskAt idle tasks t = a := by
  simp [taskAt, h]

/-- A turn replaces one task. -/
theorem taskAt_set (ht : t < tasks.length) :
    taskAt idle (tasks.set t b) = Function.update (taskAt idle tasks) t b := by
  funext i
  by_cases hi : i = t
  · subst hi
    simp [taskAt, ht]
  · simp [taskAt, hi, List.getElem?_set_ne (Ne.symm hi)]

/-- A new task has the next number. -/
theorem taskAt_concat :
    taskAt idle (tasks ++ [b]) = Function.update (taskAt idle tasks) tasks.length b := by
  funext i
  by_cases hi : i = tasks.length
  · subst hi
    simp [taskAt]
  · rw [Function.update_of_ne hi]
    rcases Nat.lt_or_gt_of_ne hi with hlt | hgt
    · simp [taskAt, List.getElem?_append_left hlt]
    · have hshort : (tasks ++ [b]).length ≤ i := by simpa using hgt
      simp [taskAt, List.getElem?_eq_none hshort, List.getElem?_eq_none hgt.le]

@[simp] theorem taskAt_length : taskAt idle tasks tasks.length = idle := by simp [taskAt]

/-- A turn after which as much is collected from the task as before. -/
theorem filterMap_set {f : α → Option β} (ha : tasks[t]? = some a) (hab : f b = f a) :
    (tasks.set t b).filterMap f = tasks.filterMap f := by
  induction tasks generalizing t with
  | nil => simp at ha
  | cons c tasks ih =>
    cases t with
    | zero =>
      obtain rfl : c = a := by simpa using ha
      simp [List.filterMap_cons, hab]
    | succ t => simp [List.filterMap_cons, ih (t := t) (by simpa using ha)]

/-- A turn after which one more thing is collected. -/
theorem filterMap_set_perm {f : α → Option β} {d : β} (ha : tasks[t]? = some a)
    (hfa : f a = none) (hfb : f b = some d) :
    ((tasks.set t b).filterMap f).Perm (tasks.filterMap f ++ [d]) := by
  induction tasks generalizing t with
  | nil => simp at ha
  | cons c tasks ih =>
    cases t with
    | zero =>
      obtain rfl : c = a := by simpa using ha
      simpa [List.filterMap_cons, hfa, hfb] using (List.perm_append_singleton d _).symm
    | succ t =>
      have hrest := ih (t := t) (by simpa using ha)
      cases hc : f c with
      | none => simpa [List.filterMap_cons, hc] using hrest
      | some e => simpa [List.filterMap_cons, hc] using hrest

end TaskTable

end Foundation
