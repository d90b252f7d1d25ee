import Mathlib

/-!
# Runs of a deterministic step function

A system is a step function `step : σ → α → σ`: the state and the input of one
step give the state after it. `run step s as` is the state after the inputs `as`,
and `EveryStep step P s as` says that each step of that run meets `P`, a predicate
on the state before the step and the step's input. A guard, an environment
assumption and a per-step safety property are all predicates of this kind.

The rules are the ones a safety proof needs: `EveryStep.invariant` carries an
invariant through a run whose steps meet the predicate, `EveryStep.of_invariant`
reads a per-step property off the invariant, and `everyStep_iff_of_invariant`
turns a local equivalence between two step predicates into one about runs.
-/

set_option autoImplicit false

namespace Foundation

universe u v

variable {σ : Type u} {α : Type v}

/-- The state a run ends in. -/
def run (step : σ → α → σ) (s : σ) (as : List α) : σ := as.foldl step s

@[simp] theorem run_nil (step : σ → α → σ) (s : σ) : run step s [] = s := rfl

@[simp] theorem run_cons (step : σ → α → σ) (s : σ) (a : α) (as : List α) :
    run step s (a :: as) = run step (step s a) as := rfl

/-- A run of two lists of inputs is the second list run from where the first ends. -/
theorem run_append (step : σ → α → σ) (s : σ) (as bs : List α) :
    run step s (as ++ bs) = run step (run step s as) bs :=
  List.foldl_append

/-- Every step of the run from `s` on the inputs `as` meets `P`, which reads the state
before the step and the step's input. -/
def EveryStep (step : σ → α → σ) (P : σ → α → Prop) : σ → List α → Prop
  | _, [] => True
  | s, a :: as => P s a ∧ EveryStep step P (step s a) as

instance EveryStep.decidable (step : σ → α → σ) (P : σ → α → Prop)
    [∀ s a, Decidable (P s a)] : ∀ s as, Decidable (EveryStep step P s as)
  | _, [] => inferInstanceAs (Decidable True)
  | s, a :: as =>
    have := EveryStep.decidable step P (step s a) as
    inferInstanceAs (Decidable (P s a ∧ EveryStep step P (step s a) as))

/-- With one more input, a split of the inputs is at that one or a split of those before. -/
theorem concat_split {as xs ys : List α} {a b : α} (h : as ++ [b] = xs ++ a :: ys) :
    (ys = [] ∧ a = b ∧ xs = as) ∨ ∃ ys', ys = ys' ++ [b] ∧ as = xs ++ a :: ys' := by
  rcases List.eq_nil_or_concat ys with rfl | ⟨ys', c, rfl⟩
  · obtain ⟨hxs, hab⟩ := List.append_inj' h rfl
    exact .inl ⟨rfl, (List.singleton_inj.mp hab).symm, hxs.symm⟩
  · rw [List.concat_eq_append, ← List.cons_append, ← List.append_assoc] at h
    obtain ⟨has, hbc⟩ := List.append_inj' h rfl
    refine .inr ⟨ys', ?_, has⟩
    rw [List.concat_eq_append, List.singleton_inj.mp hbc]

section Rules

variable {step : σ → α → σ} {P Q : σ → α → Prop} {I : σ → Prop}

@[simp] theorem everyStep_nil (s : σ) : EveryStep step P s [] := trivial

@[simp] theorem everyStep_cons (s : σ) (a : α) (as : List α) :
    EveryStep step P s (a :: as) ↔ P s a ∧ EveryStep step P (step s a) as := Iff.rfl

/-- Every step meets what asks nothing. -/
theorem everyStep_true (s : σ) (as : List α) : EveryStep step (fun _ _ => True) s as := by
  induction as generalizing s with
  | nil => trivial
  | cons a as ih => exact ⟨trivial, ih (step s a)⟩

/-- What every input meets, every step meets. -/
theorem everyStep_of_forall {P : α → Prop} (s : σ) {as : List α} (h : ∀ a ∈ as, P a) :
    EveryStep step (fun _ a => P a) s as := by
  induction as generalizing s with
  | nil => trivial
  | cons a as ih =>
    exact ⟨h a List.mem_cons_self, ih (step s a) fun b hb => h b (List.mem_cons_of_mem a hb)⟩

/-- The steps of a run split where its inputs are split. -/
theorem everyStep_append (s : σ) (as bs : List α) :
    EveryStep step P s (as ++ bs) ↔
      EveryStep step P s as ∧ EveryStep step P (run step s as) bs := by
  induction as generalizing s with
  | nil => simp
  | cons a as ih => simp [ih, and_assoc]

/-- The step on `a` that follows the inputs `as` meets what every step meets. -/
theorem EveryStep.at_split {s : σ} {as bs : List α} {a : α}
    (h : EveryStep step P s (as ++ a :: bs)) : P (run step s as) a :=
  ((everyStep_append s as (a :: bs)).mp h).2.1

/-- Every step meets a predicate when the one at each split of the inputs does. -/
theorem everyStep_iff_at_split (s : σ) (as : List α) :
    EveryStep step P s as ↔
      ∀ xs a ys, as = xs ++ a :: ys → P (run step s xs) a := by
  constructor
  · rintro h xs a ys rfl
    exact h.at_split
  · intro h
    induction as generalizing s with
    | nil => trivial
    | cons b bs ih =>
      refine ⟨h [] b bs rfl, ih (step s b) fun xs a ys heq => ?_⟩
      apply h (b :: xs) a ys
      rw [heq, List.cons_append]

/-- The inputs before a given point form a run whose steps meet the same predicate. -/
theorem EveryStep.prefix_of {s : σ} {as bs : List α} (h : EveryStep step P s (as ++ bs)) :
    EveryStep step P s as :=
  ((everyStep_append s as bs).mp h).1

/-- A weaker predicate is met as well. -/
theorem EveryStep.mono (hPQ : ∀ s a, P s a → Q s a) {s : σ} {as : List α}
    (h : EveryStep step P s as) : EveryStep step Q s as := by
  induction as generalizing s with
  | nil => trivial
  | cons a as ih => exact ⟨hPQ s a h.1, ih h.2⟩

/-- Two predicates that every step meets are met together. -/
theorem EveryStep.and {s : σ} {as : List α} (hP : EveryStep step P s as)
    (hQ : EveryStep step Q s as) : EveryStep step (fun s a => P s a ∧ Q s a) s as := by
  induction as generalizing s with
  | nil => trivial
  | cons a as ih => exact ⟨⟨hP.1, hQ.1⟩, ih hP.2 hQ.2⟩

/-- **The invariant rule**: what the steps that meet `P` preserve holds where the run
ends. -/
theorem EveryStep.invariant (hstep : ∀ s a, I s → P s a → I (step s a)) {s : σ}
    {as : List α} (hs : I s) (h : EveryStep step P s as) : I (run step s as) := by
  induction as generalizing s with
  | nil => exact hs
  | cons a as ih => exact ih (hstep s a hs h.1) h.2

/-- A step property that the invariant gives holds at every step of the run. -/
theorem EveryStep.of_invariant (hstep : ∀ s a, I s → P s a → I (step s a))
    (hQ : ∀ s a, I s → P s a → Q s a) {s : σ} {as : List α} (hs : I s)
    (h : EveryStep step P s as) : EveryStep step Q s as := by
  induction as generalizing s with
  | nil => trivial
  | cons a as ih => exact ⟨hQ s a hs h.1, ih (hstep s a hs h.1) h.2⟩

/-- Without a condition on the steps: an invariant of every step holds where any run
ends. -/
theorem run_invariant (hstep : ∀ s a, I s → I (step s a)) {s : σ} (hs : I s)
    (as : List α) : I (run step s as) := by
  induction as generalizing s with
  | nil => exact hs
  | cons a as ih => exact ih (hstep s a hs)

/-- **The equivalence rule**: two step predicates that agree wherever the invariant holds
are met by the same runs, as long as the steps that meet `P` preserve the invariant. The
steps are those that `A` allows. -/
theorem everyStep_iff_of_invariant {A : σ → α → Prop}
    (hstep : ∀ s a, I s → A s a → P s a → I (step s a))
    (hPQ : ∀ s a, I s → A s a → (P s a ↔ Q s a)) {s : σ} {as : List α} (hs : I s)
    (hA : EveryStep step A s as) : EveryStep step P s as ↔ EveryStep step Q s as := by
  induction as generalizing s with
  | nil => exact Iff.rfl
  | cons a as ih =>
    rw [everyStep_cons, everyStep_cons, ← hPQ s a hs hA.1]
    exact and_congr_right fun hP => ih (hstep s a hs hA.1 hP) hA.2

/-- **The accumulation rule**: a property of the state that each step keeps exactly when it
meets `P` holds at the end of a run if and only if it holds at the start and every step
meets `P`. The steps are those that `A` allows. -/
theorem run_iff_everyStep {A : σ → α → Prop} {G : σ → Prop}
    (hstep : ∀ s a, I s → A s a → I (step s a))
    (hG : ∀ s a, I s → A s a → (G (step s a) ↔ G s ∧ P s a)) {s : σ} {as : List α}
    (hs : I s) (hA : EveryStep step A s as) :
    G (run step s as) ↔ G s ∧ EveryStep step P s as := by
  induction as generalizing s with
  | nil => simp
  | cons a as ih =>
    rw [run_cons, everyStep_cons, ih (hstep s a hs hA.1) hA.2, hG s a hs hA.1, and_assoc]

/-- **The prefix rule**: what a step keeps exactly when it meets `P` holds everywhere on a run
exactly when every step meets `P`. The steps are those that `A` allows, and the states are those
of an invariant `J` of these steps. -/
theorem forall_prefix_iff_everyStep_of_allowed {A : σ → α → Prop} {J : σ → Prop}
    (hJ : ∀ s a, J s → A s a → J (step s a))
    (hstep : ∀ s a, J s → I s → A s a → (I (step s a) ↔ P s a)) {s : σ} (hsJ : J s) (hs : I s)
    {as : List α} (hA : EveryStep step A s as) :
    (∀ bs, bs <+: as → I (run step s bs)) ↔ EveryStep step P s as := by
  induction as generalizing s with
  | nil =>
    refine iff_of_true (fun bs hbs => ?_) trivial
    rw [List.prefix_nil.mp hbs]
    exact hs
  | cons a as ih =>
    rw [everyStep_cons]
    constructor
    · intro h
      have ha : I (step s a) := h [a] ⟨as, rfl⟩
      refine ⟨(hstep s a hsJ hs hA.1).mp ha, (ih (hJ s a hsJ hA.1) ha hA.2).mp fun bs hbs => ?_⟩
      exact h (a :: bs) (List.cons_prefix_cons.mpr ⟨rfl, hbs⟩)
    · rintro ⟨ha, hrest⟩ bs hbs
      have hnext := (hstep s a hsJ hs hA.1).mpr ha
      cases bs with
      | nil => exact hs
      | cons b bs =>
        obtain ⟨rfl, hbs'⟩ := List.cons_prefix_cons.mp hbs
        exact (ih (hJ s b hsJ hA.1) hnext hA.2).mpr hrest bs hbs'

/-- The prefix rule for any steps. -/
theorem forall_prefix_iff_everyStep_of_invariant {J : σ → Prop}
    (hJ : ∀ s a, J s → J (step s a)) (hstep : ∀ s a, J s → I s → (I (step s a) ↔ P s a)) {s : σ}
    (hsJ : J s) (hs : I s) (as : List α) :
    (∀ bs, bs <+: as → I (run step s bs)) ↔ EveryStep step P s as :=
  forall_prefix_iff_everyStep_of_allowed (fun s a hsJ _ => hJ s a hsJ)
    (fun s a hsJ hs _ => hstep s a hsJ hs) hsJ hs
    (everyStep_true s as)

/-- The prefix rule for an invariant that needs no other. -/
theorem forall_prefix_iff_everyStep (hstep : ∀ s a, I s → (I (step s a) ↔ P s a)) {s : σ}
    (hs : I s) (as : List α) :
    (∀ bs, bs <+: as → I (run step s bs)) ↔ EveryStep step P s as :=
  forall_prefix_iff_everyStep_of_invariant (J := fun _ => True) (fun _ _ _ => trivial)
    (fun s a _ => hstep s a) trivial hs as

end Rules

end Foundation
