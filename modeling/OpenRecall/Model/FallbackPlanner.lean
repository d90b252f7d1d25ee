import OpenRecall.Model.Command

/-!
# The planner that falls back

A request is planned by the primary planner, or by the fallback when that one failed or a breaker
lets nobody ask it. The breaker opens after several failures in a row; after a while one caller may
try again. Plans are under way together, so another may end between a caller's leave to ask and its
own answer.
-/

set_option autoImplicit false

namespace OpenRecall.Model.FallbackPlanner

/-- SOURCE: agent/fallback_planner.py:24-29 -/
structure BreakerConfig where
  threshold : ℤ := 3
  resetAfter : Time := 120000000
  deriving DecidableEq

/-- SOURCE: agent/fallback_planner.py:29-36 -/
structure CircuitBreaker where
  failures : ℕ := 0
  openedAt : Option Time := none
  halfOpen : Bool := false
  deriving DecidableEq

namespace CircuitBreaker

variable (cfg : BreakerConfig) (now : Time)

/-- Whether the primary may be asked, and the breaker after.
SOURCE: agent/fallback_planner.py:42-52 -/
def allow (b : CircuitBreaker) : Bool × CircuitBreaker :=
  match b.openedAt with
  | none => (true, b)
  | some openedAt =>
    if cfg.resetAfter ≤ now - openedAt then
      (true, { failures := 0, openedAt := none, halfOpen := true })
    else (false, b)

/-- SOURCE: agent/fallback_planner.py:54-57 -/
def recordSuccess (_ : CircuitBreaker) : CircuitBreaker := {}

/-- SOURCE: agent/fallback_planner.py:59-68 -/
def recordFailure (b : CircuitBreaker) : CircuitBreaker :=
  if b.halfOpen then { b with halfOpen := false, openedAt := some now }
  else if cfg.threshold ≤ (b.failures + 1 : ℕ) then
    { b with failures := b.failures + 1, openedAt := some now }
  else { b with failures := b.failures + 1 }

/-- SOURCE: agent/fallback_planner.py:70-84 -/
def abandonProbe (b : CircuitBreaker) : CircuitBreaker := { b with halfOpen := false }

end CircuitBreaker

/-! ## Plans under way -/

/-- How a call of the primary ends. -/
inductive Outcome (ρ : Type) where
  | answered (result : ρ)
  | failed
  | cancelled

/-- Where a plan is: it awaits the primary, it turned to the fallback, it returned what the primary
answered, or it was cancelled. -/
inductive Phase (ρ : Type) where
  | asking
  | fellBack
  | returned (result : ρ)
  | cancelled

variable {ρ : Type}

/-- What a call of the primary comes to for the breaker: the failure or the success is recorded, and
a probe is given up in any case.
SOURCE: agent/fallback_planner.py:102-123 -/
def settle (cfg : BreakerConfig) (now : Time) (b : CircuitBreaker) : Outcome ρ → CircuitBreaker
  | .answered _ => b.recordSuccess.abandonProbe
  | .failed => (b.recordFailure cfg now).abandonProbe
  | .cancelled => b.abandonProbe

/-- SOURCE: agent/fallback_planner.py:103-127 -/
def phaseOf : Outcome ρ → Phase ρ
  | .answered result => .returned result
  | .failed => .fellBack
  | .cancelled => .cancelled

/-- The planner's plans with its breaker, and what is observed of them: the times since the last
answer or cancellation at which the primary was asked, the times of all its failures, and the latest
reading of the clock. -/
structure Planning (ρ : Type) where
  breaker : CircuitBreaker := {}
  plans : List (Phase ρ) := []
  asked : List Time := []
  failed : List Time := []
  latest : Time

namespace Planning

def IsAsking : Phase ρ → Bool
  | .asking => true
  | _ => false

/-- How many calls of the primary are under way. -/
def underWay (s : Planning ρ) : ℕ := s.plans.countP IsAsking

end Planning

/-- A request is to be planned, or a call of the primary ends. -/
inductive PlanStep (ρ : Type) where
  | plan (now : Time)
  | ended (plan : ℕ) (outcome : Outcome ρ) (now : Time)

/-- A failure goes on with the calls that were made; anything else begins anew. -/
def askedAfter (asked : List Time) : Outcome ρ → List Time
  | .failed => asked
  | .answered _ | .cancelled => []

def failedAfter (failed : List Time) (now : Time) : Outcome ρ → List Time
  | .failed => failed ++ [now]
  | .answered _ | .cancelled => failed

/-- SOURCE: agent/fallback_planner.py:100-127 -/
def step (cfg : BreakerConfig) (s : Planning ρ) : PlanStep ρ → Planning ρ
  | .plan now =>
    match s.breaker.allow cfg now with
    | (true, b) =>
      { s with
        breaker := b
        plans := s.plans ++ [.asking]
        asked := s.asked ++ [now]
        latest := now }
    | (false, b) => { s with breaker := b, plans := s.plans ++ [.fellBack], latest := now }
  | .ended plan outcome now =>
    match s.plans[plan]? with
    | some .asking =>
      { breaker := settle cfg now s.breaker outcome
        plans := s.plans.set plan (phaseOf outcome)
        asked := askedAfter s.asked outcome
        failed := failedAfter s.failed now outcome
        latest := now }
    | _ => s

end OpenRecall.Model.FallbackPlanner
