import OpenRecall.Foundation.RateWindow
import OpenRecall.Foundation.Run
import OpenRecall.Model.FallbackPlanner

/-!
# How often the primary planner is asked in an outage

While every call that ends has failed, the primary is asked only so often: in any span as long as
the breaker stays open, no more than the failures that the breaker bears and the calls that may be
under way. And nobody is sent to the fallback unasked unless the primary failed within that span.
-/

set_option autoImplicit false

namespace OpenRecall.Analysis.OutageCalls

open Foundation
open Foundation.RateWindow (countBefore)
open OpenRecall.Model (Time)
open OpenRecall.Model.FallbackPlanner

variable {ρ : Type} {cfg : BreakerConfig} {width : ℕ}

/-- The clock does not go back, and only so many calls of the primary are under way. -/
def Orderly (width : ℕ) (s : Planning ρ) : PlanStep ρ → Prop
  | .plan now => s.latest ≤ now ∧ s.underWay < width
  | .ended _ _ now => s.latest ≤ now

instance (width : ℕ) (s : Planning ρ) : ∀ st, Decidable (Orderly width s st)
  | .plan _ => inferInstanceAs (Decidable (_ ∧ _))
  | .ended _ _ now => inferInstanceAs (Decidable (s.latest ≤ now))

/-- A plan is sent to the fallback unasked only within a span of a failure. -/
def SkipsInOutage (cfg : BreakerConfig) (s : Planning ρ) : PlanStep ρ → Prop
  | .plan now => (s.breaker.allow cfg now).1 = false →
      ∃ t ∈ s.failed, t ≤ now ∧ now < t + cfg.resetAfter
  | .ended _ _ _ => True

/-- How often the primary may be asked in a span of an outage. -/
def limit (cfg : BreakerConfig) (width : ℕ) : ℤ := max cfg.threshold 1 - 1 + width

theorem limit_nonneg (cfg : BreakerConfig) (width : ℕ) : 0 ≤ limit cfg width :=
  add_nonneg (sub_nonneg.mpr (le_max_right _ _)) (Int.natCast_nonneg width)

/-- What the times at which the primary was asked are while the breaker is closed: those of the last
time it was, which are a span older, and one for every failure it counts or call under way. -/
structure Closed (cfg : BreakerConfig) (s : Planning ρ) (old new : List Time) : Prop where
  asked : s.asked = old ++ new
  apart : ∀ x ∈ old, x + cfg.resetAfter ≤ s.latest
  gap : ∀ x ∈ old, ∀ y ∈ new, x + cfg.resetAfter ≤ y
  counted : new.length ≤ s.breaker.failures + s.underWay

/-- What a planner keeps. -/
structure Kept (cfg : BreakerConfig) (width : ℕ) (s : Planning ρ) : Prop where
  asked : ∀ t ∈ s.asked, t ≤ s.latest
  underWay : s.underWay ≤ width
  rate : ∀ a, (countBefore cfg.resetAfter a s.asked : ℤ) ≤ limit cfg width
  opened : ∀ t, s.breaker.openedAt = some t → (∀ x ∈ s.asked, x ≤ t) ∧ t ∈ s.failed ∧ t ≤ s.latest
  few : s.breaker.openedAt = none → (s.breaker.failures : ℤ) < max cfg.threshold 1
  closed : s.breaker.openedAt = none → ∃ old new, Closed cfg s old new

/-! ## One step -/

theorem underWay_ask (s : Planning ρ) :
    (s.plans ++ [Phase.asking]).countP Planning.IsAsking = s.underWay + 1 := by
  simp [Planning.underWay, Planning.IsAsking]

theorem underWay_skip (s : Planning ρ) :
    (s.plans ++ [Phase.fellBack]).countP Planning.IsAsking = s.underWay := by
  simp [Planning.underWay, Planning.IsAsking]

/-- A call that ends is no longer under way. -/
theorem underWay_ended {s : Planning ρ} {plan : ℕ} (hplan : s.plans[plan]? = some .asking)
    (outcome : Outcome ρ) :
    ((s.plans.set plan (phaseOf outcome)).countP Planning.IsAsking) + 1 = s.underWay := by
  obtain ⟨hlt, hget⟩ := List.getElem?_eq_some_iff.mp hplan
  have hpos : 0 < s.underWay :=
    List.countP_pos_iff.mpr ⟨.asking, List.mem_of_getElem? hplan, rfl⟩
  have hnot : Planning.IsAsking (phaseOf outcome) = false := by
    cases outcome <;> rfl
  rw [List.countP_set hlt, hget, hnot]
  simp only [Planning.IsAsking, if_true, Bool.false_eq_true, if_false]
  exact Nat.sub_add_cancel hpos

/-- What asking comes to: the breaker is closed, or it was open long enough, or it refuses. -/
theorem allow_cases (cfg : BreakerConfig) (now : Time) (b : CircuitBreaker) :
    (b.openedAt = none ∧ b.allow cfg now = (true, b)) ∨
      ∃ t, b.openedAt = some t ∧
        ((t + cfg.resetAfter ≤ now ∧ b.allow cfg now = (true, ⟨0, none, true⟩)) ∨
          (now < t + cfg.resetAfter ∧ b.allow cfg now = (false, b))) := by
  unfold CircuitBreaker.allow
  cases hopened : b.openedAt with
  | none => exact .inl ⟨rfl, rfl⟩
  | some t =>
    refine .inr ⟨t, rfl, ?_⟩
    by_cases hlong : cfg.resetAfter ≤ now - t
    · exact .inl ⟨le_sub_iff_add_le'.mp hlong, if_pos hlong⟩
    · exact .inr ⟨sub_lt_iff_lt_add'.mp (not_le.mp hlong), if_neg hlong⟩

/-- What a failed call comes to: the breaker opens now, or it stays as it was and counts. -/
theorem settle_failed_cases (cfg : BreakerConfig) (now : Time) (b : CircuitBreaker) :
    (settle (ρ := ρ) cfg now b .failed).openedAt = some now ∨
      ((settle (ρ := ρ) cfg now b .failed).openedAt = b.openedAt ∧
        (settle (ρ := ρ) cfg now b .failed).failures = b.failures + 1 ∧
        ((b.failures + 1 : ℕ) : ℤ) < cfg.threshold) := by
  unfold settle CircuitBreaker.recordFailure
  split_ifs with hprobe hmany
  · exact .inl rfl
  · exact .inl rfl
  · exact .inr ⟨rfl, rfl, not_le.mp hmany⟩

/-- The times stay within the limit when the newest of them are few enough. -/
theorem rate_append {old new : List Time}
    (hold : ∀ a, (countBefore cfg.resetAfter a old : ℤ) ≤ limit cfg width)
    (hnew : (new.length : ℤ) ≤ limit cfg width)
    (hgap : ∀ x ∈ old, ∀ y ∈ new, x + cfg.resetAfter ≤ y) (a : Time) :
    (countBefore cfg.resetAfter a (old ++ new) : ℤ) ≤ limit cfg width := by
  have hmax : (countBefore cfg.resetAfter a (old ++ new) : ℤ) ≤
      max (countBefore cfg.resetAfter a old : ℤ) new.length := by
    exact_mod_cast RateWindow.countBefore_append_le hgap a
  exact hmax.trans (max_le (hold a) hnew)

theorem Closed.newest_le {s : Planning ρ} {old new : List Time} (h : Closed cfg s old new)
    (hunder : s.underWay ≤ width) (hfew : (s.breaker.failures : ℤ) < max cfg.threshold 1) :
    (new.length : ℤ) ≤ limit cfg width := by
  have hcounted := h.counted
  unfold limit
  omega

/-- A caller that may ask while the breaker is closed. -/
theorem Kept.ask {s : Planning ρ} (h : Kept cfg width s) {now : Time} (hnow : s.latest ≤ now)
    (hroom : s.underWay < width) (hclosed : s.breaker.openedAt = none) :
    Kept cfg width
      { s with plans := s.plans ++ [.asking], asked := s.asked ++ [now], latest := now } := by
  obtain ⟨old, new, hnew⟩ := h.closed hclosed
  have hunder := underWay_ask s
  have hafter : Closed cfg
      { s with plans := s.plans ++ [.asking], asked := s.asked ++ [now], latest := now }
      old (new ++ [now]) :=
    { asked := by rw [hnew.asked, List.append_assoc]
      apart := fun x hx => (hnew.apart x hx).trans hnow
      gap := by
        intro x hx y hy
        rcases List.mem_append.mp hy with hy | hy
        · exact hnew.gap x hx y hy
        · rw [List.mem_singleton.mp hy]
          exact (hnew.apart x hx).trans hnow
      counted := by
        have hcounted := hnew.counted
        rw [List.length_append, List.length_singleton, Planning.underWay, hunder]
        exact Nat.succ_le_succ hcounted }
  exact
    { asked := by
        intro t ht
        rcases List.mem_append.mp ht with ht | ht
        · exact (h.asked t ht).trans hnow
        · exact (List.mem_singleton.mp ht).le
      underWay := hunder.trans_le hroom
      rate := by
        intro a
        rw [hafter.asked]
        refine rate_append (fun a => ?_) ?_ hafter.gap a
        · refine le_trans ?_ (h.rate a)
          rw [hnew.asked]
          exact_mod_cast (List.sublist_append_left old new).countP_le
        · exact hafter.newest_le (hunder.trans_le hroom) (h.few hclosed)
      opened := fun t ht => by simp [hclosed] at ht
      few := fun _ => h.few hclosed
      closed := fun _ => ⟨old, new ++ [now], hafter⟩ }

/-- A caller that may try again after the breaker was open long enough. -/
theorem Kept.probe {s : Planning ρ} (h : Kept cfg width s) {now t : Time} (hnow : s.latest ≤ now)
    (hroom : s.underWay < width) (hopened : s.breaker.openedAt = some t)
    (hlong : t + cfg.resetAfter ≤ now) :
    Kept cfg width
      { s with
        breaker := ⟨0, none, true⟩
        plans := s.plans ++ [.asking]
        asked := s.asked ++ [now]
        latest := now } := by
  have hunder := underWay_ask s
  have hfar : ∀ x ∈ s.asked, x + cfg.resetAfter ≤ now := fun x hx =>
    (add_le_add_left ((h.opened t hopened).1 x hx) cfg.resetAfter).trans hlong
  have hgap : ∀ x ∈ s.asked, ∀ y ∈ [now], x + cfg.resetAfter ≤ y := by
    intro x hx y hy
    rw [List.mem_singleton.mp hy]
    exact hfar x hx
  exact
    { asked := by
        intro x hx
        rcases List.mem_append.mp hx with hx | hx
        · exact (h.asked x hx).trans hnow
        · exact (List.mem_singleton.mp hx).le
      underWay := hunder.trans_le hroom
      rate := by
        refine rate_append h.rate ?_ hgap
        rw [List.length_singleton, limit]
        omega
      opened := fun t ht => by cases ht
      few := fun _ => lt_max_of_lt_right zero_lt_one
      closed := fun _ => ⟨s.asked, [now], rfl, hfar, hgap, by
        rw [Planning.underWay, hunder, List.length_singleton]
        exact Nat.le_add_left 1 _ |>.trans (Nat.le_add_left _ _)⟩ }

/-- A caller that is sent to the fallback. -/
theorem Kept.skip {s : Planning ρ} (h : Kept cfg width s) {now : Time} (hnow : s.latest ≤ now) :
    Kept cfg width { s with plans := s.plans ++ [.fellBack], latest := now } where
  asked := fun t ht => (h.asked t ht).trans hnow
  underWay := (underWay_skip s).trans_le h.underWay
  rate := h.rate
  opened := fun t ht => ⟨(h.opened t ht).1, (h.opened t ht).2.1, (h.opened t ht).2.2.trans hnow⟩
  few := h.few
  closed := fun hclosed => by
    obtain ⟨old, new, hnew⟩ := h.closed hclosed
    exact ⟨old, new, hnew.asked, fun x hx => (hnew.apart x hx).trans hnow, hnew.gap, by
      rw [Planning.underWay, underWay_skip]
      exact hnew.counted⟩

/-- Nothing was asked since the last answer or cancellation. -/
theorem Kept.fresh {s s' : Planning ρ} (h : Kept cfg width s) (hasked : s'.asked = [])
    (hunder : s'.underWay ≤ s.underWay) (hfailed : s'.failed = s.failed)
    (hlatest : s.latest ≤ s'.latest)
    (hopened : ∀ t, s'.breaker.openedAt = some t → s.breaker.openedAt = some t)
    (hfew : s'.breaker.openedAt = none → (s'.breaker.failures : ℤ) < max cfg.threshold 1) :
    Kept cfg width s' where
  asked := by simp [hasked]
  underWay := hunder.trans h.underWay
  rate := by
    intro a
    rw [hasked]
    exact limit_nonneg cfg width
  opened := by
    intro t ht
    obtain ⟨-, hmem, hle⟩ := h.opened t (hopened t ht)
    exact ⟨by simp [hasked], hfailed ▸ hmem, hle.trans hlatest⟩
  few := hfew
  closed := fun _ => ⟨[], [], hasked, by simp, by simp, Nat.zero_le _⟩

/-- A call that fails. -/
theorem Kept.fail {s : Planning ρ} (h : Kept cfg width s) {now : Time} (hnow : s.latest ≤ now)
    {plan : ℕ} (hplan : s.plans[plan]? = some .asking) :
    Kept cfg width
      { breaker := settle (ρ := ρ) cfg now s.breaker .failed
        plans := s.plans.set plan .fellBack
        asked := s.asked
        failed := s.failed ++ [now]
        latest := now } := by
  have hunder := underWay_ended hplan .failed
  refine
    { asked := fun t ht => (h.asked t ht).trans hnow
      underWay := le_trans ?_ h.underWay
      rate := h.rate
      opened := fun t ht => ?_
      few := fun hclosed => ?_
      closed := fun hclosed => ?_ }
  · exact (Nat.le_add_right _ 1).trans hunder.le
  · rcases settle_failed_cases (ρ := ρ) cfg now s.breaker with hnow' | ⟨hsame, -⟩
    · obtain rfl : now = t := Option.some_inj.mp (hnow'.symm.trans ht)
      exact ⟨fun x hx => (h.asked x hx).trans hnow, by simp, le_rfl⟩
    · obtain ⟨hle, hmem, hlatest⟩ := h.opened t (hsame.symm.trans ht)
      exact ⟨hle, List.mem_append_left _ hmem, hlatest.trans hnow⟩
  · rcases settle_failed_cases (ρ := ρ) cfg now s.breaker with hopen | ⟨-, hcount, hfew⟩
    · exact absurd (hopen.symm.trans hclosed) (by simp)
    · rw [hcount]
      exact lt_max_of_lt_left hfew
  · rcases settle_failed_cases (ρ := ρ) cfg now s.breaker with hopen | ⟨hsame, hcount, -⟩
    · exact absurd (hopen.symm.trans hclosed) (by simp)
    · obtain ⟨old, new, hnew⟩ := h.closed (hsame.symm.trans hclosed)
      refine ⟨old, new, hnew.asked, fun x hx => (hnew.apart x hx).trans hnow, hnew.gap, ?_⟩
      have hcounted := hnew.counted
      rw [hcount, Planning.underWay]
      change _ ≤ _ + ((s.plans.set plan (phaseOf .failed)).countP Planning.IsAsking)
      omega

/-- **What one step keeps.** -/
theorem Kept.step {s : Planning ρ} (h : Kept cfg width s) {st : PlanStep ρ}
    (hst : Orderly width s st) : Kept cfg width (step cfg s st) := by
  cases st with
  | plan now =>
    unfold OpenRecall.Model.FallbackPlanner.step
    rcases allow_cases cfg now s.breaker with
      ⟨hclosed, hallow⟩ | ⟨t, hopened, ⟨hlong, hallow⟩ | ⟨-, hallow⟩⟩
    · simp only [hallow]
      exact h.ask hst.1 hst.2 hclosed
    · simp only [hallow]
      exact h.probe hst.1 hst.2 hopened hlong
    · simp only [hallow]
      exact h.skip hst.1
  | ended plan outcome now =>
    unfold OpenRecall.Model.FallbackPlanner.step
    dsimp only
    split
    · next hplan =>
      have hunder := Nat.le_of_succ_le (underWay_ended hplan outcome).le
      cases outcome with
      | failed => exact h.fail hst hplan
      | answered result =>
        exact h.fresh rfl hunder rfl hst (fun t ht => by cases ht)
          fun _ => lt_max_of_lt_right zero_lt_one
      | cancelled => exact h.fresh rfl hunder rfl hst (fun t ht => ht) h.few
    · exact h

/-- A planner that skips the primary had it fail a short while ago. -/
theorem Kept.skips {s : Planning ρ} (h : Kept cfg width s) {st : PlanStep ρ}
    (hst : Orderly width s st) : SkipsInOutage cfg s st := by
  cases st with
  | ended plan outcome now => trivial
  | plan now =>
    intro hrefused
    rcases allow_cases cfg now s.breaker with
      ⟨-, hallow⟩ | ⟨t, hopened, ⟨-, hallow⟩ | ⟨hshort, -⟩⟩
    · simp [hallow] at hrefused
    · simp [hallow] at hrefused
    · obtain ⟨-, hmem, hle⟩ := h.opened t hopened
      exact ⟨t, hmem, hle.trans hst.1, hshort⟩

/-! ## Whole runs -/

/-- A planner with no plans yet. -/
theorem kept_start (cfg : BreakerConfig) (width : ℕ) (start : Time) :
    Kept cfg width ({ latest := start } : Planning ρ) where
  asked := fun t ht => by cases ht
  underWay := Nat.zero_le width
  rate := fun _ => limit_nonneg cfg width
  opened := fun t ht => by cases ht
  few := fun _ => lt_max_of_lt_right zero_lt_one
  closed := fun _ => ⟨[], [], rfl, by simp, by simp, le_rfl⟩

/-- **An outage is borne.** However plans start and end, no span has more calls of the primary since
it last answered than the limit, and only a failure within a span sends a plan to the fallback
unasked. -/
theorem outage_calls_paced (cfg : BreakerConfig) (width : ℕ) (start : Time)
    (steps : List (PlanStep ρ))
    (h : EveryStep (step cfg) (Orderly width) { latest := start } steps) :
    (∀ a, (countBefore cfg.resetAfter a
      (run (step cfg) ({ latest := start } : Planning ρ) steps).asked : ℤ) ≤ limit cfg width) ∧
    EveryStep (step cfg) (SkipsInOutage cfg) ({ latest := start } : Planning ρ) steps := by
  have hstep : ∀ (s : Planning ρ) (st : PlanStep ρ), Kept cfg width s → Orderly width s st →
      Kept cfg width (step cfg s st) := fun _ _ hs hst => hs.step hst
  exact ⟨(h.invariant hstep (kept_start cfg width start)).rate,
    h.of_invariant hstep (fun _ _ hs hst => hs.skips hst) (kept_start cfg width start)⟩

/-- Two plans of which one fails while the other awaits its answer, with a breaker that bears one
failure, and one that is skipped. -/
def failingTwice : List (PlanStep String) :=
  [.plan 0, .plan 1, .ended 0 .failed 2, .ended 1 .failed 3, .plan 4, .plan 20,
    .ended 3 (.answered "ok") 21]

theorem outage_calls_paced_failingTwice :
    (∀ a, (countBefore 10 a
      (run (step ⟨2, 10⟩) ({ latest := 0 } : Planning String) failingTwice).asked : ℤ) ≤
        limit ⟨2, 10⟩ 2) ∧
    EveryStep (step ⟨2, 10⟩) (SkipsInOutage ⟨2, 10⟩) ({ latest := 0 } : Planning String)
      failingTwice :=
  outage_calls_paced ⟨2, 10⟩ 2 0 failingTwice (by decide)

end OpenRecall.Analysis.OutageCalls
