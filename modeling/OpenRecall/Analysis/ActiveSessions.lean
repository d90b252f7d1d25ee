import OpenRecall.Model.Connections

/-!
# The active sessions

The registry of active sessions is a set: a `hello` adds its session, and the end of a connection
takes out the session the connection has then. It does not count. When two connections carry one
session, as after a reconnect, the first of them to end takes it out for both; and a connection
that says `hello` twice, to different sessions, only takes out the last.
-/

set_option autoImplicit false

namespace OpenRecall.Analysis.ActiveSessions

open Foundation OpenRecall.Model

variable {ω π : Type}

/-- A gateway, with the sessions of each connection: those it said `hello` to and has not said
`bye` to nor dropped since. -/
structure CarriedRun (ω π : Type) where
  gateway : GatewayRun ω π
  carried : ℕ → Finset String := fun _ => ∅

namespace CarriedRun

variable (factory : PipelineFactory ω π)

/-- Before the first connection. -/
def start (pipelines : ω) : CarriedRun ω π where
  gateway := { world := { pipelines := pipelines } }

def step (s : CarriedRun ω π) (st : ConnStep) : CarriedRun ω π where
  gateway := s.gateway.step factory st
  carried :=
    match st.event with
    | .hello sessionId _ =>
      Function.update s.carried st.conn (insert sessionId (s.carried st.conn))
    | .audio _ _ => s.carried
    | .bye | .disconnect => Function.update s.carried st.conn ∅

/-- **The registry is right**: a session is active when a connection carries it. -/
def Registered (s : CarriedRun ω π) : Prop :=
  ∀ sessionId, sessionId ∈ s.gateway.world.active ↔ ∃ conn, sessionId ∈ s.carried conn

/-- The session that a step closes: a `bye` does when its flush returns.
SOURCE: gateway/core.py:477-552 -/
def closed (s : CarriedRun ω π) (st : ConnStep) : Option String :=
  match st.event with
  | .bye =>
    match (s.gateway.cores st.conn).pipeline, (s.gateway.cores st.conn).sessionId with
    | some pipeline, some sessionId =>
      match (factory.flush s.gateway.world.pipelines pipeline).1 with
      | .ok _ => some sessionId
      | .error _ => none
    | _, _ => none
  | .disconnect => (s.gateway.cores st.conn).sessionId
  | .hello _ _ | .audio _ _ => none

/-- The end of a connection closes what it alone carries: no other connection carries the session
that is closed, nor does it carry a session besides that no other connection carries. -/
def ClosesItsOwn (s : CarriedRun ω π) (st : ConnStep) : Prop :=
  st.event = .bye ∨ st.event = .disconnect →
    (∀ sessionId, s.closed factory st = some sessionId →
      ∀ conn, conn ≠ st.conn → sessionId ∉ s.carried conn) ∧
    ∀ sessionId ∈ s.carried st.conn, s.closed factory st = some sessionId ∨
      ∃ conn, conn ≠ st.conn ∧ sessionId ∈ s.carried conn

end CarriedRun

/-! ## What the handlers do to the registry -/

section

variable (factory : PipelineFactory ω π)

theorem emit_active (sid : String) (now : Time) (ts : List Transcript) (core : GatewayCore π)
    (world : GatewayWorld ω) :
    (GatewayCore.emit sid now ts core world).2.2.active = world.active := by
  induction ts generalizing core world with
  | nil => rfl
  | cons t ts ih => exact ih _ _

theorem onAudio_active (env : IngestEnv) (now : Time) (data : Bytes) (core : GatewayCore π)
    (world : GatewayWorld ω) :
    (core.onAudio factory env now data world).2.2.active = world.active := by
  unfold GatewayCore.onAudio
  split
  · split
    · rfl
    · split
      · rfl
      · dsimp only
        split_ifs
        · exact emit_active _ _ _ _ _
        · exact emit_active _ _ _ _ _
  · rfl

theorem onBye_active (s : CarriedRun ω π) {st : ConnStep} (hevent : st.event = .bye) :
    ((s.gateway.cores st.conn).onBye factory st.now s.gateway.world).2.2.active =
      s.gateway.world.active \ (s.closed factory st).toFinset := by
  unfold GatewayCore.onBye CarriedRun.closed
  rw [hevent]
  dsimp only
  cases (s.gateway.cores st.conn).pipeline with
  | none => simp
  | some pipeline =>
    cases (s.gateway.cores st.conn).sessionId with
    | none => simp
    | some sid =>
      dsimp only
      cases factory.flush s.gateway.world.pipelines pipeline with
      | mk result shared =>
        cases result with
        | error e => simp
        | ok ts => simp [GatewayCore.closeSession, emit_active, Finset.sdiff_singleton_eq_erase]

theorem finalFlush_active (now : Time) (core : GatewayCore π) (world : GatewayWorld ω) :
    (core.finalFlush factory now world).2.2.active = world.active ∧
      (core.finalFlush factory now world).2.1.sessionId = core.sessionId := by
  unfold GatewayCore.finalFlush
  split
  · split
    · exact ⟨rfl, rfl⟩
    · exact ⟨emit_active _ _ _ _ _, GatewayCore.emit_sessionId _ _ _ _ _⟩
  · exact ⟨rfl, rfl⟩

theorem onDisconnect_active (now : Time) (core : GatewayCore π) (world : GatewayWorld ω) :
    (core.onDisconnect factory now world).2.2.active =
      world.active \ core.sessionId.toFinset := by
  obtain ⟨hactive, hsession⟩ := finalFlush_active factory now core world
  unfold GatewayCore.onDisconnect GatewayCore.finalizePendingSession
  dsimp only
  rw [hsession]
  cases core.sessionId with
  | none => simpa using hactive
  | some sid => simp [GatewayCore.closeSession, hactive, Finset.sdiff_singleton_eq_erase]

/-- What is active after a step. -/
theorem mem_active_step (s : CarriedRun ω π) (st : ConnStep) (sid : String) :
    sid ∈ (s.step factory st).gateway.world.active ↔
      (∃ startSeq, st.event = .hello sid startSeq) ∨
        sid ∈ s.gateway.world.active ∧ s.closed factory st ≠ some sid := by
  show sid ∈ (s.gateway.handle factory st).2.2.active ↔ _
  unfold GatewayRun.handle
  cases hevent : st.event with
  | hello sessionId startSeq =>
    have hclosed : s.closed factory st = none := by
      unfold CarriedRun.closed
      rw [hevent]
    rw [hclosed]
    show sid ∈ insert sessionId s.gateway.world.active ↔ _
    rw [Finset.mem_insert]
    apply or_congr
    · constructor
      · rintro rfl
        exact ⟨startSeq, rfl⟩
      · rintro ⟨startSeq', heq⟩
        exact (ConnEvent.hello.inj heq).1.symm
    · simp
  | audio env data =>
    have hclosed : s.closed factory st = none := by
      unfold CarriedRun.closed
      rw [hevent]
    rw [hclosed]
    dsimp only
    rw [onAudio_active]
    simp
  | bye =>
    dsimp only
    rw [onBye_active factory s hevent]
    simp
  | disconnect =>
    have hclosed : s.closed factory st = (s.gateway.cores st.conn).sessionId := by
      unfold CarriedRun.closed
      rw [hevent]
    dsimp only
    rw [onDisconnect_active, hclosed]
    simp

end

/-! ## Runs -/

namespace CarriedRun

variable (factory : PipelineFactory ω π)

/-- The end of a connection. -/
theorem registered_end {s : CarriedRun ω π} (h : s.Registered) {st : ConnStep}
    (hend : st.event = .bye ∨ st.event = .disconnect) :
    (s.step factory st).Registered ↔ s.ClosesItsOwn factory st := by
  have hcarried : (s.step factory st).carried = Function.update s.carried st.conn ∅ := by
    unfold step
    rcases hend with hevent | hevent <;> rw [hevent]
  have hactive (sid : String) : sid ∈ (s.step factory st).gateway.world.active ↔
      sid ∈ s.gateway.world.active ∧ s.closed factory st ≠ some sid := by
    rw [mem_active_step, or_iff_right]
    rintro ⟨startSeq, hevent⟩
    rw [hevent] at hend
    rcases hend with hend | hend <;> cases hend
  have hothers (sid : String) : (∃ conn, sid ∈ (s.step factory st).carried conn) ↔
      ∃ conn, conn ≠ st.conn ∧ sid ∈ s.carried conn := by
    rw [hcarried]
    refine exists_congr fun conn => ?_
    rcases eq_or_ne conn st.conn with rfl | hne
    · simp
    · rw [Function.update_of_ne hne]
      exact (and_iff_right hne).symm
  unfold Registered at h ⊢
  simp only [hactive, hothers, h]
  constructor
  · intro hregistered _
    constructor
    · intro sid hclosed conn hne hmem
      exact ((hregistered sid).mpr ⟨conn, hne, hmem⟩).2 hclosed
    · intro sid hmem
      by_cases hclosed : s.closed factory st = some sid
      · exact .inl hclosed
      · exact .inr ((hregistered sid).mp ⟨⟨st.conn, hmem⟩, hclosed⟩)
  · intro hown sid
    obtain ⟨hcloses, hrest⟩ := hown hend
    constructor
    · rintro ⟨⟨conn, hmem⟩, hclosed⟩
      rcases eq_or_ne conn st.conn with rfl | hne
      · exact (hrest sid hmem).resolve_left hclosed
      · exact ⟨conn, hne, hmem⟩
    · rintro ⟨conn, hne, hmem⟩
      exact ⟨⟨conn, hmem⟩, fun hclosed => hcloses sid hclosed conn hne hmem⟩

/-- **A step keeps the registry right exactly when it closes its own.** -/
theorem registered_step {s : CarriedRun ω π} (h : s.Registered) (st : ConnStep) :
    (s.step factory st).Registered ↔ s.ClosesItsOwn factory st := by
  by_cases hend : st.event = .bye ∨ st.event = .disconnect
  · exact registered_end factory h hend
  · refine iff_of_true (fun sid => ?_) fun hend' => absurd hend' hend
    have hclosed : s.closed factory st = none := by
      unfold closed
      cases hevent : st.event with
      | hello sessionId startSeq => rfl
      | audio env data => rfl
      | bye => exact absurd (.inl hevent) hend
      | disconnect => exact absurd (.inr hevent) hend
    rw [mem_active_step, hclosed, h]
    unfold step
    cases hevent : st.event with
    | hello sessionId startSeq =>
      dsimp only
      constructor
      · rintro (⟨startSeq', heq⟩ | ⟨⟨conn, hmem⟩, -⟩)
        · obtain ⟨rfl, -⟩ := ConnEvent.hello.inj heq
          exact ⟨st.conn, by rw [Function.update_self]; exact Finset.mem_insert_self _ _⟩
        · rcases eq_or_ne conn st.conn with rfl | hne
          · exact ⟨st.conn, by rw [Function.update_self]; exact Finset.mem_insert_of_mem hmem⟩
          · exact ⟨conn, by rwa [Function.update_of_ne hne]⟩
      · rintro ⟨conn, hmem⟩
        rcases eq_or_ne conn st.conn with rfl | hne
        · rw [Function.update_self, Finset.mem_insert] at hmem
          rcases hmem with rfl | hmem
          · exact .inl ⟨startSeq, rfl⟩
          · exact .inr ⟨⟨st.conn, hmem⟩, by simp⟩
        · rw [Function.update_of_ne hne] at hmem
          exact .inr ⟨⟨conn, hmem⟩, by simp⟩
    | audio env data => simp
    | bye => exact absurd (.inl hevent) hend
    | disconnect => exact absurd (.inr hevent) hend

/-- **The registry is right all through a run exactly when every end of a connection closes its
own**: no other connection carries the session it closes, and it carries no further one alone.
SOURCE: sessions/lifecycle.py:35-57, gateway/core.py:400-401, gateway/core.py:477-552 -/
theorem registered_iff (pipelines : ω) (steps : List ConnStep) :
    (∀ steps', steps' <+: steps →
        (run (step factory) (start pipelines) steps').Registered) ↔
      EveryStep (step factory) (ClosesItsOwn factory) (start pipelines) steps := by
  have hstart : (start pipelines : CarriedRun ω π).Registered := by
    intro sid
    simp [start]
  exact forall_prefix_iff_everyStep (I := Registered) (P := ClosesItsOwn factory)
    (fun s st h => registered_step factory h st) hstart steps

end CarriedRun

/-! ## A reconnect -/

/-- Pipelines that hear nothing. -/
def silent : PipelineFactory Unit Unit where
  create _ := ()
  setAudioTarget _ p := p
  ingest _ _ shared p := (.ok [], shared, p)
  flush shared p := (.ok [], shared, p)
  missingRange _ p := (none, p)
  nextExpectedSeq _ := 0

/-- A session comes back on a new connection before the old one ends. -/
def reconnect : List ConnStep :=
  [⟨0, 0, .hello "s" 0⟩, ⟨1, 0, .hello "s" 0⟩, ⟨0, 0, .disconnect⟩]

/-- **After a reconnect the session is carried and not active.** -/
theorem not_always_registered :
    ¬ ∀ (ω π : Type) (factory : PipelineFactory ω π) (pipelines : ω) (steps : List ConnStep),
      (run (CarriedRun.step factory) (.start pipelines) steps).Registered := by
  intro h
  have hright := (h Unit Unit silent () reconnect "s").mpr ⟨1, by decide⟩
  exact absurd hright (by decide)

end OpenRecall.Analysis.ActiveSessions
