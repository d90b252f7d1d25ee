import OpenRecall.Foundation.Run
import OpenRecall.Model.Gateway

/-!
# Connections

Any number of connections, each with a `GatewayCore` of its own, over one world. A step is
one handler call on one connection; the transport makes them in any order across
connections.
-/

set_option autoImplicit false

namespace OpenRecall.Model

open Foundation

/-- What a connection's transport calls. -/
inductive ConnEvent where
  | hello (sessionId : String) (startSeq : ℤ)
  | audio (env : IngestEnv) (data : Bytes)
  | bye
  | disconnect

/-- One handler call at one time on one connection. -/
structure ConnStep where
  conn : ℕ
  now : Time := 0
  event : ConnEvent

/-- The world, the core of each connection, and the transcripts emitted so far. -/
structure GatewayRun (ω π : Type) where
  world : GatewayWorld ω
  cores : ℕ → GatewayCore π := fun _ => {}
  emitted : List Emission := []

namespace GatewayRun

variable {ω π : Type}

/-- The handler call of a step. -/
def handle (factory : PipelineFactory ω π) (s : GatewayRun ω π) (st : ConnStep) :
    GatewayCore.Handled × GatewayCore π × GatewayWorld ω :=
  match st.event with
  | .hello sessionId startSeq => GatewayCore.onHello factory sessionId startSeq s.world
  | .audio env data => (s.cores st.conn).onAudio factory env st.now data s.world
  | .bye => (s.cores st.conn).onBye factory st.now s.world
  | .disconnect => (s.cores st.conn).onDisconnect factory st.now s.world

def step (factory : PipelineFactory ω π) (s : GatewayRun ω π) (st : ConnStep) :
    GatewayRun ω π where
  world := (s.handle factory st).2.2
  cores := Function.update s.cores st.conn (s.handle factory st).2.1
  emitted := s.emitted ++ (s.handle factory st).1.emissions

/-- The transcripts that the connection's pipeline hands over in a step. -/
def transcripts (factory : PipelineFactory ω π) (s : GatewayRun ω π) (st : ConnStep) :
    List Transcript :=
  match st.event with
  | .hello _ _ => []
  | .audio env data => (s.cores st.conn).ingested factory env data s.world
  | .bye | .disconnect => (s.cores st.conn).flushed factory s.world

/-- Every transcript the pipeline hands over is emitted. -/
theorem length_emissions (factory : PipelineFactory ω π) (s : GatewayRun ω π) (st : ConnStep) :
    (s.handle factory st).1.emissions.length = (s.transcripts factory st).length := by
  unfold handle transcripts
  cases st.event with
  | hello sessionId startSeq => rfl
  | audio env data => exact GatewayCore.length_emissions_onAudio factory env st.now data _ _
  | bye => exact GatewayCore.length_emissions_onBye factory st.now _ _
  | disconnect => exact GatewayCore.length_emissions_onDisconnect factory st.now _ _

/-- What a step does: a `hello` binds the connection and seeds its counter from the store;
every other step numbers events of the session the connection is bound to, if any, and leaves
it bound as it was or unbound. -/
theorem handle_cases (factory : PipelineFactory ω π) (s : GatewayRun ω π) (st : ConnStep) :
    (∃ sessionId startSeq, st.event = .hello sessionId startSeq ∧
      (s.handle factory st).1.emissions = [] ∧
      (s.handle factory st).2.1.sessionId = some sessionId ∧
      (s.handle factory st).2.1.eventSeq =
        (GatewayCore.resume sessionId s.world.store).1 ∧
      (s.handle factory st).2.2.store = s.world.store) ∨
    ((∀ sessionId startSeq, st.event ≠ .hello sessionId startSeq) ∧
      GatewayCore.Leaves (s.cores st.conn) s.world (s.handle factory st) ∧
      ((s.handle factory st).2.1.sessionId = (s.cores st.conn).sessionId ∨
        (s.handle factory st).2.1.sessionId = none)) := by
  unfold handle
  cases st.event with
  | hello sessionId startSeq =>
    exact Or.inl ⟨sessionId, startSeq, rfl, rfl, rfl, rfl, rfl⟩
  | audio env data =>
    obtain ⟨hleaves, hsid⟩ :=
      GatewayCore.onAudio_leaves factory env st.now data (s.cores st.conn) s.world
    exact Or.inr ⟨nofun, hleaves, Or.inl hsid⟩
  | bye =>
    obtain ⟨hleaves, hsid⟩ := GatewayCore.onBye_leaves factory st.now (s.cores st.conn) s.world
    exact Or.inr ⟨nofun, hleaves, hsid⟩
  | disconnect =>
    obtain ⟨hleaves, hsid⟩ :=
      GatewayCore.onDisconnect_leaves factory st.now (s.cores st.conn) s.world
    exact Or.inr ⟨nofun, hleaves, Or.inl hsid⟩

end GatewayRun

end OpenRecall.Model
