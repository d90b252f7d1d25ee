import OpenRecall.Model.Connections

/-!
# The numbering of a session's events

Every connection of a session numbers the session's events with its own counter, seeded when
it said `hello`. The store refuses an id it has seen, so a transcript is lost as soon as
another connection used its number first: an old connection's last flush after the new
connection's `hello` is enough. No transcript is lost exactly when every transcript is
emitted by a connection whose counter is the next free number of the session.
-/

set_option autoImplicit false

namespace OpenRecall.Analysis.EventSequence

open Foundation OpenRecall.Model

/-- The id tells the number. -/
theorem eventId_injective {sid : String} {a b : ℤ} (h : eventId sid a = eventId sid b) : a = b :=
  Int.repr_injective ((String.append_right_inj _).mp h)

/-- The session's events are numbered `0, …, n - 1`, and those are the numbers in use. -/
structure Counted (sid : String) (st : InMemoryEventStore) (n : ℕ) : Prop where
  seqs : (st.rows sid).map CaptureEvent.seq = (List.range n).map Nat.cast
  seen : ∀ k : ℕ, eventId sid k ∈ st.seen ↔ k < n

/-- A store without events of the session. -/
theorem counted_zero {sid : String} {st : InMemoryEventStore} (hrows : st.rows sid = [])
    (hseen : ∀ k : ℕ, eventId sid k ∉ st.seen) : Counted sid st 0 where
  seqs := by simp [hrows]
  seen k := by simp [hseen k]

variable {sid : String} {st : InMemoryEventStore} {n : ℕ}

theorem Counted.sorted (h : Counted sid st n) :
    (st.rows sid).Pairwise fun a b => a.seq < b.seq := by
  have hmap : ((st.rows sid).map CaptureEvent.seq).Pairwise (· < ·) := by
    rw [h.seqs, List.pairwise_map]
    exact List.pairwise_lt_range.imp fun hab => by exact_mod_cast hab
  exact List.pairwise_map.mp hmap

/-- The next free number of a session. -/
def nextSeq (sid : String) (st : InMemoryEventStore) : ℤ := (GatewayCore.resume sid st).1

/-- It is the first one that is not in use. -/
theorem Counted.nextSeq_eq (h : Counted sid st n) : nextSeq sid st = n := by
  have hlength : (st.rows sid).length = n := by
    have := congrArg List.length h.seqs
    simpa using this
  unfold nextSeq GatewayCore.resume
  cases hlast : st.lastEvent sid with
  | none =>
    have hnil := (st.lastEvent_eq_none_iff sid).mp hlast
    rw [hnil] at hlength
    simp only [List.length_nil] at hlength
    simp [← hlength]
  | some prior =>
    have hmem := InMemoryEventStore.lastEvent_mem hlast
    have hpos : 0 < n := by
      rw [← hlength]
      exact List.length_pos_of_mem hmem
    have hprior : prior.seq ∈ (List.range n).map (Nat.cast : ℕ → ℤ) := by
      rw [← h.seqs]
      exact List.mem_map_of_mem hmem
    obtain ⟨k, hk, hkseq⟩ := List.mem_map.mp hprior
    have htop : ((n - 1 : ℕ) : ℤ) ∈ (st.rows sid).map CaptureEvent.seq := by
      rw [h.seqs]
      exact List.mem_map_of_mem (List.mem_range.mpr (by omega))
    obtain ⟨top, htopmem, htopseq⟩ := List.mem_map.mp htop
    have hle := InMemoryEventStore.le_lastEvent hlast htopmem
    have hlt := List.mem_range.mp hk
    dsimp only
    omega

/-- An event with a number in use is refused; the next number is taken. -/
theorem Counted.append (h : Counted sid st n) {e : CaptureEvent} {k : ℕ}
    (hid : e.eventId = eventId sid k) (hsid : e.sessionId = sid) (hseq : e.seq = k)
    (hk : k ≤ n) :
    (k < n ∧ st.append e = (false, st)) ∨
      (k = n ∧ (st.append e).1 = true ∧ Counted sid (st.append e).2 (n + 1)) := by
  rcases Nat.lt_or_eq_of_le hk with hlt | rfl
  · have hin : e.eventId ∈ st.seen := by
      rw [hid]
      exact (h.seen k).mpr hlt
    exact Or.inl ⟨hlt, by simp [InMemoryEventStore.append, hin]⟩
  · have hout : e.eventId ∉ st.seen := by
      rw [hid, h.seen]
      exact Nat.lt_irrefl k
    refine Or.inr ⟨rfl, by simp [InMemoryEventStore.append, hout], ?_, ?_⟩
    · rw [InMemoryEventStore.rows_append, if_pos ⟨hout, hsid⟩, List.map_append, h.seqs,
        List.range_succ, List.map_append]
      simp [hseq]
    · intro j
      have hseen : (st.append e).2.seen = insert e.eventId st.seen := by
        simp [InMemoryEventStore.append, hout]
      rw [hseen, Finset.mem_insert, h.seen, hid]
      constructor
      · rintro (heq | hlt)
        · have := eventId_injective heq
          omega
        · omega
      · intro hj
        rcases Nat.lt_succ_iff_lt_or_eq.mp hj with hlt | rfl
        · exact Or.inr hlt
        · exact Or.inl rfl

/-- The emissions of a stretch of numbering that starts at most at the next free number: the
stored ones are new and in order, and all are stored if and only if there are none or the
stretch starts at the next free number. -/
theorem Counted.emits (h : Counted sid st n) {k : ℕ} (hk : k ≤ n) {emissions : List Emission}
    {c' : ℤ} {st' : InMemoryEventStore}
    (hemits : GatewayCore.Emits sid k st emissions c' st') :
    ∃ n' k' : ℕ, Counted sid st' n' ∧ n ≤ n' ∧ c' = k' ∧ k' ≤ n' ∧
      (∀ em ∈ emissions, em.event.eventId = eventId sid em.event.seq ∧
        (em.stored = true → (n : ℤ) ≤ em.event.seq ∧ em.event.seq < n')) ∧
      ((emissions.filter Emission.stored).map fun em => em.event.seq).Pairwise (· < ·) ∧
      ((∀ em ∈ emissions, em.stored = true) ↔ (emissions ≠ [] → k = n)) := by
  generalize hc : (k : ℤ) = c at hemits
  induction hemits generalizing k n with
  | nil c st =>
    subst hc
    exact ⟨n, k, h, le_rfl, rfl, hk, by simp, by simp, by simp⟩
  | moment e hid hsid hseq hkind =>
    subst hc
    rcases h.append hid hsid hseq hk with ⟨hlt, hrefused⟩ | ⟨rfl, hstored, hnext⟩
    · rw [hrefused]
      exact ⟨n, k + 1, h, le_rfl, by push_cast; rfl, hlt, by simp, by simp, by simp⟩
    · exact ⟨k + 1, k + 1, hnext, by omega, by push_cast; rfl, le_rfl, by simp, by simp, by simp⟩
  | transcript e hid hsid hseq hkind rest ih =>
    subst hc
    rcases h.append hid hsid hseq hk with ⟨hlt, hrefused⟩ | ⟨rfl, hstored, hnext⟩
    · -- the number is in use, and the transcript is lost
      obtain ⟨n', k', hcounted, hle, hc', hk', hems, hsorted, -⟩ :=
        ih (by rw [hrefused]; exact h) hlt (by push_cast; rfl)
      refine ⟨n', k', hcounted, hle, hc', hk', ?_, ?_, ?_⟩
      · intro em hem
        rcases List.mem_cons.mp hem with rfl | hem
        · exact ⟨by rw [hid, hseq], fun h => by simp [hrefused] at h⟩
        · exact hems em hem
      · rw [List.filter_cons_of_neg (by simp [hrefused])]
        exact hsorted
      · constructor
        · intro hall
          have := hall _ List.mem_cons_self
          simp [hrefused] at this
        · intro hall
          have := hall (List.cons_ne_nil _ _)
          omega
    · obtain ⟨n', k', hcounted, hle, hc', hk', hems, hsorted, hall⟩ :=
        ih hnext le_rfl (by push_cast; rfl)
      refine ⟨n', k', hcounted, by omega, hc', hk', ?_, ?_, ?_⟩
      · intro em hem
        rcases List.mem_cons.mp hem with rfl | hem
        · refine ⟨by rw [hid, hseq], fun _ => ?_⟩
          rw [hseq]
          omega
        · obtain ⟨hemid, hemseq⟩ := hems em hem
          refine ⟨hemid, fun hst => ?_⟩
          have := hemseq hst
          push_cast at this
          omega
      · rw [List.filter_cons_of_pos (p := Emission.stored) hstored, List.map_cons, List.pairwise_cons]
        refine ⟨?_, hsorted⟩
        intro seq hin
        obtain ⟨em, hem, rfl⟩ := List.mem_map.mp hin
        obtain ⟨hem, hst⟩ := List.mem_filter.mp hem
        have := ((hems em hem).2 hst).1
        push_cast at this
        rw [hseq]
        omega
      · rw [List.forall_mem_cons]
        constructor
        · intro _ _
          rfl
        · intro _
          exact ⟨hstored, hall.mpr fun _ => rfl⟩

/-! ## Runs of connections -/

section

variable {ω π : Type} (factory : PipelineFactory ω π)

/-- Every transcript emitted so far was stored, under an id of its own, and the session's
events are stored in the order of their numbers. -/
structure Intact (sid : String) (s : GatewayRun ω π) : Prop where
  stored : ∀ em ∈ s.emitted, em.stored = true
  ids : (s.emitted.map fun em => em.event.eventId).Nodup
  sorted : (s.world.store.rows sid).Pairwise fun a b => a.seq < b.seq

/-- If the pipeline hands transcripts over, the counter of the connection is the next free
number of the session. -/
def UpToDate (sid : String) (s : GatewayRun ω π) (st : ConnStep) : Prop :=
  s.transcripts factory st ≠ [] → (s.cores st.conn).eventSeq = nextSeq sid s.world.store

instance (sid : String) (s : GatewayRun ω π) (st : ConnStep) :
    Decidable (UpToDate factory sid s st) :=
  inferInstanceAs (Decidable (_ → _))

/-- A `hello` is for this session. -/
def ForSession (sid : String) (st : ConnStep) : Prop :=
  ∀ sessionId startSeq, st.event = .hello sessionId startSeq → sessionId = sid

/-- Where a run stands: the session has `n` events, no connection's counter is past them, and
the stored transcripts are among them. -/
structure Numbered (sid : String) (s : GatewayRun ω π) (n : ℕ) : Prop where
  counted : Counted sid s.world.store n
  cores : ∀ conn sessionId, (s.cores conn).sessionId = some sessionId →
    sessionId = sid ∧ ∃ k : ℕ, (s.cores conn).eventSeq = k ∧ k ≤ n
  emitted : ∀ em ∈ s.emitted, em.event.eventId = eventId sid em.event.seq ∧
    (em.stored = true → em.event.seq < n)
  ordered : ((s.emitted.filter Emission.stored).map fun em => em.event.seq).Pairwise (· < ·)

/-- In such a run it is enough that every transcript was stored. -/
theorem Numbered.intact_iff {s : GatewayRun ω π} (h : Numbered sid s n) :
    Intact sid s ↔ ∀ em ∈ s.emitted, em.stored = true := by
  refine ⟨Intact.stored, fun hall => ⟨hall, ?_, h.counted.sorted⟩⟩
  have hordered := h.ordered
  rw [List.filter_eq_self.mpr hall, List.pairwise_map] at hordered
  rw [List.Nodup, List.pairwise_map]
  apply hordered.imp_of_mem
  intro a b ha hb hlt heq
  rw [(h.emitted a ha).1, (h.emitted b hb).1] at heq
  have := eventId_injective heq
  omega

/-- One step keeps the numbering, and stores all it emits exactly when the connection is up to
date. -/
theorem Numbered.step {s : GatewayRun ω π} (h : Numbered sid s n) {st : ConnStep}
    (hsession : ForSession sid st) :
    (∃ n', Numbered sid (s.step factory st) n') ∧
      ((∀ em ∈ (s.handle factory st).1.emissions, em.stored = true) ↔
        UpToDate factory sid s st) := by
  have hcores : ∀ (n' : ℕ), n ≤ n' →
      (∀ sessionId, (s.handle factory st).2.1.sessionId = some sessionId →
        sessionId = sid ∧ ∃ k : ℕ, (s.handle factory st).2.1.eventSeq = k ∧ k ≤ n') →
      ∀ conn sessionId, ((s.step factory st).cores conn).sessionId = some sessionId →
        sessionId = sid ∧ ∃ k : ℕ, ((s.step factory st).cores conn).eventSeq = k ∧ k ≤ n' := by
    intro n' hle hconn conn sessionId
    by_cases hsame : conn = st.conn
    · subst hsame
      simp only [GatewayRun.step, Function.update_self]
      exact hconn sessionId
    · simp only [GatewayRun.step, Function.update_of_ne hsame]
      intro hbound
      obtain ⟨hsid, k, hk, hkn⟩ := h.cores conn sessionId hbound
      exact ⟨hsid, k, hk, hkn.trans hle⟩
  have hnone : (s.handle factory st).1.emissions = [] → s.transcripts factory st = [] := by
    intro hnil
    have hlength := s.length_emissions factory st
    rw [hnil] at hlength
    exact List.eq_nil_of_length_eq_zero hlength.symm
  rcases s.handle_cases factory st with
    ⟨sessionId, startSeq, hevent, hems, hbound, hseq, hstore⟩ | ⟨-, hleaves, hbound⟩
  · -- a `hello` takes the next free number and emits nothing
    obtain rfl := hsession sessionId startSeq hevent
    refine ⟨⟨n, ?_, hcores n le_rfl ?_, ?_, ?_⟩, ?_⟩
    · change Counted sessionId (s.handle factory st).2.2.store n
      rw [hstore]
      exact h.counted
    · intro sessionId' hbound'
      rw [hbound] at hbound'
      refine ⟨(Option.some.inj hbound').symm, n, ?_, le_rfl⟩
      rw [hseq]
      exact h.counted.nextSeq_eq
    · simp only [GatewayRun.step, hems, List.append_nil]
      exact h.emitted
    · simp only [GatewayRun.step, hems, List.append_nil]
      exact h.ordered
    · rw [UpToDate, hnone hems, hems]
      simp
  · unfold GatewayCore.Leaves at hleaves
    cases hcore : (s.cores st.conn).sessionId with
    | none =>
      -- a connection without a session emits nothing
      rw [hcore] at hleaves hbound
      obtain ⟨hems, hstore⟩ := hleaves
      refine ⟨⟨n, ?_, hcores n le_rfl ?_, ?_, ?_⟩, ?_⟩
      · change Counted sid (s.handle factory st).2.2.store n
        rw [hstore]
        exact h.counted
      · intro sessionId' hbound'
        rw [or_self] at hbound
        rw [hbound] at hbound'
        cases hbound'
      · simp only [GatewayRun.step, hems, List.append_nil]
        exact h.emitted
      · simp only [GatewayRun.step, hems, List.append_nil]
        exact h.ordered
      · rw [UpToDate, hnone hems, hems]
        simp
    | some sessionId =>
      rw [hcore] at hleaves hbound
      dsimp only at hleaves
      obtain ⟨rfl, k, hk, hkn⟩ := h.cores st.conn sessionId hcore
      rw [hk] at hleaves
      obtain ⟨n', k', hcounted, hle, hc', hk', hems, hordered, hall⟩ :=
        h.counted.emits hkn hleaves
      refine ⟨⟨n', hcounted, hcores n' hle ?_, ?_, ?_⟩, ?_⟩
      · intro sessionId' hbound'
        rcases hbound with hbound | hbound
        · rw [hbound] at hbound'
          exact ⟨(Option.some.inj hbound').symm, k', hc', hk'⟩
        · rw [hbound] at hbound'
          cases hbound'
      · intro em hem
        rcases List.mem_append.mp hem with hem | hem
        · obtain ⟨hid, hlt⟩ := h.emitted em hem
          refine ⟨hid, fun hst => ?_⟩
          have := hlt hst
          omega
        · exact ⟨(hems em hem).1, fun hst => ((hems em hem).2 hst).2⟩
      · rw [GatewayRun.step, List.filter_append, List.map_append, List.pairwise_append]
        refine ⟨h.ordered, hordered, ?_⟩
        intro a ha b hb
        obtain ⟨em, hem, rfl⟩ := List.mem_map.mp ha
        obtain ⟨em', hem', rfl⟩ := List.mem_map.mp hb
        obtain ⟨hem, hst⟩ := List.mem_filter.mp hem
        obtain ⟨hem', hst'⟩ := List.mem_filter.mp hem'
        have hlt := (h.emitted em hem).2 hst
        have hge := ((hems em' hem').2 hst').1
        omega
      · rw [hall, UpToDate, hk, h.counted.nextSeq_eq]
        constructor
        · intro hup hsome
          exact_mod_cast hup fun hnil => hsome (hnone hnil)
        · intro hup hsome
          have hlength := s.length_emissions factory st
          refine Int.ofNat_inj.mp (hup ?_)
          intro hnil
          rw [hnil, List.length_nil] at hlength
          exact hsome (List.eq_nil_of_length_eq_zero hlength)

/-- **No transcript is lost or stored twice, over any steps of any connections of a session, if
and only if every step that emits a transcript is made by a connection whose counter is the
next free number of the session**: none that an event of another connection has overtaken.
SOURCE: gateway/core.py:369-416, gateway/core.py:516-552, gateway/core.py:616-698,
events/store.py:111-126 -/
theorem intact_iff_upToDate (world : GatewayWorld ω) (hstore : Counted sid world.store n)
    (steps : List ConnStep) (hsession : ∀ st ∈ steps, ForSession sid st) :
    Intact sid (run (GatewayRun.step factory) { world := world } steps) ↔
      EveryStep (GatewayRun.step factory) (UpToDate factory sid) { world := world } steps := by
  have hstart : ∃ n, Numbered sid ({ world := world } : GatewayRun ω π) n :=
    ⟨n, hstore, by simp, by simp, by simp⟩
  have hallowed : EveryStep (GatewayRun.step factory) (fun _ st => ForSession sid st)
      { world := world } steps := everyStep_of_forall _ hsession
  have hrule := run_iff_everyStep (I := fun s => ∃ n, Numbered sid s n)
    (G := fun s : GatewayRun ω π => ∀ em ∈ s.emitted, em.stored = true)
    (P := UpToDate factory sid)
    (fun s st ⟨n, h⟩ hst => (h.step factory hst).1)
    (fun s st ⟨n, h⟩ hst => by
      rw [← (h.step factory hst).2]
      exact List.forall_mem_append)
    hstart hallowed
  obtain ⟨m, hend⟩ : ∃ m, Numbered sid
      (run (GatewayRun.step factory) { world := world } steps) m :=
    EveryStep.invariant (I := fun s => ∃ n, Numbered sid s n)
      (fun s st ⟨n, h⟩ hst => (h.step factory hst).1) hstart hallowed
  rw [hend.intact_iff, hrule]
  simp

end

/-! ## A late flush -/

/-- A pipeline that holds each transcript until the next packet, or the end, brings it out. -/
def holding : PipelineFactory Unit (List Transcript) where
  create _ := []
  setAudioTarget _ held := held
  ingest _ packet shared held :=
    (.ok held, shared, [{ text := "said at " ++ toString packet.relTsMs, durationMs := 1000 }])
  flush shared held := (.ok held, shared, [])
  missingRange _ held := (none, held)
  nextExpectedSeq _ := 0

/-- A packet without frames. -/
def chunk (chunkSeq relTs : UInt8) : Bytes := [0, chunkSeq, 0, 0, 0, relTs, 0, 0, 0, 1, 0, 0]

/-- The second connection says `hello` and emits before the first is torn down. -/
def lateFlush : List ConnStep :=
  [⟨0, 0, .hello "s" 0⟩, ⟨0, 0, .audio {} (chunk 0 0)⟩, ⟨1, 0, .hello "s" 0⟩,
    ⟨1, 0, .audio {} (chunk 1 20)⟩, ⟨1, 0, .audio {} (chunk 2 40)⟩, ⟨0, 0, .disconnect⟩]

theorem counted_empty (sid : String) : Counted sid {} 0 :=
  counted_zero rfl fun _ => Finset.notMem_empty _

theorem intact_iff_upToDate_lateFlush :
    Intact "s" (run (GatewayRun.step holding) { world := { pipelines := () } } lateFlush) ↔
      EveryStep (GatewayRun.step holding) (UpToDate holding "s")
        { world := { pipelines := () } } lateFlush :=
  intact_iff_upToDate holding { pipelines := () } (counted_empty "s") lateFlush (by
    intro st hst sessionId startSeq hevent
    fin_cases hst <;> simp_all)

/-- **The last transcript of the old connection is lost**: the new connection used its number. -/
theorem not_always_intact :
    ¬ ∀ (ω π : Type) (factory : PipelineFactory ω π) (sid : String) (world : GatewayWorld ω)
      (n : ℕ), Counted sid world.store n →
      ∀ steps : List ConnStep, (∀ st ∈ steps, ForSession sid st) →
        Intact sid (run (GatewayRun.step factory) { world := world } steps) := by
  intro h
  have hintact := h Unit (List Transcript) holding "s" { pipelines := () } 0 (counted_empty "s")
    lateFlush (by
      intro st hst sessionId startSeq hevent
      fin_cases hst <;> simp_all)
  have hlost : ∃ em ∈ (run (GatewayRun.step holding) { world := { pipelines := () } }
      lateFlush).emitted, em.stored = false := by decide +kernel
  obtain ⟨em, hem, hfalse⟩ := hlost
  rw [hintact.stored em hem] at hfalse
  cases hfalse

end OpenRecall.Analysis.EventSequence
