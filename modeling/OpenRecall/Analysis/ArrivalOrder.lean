import OpenRecall.Analysis.Reassembly

/-!
# The order of arrival does not matter

Without a gap timeout, a stream that starts at a given number delivers the packets that follow one
another from there, as far as they have arrived, each once and in order. That list depends on which
packets have arrived and not on the order or on how often each did.
-/

set_option autoImplicit false

namespace OpenRecall.Analysis.ArrivalOrder

open Foundation OpenRecall.Model OpenRecall.Analysis.Reassembly

/-- The packets have the numbers from `seq` on, one after another. -/
def Consecutive : ℤ → List AudioPacket → Prop
  | _, [] => True
  | seq, packet :: packets => (packet.chunkSeq : ℤ) = seq ∧ Consecutive (seq + 1) packets

/-- The maximal contiguous run of the packets from `seq` on. -/
structure MaximalRun (seq : ℤ) (packets : Finset AudioPacket) (run : List AudioPacket) : Prop where
  consecutive : Consecutive seq run
  mem : ∀ p ∈ run, p ∈ packets
  maximal : ∀ p ∈ packets, (p.chunkSeq : ℤ) ≠ seq + run.length

theorem consecutive_append (seq : ℤ) (xs ys : List AudioPacket) :
    Consecutive seq (xs ++ ys) ↔ Consecutive seq xs ∧ Consecutive (seq + xs.length) ys := by
  induction xs generalizing seq with
  | nil => simp [Consecutive]
  | cons x xs ih =>
    rw [List.cons_append, Consecutive, Consecutive, ih, and_assoc, List.length_cons]
    push_cast
    rw [add_assoc, add_comm 1]

/-- A number in the range of a run is that of a packet of the run. -/
theorem Consecutive.exists_mem {seq n : ℤ} {run : List AudioPacket} (h : Consecutive seq run)
    (hle : seq ≤ n) (hlt : n < seq + run.length) : ∃ p ∈ run, (p.chunkSeq : ℤ) = n := by
  induction run generalizing seq with
  | nil => simp at hlt; omega
  | cons p run ih =>
    obtain ⟨hp, hrest⟩ := h
    obtain rfl | hne := eq_or_ne seq n
    · exact ⟨p, List.mem_cons_self, hp⟩
    · rw [List.length_cons] at hlt
      push_cast at hlt
      obtain ⟨q, hq, hseq⟩ := ih hrest (by omega) (by omega)
      exact ⟨q, List.mem_cons_of_mem p hq, hseq⟩

/-- **There is one maximal run**, when the numbers of the packets differ. -/
theorem MaximalRun.unique {seq : ℤ} {packets : Finset AudioPacket}
    (hdistinct : Set.InjOn AudioPacket.chunkSeq (packets : Set AudioPacket))
    {run run' : List AudioPacket} (h : MaximalRun seq packets run)
    (h' : MaximalRun seq packets run') : run = run' := by
  induction run generalizing seq run' with
  | nil =>
    cases run' with
    | nil => rfl
    | cons p run' =>
      have hp := h'.mem p List.mem_cons_self
      exact absurd (by simpa using h'.consecutive.1) (h.maximal p hp)
  | cons p run ih =>
    have hp := h.mem p List.mem_cons_self
    cases run' with
    | nil => exact absurd (by simpa using h.consecutive.1) (h'.maximal p hp)
    | cons p' run' =>
      have hp' := h'.mem p' List.mem_cons_self
      have hseq : (p.chunkSeq : ℤ) = p'.chunkSeq := h.consecutive.1.trans h'.consecutive.1.symm
      have heq : p = p' := hdistinct hp hp' (by exact_mod_cast hseq)
      have htail : ∀ {q : AudioPacket} {rest : List AudioPacket},
          MaximalRun seq packets (q :: rest) → MaximalRun (seq + 1) packets rest := by
        intro q rest hrun
        refine ⟨hrun.consecutive.2, fun a ha => hrun.mem a (List.mem_cons_of_mem q ha), ?_⟩
        intro a ha heq
        apply hrun.maximal a ha
        rw [heq, List.length_cons]
        push_cast
        ring
      rw [heq, ih (htail h) (htail h')]

/-! ## One packet -/

/-- What is drained is consecutive. -/
theorem consecutive_drain (fuel : ℕ) {r : SessionReassembler} (hkeyed : r.Keyed) :
    Consecutive r.next (r.drain fuel).1 ∧
      (r.drain fuel).2.next = r.next + (r.drain fuel).1.length := by
  induction fuel generalizing r with
  | zero => exact ⟨trivial, by simp [SessionReassembler.drain]⟩
  | succ fuel ih =>
    rw [SessionReassembler.drain]
    cases hnext : r.buffer.get? r.next with
    | none => exact ⟨trivial, by simp⟩
    | some packet =>
      have hkeyed' : SessionReassembler.Keyed
          { r with buffer := r.buffer.erase r.next, next := r.next + 1 } := by
        intro key p hget
        dsimp only at hget
        rw [Dict.get?_erase] at hget
        split_ifs at hget
        exact hkeyed key p hget
      obtain ⟨hrest, hlength⟩ := ih hkeyed'
      refine ⟨⟨hkeyed _ _ hnext, hrest⟩, ?_⟩
      dsimp only
      rw [hlength, List.length_cons]
      push_cast
      ring

/-- Without a timeout, comparing an anchored stream with a packet gives nothing up.
SOURCE: ingest/reassembler.py:114-118 -/
theorem compared_of_anchored {r : SessionReassembler} (h : r.anchored = true) (now : ℚ)
    (packet : AudioPacket) :
    (compared none now packet r).next = r.next ∧ (compared none now packet r).buffer = r.buffer ∧
      (compared none now packet r).pending = r.pending ∧
      (compared none now packet r).anchored = true := by
  unfold compared SessionReassembler.maybeSkipStaleGap
  rw [if_pos h]
  split <;> exact ⟨rfl, rfl, rfl, h⟩

/-- **The closed form after any arrivals**: the delivered packets are consecutive from the start,
and all that has arrived from the start on is delivered or held. -/
structure Contiguous (startSeq : ℤ) (arrived : List AudioPacket) (s : Stream) : Prop where
  lined : Lined (s.delivered ++ s.reassembler.pending) s.reassembler
  pending : s.reassembler.pending = []
  anchored : s.reassembler.anchored = true
  consecutive : Consecutive startSeq s.delivered
  next : s.reassembler.next = startSeq + s.delivered.length
  mem : ∀ p ∈ held s, p ∈ arrived
  has : ∀ p ∈ arrived, startSeq ≤ p.chunkSeq → p ∈ held s

theorem contiguous_create {startSeq : ℤ} (hstart : 0 < startSeq) :
    Contiguous startSeq [] ⟨.create startSeq, []⟩ where
  lined := lined_create startSeq
  pending := rfl
  anchored := decide_eq_true hstart.ne'
  consecutive := trivial
  next := by simp [SessionReassembler.create]
  mem := by simp [held, SessionReassembler.create, Dict.values, Dict.empty]
  has := by simp

variable {startSeq : ℤ} {arrived : List AudioPacket} {s : Stream}

/-- What a packet adds to the delivered ones follows them.
SOURCE: ingest/reassembler.py:156-201 -/
theorem Contiguous.delivers (h : Contiguous startSeq arrived s) (now : ℚ) (packet : AudioPacket) :
    (step none s (.acceptPackets now packet)).reassembler.pending = [] ∧
      (step none s (.acceptPackets now packet)).reassembler.anchored = true ∧
      Consecutive startSeq (step none s (.acceptPackets now packet)).delivered ∧
      (step none s (.acceptPackets now packet)).reassembler.next =
        startSeq + (step none s (.acceptPackets now packet)).delivered.length := by
  obtain ⟨hnext, hbuffer, hpending, hanchored⟩ := compared_of_anchored h.anchored now packet
  rw [step, acceptPackets_eq]
  generalize compared none now packet s.reassembler = r at hnext hbuffer hpending hanchored
  rw [h.pending] at hpending
  rw [h.next] at hnext
  dsimp only
  by_cases hbehind : (packet.chunkSeq : ℤ) < r.next
  · rw [if_pos hbehind, hpending, List.append_nil]
    exact ⟨rfl, hanchored, h.consecutive, hnext⟩
  · rw [if_neg hbehind]
    by_cases hahead : r.next < packet.chunkSeq
    · rw [if_pos hahead, hpending, List.append_nil]
      exact ⟨rfl, hanchored, h.consecutive, hnext⟩
    · rw [if_neg hahead]
      have hseq : (packet.chunkSeq : ℤ) = startSeq + s.delivered.length := by omega
      obtain ⟨r', hr'⟩ : ∃ r', r' = { r with
          pending := []
          gapOpenedAt := none
          next := r.next + 1 } := ⟨_, rfl⟩
      rw [← hr', hpending, List.nil_append]
      have hkeyed : r'.Keyed := by
        have hheld := h.lined.keyed
        rw [SessionReassembler.Keyed, ← hbuffer] at hheld
        rw [hr']
        exact hheld
      have hahead' : ∀ key ∈ r'.buffer.keys, r'.next ≤ key := by
        intro key hkey
        rw [hr'] at hkey ⊢
        have hheld := h.lined.ahead key (hbuffer ▸ hkey)
        rw [h.next, ← hnext] at hheld
        exact hheld
      have hlength' : r.buffer.keys.length = r'.buffer.keys.length := by rw [hr']
      have hnext' : r'.next = startSeq + s.delivered.length + 1 := by rw [hr', ← hnext]
      obtain ⟨hdrained, hlength⟩ := consecutive_drain r.buffer.keys.length hkeyed
      have hsame := SessionReassembler.drained_drain hlength'.ge hkeyed hahead'
      refine ⟨?_, ?_, ?_, ?_⟩
      · rw [SessionReassembler.pending_drain, hr']
      · rw [hsame.anchored, hr']
        exact hanchored
      · rw [consecutive_append]
        exact ⟨h.consecutive, hseq, hnext' ▸ hdrained⟩
      · rw [hlength, hnext', List.length_append, List.length_cons]
        push_cast
        ring

/-- A packet that is not taken in is behind, or one with its number has arrived.
SOURCE: ingest/reassembler.py:179-183 -/
theorem Contiguous.has_packet (h : Contiguous startSeq arrived s) {packet : AudioPacket}
    (hdistinct : ∀ p ∈ arrived, p.chunkSeq = packet.chunkSeq → p = packet) (now : ℚ)
    (hstart : startSeq ≤ packet.chunkSeq) :
    packet ∈ held (step none s (.acceptPackets now packet)) := by
  obtain ⟨-, hkept, htakes⟩ := h.lined.acceptPackets none now packet
  obtain ⟨hnext, hbuffer, -, -⟩ := compared_of_anchored h.anchored now packet
  by_cases htake : Takes none now packet s.reassembler
  · exact htakes htake
  · rw [Takes, hnext, hbuffer, not_and_or, not_le, not_not] at htake
    apply hkept
    obtain hbehind | hkey := htake
    · rw [h.next] at hbehind
      obtain ⟨p, hp, hseq⟩ := h.consecutive.exists_mem hstart hbehind
      have hmem : p ∈ held s := by simp [held, hp]
      rwa [← hdistinct p (h.mem p hmem) (by exact_mod_cast hseq)]
    · obtain ⟨p, hget⟩ := Option.isSome_iff_exists.mp ((Dict.get?_isSome_iff _ _).mpr hkey)
      have hseq := h.lined.keyed _ p hget
      have hmem : p ∈ held s := by
        rw [held, List.mem_append]
        exact .inr ((Dict.mem_values_iff _ _).mpr ⟨_, hget⟩)
      rwa [← hdistinct p (h.mem p hmem) (by exact_mod_cast hseq)]

/-- **The step lemma.** -/
theorem Contiguous.acceptPackets (h : Contiguous startSeq arrived s) {packet : AudioPacket}
    (hdistinct : ∀ p ∈ arrived, p.chunkSeq = packet.chunkSeq → p = packet) (now : ℚ) :
    Contiguous startSeq (arrived ++ [packet]) (step none s (.acceptPackets now packet)) := by
  obtain ⟨hlined, hkept, -⟩ := h.lined.acceptPackets none now packet
  obtain ⟨hpending, hanchored, hconsecutive, hnext⟩ := h.delivers now packet
  refine ⟨hlined, hpending, hanchored, hconsecutive, hnext, fun p hp => ?_, fun p hp hle => ?_⟩
  · rw [List.mem_append, List.mem_singleton]
    exact (h.lined.mem_held none hp).imp_left (h.mem p)
  · rw [List.mem_append, List.mem_singleton] at hp
    obtain hp | rfl := hp
    · exact hkept p (h.has p hp hle)
    · exact h.has_packet hdistinct now hle

/-! ## Arrivals -/

/-- Packets that arrive one after another, each with what the clock then says. -/
def arrivals (packets : List (ℚ × AudioPacket)) : List ReassemblerCall :=
  packets.map fun a => .acceptPackets a.1 a.2

/-- **The run lemma**: the closed form holds after any arrivals of packets whose numbers differ. -/
theorem contiguous_after (hstart : 0 < startSeq) (packets : List (ℚ × AudioPacket))
    (hdistinct : ∀ a ∈ packets, ∀ b ∈ packets, a.2.chunkSeq = b.2.chunkSeq → a.2 = b.2) :
    Contiguous startSeq (packets.map Prod.snd) (after none startSeq (arrivals packets)) := by
  induction packets using List.reverseRecOn with
  | nil => exact contiguous_create hstart
  | append_singleton packets a ih =>
    have hbefore := ih fun b hb c hc => hdistinct b (List.mem_append_left _ hb) c
      (List.mem_append_left _ hc)
    rw [List.map_append, after, arrivals, List.map_append, run_append]
    apply hbefore.acceptPackets
    intro p hp hseq
    obtain ⟨b, hb, rfl⟩ := List.mem_map.mp hp
    exact hdistinct b (List.mem_append_left _ hb) a (by simp) hseq

/-- What is delivered is the maximal run of what has arrived. -/
theorem Contiguous.maximalRun (h : Contiguous startSeq arrived s) {packets : Finset AudioPacket}
    (harrived : arrived.toFinset = packets) : MaximalRun startSeq packets s.delivered where
  consecutive := h.consecutive
  mem p hp := by
    rw [← harrived, List.mem_toFinset]
    apply h.mem
    simp [held, hp]
  maximal p hp heq := by
    rw [← harrived, List.mem_toFinset] at hp
    have hmem := h.has p hp (by omega)
    rw [held, h.pending, List.append_nil, List.mem_append] at hmem
    rw [← h.next] at heq
    obtain hmem | hmem := hmem
    · have hlt := h.lined.behind p (by simp [hmem])
      omega
    · -- A held packet is held under its number, which is ahead of the next one.
      obtain ⟨key, hget⟩ := (Dict.mem_values_iff _ _).mp hmem
      have hkey := h.lined.keyed key p hget
      have hlt := h.lined.ahead key ((Dict.get?_isSome_iff _ _).mp (by rw [hget]; rfl))
      omega

/-- **Reassembly does not depend on the order of arrival.** Without a gap timeout and from a
positive start, any two ways in which the same packets arrive, each once or more, deliver the same
list: the maximal run of packets from the start on.
SOURCE: ingest/reassembler.py:147-201 -/
theorem delivered_eq_of_same_packets (hstart : 0 < startSeq) {packets : Finset AudioPacket}
    (hdistinct : Set.InjOn AudioPacket.chunkSeq (packets : Set AudioPacket))
    {first second : List (ℚ × AudioPacket)} (hfirst : (first.map Prod.snd).toFinset = packets)
    (hsecond : (second.map Prod.snd).toFinset = packets) :
    (after none startSeq (arrivals first)).delivered =
        (after none startSeq (arrivals second)).delivered ∧
      MaximalRun startSeq packets (after none startSeq (arrivals first)).delivered := by
  have hrun : ∀ arrived : List (ℚ × AudioPacket), (arrived.map Prod.snd).toFinset = packets →
      MaximalRun startSeq packets (after none startSeq (arrivals arrived)).delivered := by
    intro arrived harrived
    have hmem : ∀ a ∈ arrived, a.2 ∈ packets := by
      intro a ha
      rw [← harrived, List.mem_toFinset]
      exact List.mem_map_of_mem ha
    apply (contiguous_after hstart arrived fun a ha b hb hseq => ?_).maximalRun harrived
    exact hdistinct (hmem a ha) (hmem b hb) hseq
  exact ⟨(hrun first hfirst).unique hdistinct (hrun second hsecond), hrun first hfirst⟩

/-- A packet without frames. -/
def silentChunk (seq : ℕ) : AudioPacket where
  version := 1
  ptype := .live
  chunkSeq := seq
  relTsMs := 60 * seq
  vadState := .gapMarker
  flags := 0
  frames := []

def someChunks : Finset AudioPacket := ([1, 2, 3, 5].map silentChunk).toFinset

theorem someChunks_injOn : Set.InjOn AudioPacket.chunkSeq (someChunks : Set AudioPacket) := by
  intro p hp q hq hseq
  rw [someChunks, Finset.mem_coe, List.mem_toFinset, List.mem_map] at hp hq
  obtain ⟨m, -, rfl⟩ := hp
  obtain ⟨n, -, rfl⟩ := hq
  exact congrArg silentChunk hseq

/-- In order, and shuffled with a packet that comes twice: the first three are delivered. -/
theorem delivered_eq_someChunks :
    (after none 1 (arrivals [(0, silentChunk 1), (1, silentChunk 2), (2, silentChunk 3),
        (3, silentChunk 5)])).delivered =
      (after none 1 (arrivals [(0, silentChunk 3), (5, silentChunk 1), (6, silentChunk 5),
        (7, silentChunk 2), (8, silentChunk 1)])).delivered :=
  (delivered_eq_of_same_packets (by decide) someChunks_injOn (by decide +kernel)
    (by decide +kernel)).1

end OpenRecall.Analysis.ArrivalOrder
