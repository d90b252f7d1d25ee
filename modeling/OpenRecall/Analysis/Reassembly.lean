import OpenRecall.Foundation.Run
import OpenRecall.Model.Reassembler

/-!
# The order of a reassembled stream

Packets arrive in any order, some of them twice, and between them the gap at the head of the
stream is asked about; either call may give a gap up. What was delivered, then what is parked,
then what is held is one list without repetition, split by the number that is expected next.
Taking a packet in, giving a gap up and delivering move that number up and packets from the end
of the list towards its front, and drop none.
-/

set_option autoImplicit false

namespace OpenRecall.Analysis.Reassembly

open Foundation OpenRecall.Model

/-- A call of the reassembler, with what its clock then says. -/
inductive ReassemblerCall where
  | acceptPackets (now : ℚ) (packet : AudioPacket)
  | missingRange (now : ℚ)

/-- A reassembler and all it has delivered. -/
structure Stream where
  reassembler : SessionReassembler
  delivered : List AudioPacket := []

section

variable (gapTimeoutMs : Option ℤ)

def step (s : Stream) : ReassemblerCall → Stream
  | .acceptPackets now packet =>
    let (delivered, reassembler) := s.reassembler.acceptPackets gapTimeoutMs now packet
    ⟨reassembler, s.delivered ++ delivered⟩
  | .missingRange now => { s with reassembler := (s.reassembler.missingRange gapTimeoutMs now).2 }

/-- The stream after the calls. -/
def after (startSeq : ℤ) (calls : List ReassemblerCall) : Stream :=
  run (step gapTimeoutMs) ⟨.create startSeq, []⟩ calls

/-- The reassembler when a packet is compared with what it expects: anchored, and a stale gap
given up.
SOURCE: ingest/reassembler.py:160-179 -/
def compared (now : ℚ) (packet : AudioPacket) (r : SessionReassembler) : SessionReassembler :=
  (if r.anchored then r
    else { r with next := packet.chunkSeq, anchored := true }).maybeSkipStaleGap gapTimeoutMs now

/-- The packet is not behind when it is compared, and none with its number is held. -/
def Takes (now : ℚ) (packet : AudioPacket) (r : SessionReassembler) : Prop :=
  (compared gapTimeoutMs now packet r).next ≤ packet.chunkSeq ∧
    ↑packet.chunkSeq ∉ (compared gapTimeoutMs now packet r).buffer.keys

/-- How often a packet is among what was delivered, parked and held. -/
def places (s : Stream) (packet : AudioPacket) : ℕ :=
  s.delivered.count packet + s.reassembler.pending.count packet +
    s.reassembler.buffer.values.count packet

/-- **The stream is in order**: what was delivered increases; every packet that was taken is in
one place; what is held is ahead of the next number, what is parked behind it; and a gap is
reported, from the next number to the lowest that is held, just when something is held. -/
structure InOrder (startSeq : ℤ) (calls : List ReassemblerCall) : Prop where
  increasing : ((after gapTimeoutMs startSeq calls).delivered.map AudioPacket.chunkSeq).Pairwise
    (· < ·)
  one_place : ∀ earlier now packet later, calls = earlier ++ .acceptPackets now packet :: later →
    Takes gapTimeoutMs now packet (after gapTimeoutMs startSeq earlier).reassembler →
    places (after gapTimeoutMs startSeq calls) packet = 1
  ahead : ∀ key ∈ (after gapTimeoutMs startSeq calls).reassembler.buffer.keys,
    (after gapTimeoutMs startSeq calls).reassembler.next < key
  behind : ∀ packet ∈ (after gapTimeoutMs startSeq calls).reassembler.pending,
    packet.chunkSeq < (after gapTimeoutMs startSeq calls).reassembler.next
  missing : ∀ now start stop,
    ((after gapTimeoutMs startSeq calls).reassembler.missingRange gapTimeoutMs now).1 =
        some (start, stop) ↔
      start = (after gapTimeoutMs startSeq (calls ++ [.missingRange now])).reassembler.next ∧
        stop ∈ (after gapTimeoutMs startSeq
          (calls ++ [.missingRange now])).reassembler.buffer.keys ∧
        ∀ key ∈ (after gapTimeoutMs startSeq
          (calls ++ [.missingRange now])).reassembler.buffer.keys, stop ≤ key

end

/-! ## The invariant -/

section

variable {gapTimeoutMs : Option ℤ} {out packets : List AudioPacket} {r r' : SessionReassembler}

/-- What came out of the buffer so far, and what is in it. -/
structure Lined (out : List AudioPacket) (r : SessionReassembler) : Prop where
  sorted : (out.map AudioPacket.chunkSeq).Pairwise (· < ·)
  behind : ∀ packet ∈ out, packet.chunkSeq < r.next
  ahead : ∀ key ∈ r.buffer.keys, r.next < key
  keyed : r.Keyed
  fresh : r.anchored = false → out = [] ∧ r.buffer.values = []

theorem lined_create (startSeq : ℤ) : Lined [] (.create startSeq) where
  sorted := .nil
  behind _ h := absurd h List.not_mem_nil
  ahead _ h := absurd h List.not_mem_nil
  keyed key packet h := by cases h
  fresh _ := ⟨rfl, rfl⟩

/-- What is drained lines up behind what came out before. -/
theorem pairwise_drained (hsorted : (out.map AudioPacket.chunkSeq).Pairwise (· < ·))
    (hbehind : ∀ packet ∈ out, packet.chunkSeq < r.next) (h : r.Drained packets r') :
    ((out ++ packets).map AudioPacket.chunkSeq).Pairwise (· < ·) ∧
      ∀ packet ∈ out ++ packets, packet.chunkSeq < r'.next := by
  refine ⟨?_, fun packet hmem => ?_⟩
  · rw [List.map_append, List.pairwise_append]
    refine ⟨hsorted, h.sorted, fun seq hseq seq' hseq' => ?_⟩
    obtain ⟨packet, hpacket, rfl⟩ := List.mem_map.mp hseq
    obtain ⟨packet', hpacket', rfl⟩ := List.mem_map.mp hseq'
    have hlt := hbehind packet hpacket
    have hle := (h.within packet' hpacket').1
    omega
  · rcases List.mem_append.mp hmem with hmem | hmem
    · exact (hbehind packet hmem).trans_le h.le
    · exact (h.within packet hmem).2

/-- Giving a gap up.
SOURCE: ingest/reassembler.py:102-145 -/
theorem Lined.maybeSkipStaleGap (h : Lined out r) (gapTimeoutMs : Option ℤ) (now : ℚ) :
    ∃ packets, Lined (out ++ packets) (r.maybeSkipStaleGap gapTimeoutMs now) ∧
      r.buffer.values.Perm
        (packets ++ (r.maybeSkipStaleGap gapTimeoutMs now).buffer.values) ∧
      (r.maybeSkipStaleGap gapTimeoutMs now).pending = r.pending ++ packets ∧
      (r.maybeSkipStaleGap gapTimeoutMs now).anchored = r.anchored := by
  obtain ⟨packets, hdrained, hpending⟩ :=
    SessionReassembler.drained_maybeSkipStaleGap h.keyed h.ahead gapTimeoutMs now
  obtain ⟨hsorted, hbehind⟩ := pairwise_drained h.sorted h.behind hdrained
  refine ⟨packets, ⟨hsorted, hbehind, hdrained.ahead, hdrained.keyed, fun hfresh => ?_⟩,
    hdrained.values, hpending, hdrained.anchored⟩
  rw [hdrained.anchored] at hfresh
  obtain ⟨hout, hvalues⟩ := h.fresh hfresh
  have hnil := hdrained.values
  rw [hvalues] at hnil
  obtain ⟨hpackets, hvalues'⟩ := List.append_eq_nil_iff.mp hnil.nil_eq.symm
  exact ⟨by rw [hout, hpackets, List.append_nil], hvalues'⟩

/-- What is expected of a packet that arrives: an anchor, and stale gaps given up. -/
theorem Lined.compared (h : Lined out r) (gapTimeoutMs : Option ℤ) (now : ℚ)
    (packet : AudioPacket) :
    ∃ packets, Lined (out ++ packets) (compared gapTimeoutMs now packet r) ∧
      r.buffer.values.Perm
        (packets ++ (Reassembly.compared gapTimeoutMs now packet r).buffer.values) ∧
      (Reassembly.compared gapTimeoutMs now packet r).pending = r.pending ++ packets ∧
      (Reassembly.compared gapTimeoutMs now packet r).anchored = true := by
  unfold Reassembly.compared
  split_ifs with hanchored
  · obtain ⟨packets, hlined, hvalues, hpending, hsame⟩ := h.maybeSkipStaleGap gapTimeoutMs now
    exact ⟨packets, hlined, hvalues, hpending, hsame.trans hanchored⟩
  · obtain ⟨hout, hvalues⟩ := h.fresh (eq_false_of_ne_true hanchored)
    have hkeys : r.buffer.keys = [] := by
      apply List.eq_nil_of_length_eq_zero
      rw [Dict.length_keys, hvalues, List.length_nil]
    have hlined : Lined out { r with next := packet.chunkSeq, anchored := true } := by
      refine ⟨h.sorted, fun p hp => ?_, fun key hkey => ?_, h.keyed, fun hfresh => ?_⟩
      · rw [hout] at hp
        cases hp
      · dsimp only at hkey
        rw [hkeys] at hkey
        cases hkey
      · cases hfresh
    exact hlined.maybeSkipStaleGap gapTimeoutMs now

/-- The next packet, behind those that came out. -/
theorem Lined.next (h : Lined out r) {packet : AudioPacket} (hseq : packet.chunkSeq = r.next) :
    ((out ++ [packet]).map AudioPacket.chunkSeq).Pairwise (· < ·) ∧
      ∀ p ∈ out ++ [packet], p.chunkSeq < r.next + 1 := by
  refine ⟨?_, fun p hp => ?_⟩
  · rw [List.map_append, List.pairwise_append]
    refine ⟨h.sorted, List.pairwise_singleton _ _, fun seq hmem seq' hseq' => ?_⟩
    obtain ⟨p, hp, rfl⟩ := List.mem_map.mp hmem
    obtain rfl := List.mem_singleton.mp hseq'
    have hlt := h.behind p hp
    omega
  · rcases List.mem_append.mp hp with hp | hp
    · have hlt := h.behind p hp
      omega
    · obtain rfl := List.mem_singleton.mp hp
      omega

/-- The buffer with a packet that is ahead, unless one with its number is there. -/
def setDefault (packet : AudioPacket) (buffer : Dict ℤ AudioPacket) : Dict ℤ AudioPacket :=
  if ↑packet.chunkSeq ∈ buffer.keys then buffer else buffer.set packet.chunkSeq packet

theorem values_setDefault (packet : AudioPacket) (buffer : Dict ℤ AudioPacket) :
    (∀ p ∈ buffer.values, p ∈ (setDefault packet buffer).values) ∧
      (↑packet.chunkSeq ∉ buffer.keys → packet ∈ (setDefault packet buffer).values) := by
  unfold setDefault
  split_ifs with hmem
  · exact ⟨fun _ hp => hp, fun h => absurd hmem h⟩
  · rw [Dict.values_set_of_get?_none packet ((Dict.get?_eq_none_iff _ _).mpr hmem)]
    simp +contextual

/-- A packet that is ahead is held. -/
theorem Lined.hold (h : Lined out r) (hanchored : r.anchored = true) {packet : AudioPacket}
    (hahead : r.next < packet.chunkSeq) :
    Lined out { r with pending := [], buffer := setDefault packet r.buffer } := by
  refine ⟨h.sorted, h.behind, ?_, ?_, fun hfresh => ?_⟩
  · intro key hkey
    dsimp only [setDefault] at hkey ⊢
    split_ifs at hkey
    · exact h.ahead key hkey
    · rcases (Dict.mem_keys_set _ _ _ _).mp hkey with rfl | hkey
      · exact hahead
      · exact h.ahead key hkey
  · intro key p hget
    dsimp only [setDefault] at hget
    split_ifs at hget
    · exact h.keyed key p hget
    · rw [Dict.get?_set] at hget
      split_ifs at hget with hkey
      · obtain rfl := Option.some.inj hget
        exact hkey.symm
      · exact h.keyed key p hget
  · dsimp only at hfresh
    rw [hanchored] at hfresh
    cases hfresh

/-- The packet that is expected is delivered, and those that follow it. -/
theorem Lined.deliver (h : Lined out r) (hanchored : r.anchored = true) {packet : AudioPacket}
    (hseq : packet.chunkSeq = r.next)
    (hdrained : SessionReassembler.Drained
      { r with pending := [], gapOpenedAt := none, next := r.next + 1 } packets r') :
    Lined (out ++ packet :: packets) r' := by
  obtain ⟨hsorted, hbehind⟩ := h.next hseq
  obtain ⟨hsorted', hbehind'⟩ := pairwise_drained hsorted hbehind hdrained
  rw [List.append_assoc, List.singleton_append] at hsorted' hbehind'
  refine ⟨hsorted', hbehind', hdrained.ahead, hdrained.keyed, fun hfresh => ?_⟩
  rw [hdrained.anchored] at hfresh
  dsimp only at hfresh
  rw [hanchored] at hfresh
  cases hfresh

/-- What the stream has: delivered, parked or held. -/
def held (s : Stream) : List AudioPacket :=
  s.delivered ++ s.reassembler.pending ++ s.reassembler.buffer.values

theorem acceptPackets_eq (now : ℚ) (packet : AudioPacket) (r : SessionReassembler) :
    r.acceptPackets gapTimeoutMs now packet =
      let r := compared gapTimeoutMs now packet r
      if (packet.chunkSeq : ℤ) < r.next then (r.pending, { r with pending := [] })
      else if r.next < packet.chunkSeq then
        (r.pending, { r with
          pending := []
          buffer := setDefault packet r.buffer })
      else
        let (packets, r') := SessionReassembler.drain r.buffer.keys.length
          { r with pending := [], gapOpenedAt := none, next := r.next + 1 }
        (r.pending ++ packet :: packets, r') :=
  rfl

variable (gapTimeoutMs) in
/-- A packet that arrives: the stream stays lined up, keeps what it has, and takes the packet
unless it is behind or one with its number is held.
SOURCE: ingest/reassembler.py:156-201 -/
theorem Lined.acceptPackets {s : Stream}
    (h : Lined (s.delivered ++ s.reassembler.pending) s.reassembler) (now : ℚ)
    (packet : AudioPacket) :
    Lined ((step gapTimeoutMs s (.acceptPackets now packet)).delivered ++
        (step gapTimeoutMs s (.acceptPackets now packet)).reassembler.pending)
        (step gapTimeoutMs s (.acceptPackets now packet)).reassembler ∧
      (∀ p ∈ held s, p ∈ held (step gapTimeoutMs s (.acceptPackets now packet))) ∧
      (Takes gapTimeoutMs now packet s.reassembler →
        packet ∈ held (step gapTimeoutMs s (.acceptPackets now packet))) := by
  obtain ⟨packets, hlined, hvalues, hpending, hanchored⟩ := h.compared gapTimeoutMs now packet
  have hout : s.delivered ++ s.reassembler.pending ++ packets =
      s.delivered ++ (Reassembly.compared gapTimeoutMs now packet s.reassembler).pending := by
    rw [hpending, List.append_assoc]
  rw [hout] at hlined
  have hheld : ∀ p ∈ held s, p ∈ s.delivered ++
      (Reassembly.compared gapTimeoutMs now packet s.reassembler).pending ++
      (Reassembly.compared gapTimeoutMs now packet s.reassembler).buffer.values := by
    intro p hp
    rw [← hout, List.append_assoc, List.mem_append, ← hvalues.mem_iff, ← List.mem_append]
    exact hp
  rw [step, acceptPackets_eq, Takes]
  generalize Reassembly.compared gapTimeoutMs now packet s.reassembler = r at *
  dsimp only
  by_cases hbehind : (packet.chunkSeq : ℤ) < r.next
  · rw [if_pos hbehind]
    refine ⟨?_, ?_, fun htakes => absurd hbehind (not_lt.mpr htakes.1)⟩
    · dsimp only
      rw [List.append_nil]
      exact ⟨hlined.sorted, hlined.behind, hlined.ahead, hlined.keyed, hlined.fresh⟩
    · intro p hp
      rw [held, List.append_nil]
      exact hheld p hp
  · rw [if_neg hbehind]
    by_cases hahead : r.next < packet.chunkSeq
    · rw [if_pos hahead]
      obtain ⟨hkept, htaken⟩ := values_setDefault packet r.buffer
      refine ⟨?_, fun p hp => ?_, fun htakes => ?_⟩
      · dsimp only
        rw [List.append_nil]
        exact hlined.hold hanchored hahead
      · rw [held, List.append_nil, List.mem_append]
        exact (List.mem_append.mp (hheld p hp)).imp_right (hkept p)
      · rw [held, List.mem_append]
        exact .inr (htaken htakes.2)
    · rw [if_neg hahead]
      have hdrained : SessionReassembler.Drained
          { r with pending := [], gapOpenedAt := none, next := r.next + 1 } _ _ :=
        SessionReassembler.drained_drain le_rfl hlined.keyed
          fun key hkey => Int.add_one_le_iff.mpr (hlined.ahead key hkey)
      have hseq : (packet.chunkSeq : ℤ) = r.next := by omega
      have hpending' := SessionReassembler.pending_drain r.buffer.keys.length
        { r with pending := [], gapOpenedAt := none, next := r.next + 1 }
      refine ⟨?_, fun p hp => ?_, fun _ => ?_⟩
      · dsimp only
        rw [hpending', List.append_nil, ← List.append_assoc]
        exact hlined.deliver hanchored hseq hdrained
      · rw [held, hpending', List.append_nil, ← List.append_assoc, List.mem_append]
        rcases List.mem_append.mp (hheld p hp) with hp | hp
        · exact .inl (List.mem_append_left _ hp)
        · have hvalues := (hdrained.values.mem_iff).mp hp
          rcases List.mem_append.mp hvalues with hp | hp
          · exact .inl (by simp [hp])
          · exact .inr hp
      · rw [held]
        simp

variable (gapTimeoutMs) in
/-- Nothing but the packet that arrives is new.
SOURCE: ingest/reassembler.py:156-201 -/
theorem Lined.mem_held {s : Stream}
    (h : Lined (s.delivered ++ s.reassembler.pending) s.reassembler) {now : ℚ}
    {packet p : AudioPacket}
    (hp : p ∈ held (step gapTimeoutMs s (.acceptPackets now packet))) :
    p ∈ held s ∨ p = packet := by
  obtain ⟨packets, hlined, hvalues, hpending, -⟩ := h.compared gapTimeoutMs now packet
  have hheld : p ∈ s.delivered ++
      (Reassembly.compared gapTimeoutMs now packet s.reassembler).pending ++
      (Reassembly.compared gapTimeoutMs now packet s.reassembler).buffer.values → p ∈ held s := by
    intro hmem
    rw [hpending, ← List.append_assoc, List.append_assoc, List.mem_append, ← hvalues.mem_iff,
      ← List.mem_append] at hmem
    exact hmem
  rw [step, acceptPackets_eq, held] at hp
  generalize Reassembly.compared gapTimeoutMs now packet s.reassembler = r at *
  dsimp only at hp
  split_ifs at hp
  · rw [List.append_nil] at hp
    exact .inl (hheld hp)
  · rw [List.append_nil] at hp
    rcases List.mem_append.mp hp with hp | hp
    · exact .inl (hheld (List.mem_append_left _ hp))
    · rw [setDefault] at hp
      split_ifs at hp with hmem
      · exact .inl (hheld (List.mem_append_right _ hp))
      · dsimp only at hp
        rw [Dict.values_set_of_get?_none packet ((Dict.get?_eq_none_iff _ _).mpr hmem)] at hp
        rcases List.mem_append.mp hp with hp | hp
        · exact .inl (hheld (List.mem_append_right _ hp))
        · exact .inr (List.mem_singleton.mp hp)
  · have hdrained : SessionReassembler.Drained
        { r with pending := [], gapOpenedAt := none, next := r.next + 1 } _ _ :=
      SessionReassembler.drained_drain le_rfl hlined.keyed
        fun key hkey => Int.add_one_le_iff.mpr (hlined.ahead key hkey)
    have hmem := hdrained.values.mem_iff (a := p)
    rw [SessionReassembler.pending_drain, List.append_nil, ← List.append_assoc, List.append_assoc,
      List.cons_append, List.mem_append, List.mem_cons, ← hmem] at hp
    rcases hp with hp | rfl | hp
    · exact .inl (hheld (List.mem_append_left _ hp))
    · exact .inr rfl
    · exact .inl (hheld (List.mem_append_right _ hp))

variable (gapTimeoutMs) in
/-- Asking about the gap.
SOURCE: ingest/reassembler.py:81-97 -/
theorem Lined.missingRange {s : Stream}
    (h : Lined (s.delivered ++ s.reassembler.pending) s.reassembler) (now : ℚ) :
    Lined ((step gapTimeoutMs s (.missingRange now)).delivered ++
        (step gapTimeoutMs s (.missingRange now)).reassembler.pending)
        (step gapTimeoutMs s (.missingRange now)).reassembler ∧
      ∀ p, p ∈ held (step gapTimeoutMs s (.missingRange now)) ↔ p ∈ held s := by
  obtain ⟨packets, hlined, hvalues, hpending, -⟩ := h.maybeSkipStaleGap gapTimeoutMs now
  rw [List.append_assoc, ← hpending] at hlined
  refine ⟨hlined, fun p => ?_⟩
  rw [held, held, List.mem_append (s := s.delivered ++ s.reassembler.pending), hvalues.mem_iff,
    ← List.mem_append, ← List.append_assoc, List.append_assoc s.delivered, ← hpending]
  rfl

variable (gapTimeoutMs) in
/-- **The step lemma.** -/
theorem Lined.call {s : Stream} (h : Lined (s.delivered ++ s.reassembler.pending) s.reassembler)
    (c : ReassemblerCall) :
    Lined ((step gapTimeoutMs s c).delivered ++ (step gapTimeoutMs s c).reassembler.pending)
        (step gapTimeoutMs s c).reassembler ∧
      ∀ p ∈ held s, p ∈ held (step gapTimeoutMs s c) := by
  cases c with
  | acceptPackets now packet =>
    obtain ⟨hlined, hheld, -⟩ := h.acceptPackets gapTimeoutMs now packet
    exact ⟨hlined, hheld⟩
  | missingRange now =>
    obtain ⟨hlined, hheld⟩ := h.missingRange gapTimeoutMs now
    exact ⟨hlined, fun p hp => (hheld p).mpr hp⟩

variable (gapTimeoutMs) in
/-- **The run lemma**: any calls keep the stream lined up and lose nothing. -/
theorem lined_run {s : Stream} (h : Lined (s.delivered ++ s.reassembler.pending) s.reassembler)
    (calls : List ReassemblerCall) :
    Lined ((run (step gapTimeoutMs) s calls).delivered ++
        (run (step gapTimeoutMs) s calls).reassembler.pending)
        (run (step gapTimeoutMs) s calls).reassembler ∧
      ∀ p ∈ held s, p ∈ held (run (step gapTimeoutMs) s calls) := by
  induction calls generalizing s with
  | nil => exact ⟨h, fun _ hp => hp⟩
  | cons c calls ih =>
    obtain ⟨hlined, hheld⟩ := h.call gapTimeoutMs c
    obtain ⟨hlined', hheld'⟩ := ih hlined
    exact ⟨hlined', fun p hp => hheld' p (hheld p hp)⟩

/-- No number occurs twice in a lined-up stream. -/
theorem Lined.nodup (h : Lined out r) : (out ++ r.buffer.values).Nodup := by
  have hkeys : r.buffer.values.map (fun p => (p.chunkSeq : ℤ)) = r.buffer.keys := by
    rw [Dict.values, Dict.keys, List.map_map]
    apply List.map_congr_left
    intro e he
    exact h.keyed e.1 e.2 ((Dict.get?_eq_some_iff _ _ _).mpr he)
  have hvalues : r.buffer.values.Nodup := by
    apply List.Nodup.of_map (fun p => (p.chunkSeq : ℤ))
    rw [hkeys]
    exact r.buffer.nodup
  have hout : out.Nodup := by
    apply List.Nodup.of_map AudioPacket.chunkSeq
    exact h.sorted.imp fun hlt => hlt.ne
  apply hout.append hvalues
  intro p hp hp'
  have hlt := h.behind p hp
  have hkey : (p.chunkSeq : ℤ) ∈ r.buffer.keys := by
    rw [← hkeys]
    exact List.mem_map_of_mem hp'
  have hahead := h.ahead _ hkey
  omega

end

theorem lined_after (gapTimeoutMs : Option ℤ) (startSeq : ℤ) (calls : List ReassemblerCall) :
    Lined ((after gapTimeoutMs startSeq calls).delivered ++
        (after gapTimeoutMs startSeq calls).reassembler.pending)
      (after gapTimeoutMs startSeq calls).reassembler :=
  (lined_run gapTimeoutMs (s := ⟨.create startSeq, []⟩) (lined_create startSeq) calls).1

/-- **Whatever arrives, in whatever order and whatever the clock says, the stream is in order.**
SOURCE: ingest/reassembler.py:81-201 -/
theorem inOrder (gapTimeoutMs : Option ℤ) (startSeq : ℤ) (calls : List ReassemblerCall) :
    InOrder gapTimeoutMs startSeq calls := by
  have hlined := lined_after gapTimeoutMs startSeq calls
  refine ⟨?_, ?_, hlined.ahead, fun packet hmem => ?_, fun now start stop => ?_⟩
  · have hsorted := hlined.sorted
    rw [List.map_append, List.pairwise_append] at hsorted
    exact hsorted.1
  · rintro earlier now packet later rfl htakes
    have hbefore := lined_after gapTimeoutMs startSeq earlier
    obtain ⟨hnow, -, htaken⟩ := hbefore.acceptPackets gapTimeoutMs now packet
    have hmem := (lined_run gapTimeoutMs hnow later).2 packet (htaken htakes)
    rw [after, run_append, run_cons] at hlined ⊢
    have hcount := List.count_eq_one_of_mem hlined.nodup hmem
    rw [List.count_append, List.count_append] at hcount
    exact hcount
  · exact hlined.behind packet (List.mem_append_right _ hmem)
  · have hasked : after gapTimeoutMs startSeq (calls ++ [.missingRange now]) =
        step gapTimeoutMs (after gapTimeoutMs startSeq calls) (.missingRange now) :=
      run_append _ _ _ _
    rw [hasked]
    show ((after gapTimeoutMs startSeq calls).reassembler.maybeSkipStaleGap gapTimeoutMs
      now).buffer.keys.min?.map _ = some (start, stop) ↔ _
    rw [Option.map_eq_some_iff]
    constructor
    · rintro ⟨lowest, hlowest, heq⟩
      obtain ⟨rfl, rfl⟩ := Prod.mk.inj heq
      exact ⟨rfl, SessionReassembler.min?_keys_le hlowest⟩
    · rintro ⟨rfl, hmem, hle⟩
      exact ⟨stop, List.min?_eq_some_iff.mpr ⟨hmem, hle⟩, rfl⟩

end OpenRecall.Analysis.Reassembly
