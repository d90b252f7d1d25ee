import OpenRecall.Foundation.Dict
import OpenRecall.Model.AudioPacket

/-!
# The reassembler

Packets come out in `chunkSeq` order. One that is ahead of what is expected is held until
the gap before it fills, or until the gap has been open for as long as the timeout; then the
stream goes on at the lowest packet held. A gap can be given up between two packets: what
comes out then is parked for the next one.
-/

set_option autoImplicit false

namespace OpenRecall.Model

open Foundation

/-- The clock is a number of milliseconds, not always whole; whoever resumes a stream names any
integer.
SOURCE: ingest/reassembler.py:29-71 -/
structure SessionReassembler where
  next : ℤ
  buffer : Dict ℤ AudioPacket := .empty
  anchored : Bool
  gapOpenedAt : Option ℚ := none
  pending : List AudioPacket := []

namespace SessionReassembler

/-- A stream that starts at 0 is anchored by its first packet.
SOURCE: ingest/reassembler.py:29-71 -/
def create (startSeq : ℤ) : SessionReassembler where
  next := startSeq
  anchored := startSeq ≠ 0

/-- Take the packets that follow one another out of the buffer; its size is fuel enough. -/
def drain : ℕ → SessionReassembler → List AudioPacket × SessionReassembler
  | 0, r => ([], r)
  | fuel + 1, r =>
    match r.buffer.get? r.next with
    | none => ([], r)
    | some packet =>
      let (packets, r) :=
        drain fuel { r with buffer := r.buffer.erase r.next, next := r.next + 1 }
      (packet :: packets, r)

/-- Give up a gap that has been open for as long as the timeout.
SOURCE: ingest/reassembler.py:102-145 -/
def maybeSkipStaleGap (gapTimeoutMs : Option ℤ) (now : ℚ) (r : SessionReassembler) :
    SessionReassembler :=
  match r.buffer.keys.min? with
  | none => { r with gapOpenedAt := none }
  | some skipTo =>
    match gapTimeoutMs, r.gapOpenedAt with
    | none, _ => r
    | some _, none => { r with gapOpenedAt := some now }
    | some timeout, some opened =>
      if now - opened < timeout then r
      else
        let (packets, r) :=
          drain r.buffer.keys.length { r with next := skipTo, gapOpenedAt := none }
        { r with pending := r.pending ++ packets }

/-- The packets that can be delivered with this one, in order.
SOURCE: ingest/reassembler.py:156-201 -/
def acceptPackets (gapTimeoutMs : Option ℤ) (now : ℚ) (packet : AudioPacket)
    (r : SessionReassembler) : List AudioPacket × SessionReassembler :=
  let seq : ℤ := packet.chunkSeq
  let r := if r.anchored then r else { r with next := seq, anchored := true }
  let r := r.maybeSkipStaleGap gapTimeoutMs now
  let delivered := r.pending
  let r := { r with pending := [] }
  if seq < r.next then (delivered, r)
  else if r.next < seq then
    (delivered,
      { r with buffer := if seq ∈ r.buffer.keys then r.buffer else r.buffer.set seq packet })
  else
    let (packets, r) :=
      drain r.buffer.keys.length { r with gapOpenedAt := none, next := r.next + 1 }
    (delivered ++ packet :: packets, r)

/-- The gap at the head of the stream.
SOURCE: ingest/reassembler.py:81-97 -/
def missingRange (gapTimeoutMs : Option ℤ) (now : ℚ) (r : SessionReassembler) :
    Option (ℤ × ℤ) × SessionReassembler :=
  let r := r.maybeSkipStaleGap gapTimeoutMs now
  (r.buffer.keys.min?.map fun lowest => (r.next, lowest), r)

/-! ## Draining -/

/-- Every packet is held under its own number. -/
def Keyed (r : SessionReassembler) : Prop :=
  ∀ key packet, r.buffer.get? key = some packet → (packet.chunkSeq : ℤ) = key

/-- What comes out of the buffer follows one another, up to the number that is next then, and
what is ahead of that stays. -/
structure Drained (r : SessionReassembler) (packets : List AudioPacket)
    (r' : SessionReassembler) : Prop where
  values : r.buffer.values.Perm (packets ++ r'.buffer.values)
  sorted : (packets.map AudioPacket.chunkSeq).Pairwise (· < ·)
  within : ∀ p ∈ packets, r.next ≤ p.chunkSeq ∧ p.chunkSeq < r'.next
  le : r.next ≤ r'.next
  ahead : ∀ key ∈ r'.buffer.keys, r'.next < key
  keyed : r'.Keyed
  anchored : r'.anchored = r.anchored

/-- Nothing comes out when the next number is not held. -/
theorem drained_nil {r : SessionReassembler} (hkeyed : r.Keyed)
    (hahead : ∀ key ∈ r.buffer.keys, r.next < key) : Drained r [] r where
  values := .refl _
  sorted := .nil
  within _ h := absurd h List.not_mem_nil
  le := le_rfl
  ahead := hahead
  keyed := hkeyed
  anchored := rfl

theorem drained_drain {fuel : ℕ} {r : SessionReassembler} (hfuel : r.buffer.keys.length ≤ fuel)
    (hkeyed : r.Keyed) (hahead : ∀ key ∈ r.buffer.keys, r.next ≤ key) :
    Drained r (drain fuel r).1 (drain fuel r).2 := by
  induction fuel generalizing r with
  | zero =>
    apply drained_nil hkeyed
    intro key hkey
    rw [List.eq_nil_of_length_eq_zero (Nat.le_zero.mp hfuel)] at hkey
    cases hkey
  | succ fuel ih =>
    rw [drain]
    cases hnext : r.buffer.get? r.next with
    | none =>
      apply drained_nil hkeyed
      intro key hkey
      apply lt_of_le_of_ne (hahead key hkey)
      rintro rfl
      exact (Dict.get?_eq_none_iff _ _).mp hnext hkey
    | some packet =>
      have hperm := Dict.values_perm_erase hnext
      have hseq := hkeyed _ _ hnext
      have h := ih (r := { r with buffer := r.buffer.erase r.next, next := r.next + 1 }) ?_ ?_ ?_
      · refine ⟨hperm.trans (h.values.cons packet), ?_, ?_, ?_, h.ahead, h.keyed, h.anchored⟩
        · rw [List.map_cons, List.pairwise_cons]
          refine ⟨fun seq hmem => ?_, h.sorted⟩
          obtain ⟨p, hp, rfl⟩ := List.mem_map.mp hmem
          have hle := (h.within p hp).1
          dsimp only at hle
          omega
        · intro p hp
          rcases List.mem_cons.mp hp with rfl | hp
          · have hle := h.le
            dsimp only at hle ⊢
            omega
          · have hwithin := h.within p hp
            dsimp only at hwithin ⊢
            omega
        · have hle := h.le
          dsimp only at hle ⊢
          omega
      · have hlength := hperm.length_eq
        rw [List.length_cons, ← Dict.length_keys, ← Dict.length_keys] at hlength
        dsimp only
        omega
      · intro key p hget
        dsimp only at hget
        rw [Dict.get?_erase] at hget
        split_ifs at hget
        exact hkeyed key p hget
      · intro key hkey
        obtain ⟨hne, hmem⟩ := (Dict.mem_keys_erase _ _ _).mp hkey
        have hle := hahead key hmem
        dsimp only
        omega

theorem pending_drain (fuel : ℕ) (r : SessionReassembler) :
    (drain fuel r).2.pending = r.pending := by
  induction fuel generalizing r with
  | zero => rfl
  | succ fuel ih =>
    rw [drain]
    split
    · rfl
    · exact ih _

theorem min?_keys_le {r : SessionReassembler} {lowest : ℤ}
    (h : r.buffer.keys.min? = some lowest) :
    lowest ∈ r.buffer.keys ∧ ∀ key ∈ r.buffer.keys, lowest ≤ key :=
  List.min?_eq_some_iff.mp h

/-- Giving up a gap drains the buffer, from its lowest packet on, to what is parked.
SOURCE: ingest/reassembler.py:102-145 -/
theorem drained_maybeSkipStaleGap {r : SessionReassembler} (hkeyed : r.Keyed)
    (hahead : ∀ key ∈ r.buffer.keys, r.next < key) (gapTimeoutMs : Option ℤ) (now : ℚ) :
    ∃ packets, Drained r packets (r.maybeSkipStaleGap gapTimeoutMs now) ∧
      (r.maybeSkipStaleGap gapTimeoutMs now).pending = r.pending ++ packets := by
  have hnone (r' : SessionReassembler) (hnext : r'.next = r.next) (hbuffer : r'.buffer = r.buffer)
      (hanchored : r'.anchored = r.anchored) (hpending : r'.pending = r.pending) :
      ∃ packets, Drained r packets r' ∧ r'.pending = r.pending ++ packets := by
    have h := drained_nil hkeyed hahead
    refine ⟨[], ⟨?_, h.sorted, fun _ hp => absurd hp List.not_mem_nil, hnext.ge, ?_, ?_, hanchored⟩,
      by rw [hpending, List.append_nil]⟩
    · rw [hbuffer]
      exact h.values
    · rw [hbuffer, hnext]
      exact h.ahead
    · rw [Keyed, hbuffer]
      exact hkeyed
  unfold maybeSkipStaleGap
  split
  · exact hnone _ rfl rfl rfl rfl
  · rename_i skipTo hlowest
    obtain ⟨hmem, hle⟩ := min?_keys_le hlowest
    split
    · exact hnone _ rfl rfl rfl rfl
    · exact hnone _ rfl rfl rfl rfl
    · split_ifs
      · exact hnone _ rfl rfl rfl rfl
      · have h : Drained { r with next := skipTo, gapOpenedAt := none } _ _ :=
          drained_drain le_rfl hkeyed hle
        have hskip := hahead skipTo hmem
        refine ⟨_, ⟨h.values, h.sorted, fun p hp => ?_, ?_, h.ahead, h.keyed, h.anchored⟩, ?_⟩
        · have hwithin := h.within p hp
          dsimp only at hwithin ⊢
          omega
        · have hle := h.le
          dsimp only at hle ⊢
          omega
        · dsimp only
          rw [pending_drain]

/-! ## A stream in order -/

section

variable {r : SessionReassembler} {seq : ℤ}

/-- Nothing is held, and the stream waits for `seq` or for any packet at all. -/
structure Idle (r : SessionReassembler) (seq : ℤ) : Prop where
  buffer : r.buffer = .empty
  pending : r.pending = []
  next : r.anchored = true → r.next = seq

/-- A new stream waits for the packet it starts at; one that starts at 0 waits for any. -/
theorem idle_create {startSeq : ℤ} (h : startSeq = 0 ∨ startSeq = seq) :
    Idle (create startSeq) seq := by
  refine ⟨rfl, rfl, fun hanchored => ?_⟩
  have hne : startSeq ≠ 0 := of_decide_eq_true hanchored
  exact h.resolve_left hne

theorem Idle.maybeSkipStaleGap (h : Idle r seq) (gapTimeoutMs : Option ℤ) (now : ℚ) :
    r.maybeSkipStaleGap gapTimeoutMs now = { r with gapOpenedAt := none } := by
  unfold SessionReassembler.maybeSkipStaleGap
  rw [h.buffer]
  rfl

/-- The packet an idle stream waits for comes out at once and alone.
SOURCE: ingest/reassembler.py:156-201 -/
theorem Idle.acceptPackets {packet : AudioPacket} (h : Idle r packet.chunkSeq)
    (gapTimeoutMs : Option ℤ) (now : ℚ) :
    (r.acceptPackets gapTimeoutMs now packet).1 = [packet] ∧
      Idle (r.acceptPackets gapTimeoutMs now packet).2 (packet.chunkSeq + 1) := by
  have hanchor : ∃ r', (if r.anchored then r
      else { r with next := packet.chunkSeq, anchored := true }) = r' ∧
      Idle r' packet.chunkSeq ∧ r'.next = packet.chunkSeq := by
    refine ⟨_, rfl, ?_⟩
    split_ifs with hanchored
    · exact ⟨h, h.next hanchored⟩
    · exact ⟨⟨h.buffer, h.pending, fun _ => rfl⟩, rfl⟩
  obtain ⟨r', hr', hidle, hnext⟩ := hanchor
  unfold SessionReassembler.acceptPackets
  dsimp only
  rw [hr', hidle.maybeSkipStaleGap, if_neg (by simp [hnext]), if_neg (by simp [hnext])]
  dsimp only
  rw [hidle.buffer, hidle.pending, hnext]
  exact ⟨rfl, rfl, rfl, fun _ => rfl⟩

/-- An idle stream misses nothing and stays idle. -/
theorem Idle.missingRange (h : Idle r seq) (gapTimeoutMs : Option ℤ) (now : ℚ) :
    Idle (r.missingRange gapTimeoutMs now).2 seq := by
  show Idle (r.maybeSkipStaleGap gapTimeoutMs now) seq
  rw [h.maybeSkipStaleGap]
  exact ⟨h.buffer, h.pending, h.next⟩

end

end SessionReassembler

end OpenRecall.Model
