import OpenRecall.Analysis.LiveDrain
import OpenRecall.Analysis.PacketCodec

/-!
# What a replay sends

As long as no packet is given more frames than the array has entries, each round of the replay
sends one packet: an empty one when the round met silence only, else one with all it has
collected. So the packets are numbered one after the other, the last of them is the one that is
marked, and they have the voiced frames of the window that fit a packet.

An MTU below 23 is that of a connection that has not agreed on one. A packet may then be as long
as it is with the MTU the device asks for.
-/

set_option autoImplicit false

namespace OpenRecall.Analysis.ReplayContent

open Foundation OpenRecall.Model OpenRecall.Analysis.ReplayBounds OpenRecall.Analysis.PacketTime
  OpenRecall.Analysis.LiveDrain

/-- The replay never has more frames for a packet than its arrays have entries.
SOURCE: ble_drain.c:69-71 -/
def EntriesFit (writes : List ReplayWrite) : Prop :=
  ∀ index, .entry index ∈ writes → index < c6FramesPerChunk

/-- The last slots that were written. -/
def lastSlots (n : ℕ) (ring : RingBuffer) : List RingFrame :=
  (List.range n).map fun i => ring.slots (RingBuffer.slot (ring.writeIndex - n + i))

/-- Packets with consecutive numbers. -/
def Numbered (seq : UInt32) (packets : List DrainPacket) : Prop :=
  packets.map DrainPacket.chunkSeq =
    (List.range packets.length).map fun i => seq + UInt32.ofNat i

/-- Just the last packet is marked. -/
def LastMarked (packets : List DrainPacket) : Prop :=
  ∃ others last, packets = others ++ [last] ∧ last.flags = c6FlagLastOfReq ∧
    ∀ p ∈ others, p.flags = 0

/-- How long a packet may be.
SOURCE: ble_drain.c:62-63 -/
def maxPayload (mtu : ℕ) : ℕ := if 23 ≤ mtu then mtu - 3 else 244

/-! ## A round -/

section

variable {budget : ℕ}

/-- The packet of a round.
SOURCE: ble_drain.c:113-143 -/
def roundPacket (seq : UInt32) (flags : UInt8) (b : ReplayBatch) : DrainPacket :=
  match b.frames with
  | [] => ⟨.memoryChunk, seq, b.firstRelTsMs, .gapMarker, flags, []⟩
  | f :: fs => ⟨.memoryChunk, seq, f.relTsMs, f.vadState, flags, f :: fs⟩

@[simp] theorem roundPacket_chunkSeq (seq : UInt32) (flags : UInt8) (b : ReplayBatch) :
    (roundPacket seq flags b).chunkSeq = seq := by
  unfold roundPacket
  split <;> rfl

@[simp] theorem roundPacket_flags (seq : UInt32) (flags : UInt8) (b : ReplayBatch) :
    (roundPacket seq flags b).flags = flags := by
  unfold roundPacket
  split <;> rfl

@[simp] theorem roundPacket_ptype (seq : UInt32) (flags : UInt8) (b : ReplayBatch) :
    (roundPacket seq flags b).ptype = .memoryChunk := by
  unfold roundPacket
  split <;> rfl

@[simp] theorem roundPacket_frames (seq : UInt32) (flags : UInt8) (b : ReplayBatch) :
    (roundPacket seq flags b).frames = b.frames := by
  unfold roundPacket
  split
  · rename_i h
    exact h.symm
  · rename_i h
    exact h.symm

theorem roundPacket_fits {b : ReplayBatch} (hlength : b.frames.length ≤ c6FramesPerChunk)
    (hsum : (b.frames.map RingFrame.cost).sum ≤ budget) (seq : UInt32) (flags : UInt8) :
    (roundPacket seq flags b).ptype = .memoryChunk ∧
      (roundPacket seq flags b).frames.length ≤ c6FramesPerChunk ∧
      ((roundPacket seq flags b).frames.map RingFrame.cost).sum ≤ budget := by
  rw [roundPacket_ptype, roundPacket_frames]
  exact ⟨rfl, hlength, hsum⟩

/-- The flags of a round's packet.
SOURCE: ble_drain.c:110-111 -/
def roundFlags (rest : List (Option RingFrame)) : UInt8 :=
  if rest.isEmpty then c6FlagLastOfReq else 0

/-- The array has an entry for every frame that is collected. -/
theorem length_collect_frames {reads : List (Option RingFrame)} {b : ReplayBatch}
    (hcount : b.frames.length ≤ c6FramesPerChunk) (hfit : EntriesFit (collect budget reads b).1) :
    (collect budget reads b).2.1.frames.length ≤ c6FramesPerChunk := by
  induction reads generalizing b with
  | nil => exact hcount
  | cons read reads ih =>
    cases read with
    | none => exact ih hcount hfit
    | some f =>
      by_cases hsilent : f.silent = true
      · rw [collect_silent hsilent] at hfit ⊢
        apply ih (by rwa [stamp_frames])
        exact fun index hindex => hfit index (List.mem_append_right _ hindex)
      · by_cases hfits : b.used + f.cost ≤ budget
        · rw [collect_fits hsilent hfits] at hfit ⊢
          apply ih
          · rw [add_frames, stamp_frames, List.length_append, List.length_singleton]
            exact hfit _ (List.mem_append_right _ List.mem_cons_self)
          · exact fun index hindex =>
              hfit index (List.mem_append_right _ (List.mem_cons_of_mem _ hindex))
        · rw [collect_full hsilent hfits, stamp_frames]
          exact hcount

theorem sum_collect_frames (reads : List (Option RingFrame)) :
    ((collect budget reads {}).2.1.frames.map RingFrame.cost).sum ≤ budget := by
  have hframes := (collect_frames (b := {}) reads (Nat.zero_le budget)).1
  have hsum := sum_fit_le readCost 0 (Nat.zero_le budget) (reads.filterMap id)
  rw [Nat.zero_add] at hsum
  rw [hframes, List.nil_append, sum_voiced]
  exact hsum

/-- What is collected goes into one packet.
SOURCE: ble_drain.c:122-143 -/
theorem sendFrames_single (lastFlags : UInt8) {fuel : ℕ} {f : RingFrame} {fs : List RingFrame}
    (hsum : ((f :: fs).map RingFrame.cost).sum ≤ budget)
    (hlength : (f :: fs).length ≤ c6FramesPerChunk) (seq : UInt32) :
    sendFrames .memoryChunk lastFlags budget (fuel + 1)
        ((f :: fs).map fun f => ⟨f, f.vadState⟩) seq =
      ([⟨.memoryChunk, seq, f.relTsMs, f.vadState, lastFlags, f :: fs⟩], seq + 1) := by
  have hfit : fit (fun g : ChunkFrame => g.frame.cost) budget 0
      ((f :: fs).map fun f => ⟨f, f.vadState⟩) =
        ((f :: fs).map fun f => (⟨f, f.vadState⟩ : ChunkFrame), []) := by
    apply fit_of_sum_le
    rw [List.map_map, Nat.zero_add]
    exact hsum
  have hback : ((f :: fs).map fun f => (⟨f, f.vadState⟩ : ChunkFrame)).map ChunkFrame.frame =
      f :: fs := by
    rw [List.map_map]
    exact List.map_id _
  rw [List.map_cons] at hfit hback ⊢
  rw [sendFrames, hfit]
  dsimp only
  rw [hback]
  have hnext : sendFrames .memoryChunk lastFlags budget fuel [] (seq + 1) = ([], seq + 1) := by
    cases fuel <;> rfl
  rw [hnext, DrainPacket.notified, if_pos ((bytes_isSome_iff _).mpr (writable_of_length_le hlength))]
  rfl

/-- **A round sends one packet.**
SOURCE: ble_drain.c:67-146 -/
theorem replayLoop_succ {fuel : ℕ} {read : Option RingFrame} {reads : List (Option RingFrame)}
    (hfit : EntriesFit (collect budget (read :: reads) {}).1) (seq : UInt32) :
    replayLoop budget (fuel + 1) (read :: reads) seq =
      ((collect budget (read :: reads) {}).1 ++
        (replayLoop budget fuel (collect budget (read :: reads) {}).2.2 (seq + 1)).1,
      roundPacket seq (roundFlags (collect budget (read :: reads) {}).2.2)
          (collect budget (read :: reads) {}).2.1 ::
        (replayLoop budget fuel (collect budget (read :: reads) {}).2.2 (seq + 1)).2.1,
      (replayLoop budget fuel (collect budget (read :: reads) {}).2.2 (seq + 1)).2.2) := by
  have hlength := length_collect_frames (b := {}) (Nat.zero_le _) hfit
  have hsum := @sum_collect_frames budget (read :: reads)
  rw [replayLoop, roundPacket]
  unfold roundFlags
  generalize collect budget (read :: reads) {} = round at *
  obtain ⟨writes, b, rest⟩ := round
  dsimp only at hlength hsum ⊢
  cases hframes : b.frames with
  | nil =>
    rw [List.isEmpty_nil, if_pos rfl, DrainPacket.notified,
      if_pos ((bytes_isSome_iff _).mpr writable_nil)]
    rfl
  | cons f fs =>
    rw [hframes] at hlength hsum
    rw [List.isEmpty_cons, if_neg Bool.false_ne_true, List.length_cons,
      sendFrames_single _ hsum hlength]
    rfl

/-! ## All rounds -/

theorem EntriesFit.left {writes writes' : List ReplayWrite} (h : EntriesFit (writes ++ writes')) :
    EntriesFit writes :=
  fun index hindex => h index (List.mem_append_left _ hindex)

theorem EntriesFit.right {writes writes' : List ReplayWrite} (h : EntriesFit (writes ++ writes')) :
    EntriesFit writes' :=
  fun index hindex => h index (List.mem_append_right _ hindex)

theorem add_one_add_ofNat (seq : UInt32) (i : ℕ) :
    seq + 1 + UInt32.ofNat i = seq + UInt32.ofNat (i + 1) := by
  rw [Nat.add_comm, UInt32.ofNat_add, add_assoc]
  rfl

theorem numbered_cons {p : DrainPacket} {packets : List DrainPacket}
    (h : Numbered (p.chunkSeq + 1) packets) : Numbered p.chunkSeq (p :: packets) := by
  unfold Numbered at *
  rw [List.map_cons, h, List.length_cons, List.range_succ_eq_map, List.map_cons, List.map_map]
  apply congrArg₂
  · simp
  · exact List.map_congr_left fun i _ => add_one_add_ofNat p.chunkSeq i

theorem lastMarked_single {p : DrainPacket} (h : p.flags = c6FlagLastOfReq) : LastMarked [p] :=
  ⟨[], p, rfl, h, fun _ hp => by cases hp⟩

theorem LastMarked.cons {p : DrainPacket} {packets : List DrainPacket} (h : LastMarked packets)
    (hp : p.flags = 0) : LastMarked (p :: packets) := by
  obtain ⟨others, last, rfl, hlast, hothers⟩ := h
  exact ⟨p :: others, last, rfl, hlast, List.forall_mem_cons.mpr ⟨hp, hothers⟩⟩

/-- Packets as the replay numbers and marks them; none is over the budget. -/
structure InOrder (budget : ℕ) (seq next : UInt32) (packets : List DrainPacket) : Prop where
  numbered : Numbered seq packets
  next : next = seq + UInt32.ofNat packets.length
  marked : LastMarked packets
  packet : ∀ p ∈ packets, p.ptype = .memoryChunk ∧ p.frames.length ≤ c6FramesPerChunk ∧
    (p.frames.map RingFrame.cost).sum ≤ budget

/-- The first of more packets. -/
theorem InOrder.cons {next : UInt32} {p : DrainPacket} {packets : List DrainPacket}
    (h : InOrder budget (p.chunkSeq + 1) next packets) (hflags : p.flags = 0)
    (hp : p.ptype = .memoryChunk ∧ p.frames.length ≤ c6FramesPerChunk ∧
      (p.frames.map RingFrame.cost).sum ≤ budget) :
    InOrder budget p.chunkSeq next (p :: packets) := by
  refine ⟨numbered_cons h.numbered, ?_, h.marked.cons hflags,
    List.forall_mem_cons.mpr ⟨hp, h.packet⟩⟩
  rw [h.next, List.length_cons, add_one_add_ofNat]

/-- The one packet that ends the replay. -/
theorem inOrder_single {p : DrainPacket} (hflags : p.flags = c6FlagLastOfReq)
    (hp : p.ptype = .memoryChunk ∧ p.frames.length ≤ c6FramesPerChunk ∧
      (p.frames.map RingFrame.cost).sum ≤ budget) :
    InOrder budget p.chunkSeq (p.chunkSeq + 1) [p] := by
  refine ⟨?_, rfl, lastMarked_single hflags, ?_⟩
  · simp [Numbered]
  · intro p' hp'
    obtain rfl := List.mem_singleton.mp hp'
    exact hp

/-- By induction on the rounds; the mark is on the round that leaves nothing to read. -/
theorem inOrder_replayLoop {fuel : ℕ} {reads : List (Option RingFrame)}
    (hfuel : reads.length ≤ fuel) (hne : reads ≠ []) (seq : UInt32)
    (hfit : EntriesFit (replayLoop budget fuel reads seq).1) :
    InOrder budget seq (replayLoop budget fuel reads seq).2.2
      (replayLoop budget fuel reads seq).2.1 := by
  induction fuel generalizing reads seq with
  | zero => exact absurd (List.eq_nil_of_length_eq_zero (Nat.le_zero.mp hfuel)) hne
  | succ fuel ih =>
    obtain ⟨read, reads, rfl⟩ := List.exists_cons_of_ne_nil hne
    have hwrites : EntriesFit (collect budget (read :: reads) {}).1 := by
      rw [replayLoop] at hfit
      exact hfit.left
    rw [replayLoop_succ hwrites] at hfit ⊢
    have hlength := (length_collect_lt budget read reads).trans (Nat.le_of_succ_le_succ hfuel)
    have hround := fun flags => roundPacket_fits (length_collect_frames (b := {}) (Nat.zero_le _)
      hwrites) (@sum_collect_frames budget (read :: reads)) seq flags
    dsimp only
    by_cases hrest : (collect budget (read :: reads) {}).2.2 = []
    · have hend : replayLoop budget fuel [] (seq + 1) = ([], [], seq + 1) := by
        cases fuel <;> rfl
      rw [hrest, hend]
      have hsingle := inOrder_single (roundPacket_flags seq c6FlagLastOfReq _) (hround _)
      rwa [roundPacket_chunkSeq] at hsingle
    · have hflags : roundFlags (collect budget (read :: reads) {}).2.2 = 0 :=
        if_neg (by simpa using hrest)
      have hlater := ih hlength hrest (seq + 1) hfit.right
      rw [hflags]
      have hcons := InOrder.cons (p := roundPacket seq 0 _)
        (by rw [roundPacket_chunkSeq]; exact hlater) (roundPacket_flags _ _ _) (hround 0)
      rwa [roundPacket_chunkSeq] at hcons

/-- What the rounds send. -/
theorem frames_replayLoop {fuel : ℕ} {reads : List (Option RingFrame)}
    (hfuel : reads.length ≤ fuel) (seq : UInt32)
    (hfit : EntriesFit (replayLoop budget fuel reads seq).1) :
    (replayLoop budget fuel reads seq).2.1.flatMap DrainPacket.frames =
      (chunks RingFrame.cost budget (voiced (reads.filterMap id))).flatten := by
  induction fuel generalizing reads seq with
  | zero =>
    obtain rfl := List.eq_nil_of_length_eq_zero (Nat.le_zero.mp hfuel)
    rfl
  | succ fuel ih =>
    cases reads with
    | nil => rfl
    | cons read reads =>
      have hwrites : EntriesFit (collect budget (read :: reads) {}).1 := by
        rw [replayLoop] at hfit
        exact hfit.left
      have hlength := (length_collect_lt budget read reads).trans (Nat.le_of_succ_le_succ hfuel)
      obtain ⟨hframes, hrest⟩ := collect_frames (b := {}) (read :: reads) (Nat.zero_le budget)
      rw [List.nil_append] at hframes
      rw [replayLoop_succ hwrites] at hfit ⊢
      rw [List.flatMap_cons, roundPacket_frames, ih hlength (seq + 1) hfit.right, hrest, hframes,
        chunks_voiced budget ((read :: reads).filterMap id), List.flatten_append]
      split_ifs with hsilent
      · rw [hsilent]
        rfl
      · rw [List.flatten_singleton]

end

/-! ## A replay -/

/-- The index of a frame that was just written is in the window.
SOURCE: ring_buffer.c:71-89 -/
theorem windowFrames_eq (seconds : ℕ) (ring : RingBuffer) :
    windowFrames seconds ring = lastSlots (replayCount seconds ring.writeIndex) ring := by
  unfold windowFrames replayReads lastSlots
  have hcount : replayCount seconds ring.writeIndex ≤ ring.writeIndex := min_le_right _ _
  have hcap : replayCount seconds ring.writeIndex ≤ ringFrames :=
    (min_le_left _ _).trans (min_le_right _ _)
  rw [List.filterMap_map, ← List.filterMap_eq_map]
  apply List.filterMap_congr
  intro i hi
  have hlt := List.mem_range.mp hi
  rw [Function.comp_apply, Function.comp_apply, id, RingBuffer.get, if_pos (by omega)]

/-- The bytes of a packet.
SOURCE: c6_packet.c:7-38 -/
theorem length_bytes {p : DrainPacket} {data : Bytes} (h : p.bytes = some data) :
    data.length = c6HeaderLen + (p.frames.map RingFrame.cost).sum := by
  unfold DrainPacket.bytes c6WritePacket at h
  split_ifs at h
  obtain rfl := Option.some.inj h
  simp only [List.length_cons, PacketCodec.length_c6Body, List.map_map]
  show _ = 12 + (p.frames.map RingFrame.cost).sum
  rw [Nat.add_comm 12]
  rfl

theorem headerLen_add_bodyBudget (mtu : ℕ) : c6HeaderLen + bodyBudget mtu = maxPayload mtu := by
  unfold bodyBudget maxPayload
  show 12 + ((if 23 ≤ mtu then mtu - 3 else 244) - 12) = _
  split_ifs <;> omega

/-- What a replay sends. -/
structure Replays (mtu seconds : ℕ) (ring : RingBuffer) (seq next : UInt32)
    (packets : List DrainPacket) : Prop where
  numbered : Numbered seq packets
  next : next = seq + UInt32.ofNat packets.length
  marked : LastMarked packets
  ptype : ∀ p ∈ packets, p.ptype = .memoryChunk
  size : ∀ p ∈ packets, ∃ data, p.bytes = some data ∧ data.length ≤ maxPayload mtu
  frames : packets.flatMap DrainPacket.frames =
    (lastSlots (replayCount seconds ring.writeIndex) ring).filter
      fun f => Sendable (bodyBudget mtu) f

theorem inOrder_drainReplay {mtu seconds : ℕ} {ring : RingBuffer} {seq : UInt32}
    (hfit : EntriesFit (drainReplay mtu seconds ring seq).1) :
    InOrder (bodyBudget mtu) seq (drainReplay mtu seconds ring seq).2.2
      (drainReplay mtu seconds ring seq).2.1 := by
  unfold drainReplay at hfit ⊢
  cases hreads : replayReads seconds ring with
  | nil =>
    dsimp only
    rw [DrainPacket.notified, if_pos ((bytes_isSome_iff _).mpr writable_nil)]
    apply inOrder_single (p := ⟨.memoryChunk, seq, 0, .gapMarker, c6FlagLastOfReq, []⟩) rfl
    exact ⟨rfl, Nat.zero_le _, Nat.zero_le _⟩
  | cons read reads =>
    rw [hreads] at hfit
    exact inOrder_replayLoop le_rfl (List.cons_ne_nil read reads) seq hfit

theorem frames_drainReplay {mtu seconds : ℕ} {ring : RingBuffer} {seq : UInt32}
    (hfit : EntriesFit (drainReplay mtu seconds ring seq).1) :
    (drainReplay mtu seconds ring seq).2.1.flatMap DrainPacket.frames =
      (chunks RingFrame.cost (bodyBudget mtu) (voiced (windowFrames seconds ring))).flatten := by
  unfold drainReplay windowFrames at *
  cases hreads : replayReads seconds ring with
  | nil =>
    dsimp only
    rw [DrainPacket.notified, if_pos ((bytes_isSome_iff _).mpr writable_nil)]
    rfl
  | cons read reads =>
    rw [hreads] at hfit
    exact frames_replayLoop le_rfl seq hfit

/-- **A replay sends the last frames of the ring**, as long as its arrays have an entry for each
frame of a packet: the voiced ones that fit a packet, in order and once, in packets with
consecutive numbers of which just the last is marked.
SOURCE: ble_drain.c:39-157, executor_core.c:108-115 -/
theorem replay_content (mtu seconds : ℕ) (ring : RingBuffer) (seq : UInt32)
    (hfit : EntriesFit (drainReplay mtu seconds ring seq).1) :
    Replays mtu seconds ring seq (drainReplay mtu seconds ring seq).2.2
      (drainReplay mtu seconds ring seq).2.1 := by
  have horder := inOrder_drainReplay hfit
  refine ⟨horder.numbered, horder.next, horder.marked, fun p hp => (horder.packet p hp).1,
    fun p hp => ?_, ?_⟩
  · obtain ⟨-, hcount, hsum⟩ := horder.packet p hp
    obtain ⟨data, hdata⟩ := Option.isSome_iff_exists.mp
      ((bytes_isSome_iff p).mpr (writable_of_length_le hcount))
    refine ⟨data, hdata, ?_⟩
    rw [length_bytes hdata, ← headerLen_add_bodyBudget]
    exact Nat.add_le_add_left hsum _
  · rw [frames_drainReplay hfit, windowFrames_eq, flatten_chunks, voiced, List.filter_filter]
    apply List.filter_congr
    intro f _
    simp [Sendable, and_comm]

/-! ## Where the words of a replay mislead -/

theorem entriesFit_of_inBounds {writes : List ReplayWrite} (h : ∀ w ∈ writes, w.InBounds) :
    EntriesFit writes :=
  fun index hindex => h (.entry index) hindex

/-- Five frames of speech. -/
def fiveFrames : RingBuffer :=
  ((List.replicate 5 (HeardFrame.voiced false [7])).foldl AudioTask.step {}).ring

/-- **Without an MTU a packet is longer than it, and so many seconds are few frames**: a device
that has not agreed on an MTU has 0 for it, and 50 times 85899346 is 4 in 32 bits. -/
theorem not_every_mtu_nor_seconds :
    (¬ ∀ (mtu seconds : ℕ) (ring : RingBuffer) (seq : UInt32),
      EntriesFit (drainReplay mtu seconds ring seq).1 →
        ∀ p ∈ (drainReplay mtu seconds ring seq).2.1, ∀ data, p.bytes = some data →
          data.length ≤ mtu - 3) ∧
    ¬ ∀ (mtu seconds : ℕ) (ring : RingBuffer) (seq : UInt32),
      seconds < 2 ^ 32 → EntriesFit (drainReplay mtu seconds ring seq).1 →
        (drainReplay mtu seconds ring seq).2.1.flatMap DrainPacket.frames =
          (lastSlots (min (min (50 * seconds) ringFrames) ring.writeIndex) ring).filter
            fun f => Sendable (bodyBudget mtu) f := by
  constructor
  · intro h
    have hempty := h 0 0 {} 0 (entriesFit_of_inBounds (by decide)) _ List.mem_cons_self _ rfl
    exact absurd hempty (by decide)
  · intro h
    have hframes := h 247 85899346 fiveFrames 0 (by omega)
      (entriesFit_of_inBounds (by decide +kernel))
    have hlengths := congrArg List.length hframes
    revert hlengths
    decide +kernel

/-- Five frames of speech come back in one packet. -/
theorem replay_content_fiveFrames :
    Replays 247 10 fiveFrames 3 (drainReplay 247 10 fiveFrames 3).2.2
      (drainReplay 247 10 fiveFrames 3).2.1 :=
  replay_content 247 10 fiveFrames 3 (entriesFit_of_inBounds (by decide +kernel))

end OpenRecall.Analysis.ReplayContent
