import OpenRecall.Analysis.ReplayBounds
import OpenRecall.Model.AudioStore

/-!
# The time of a packet

The header of a packet has the time of its first frame, and the server takes the others to
follow at 20 ms each: the slots of the log and the silence before the next packet are counted
so. The drain splits packets at the size of a notification only. It leaves out the gap markers
of a batch, and a frame that failed to encode is not even in the ring; the frames before and
after go into the same packet. So a packet tells the time exactly when its frames are what
consecutive frames of the microphone became.
-/

set_option autoImplicit false

namespace OpenRecall.Analysis.PacketTime

open Foundation OpenRecall.Model OpenRecall.Analysis.ReplayBounds

/-- The audio task after some frames of the microphone. -/
def recorded (heard : List HeardFrame) : AudioTask := heard.foldl AudioTask.step {}

/-- The device's time of a frame of the microphone. -/
def tickTime (tick : ℕ) : UInt32 := UInt32.ofNat (deviceFrameMs * tick)

/-- **The packet tells the time**: the server puts each frame where the ring has it.
SOURCE: ingest/pipeline.py:296-306, ingest/pipeline.py:443-452 -/
def Truthful (p : DrainPacket) : Prop :=
  ∀ data, p.bytes = some data → ∃ packet, AudioPacket.parse data = .ok packet ∧
    packet.frames = p.frames.map RingFrame.data ∧
    ∀ k f, p.frames[k]? = some f → f.relTsMs.toNat = packet.relTsMs + k * frameMs

/-- After so many frames, 248 days, the clock of the device shows the same times again. -/
def clockRound : ℕ := 2 ^ 30

/-- The frame is what some frame of the microphone became: the one at `tick`, or whole rounds of
the clock from it. -/
def HeardAt (heard : List HeardFrame) (tick : ℕ) (f : RingFrame) : Prop :=
  ∃ t, t % clockRound = tick % clockRound ∧
    heard[t]?.bind (HeardFrame.pushed (tickTime t)) = some f

/-- The frames are what consecutive frames of the microphone became, and the clock does not start
anew between them. -/
def Consecutive (heard : List HeardFrame) (frames : List RingFrame) : Prop :=
  ∃ tick, (tickTime tick).toNat + frameMs * (frames.length - 1) < 2 ^ 32 ∧
    ∀ k f, frames[k]? = some f → HeardAt heard (tick + k) f

/-- The frames fit the buffer that packets are written to. -/
def Writable (frames : List RingFrame) : Prop :=
  frames.length ≤ 0xFF ∧ c6HeaderLen + (frames.map RingFrame.cost).sum ≤ packetBufCap

/-- The slots that a pass of the live drain reads. -/
def liveSlots (ring : RingBuffer) (d : DrainState) : List RingFrame :=
  if available ring d.cursor < c6FramesPerChunk ∨
      available ring (prerollCursor ring d).1 < c6FramesPerChunk then []
  else readBatch ring (prerollCursor ring d).1 c6FramesPerChunk

/-! ## The packets -/

theorem bytes_isSome_iff (p : DrainPacket) : p.bytes.isSome = true ↔ Writable p.frames := by
  unfold DrainPacket.bytes c6WritePacket Writable
  rw [List.length_map, List.map_map]
  split_ifs with hcount hcap
  · simp only [Option.isSome_none, Bool.false_eq_true, false_iff, not_and]
    omega
  · simp only [Option.isSome_none, Bool.false_eq_true, false_iff, not_and, not_le]
    exact fun _ => hcap
  · simp only [Option.isSome_some, true_iff]
    exact ⟨not_lt.mp hcount, not_lt.mp hcap⟩

instance (frames : List RingFrame) : Decidable (Writable frames) :=
  inferInstanceAs (Decidable (_ ∧ _))

/-- Packets that carry groups of frames, those that are writable, and have the time of the first
frame in the header; other packets are empty. -/
structure Carries (packets : List DrainPacket) (groups : List (List RingFrame)) : Prop where
  frames : (packets.map DrainPacket.frames).filter (· ≠ []) = groups.filter Writable
  headers : ∀ p ∈ packets, Writable p.frames ∧
    ∀ first others, p.frames = first :: others → p.relTsMs = first.relTsMs

theorem Carries.append {packets packets' : List DrainPacket} {groups groups' : List (List RingFrame)}
    (h : Carries packets groups) (h' : Carries packets' groups') :
    Carries (packets ++ packets') (groups ++ groups') := by
  refine ⟨?_, fun p hp => ?_⟩
  · rw [List.map_append, List.filter_append, List.filter_append, h.frames, h'.frames]
  · exact (List.mem_append.mp hp).elim (h.headers p) (h'.headers p)

theorem writable_nil : Writable [] := by decide

/-- A packet that is empty. -/
theorem carries_empty {p : DrainPacket} (hp : p.frames = []) : Carries p.notified [] := by
  have hwritable : Writable p.frames := hp ▸ writable_nil
  rw [DrainPacket.notified, if_pos ((bytes_isSome_iff p).mpr hwritable)]
  refine ⟨by simp [hp], fun p' hp' => ?_⟩
  obtain rfl := List.mem_singleton.mp hp'
  refine ⟨hwritable, fun first others heq => ?_⟩
  rw [hp] at heq
  cases heq

/-- A packet of frames. -/
theorem carries_single {p : DrainPacket} {first : RingFrame} {others : List RingFrame}
    (hp : p.frames = first :: others) (htime : p.relTsMs = first.relTsMs) :
    Carries p.notified [first :: others] := by
  rw [DrainPacket.notified]
  by_cases hwritable : Writable p.frames
  · rw [if_pos ((bytes_isSome_iff p).mpr hwritable)]
    refine ⟨?_, fun p' hp' => ?_⟩
    · rw [hp] at hwritable
      simp [hp, hwritable]
    · obtain rfl := List.mem_singleton.mp hp'
      refine ⟨hwritable, fun first' others' heq => ?_⟩
      rw [hp] at heq
      rw [htime, (List.cons.inj heq).1]
  · rw [if_neg fun h => hwritable ((bytes_isSome_iff p).mp h)]
    rw [hp] at hwritable
    refine ⟨by simp [hwritable], fun p' hp' => ?_⟩
    cases hp'

/-- The packets carry the frames as they fit.
SOURCE: ble_drain.c:122-143, ble_drain.c:287-371 -/
theorem carries_sendFrames (ptype : PacketType) (lastFlags : UInt8) (budget : ℕ) {fuel : ℕ}
    {fs : List ChunkFrame} (hfuel : fs.length ≤ fuel) (seq : UInt32) :
    Carries (sendFrames ptype lastFlags budget fuel fs seq).1
      (chunks RingFrame.cost budget (fs.map ChunkFrame.frame)) := by
  induction fuel generalizing fs seq with
  | zero =>
    obtain rfl := List.eq_nil_of_length_eq_zero (Nat.le_zero.mp hfuel)
    exact ⟨rfl, fun p hp => by cases hp⟩
  | succ fuel ih =>
    cases fs with
    | nil => exact ⟨rfl, fun p hp => by cases hp⟩
    | cons f fs =>
      have happend := fit_append (fun f : ChunkFrame => f.frame.cost) budget 0 (f :: fs)
      have hmap : fit RingFrame.cost budget 0 ((f :: fs).map ChunkFrame.frame) = _ :=
        fit_map ChunkFrame.frame 0 (f :: fs)
      have hlength := congrArg List.length happend
      rw [List.length_append] at hlength
      rw [sendFrames]
      cases hfit : fit (fun f : ChunkFrame => f.frame.cost) budget 0 (f :: fs) with
      | mk pack rest =>
        rw [hfit] at happend hmap hlength
        cases pack with
        | nil =>
          obtain rfl : rest = f :: fs := happend
          rw [List.map_cons, chunks_cons_of_nil hmap]
          exact ih (Nat.le_of_succ_le_succ hfuel) seq
        | cons first others =>
          rw [List.map_cons, chunks_cons_of_cons hmap]
          show Carries (DrainPacket.notified _ ++ _) ([first.frame :: others.map _] ++ _)
          apply Carries.append
          · exact carries_single rfl rfl
          · apply ih
            simp only [List.length_cons] at hlength hfuel
            omega

theorem sum_voiced (frames : List RingFrame) :
    ((voiced frames).map RingFrame.cost).sum = (frames.map readCost).sum := by
  induction frames with
  | nil => rfl
  | cons f frames ih =>
    rw [List.map_cons, List.sum_cons, readCost]
    split_ifs with hsilent
    · rw [voiced_cons_silent hsilent, ih, Nat.zero_add]
    · rw [voiced_cons hsilent, List.map_cons, List.sum_cons, ih]

/-- The packets of the voiced frames, and those of what a replay goes on with. -/
theorem chunks_voiced (budget : ℕ) (frames : List RingFrame) :
    chunks RingFrame.cost budget (voiced frames) =
      (if voiced (fit readCost budget 0 frames).1 = [] then []
        else [voiced (fit readCost budget 0 frames).1]) ++
      chunks RingFrame.cost budget (voiced
        (if voiced (fit readCost budget 0 frames).1 = [] then
          (fit readCost budget 0 frames).2.tail
        else (fit readCost budget 0 frames).2)) := by
  have hfilter : fit RingFrame.cost budget 0 (voiced frames) =
      (voiced (fit readCost budget 0 frames).1, voiced (fit readCost budget 0 frames).2) := by
    apply fit_filter (Nat.zero_le budget)
    intro f _
    unfold readCost
    cases f.silent <;> rfl
  have hlast : ∀ g rest, (fit readCost budget 0 frames).2 = g :: rest →
      budget < 0 + ((fit readCost budget 0 frames).1.map readCost).sum + readCost g :=
    fun g rest => lt_of_fit_rest
  cases hfit : fit readCost budget 0 frames with
  | mk pack rest =>
    rw [hfit] at hfilter hlast
    dsimp only at hfilter hlast ⊢
    split_ifs with hpack
    · rw [List.nil_append]
      have hrest : voiced rest.tail = (voiced rest).tail := by
        cases rest with
        | nil => rfl
        | cons g rest =>
          have hfull := hlast g rest rfl
          rw [voiced_eq_nil hpack] at hfull
          have hsilent : ¬ g.silent = true := by
            intro hsilent
            rw [readCost, if_pos hsilent] at hfull
            omega
          rw [voiced_cons hsilent]
          rfl
      rw [hpack] at hfilter
      rw [hrest]
      cases hframes : voiced frames with
      | nil =>
        rw [hframes, fit_nil] at hfilter
        rw [← (Prod.mk.inj hfilter).2]
        rfl
      | cons f fs =>
        rw [hframes] at hfilter
        exact chunks_cons_of_nil hfilter
    · cases hframes : voiced frames with
      | nil =>
        rw [hframes, fit_nil] at hfilter
        exact absurd (Prod.mk.inj hfilter).1.symm hpack
      | cons f fs =>
        rw [hframes] at hfilter
        cases hfirst : voiced pack with
        | nil => exact absurd hfirst hpack
        | cons g gs =>
          rw [hfirst] at hfilter
          exact chunks_cons_of_cons hfilter

/-- The packets of a replay. -/
theorem carries_replayLoop (budget : ℕ) {fuel : ℕ} {reads : List (Option RingFrame)}
    (hfuel : reads.length ≤ fuel) (seq : UInt32) :
    Carries (replayLoop budget fuel reads seq).2.1
      (chunks RingFrame.cost budget (voiced (reads.filterMap id))) := by
  induction fuel generalizing reads seq with
  | zero =>
    obtain rfl := List.eq_nil_of_length_eq_zero (Nat.le_zero.mp hfuel)
    exact ⟨rfl, fun p hp => by cases hp⟩
  | succ fuel ih =>
    cases reads with
    | nil => exact ⟨rfl, fun p hp => by cases hp⟩
    | cons read reads =>
      obtain ⟨hframes, hrest⟩ := collect_frames (b := {}) (read :: reads) (Nat.zero_le budget)
      have hlength := length_collect_lt budget read reads
      have hsum := sum_fit_le readCost 0 (Nat.zero_le budget) ((read :: reads).filterMap id)
      have hcost := sum_voiced (fit readCost budget 0 ((read :: reads).filterMap id)).1
      have htail := fun seq => ih (hlength.trans (Nat.le_of_succ_le_succ hfuel)) seq
      rw [chunks_voiced, ← List.nil_append (voiced (fit readCost budget 0 _).1), ← hframes,
        ← hrest, replayLoop]
      rw [List.nil_append] at hframes
      rw [← hcost, ← hframes, Nat.zero_add] at hsum
      cases hb : (collect budget (read :: reads) {}).2.1.frames with
      | nil =>
        simp only [hb, List.isEmpty_nil, if_true]
        exact Carries.append (carries_empty rfl) (htail _)
      | cons f fs =>
        rw [hb] at hsum
        simp only [hb, List.isEmpty_cons, if_false, Bool.false_eq_true, reduceCtorEq]
        apply Carries.append
        · rw [← chunks_of_sum_le (List.cons_ne_nil f fs) hsum]
          have hsend := carries_sendFrames .memoryChunk
            (if (collect budget (read :: reads) {}).2.2.isEmpty then c6FlagLastOfReq else 0)
            budget ((f :: fs).length_map fun f => (⟨f, f.vadState⟩ : ChunkFrame)).le seq
          rw [List.map_map] at hsend
          simpa [Function.comp_def] using hsend
        · exact htail _

theorem carries_drainReplay (mtu seconds : ℕ) (ring : RingBuffer) (seq : UInt32) :
    Carries (drainReplay mtu seconds ring seq).2.1
      (chunks RingFrame.cost (bodyBudget mtu) (voiced (windowFrames seconds ring))) := by
  unfold drainReplay windowFrames
  cases replayReads seconds ring with
  | nil =>
    dsimp only
    exact carries_empty rfl
  | cons read reads => exact carries_replayLoop (bodyBudget mtu) le_rfl seq

theorem map_frame_chunkFrames (prerolled : Bool) (slots : List RingFrame) :
    (chunkFrames prerolled slots).map ChunkFrame.frame = voiced slots := by
  unfold chunkFrames voiced
  rw [List.map_map]
  exact List.map_id _

theorem carries_drainLive (mtu : ℕ) (ring : RingBuffer) (d : DrainState) :
    Carries (drainLive mtu ring d).1
      (chunks RingFrame.cost (bodyBudget mtu) (voiced (liveSlots ring d))) := by
  have hnone : Carries [] (chunks RingFrame.cost (bodyBudget mtu) (voiced [])) :=
    ⟨rfl, fun p hp => by cases hp⟩
  unfold drainLive liveSlots
  by_cases hcursor : available ring d.cursor < c6FramesPerChunk
  · rw [if_pos hcursor, if_pos (Or.inl hcursor)]
    exact hnone
  · rw [if_neg hcursor]
    dsimp only
    by_cases hpreroll : available ring (prerollCursor ring d).1 < c6FramesPerChunk
    · rw [if_pos hpreroll, if_pos (Or.inr hpreroll)]
      exact hnone
    · rw [if_neg hpreroll, if_neg (not_or.mpr ⟨hcursor, hpreroll⟩),
        ← map_frame_chunkFrames (prerollCursor ring d).2]
      split_ifs with hempty
      · rw [List.isEmpty_iff.mp hempty]
        dsimp only
        exact carries_empty rfl
      · exact carries_sendFrames .live 0 (bodyBudget mtu) le_rfl d.chunkSeq

/-! ## The ring -/

/-- The frame is what some frame of the microphone became. -/
def Heard (heard : List HeardFrame) (f : RingFrame) : Prop :=
  ∃ t, heard[t]?.bind (HeardFrame.pushed (tickTime t)) = some f

theorem Heard.append {heard : List HeardFrame} {f : RingFrame} (hf : Heard heard f)
    (h : HeardFrame) : Heard (heard ++ [h]) f := by
  obtain ⟨t, ht⟩ := hf
  refine ⟨t, ?_⟩
  rw [List.getElem?_append_left]
  · exact ht
  · by_contra hge
    rw [List.getElem?_eq_none (not_lt.mp hge)] at ht
    cases ht

end OpenRecall.Analysis.PacketTime
