import OpenRecall.Model.BleDrain

/-!
# The arrays of the replay

The live drain reads ten slots for its ten array entries. The replay reads on until its byte
budget is used up, and nothing else stops it: how many frames it collects depends on how small
they are. So it stays within its arrays just when packing the window's frames by their bytes
never puts more than ten into a packet, and leaves room in the scratch space for every frame
that is read, the one that ends the packet included.
-/

set_option autoImplicit false

namespace OpenRecall.Analysis.ReplayBounds

open Foundation OpenRecall.Model

/-- What a frame that is read takes of a packet. -/
def readCost (f : RingFrame) : ℕ := if f.silent then 0 else f.cost

def voiced (frames : List RingFrame) : List RingFrame := frames.filter fun f => !f.silent

/-- Every frame that is read has room behind the bytes of the voiced frames before it. -/
def CopiesFit : ℕ → List RingFrame → Prop
  | _, [] => True
  | dataOff, f :: frames =>
    (f.data ≠ [] → dataOff + f.data.length ≤ dataScratchCap) ∧
      CopiesFit (if f.silent then dataOff else dataOff + f.data.length) frames

/-- The frames of a packet, and the one that does not fit it, have room in the arrays. -/
structure Roomy (pack : List RingFrame × Option RingFrame) : Prop where
  entries : (voiced pack.1).length ≤ c6FramesPerChunk
  copies : CopiesFit 0 (pack.1 ++ pack.2.toList)

/-- The frames in the window of a replay. -/
def windowFrames (seconds : ℕ) (ring : RingBuffer) : List RingFrame :=
  (replayReads seconds ring).filterMap id

/-! ## One packet -/

section

variable {budget : ℕ}

@[simp] theorem stamp_frames (f : RingFrame) (b : ReplayBatch) :
    (b.stamp f).frames = b.frames := by
  unfold ReplayBatch.stamp
  split_ifs <;> rfl

@[simp] theorem stamp_used (f : RingFrame) (b : ReplayBatch) : (b.stamp f).used = b.used := by
  unfold ReplayBatch.stamp
  split_ifs <;> rfl

@[simp] theorem stamp_dataOff (f : RingFrame) (b : ReplayBatch) :
    (b.stamp f).dataOff = b.dataOff := by
  unfold ReplayBatch.stamp
  split_ifs <;> rfl

@[simp] theorem add_frames (f : RingFrame) (b : ReplayBatch) :
    (b.add f).frames = b.frames ++ [f] := rfl

@[simp] theorem add_used (f : RingFrame) (b : ReplayBatch) :
    (b.add f).used = b.used + f.cost := rfl

@[simp] theorem add_dataOff (f : RingFrame) (b : ReplayBatch) :
    (b.add f).dataOff = b.dataOff + f.data.length := rfl

theorem copied_inBounds (f : RingFrame) (b : ReplayBatch) :
    (∀ w ∈ b.copied f, w.InBounds) ↔
      (f.data ≠ [] → b.dataOff + f.data.length ≤ dataScratchCap) := by
  unfold ReplayBatch.copied
  cases f.data with
  | nil => simp
  | cons x xs => simp [ReplayWrite.InBounds]

theorem collect_silent {f : RingFrame} (hsilent : f.silent = true)
    (reads : List (Option RingFrame)) (b : ReplayBatch) :
    collect budget (some f :: reads) b =
      (b.copied f ++ (collect budget reads (b.stamp f)).1,
        (collect budget reads (b.stamp f)).2) := by
  rw [collect, if_pos hsilent]

theorem collect_fits {f : RingFrame} {b : ReplayBatch} (hsilent : ¬ f.silent = true)
    (hfits : b.used + f.cost ≤ budget) (reads : List (Option RingFrame)) :
    collect budget (some f :: reads) b =
      (b.copied f ++ .entry b.frames.length :: (collect budget reads ((b.stamp f).add f)).1,
        (collect budget reads ((b.stamp f).add f)).2) := by
  rw [collect, if_neg hsilent, if_pos hfits]

theorem collect_full {f : RingFrame} {b : ReplayBatch} (hsilent : ¬ f.silent = true)
    (hfull : ¬ b.used + f.cost ≤ budget) (reads : List (Option RingFrame)) :
    collect budget (some f :: reads) b =
      (b.copied f, b.stamp f, if b.frames.isEmpty then reads else some f :: reads) := by
  rw [collect, if_neg hsilent, if_neg hfull]

theorem fit_silent {f : RingFrame} {used : ℕ} (hsilent : f.silent = true) (hused : used ≤ budget)
    (frames : List RingFrame) :
    fit readCost budget used (f :: frames) =
      (f :: (fit readCost budget used frames).1, (fit readCost budget used frames).2) := by
  have hzero : used + readCost f = used := by
    rw [readCost, if_pos hsilent, Nat.add_zero]
  rw [fit_cons_of_le (by rwa [hzero]), hzero]

theorem readCost_of_not {f : RingFrame} (hsilent : ¬ f.silent = true) : readCost f = f.cost :=
  if_neg hsilent

theorem voiced_cons_silent {f : RingFrame} (hsilent : f.silent = true)
    (frames : List RingFrame) : voiced (f :: frames) = voiced frames :=
  List.filter_cons_of_neg (by simp [hsilent])

theorem voiced_cons {f : RingFrame} (hsilent : ¬ f.silent = true) (frames : List RingFrame) :
    voiced (f :: frames) = f :: voiced frames :=
  List.filter_cons_of_pos (by simp [hsilent])

/-- What is collected are the frames that fit; the reads that are left go on with the one that
does not fit, or after it when it fits no packet. -/
theorem collect_frames (reads : List (Option RingFrame)) {b : ReplayBatch}
    (hused : b.used ≤ budget) :
    (collect budget reads b).2.1.frames =
        b.frames ++ voiced (fit readCost budget b.used (reads.filterMap id)).1 ∧
      (collect budget reads b).2.2.filterMap id =
        if (collect budget reads b).2.1.frames = [] then
          (fit readCost budget b.used (reads.filterMap id)).2.tail
        else (fit readCost budget b.used (reads.filterMap id)).2 := by
  induction reads generalizing b with
  | nil => simp [collect, voiced]
  | cons read reads ih =>
    cases read with
    | none => exact ih hused
    | some f =>
      show _ = b.frames ++ voiced (fit readCost budget b.used (f :: reads.filterMap id)).1 ∧
        _ = if _ then (fit readCost budget b.used (f :: reads.filterMap id)).2.tail
          else (fit readCost budget b.used (f :: reads.filterMap id)).2
      by_cases hsilent : f.silent = true
      · rw [collect_silent hsilent, fit_silent hsilent hused, voiced_cons_silent hsilent,
          ← stamp_frames f b, ← stamp_used f b]
        exact ih (by rwa [stamp_used])
      · by_cases hfits : b.used + f.cost ≤ budget
        · obtain ⟨hframes, hrest⟩ := ih (b := (b.stamp f).add f) (by rwa [add_used, stamp_used])
          rw [add_frames, stamp_frames, add_used, stamp_used, List.append_assoc] at hframes
          rw [add_used, stamp_used] at hrest
          rw [collect_fits hsilent hfits,
            fit_cons_of_le (by rwa [readCost_of_not hsilent]), readCost_of_not hsilent,
            voiced_cons hsilent]
          exact ⟨hframes, hrest⟩
        · rw [collect_full hsilent hfits,
            fit_cons_of_lt (by rw [readCost_of_not hsilent]; exact not_le.mp hfits)]
          refine ⟨by simp [voiced], ?_⟩
          dsimp only
          rw [stamp_frames]
          cases b.frames <;> rfl

/-- What is written while a packet is collected is in bounds when the frames have room. -/
theorem collect_inBounds (reads : List (Option RingFrame)) {b : ReplayBatch}
    (hused : b.used ≤ budget) (hcount : b.frames.length ≤ c6FramesPerChunk) :
    (∀ w ∈ (collect budget reads b).1, w.InBounds) ↔
      b.frames.length + (voiced (fit readCost budget b.used (reads.filterMap id)).1).length ≤
          c6FramesPerChunk ∧
        CopiesFit b.dataOff ((fit readCost budget b.used (reads.filterMap id)).1 ++
          (fit readCost budget b.used (reads.filterMap id)).2.head?.toList) := by
  induction reads generalizing b with
  | nil => simpa [collect, voiced, CopiesFit] using hcount
  | cons read reads ih =>
    cases read with
    | none => exact ih hused hcount
    | some f =>
      show _ ↔ _ + (voiced (fit readCost budget b.used (f :: reads.filterMap id)).1).length ≤ _ ∧
        CopiesFit _ ((fit readCost budget b.used (f :: reads.filterMap id)).1 ++
          (fit readCost budget b.used (f :: reads.filterMap id)).2.head?.toList)
      by_cases hsilent : f.silent = true
      · have hrest := ih (b := b.stamp f) (by rwa [stamp_used]) (by rwa [stamp_frames])
        rw [stamp_frames, stamp_used, stamp_dataOff] at hrest
        rw [collect_silent hsilent, fit_silent hsilent hused, voiced_cons_silent hsilent,
          List.cons_append, CopiesFit, if_pos hsilent, List.forall_mem_append, copied_inBounds,
          hrest]
        exact and_left_comm
      · by_cases hfits : b.used + f.cost ≤ budget
        · rw [collect_fits hsilent hfits,
            fit_cons_of_le (by rwa [readCost_of_not hsilent]), readCost_of_not hsilent,
            voiced_cons hsilent, List.cons_append, CopiesFit, if_neg hsilent,
            List.forall_mem_append, copied_inBounds, List.forall_mem_cons, List.length_cons]
          by_cases hroom : b.frames.length < c6FramesPerChunk
          · rw [ih (b := (b.stamp f).add f) (by rwa [add_used, stamp_used])
              (by rwa [add_frames, stamp_frames, List.length_append, List.length_singleton]),
              add_frames, add_used, add_dataOff, stamp_frames, stamp_used, stamp_dataOff,
              List.length_append, List.length_singleton]
            simp only [ReplayWrite.InBounds, hroom, true_and]
            rw [Nat.add_assoc, Nat.add_comm 1]
            exact and_left_comm
          · simp only [ReplayWrite.InBounds, hroom, false_and, and_false, false_iff]
            intro hcase
            omega
        · rw [collect_full hsilent hfits,
            fit_cons_of_lt (by rw [readCost_of_not hsilent]; exact not_le.mp hfits)]
          simp [voiced, CopiesFit, hcount, copied_inBounds]

/-- A read is used up for each packet. -/
theorem length_collect_le (reads : List (Option RingFrame)) (b : ReplayBatch) :
    (collect budget reads b).2.2.length ≤ reads.length := by
  induction reads generalizing b with
  | nil => exact le_rfl
  | cons read reads ih =>
    cases read with
    | none => exact (ih b).trans (Nat.le_succ _)
    | some f =>
      rw [collect]
      split_ifs
      · exact (ih _).trans (Nat.le_succ _)
      · exact (ih _).trans (Nat.le_succ _)
      · exact Nat.le_succ _
      · exact le_rfl

variable (budget) in
theorem length_collect_lt (read : Option RingFrame) (reads : List (Option RingFrame)) :
    (collect budget (read :: reads) {}).2.2.length ≤ reads.length := by
  cases read with
  | none => exact length_collect_le reads {}
  | some f =>
    rw [collect]
    split_ifs with hsilent hfits hempty
    · exact length_collect_le reads _
    · exact length_collect_le reads _
    · exact le_rfl
    · exact absurd rfl hempty

/-! ## All packets -/

/-- A frame that fits no packet is read into an empty one. -/
theorem roomy_single (f : RingFrame) : Roomy ([], some f) := by
  refine ⟨Nat.zero_le _, fun _ => ?_, trivial⟩
  have hle := f.len_le
  show 0 + f.data.length ≤ 2570
  omega

theorem voiced_eq_nil {frames : List RingFrame} (h : voiced frames = []) :
    (frames.map readCost).sum = 0 := by
  apply List.sum_eq_zero
  intro cost hcost
  obtain ⟨f, hf, rfl⟩ := List.mem_map.mp hcost
  have hsilent := List.filter_eq_nil_iff.mp h f hf
  exact if_pos (by simpa using hsilent)

/-- The first pack, and those of what the replay goes on with. -/
theorem forall_packs_iff (frames : List RingFrame) :
    (∀ pack ∈ packs readCost budget frames, Roomy pack) ↔
      Roomy ((fit readCost budget 0 frames).1, (fit readCost budget 0 frames).2.head?) ∧
        ∀ pack ∈ packs readCost budget
          (if voiced (fit readCost budget 0 frames).1 = [] then
            (fit readCost budget 0 frames).2.tail
          else (fit readCost budget 0 frames).2), Roomy pack := by
  cases frames with
  | nil =>
    have hroomy : Roomy ([], none) := ⟨Nat.zero_le _, trivial⟩
    simpa [voiced] using hroomy
  | cons f frames =>
    rw [packs_cons, List.forall_mem_cons]
    apply and_congr_right
    intro _
    have hlast : ∀ g rest, (fit readCost budget 0 (f :: frames)).2 = g :: rest →
        budget < 0 + ((fit readCost budget 0 (f :: frames)).1.map readCost).sum + readCost g :=
      fun g rest => lt_of_fit_rest
    cases hfit : fit readCost budget 0 (f :: frames) with
    | mk pack rest =>
      rw [hfit] at hlast
      dsimp only at hlast ⊢
      cases pack with
      | nil => rfl
      | cons g gs =>
        rw [leftover]
        split_ifs with hvoiced
        · cases rest with
          | nil => rfl
          | cons h rest =>
            have hfull := hlast h rest rfl
            rw [voiced_eq_nil hvoiced, Nat.zero_add] at hfull
            rw [packs_cons, fit_cons_of_lt (by rwa [Nat.zero_add]), List.forall_mem_cons]
            exact and_iff_right (roomy_single h)
        · rfl

/-- The writes of the replay are in bounds when every pack has room. -/
theorem replayLoop_inBounds {fuel : ℕ} {reads : List (Option RingFrame)}
    (hfuel : reads.length ≤ fuel) (seq : UInt32) :
    (∀ w ∈ (replayLoop budget fuel reads seq).1, w.InBounds) ↔
      ∀ pack ∈ packs readCost budget (reads.filterMap id), Roomy pack := by
  induction fuel generalizing reads seq with
  | zero =>
    obtain rfl := List.eq_nil_of_length_eq_zero (Nat.le_zero.mp hfuel)
    simp [replayLoop]
  | succ fuel ih =>
    cases reads with
    | nil => simp [replayLoop]
    | cons read reads =>
      obtain ⟨hframes, hrest⟩ := collect_frames (read :: reads) (b := {})
        (Nat.zero_le budget)
      have hwrites := collect_inBounds (read :: reads) (b := {}) (Nat.zero_le budget)
        (Nat.zero_le c6FramesPerChunk)
      have hlength := length_collect_lt budget read reads
      rw [replayLoop, forall_packs_iff]
      dsimp only
      rw [List.forall_mem_append, hwrites, ih (hlength.trans (Nat.le_of_succ_le_succ hfuel)),
        hrest, hframes]
      apply and_congr
      · rw [List.length_nil, Nat.zero_add]
        exact ⟨fun h => ⟨h.1, h.2⟩, fun h => ⟨h.entries, h.copies⟩⟩
      · rfl

end

/-- **The replay stays within its arrays exactly when every packet of the window has room.**
SOURCE: ble_drain.c:39-108, ring_buffer.c:71-89, config.h:199 -/
theorem inBounds_iff (ring : RingBuffer) (seconds mtu : ℕ) (chunkSeq : UInt32) :
    (∀ w ∈ (drainReplay mtu seconds ring chunkSeq).1, w.InBounds) ↔
      ∀ pack ∈ packs readCost (bodyBudget mtu) (windowFrames seconds ring), Roomy pack := by
  unfold drainReplay windowFrames
  cases hreads : replayReads seconds ring with
  | nil => simp
  | cons read reads => exact replayLoop_inBounds le_rfl chunkSeq

/-! ## How much the scratch space allows -/

/-- Frames within a budget have room when a frame more has. -/
theorem copiesFit_of_sum {budget dataOff : ℕ} (hcap : budget + 255 ≤ dataScratchCap)
    {frames : List RingFrame} (hsum : dataOff + (frames.map readCost).sum ≤ budget)
    (last : Option RingFrame) : CopiesFit dataOff (frames ++ last.toList) := by
  induction frames generalizing dataOff with
  | nil =>
    cases last with
    | none => trivial
    | some f =>
      have hle := f.len_le
      rw [List.map_nil, List.sum_nil] at hsum
      exact ⟨fun _ => by omega, trivial⟩
  | cons f frames ih =>
    have hle := f.len_le
    rw [List.map_cons, List.sum_cons, readCost, RingFrame.cost] at hsum
    refine ⟨fun _ => by omega, ih ?_⟩
    split_ifs at hsum ⊢ <;> omega

/-- **Up to an MTU of 2330 only the number of frames matters.** -/
theorem inBounds_iff_of_mtu (ring : RingBuffer) (seconds : ℕ) {mtu : ℕ} (hmtu : mtu ≤ 2330)
    (chunkSeq : UInt32) :
    (∀ w ∈ (drainReplay mtu seconds ring chunkSeq).1, w.InBounds) ↔
      ∀ pack ∈ packs readCost (bodyBudget mtu) (windowFrames seconds ring),
        (voiced pack.1).length ≤ c6FramesPerChunk := by
  rw [inBounds_iff]
  have hcap : bodyBudget mtu + 255 ≤ dataScratchCap := by
    show (if 23 ≤ mtu then mtu - 3 else 244) - 12 + 255 ≤ 2570
    split_ifs <;> omega
  refine forall₂_congr fun pack hpack => ⟨Roomy.entries, fun hentries => ⟨hentries, ?_⟩⟩
  apply copiesFit_of_sum hcap
  rw [Nat.zero_add]
  exact sum_packs_le pack hpack

/-! ## Small frames -/

instance : DecidablePred ReplayWrite.InBounds
  | .entry index => inferInstanceAs (Decidable (index < c6FramesPerChunk))
  | .copy start len => inferInstanceAs (Decidable (start + len ≤ dataScratchCap))

/-- Eleven frames of speech, twenty bytes each. -/
def smallFrames : List HeardFrame := List.replicate 11 (.voiced false (List.replicate 20 0))

/-- **Eleven frames that fit one notification are one too many.** -/
theorem not_always_inBounds :
    ¬ ∀ (ring : RingBuffer) (seconds mtu : ℕ) (chunkSeq : UInt32),
      ∀ w ∈ (drainReplay mtu seconds ring chunkSeq).1, w.InBounds := by
  intro h
  have hentry := h (smallFrames.foldl AudioTask.step {}).ring 1 247 0 (.entry 10)
    (by decide +kernel)
  exact absurd hentry (by decide)

end OpenRecall.Analysis.ReplayBounds
