import OpenRecall.Analysis.DrainReads

/-!
# The live drain

The live drain goes through the ring in batches of ten frames and sends the voiced ones that fit a
notification. At an onset of speech it first goes back by the preroll, and sends what it finds
there again. So a voiced frame that the cursor has passed is in one live packet, and in one more
for every preroll that went back over it.

The cursor gets ahead all the same: before an onset there is a batch without voice, so that the
preroll is followed by a batch that begins in silence. Only at index ten there is no room to go
back far enough, and the batch after the preroll ends where it began.
-/

set_option autoImplicit false

namespace OpenRecall.Analysis.LiveDrain

open Foundation OpenRecall.Model OpenRecall.Analysis.ReplayBounds OpenRecall.Analysis.PacketTime
  OpenRecall.Analysis.DrainReads

/-! ## The device and what it sends live -/

/-- The audio task and the drain, with the frames recorded, the live packets, the indices of the
frames in them, the prerolls, each from where to where the cursor went back, and the number of
batches. -/
structure LiveDevice where
  task : AudioTask := {}
  drain : DrainState := {}
  recorded : List RingFrame := []
  live : List DrainPacket := []
  included : List ℕ := []
  rewinds : List (ℕ × ℕ) := []
  batches : ℕ := 0

/-- The frame is voiced and fits a packet. -/
def Sendable (budget : ℕ) (f : RingFrame) : Prop := f.silent = false ∧ f.cost ≤ budget

instance (budget : ℕ) (f : RingFrame) : Decidable (Sendable budget f) :=
  inferInstanceAs (Decidable (_ ∧ _))

/-- The indices of the frames that a batch sends. -/
def batchIndices (recorded : List RingFrame) (budget start : ℕ) : List ℕ :=
  (List.range' start c6FramesPerChunk).filter fun i => ∃ f ∈ recorded[i]?, Sendable budget f

namespace LiveDevice

/-- There is a batch to read.
SOURCE: ble_drain.c:186-191 -/
def Ready (s : LiveDevice) : Prop := c6FramesPerChunk ≤ available s.task.ring s.drain.cursor

instance (s : LiveDevice) : Decidable s.Ready := inferInstanceAs (Decidable (_ ≤ _))

/-- The indices that a pass includes. -/
def newIndices (s : LiveDevice) (mtu : ℕ) : List ℕ :=
  if s.Ready then
    batchIndices s.recorded (bodyBudget mtu) (prerollCursor s.task.ring s.drain).1
  else []

/-- The preroll of a pass, if it has one. -/
def newRewinds (s : LiveDevice) : List (ℕ × ℕ) :=
  if s.Ready ∧ (prerollCursor s.task.ring s.drain).2 then
    [((prerollCursor s.task.ring s.drain).1, s.drain.cursor)]
  else []

/-- SOURCE: openrecall_sensor.c:105-171, ble_drain.c:177-381 -/
def step (s : LiveDevice) : DrainReads.DeviceStep → LiveDevice
  | .hear heard =>
    { s with
      task := s.task.step heard
      recorded := s.recorded ++ (heard.pushed s.task.relTsMs).toList }
  | .drain mtu =>
    { s with
      drain := (drainLive mtu s.task.ring s.drain).2
      live := s.live ++ (drainLive mtu s.task.ring s.drain).1
      included := s.included ++ s.newIndices mtu
      rewinds := s.rewinds ++ s.newRewinds
      batches := s.batches + (decide s.Ready).toNat }
  | .replay mtu seconds =>
    { s with
      drain := { s.drain with
        chunkSeq := (drainReplay mtu seconds s.task.ring s.drain.chunkSeq).2.2 } }

/-- Fewer than `2 ^ 32` frames are recorded, and the drain is never more than the ring behind. -/
def Keeps (s : LiveDevice) : DrainReads.DeviceStep → Prop
  | .hear _ => s.recorded.length + 1 < 2 ^ 32
  | .drain _ => s.recorded.length ≤ s.drain.cursor + ringFrames
  | .replay _ _ => True

/-- The prerolls that went back over an index. -/
def rewoundOver (s : LiveDevice) (i : ℕ) : ℕ :=
  s.rewinds.countP fun r => r.1 ≤ i ∧ i < r.2

end LiveDevice

/-! ## The ring and the batch -/

/-- A frame is read while it is among the last of the ring.
SOURCE: ring_buffer.c:53-69 -/
theorem get_eq {recorded : List RingFrame} {ring : RingBuffer} (h : Records recorded ring)
    (hlt : recorded.length < 2 ^ 32) (index : ℕ) :
    ring.get index = if recorded.length ≤ index + ringFrames then recorded[index]? else none := by
  have hwrite : ring.writeIndex = recorded.length := by
    rw [h.writeIndex, Nat.mod_eq_of_lt hlt]
  unfold RingBuffer.get
  rw [hwrite]
  by_cases hindex : index < recorded.length
  · have hslot := fun hle => h.slots (recorded.length - index) (by omega) hle (by omega)
    rw [hwrite, Nat.sub_sub_self hindex.le] at hslot
    by_cases hle : recorded.length ≤ index + ringFrames
    · rw [if_pos ⟨hindex, by omega⟩, if_pos hle, hslot (by omega)]
    · rw [if_neg (by omega), if_neg hle]
  · rw [if_neg (by omega), List.getElem?_eq_none (not_lt.mp hindex), ite_self]

theorem available_eq {recorded : List RingFrame} {ring : RingBuffer} (h : Records recorded ring)
    (hlt : recorded.length < 2 ^ 32) {cursor : ℕ} (hcursor : cursor ≤ recorded.length) :
    available ring cursor = recorded.length - cursor := by
  have hwrite := h.writeIndex
  unfold available
  omega

/-- A batch within the ring is what was recorded there.
SOURCE: ble_drain.c:241-247 -/
theorem readBatch_eq {recorded : List RingFrame} {ring : RingBuffer} (h : Records recorded ring)
    (hlt : recorded.length < 2 ^ 32) {start n : ℕ} (hend : start + n ≤ recorded.length)
    (hwindow : recorded.length ≤ start + ringFrames) :
    readBatch ring start n = (recorded.drop start).take n := by
  induction n generalizing start with
  | zero => rfl
  | succ n ih =>
    have hstart : start < recorded.length := by omega
    rw [readBatch, get_eq h hlt, if_pos hwindow, List.getElem?_eq_getElem hstart,
      List.drop_eq_getElem_cons hstart, List.take_succ_cons, Nat.mod_eq_of_lt (by omega),
      ih (by omega) (by omega)]

/-- What a preroll does.
SOURCE: ble_drain.c:196-224 -/
theorem preroll_cases (ring : RingBuffer) (d : DrainState) :
    prerollCursor ring d = (d.cursor, false) ∨
      d.inSpeech = false ∧ 0 < d.cursor ∧
        (∃ head, ring.get d.cursor = some head ∧ head.vadState.isVoiced = true) ∧
        (∃ f, ring.get (d.cursor - vadPrerollFrames) = some f) ∧
        prerollCursor ring d = (d.cursor - vadPrerollFrames, true) := by
  have hback : (if vadPrerollFrames ≤ d.cursor then d.cursor - vadPrerollFrames else 0) =
      d.cursor - vadPrerollFrames := by
    split_ifs <;> omega
  unfold prerollCursor
  by_cases hspeech : d.inSpeech = true
  · exact .inl (if_pos hspeech)
  · rw [if_neg hspeech, hback]
    cases hhead : ring.get d.cursor with
    | none => exact .inl rfl
    | some head =>
      dsimp only
      by_cases hvoiced : head.vadState.isVoiced = true
      · rw [if_pos hvoiced]
        cases hrewind : ring.get (d.cursor - vadPrerollFrames) with
        | none => exact .inl rfl
        | some f =>
          dsimp only
          by_cases hpos : 0 < d.cursor - (d.cursor - vadPrerollFrames)
          · rw [if_pos hpos]
            exact .inr ⟨Bool.not_eq_true _ ▸ hspeech, by omega, ⟨head, rfl, hvoiced⟩, ⟨f, rfl⟩, rfl⟩
          · rw [if_neg hpos]
            exact .inl rfl
      · exact .inl (if_neg hvoiced)

/-- Ten frames always fit the buffer that packets are written to.
SOURCE: ble_drain.c:29-30 -/
theorem writable_of_length_le {frames : List RingFrame}
    (hlength : frames.length ≤ c6FramesPerChunk) : Writable frames := by
  have hsum : (frames.map RingFrame.cost).sum ≤ frames.length * (1 + 255) := by
    rw [← List.length_map (f := RingFrame.cost)]
    apply List.sum_le_card_nsmul
    intro c hc
    obtain ⟨f, -, rfl⟩ := List.mem_map.mp hc
    exact Nat.add_le_add_left f.len_le 1
  unfold c6FramesPerChunk at hlength
  refine ⟨hlength.trans (by decide), ?_⟩
  show 12 + (frames.map RingFrame.cost).sum ≤ 12 + 10 * (1 + 256)
  omega

theorem writable_of_mem_chunks {budget : ℕ} {slots frames : List RingFrame}
    (hslots : slots.length ≤ c6FramesPerChunk)
    (h : frames ∈ chunks RingFrame.cost budget (voiced slots)) : Writable frames :=
  writable_of_length_le
    (((sublist_of_mem_chunks h).trans List.filter_sublist).length_le.trans hslots)

/-- What the packets of a batch have.
SOURCE: ble_drain.c:287-371 -/
theorem frames_of_carries {packets : List DrainPacket} {budget : ℕ} {slots : List RingFrame}
    (hslots : slots.length ≤ c6FramesPerChunk)
    (h : Carries packets (chunks RingFrame.cost budget (voiced slots))) :
    packets.flatMap DrainPacket.frames = slots.filter fun f => Sendable budget f := by
  have hwritable : (chunks RingFrame.cost budget (voiced slots)).filter Writable =
      chunks RingFrame.cost budget (voiced slots) := by
    apply List.filter_eq_self.mpr
    exact fun frames hframes => decide_eq_true (writable_of_mem_chunks hslots hframes)
  rw [List.flatMap, ← List.flatten_filter_ne_nil, h.frames, hwritable, flatten_chunks, voiced,
    List.filter_filter]
  apply List.filter_congr
  intro f _
  simp [Sendable, and_comm]

/-- The frames at the indices of a batch. -/
theorem filterMap_batchIndices {recorded : List RingFrame} {budget start : ℕ}
    (hend : start + c6FramesPerChunk ≤ recorded.length) :
    (batchIndices recorded budget start).filterMap (recorded[·]?) =
      ((recorded.drop start).take c6FramesPerChunk).filter fun f => Sendable budget f := by
  unfold batchIndices
  generalize c6FramesPerChunk = n at *
  induction n generalizing start with
  | zero => simp
  | succ n ih =>
    have hstart : start < recorded.length := by omega
    have hrest := @ih (start + 1) (by omega)
    rw [List.range'_succ, List.drop_eq_getElem_cons hstart, List.take_succ_cons]
    by_cases hsend : Sendable budget recorded[start]
    · rw [List.filter_cons_of_pos (by simpa [hstart] using hsend),
        List.filter_cons_of_pos (by simpa using hsend), List.filterMap_cons, hrest]
      simp [hstart]
    · rw [List.filter_cons_of_neg (by simpa [hstart] using hsend),
        List.filter_cons_of_neg (by simpa using hsend), hrest]

/-! ## A pass -/

namespace LiveDevice

/-- The ring has what was recorded, fewer frames than its counter can count, and the cursor is
not ahead of them. -/
structure Tracked (s : LiveDevice) : Prop where
  records : Records s.recorded s.task.ring
  few : s.recorded.length < 2 ^ 32
  cursor_le : s.drain.cursor ≤ s.recorded.length

theorem tracked_new : Tracked {} := by
  refine ⟨⟨rfl, fun back hpos _ hback => ?_⟩, by simp, by simp⟩
  exact absurd hback (not_le.mpr hpos)

theorem Tracked.ready_iff {s : LiveDevice} (h : s.Tracked) :
    s.Ready ↔ s.drain.cursor + c6FramesPerChunk ≤ s.recorded.length := by
  have hcursor := h.cursor_le
  rw [Ready, available_eq h.records h.few h.cursor_le]
  omega

/-- Without a batch nothing happens.
SOURCE: ble_drain.c:186-191 -/
theorem step_drain_of_not_ready {s : LiveDevice} (h : ¬ s.Ready) (mtu : ℕ) :
    s.step (.drain mtu) = s := by
  have hnone : drainLive mtu s.task.ring s.drain = ([], s.drain) := if_pos (not_le.mp h)
  have hrewinds : s.newRewinds = [] := if_neg fun hready => h hready.1
  have hready : decide s.Ready = false := decide_eq_false h
  rw [LiveDevice.step, hnone, newIndices, if_neg h, hrewinds, hready, List.append_nil,
    List.append_nil, List.append_nil, Bool.toNat_false, Nat.add_zero]

/-- Where a batch begins.
SOURCE: ble_drain.c:196-224 -/
theorem Tracked.start {s : LiveDevice} (h : s.Tracked)
    (hbehind : s.recorded.length ≤ s.drain.cursor + ringFrames) :
    (prerollCursor s.task.ring s.drain).1 ≤ s.drain.cursor ∧
      s.recorded.length ≤ (prerollCursor s.task.ring s.drain).1 + ringFrames := by
  rcases preroll_cases s.task.ring s.drain with heq | ⟨-, -, -, ⟨f, hf⟩, heq⟩
  · rw [heq]
    exact ⟨le_rfl, hbehind⟩
  · rw [heq]
    refine ⟨Nat.sub_le _ _, ?_⟩
    rw [get_eq h.records h.few] at hf
    by_contra hfar
    rw [if_neg hfar] at hf
    cases hf

/-- A batch: it begins at the cursor, or at a preroll before an onset, and it is sent. -/
structure Batch (s : LiveDevice) (mtu start : ℕ) (prerolled : Bool) (packets : List DrainPacket)
    (drain : DrainState) : Prop where
  start_le : start ≤ s.drain.cursor
  end_le : start + c6FramesPerChunk ≤ s.recorded.length
  preroll : prerolled = false ∧ start = s.drain.cursor ∨
    prerolled = true ∧ start = s.drain.cursor - vadPrerollFrames ∧ s.drain.inSpeech = false ∧
      0 < s.drain.cursor ∧ ∃ head ∈ s.recorded[s.drain.cursor]?, head.vadState.isVoiced = true
  cursor : drain.cursor = start + c6FramesPerChunk
  frames : packets.flatMap DrainPacket.frames =
    (batchIndices s.recorded (bodyBudget mtu) start).filterMap (s.recorded[·]?)
  inSpeech : drain.inSpeech = ((chunkFrames prerolled
    ((s.recorded.drop start).take c6FramesPerChunk)).getLast?.map
      fun f => f.vadState.isVoiced).getD false

/-- The device after a batch. -/
def sendBatch (s : LiveDevice) (mtu start : ℕ) (prerolled : Bool) (packets : List DrainPacket)
    (drain : DrainState) : LiveDevice :=
  { s with
    drain := drain
    live := s.live ++ packets
    included := s.included ++ batchIndices s.recorded (bodyBudget mtu) start
    rewinds := s.rewinds ++ if prerolled then [(start, s.drain.cursor)] else []
    batches := s.batches + 1 }

/-- The batch that a pass sends.
SOURCE: ble_drain.c:193-381 -/
theorem Tracked.batch {s : LiveDevice} (h : s.Tracked)
    (hbehind : s.recorded.length ≤ s.drain.cursor + ringFrames) (hready : s.Ready) (mtu : ℕ) :
    s.Batch mtu (prerollCursor s.task.ring s.drain).1 (prerollCursor s.task.ring s.drain).2
      (drainLive mtu s.task.ring s.drain).1 (drainLive mtu s.task.ring s.drain).2 := by
  obtain ⟨hstart, hwindow⟩ := h.start hbehind
  have hten := h.ready_iff.mp hready
  have hend : (prerollCursor s.task.ring s.drain).1 + c6FramesPerChunk ≤ s.recorded.length := by
    omega
  have hready' : ¬ available s.task.ring (prerollCursor s.task.ring s.drain).1 <
      c6FramesPerChunk := by
    rw [available_eq h.records h.few (by omega)]
    omega
  have hread := readBatch_eq h.records h.few hend hwindow
  have hslots : liveSlots s.task.ring s.drain =
      (s.recorded.drop (prerollCursor s.task.ring s.drain).1).take c6FramesPerChunk := by
    rw [liveSlots, if_neg (not_or.mpr ⟨not_lt.mpr hready, hready'⟩), hread]
  refine ⟨hstart, hend, ?_, ?_, ?_, ?_⟩
  · rcases preroll_cases s.task.ring s.drain with heq | ⟨hspeech, hpos, ⟨head, hhead, hvoiced⟩, -, heq⟩
    · rw [heq]
      exact Or.inl ⟨rfl, rfl⟩
    · rw [get_eq h.records h.few, if_pos hbehind] at hhead
      rw [heq]
      exact Or.inr ⟨rfl, rfl, hspeech, hpos, head, hhead, hvoiced⟩
  · rw [cursor_drainLive, if_neg (not_lt.mpr hready), if_neg hready']
    have hfew := h.few
    exact Nat.mod_eq_of_lt (by omega)
  · rw [filterMap_batchIndices hend, ← hslots]
    apply frames_of_carries _ (carries_drainLive mtu s.task.ring s.drain)
    rw [hslots]
    exact List.length_take_le _ _
  · unfold drainLive
    rw [if_neg (not_lt.mpr hready)]
    dsimp only
    rw [if_neg hready', hread]

/-- **A pass of the drain does nothing, or sends a batch.**
SOURCE: ble_drain.c:186-381 -/
theorem Tracked.drain_cases {s : LiveDevice} (h : s.Tracked)
    (hbehind : s.recorded.length ≤ s.drain.cursor + ringFrames) (mtu : ℕ) :
    s.step (.drain mtu) = s ∨ ∃ start prerolled packets drain,
      s.Batch mtu start prerolled packets drain ∧
        s.step (.drain mtu) = s.sendBatch mtu start prerolled packets drain := by
  by_cases hready : s.Ready
  · refine Or.inr ⟨_, _, _, _, h.batch hbehind hready mtu, ?_⟩
    have hrewinds : s.newRewinds = if (prerollCursor s.task.ring s.drain).2 then
        [((prerollCursor s.task.ring s.drain).1, s.drain.cursor)] else [] := by
      rw [newRewinds]
      simp only [hready, true_and]
    have hone : decide s.Ready = true := decide_eq_true hready
    rw [LiveDevice.step, newIndices, if_pos hready, hrewinds, hone, Bool.toNat_true, sendBatch]
  · exact Or.inl (step_drain_of_not_ready hready mtu)

/-- **The step lemma.** -/
theorem Tracked.step {s : LiveDevice} (h : s.Tracked) {st : DrainReads.DeviceStep}
    (hkeeps : s.Keeps st) : (s.step st).Tracked := by
  cases st with
  | hear heard =>
    unfold Keeps at hkeeps
    have hcursor := h.cursor_le
    unfold LiveDevice.step AudioTask.step
    dsimp only
    cases heard.pushed s.task.relTsMs with
    | none =>
      rw [Option.toList_none, List.append_nil]
      exact ⟨h.records, h.few, h.cursor_le⟩
    | some f =>
      rw [Option.toList_some]
      refine ⟨h.records.push f, ?_, ?_⟩
      · simpa only [List.length_append, List.length_singleton] using hkeeps
      · simp only [List.length_append, List.length_singleton]
        omega
  | drain mtu =>
    obtain heq | ⟨start, prerolled, packets, drain, hbatch, heq⟩ := h.drain_cases hkeeps mtu
    · rw [heq]
      exact h
    · rw [heq]
      refine ⟨h.records, h.few, ?_⟩
      show drain.cursor ≤ s.recorded.length
      rw [hbatch.cursor]
      exact hbatch.end_le
  | replay mtu seconds => exact ⟨h.records, h.few, h.cursor_le⟩

/-! ## What the packets have -/

/-- The live packets have the frames at the indices included, one after the other. -/
structure Faithful (s : LiveDevice) : Prop where
  recorded : ∀ i ∈ s.included, i < s.recorded.length
  frames : s.live.flatMap DrainPacket.frames = s.included.filterMap (s.recorded[·]?)

theorem lt_of_mem_batchIndices {recorded : List RingFrame} {budget start i : ℕ}
    (h : i ∈ batchIndices recorded budget start) : i < recorded.length := by
  have hsend := (List.mem_filter.mp h).2
  rw [decide_eq_true_eq] at hsend
  obtain ⟨f, hf, -⟩ := hsend
  exact (List.getElem?_eq_some_iff.mp hf).1

theorem Faithful.step {s : LiveDevice} (htracked : s.Tracked) (h : s.Faithful)
    {st : DrainReads.DeviceStep} (hkeeps : s.Keeps st) : (s.step st).Faithful := by
  cases st with
  | hear heard =>
    refine ⟨fun i hi => ?_, ?_⟩
    · show i < (s.recorded ++ _).length
      rw [List.length_append]
      exact (h.recorded i hi).trans_le (Nat.le_add_right _ _)
    · show s.live.flatMap DrainPacket.frames = s.included.filterMap ((s.recorded ++ _)[·]?)
      rw [h.frames]
      apply List.filterMap_congr
      intro i hi
      exact (List.getElem?_append_left (h.recorded i hi)).symm
  | drain mtu =>
    obtain heq | ⟨start, prerolled, packets, drain, hbatch, heq⟩ :=
      htracked.drain_cases hkeeps mtu
    · rw [heq]
      exact h
    · rw [heq]
      refine ⟨fun i hi => ?_, ?_⟩
      · rcases List.mem_append.mp hi with hold | hnew
        · exact h.recorded i hold
        · exact lt_of_mem_batchIndices hnew
      · show (s.live ++ packets).flatMap DrainPacket.frames =
          (s.included ++ _).filterMap (s.recorded[·]?)
        rw [List.flatMap_append, List.filterMap_append, h.frames, hbatch.frames]
  | replay mtu seconds => exact ⟨h.recorded, h.frames⟩

/-! ## How often an index is included -/

/-- An index whose frame can be sent is included once when the cursor has passed it, and once more
for each preroll over it. -/
def Counted (budget : ℕ) (s : LiveDevice) : Prop :=
  ∀ i, (∀ f ∈ s.recorded[i]?, Sendable budget f) →
    s.included.count i = (if i < s.drain.cursor then 1 else 0) + s.rewoundOver i

/-- A batch includes each of its indices once. -/
theorem count_batchIndices {recorded : List RingFrame} {budget start i : ℕ}
    (hend : start + c6FramesPerChunk ≤ recorded.length)
    (hsend : ∀ f ∈ recorded[i]?, Sendable budget f) :
    (batchIndices recorded budget start).count i =
      if start ≤ i ∧ i < start + c6FramesPerChunk then 1 else 0 := by
  have hnodup : (batchIndices recorded budget start).Nodup :=
    List.Nodup.filter _ List.nodup_range'
  have hmem : i ∈ batchIndices recorded budget start ↔
      start ≤ i ∧ i < start + c6FramesPerChunk := by
    rw [batchIndices, List.mem_filter, List.mem_range'_1, and_iff_left_iff_imp]
    intro hi
    have hlt : i < recorded.length := by omega
    rw [List.getElem?_eq_getElem hlt] at hsend ⊢
    simpa using hsend
  rw [hnodup.count]
  simp only [hmem]

theorem Counted.step {s : LiveDevice} (htracked : s.Tracked) {budget : ℕ} (h : s.Counted budget)
    {st : DrainReads.DeviceStep} (hkeeps : s.Keeps st)
    (hbudget : ∀ mtu, st = .drain mtu → budget ≤ bodyBudget mtu) :
    (s.step st).Counted budget := by
  cases st with
  | hear heard =>
    intro i hsend
    apply h i
    intro f hf
    apply hsend f
    have hlt := (List.getElem?_eq_some_iff.mp hf).1
    show f ∈ (s.recorded ++ _)[i]?
    rwa [List.getElem?_append_left hlt]
  | drain mtu =>
    obtain heq | ⟨start, prerolled, packets, drain, hbatch, heq⟩ :=
      htracked.drain_cases hkeeps mtu
    · rw [heq]
      exact h
    · rw [heq]
      intro i hsend
      have hold := h i hsend
      have hstart := hbatch.start_le
      have hfits : ∀ f ∈ s.recorded[i]?, Sendable (bodyBudget mtu) f :=
        fun f hf => ⟨(hsend f hf).1, (hsend f hf).2.trans (hbudget mtu rfl)⟩
      have hnew := count_batchIndices hbatch.end_le hfits
      show (s.included ++ batchIndices s.recorded (bodyBudget mtu) start).count i =
        (if i < drain.cursor then 1 else 0) + (s.rewinds ++ _).countP _
      rw [List.count_append, hold, hnew, hbatch.cursor, List.countP_append, rewoundOver]
      obtain ⟨rfl, rfl⟩ | ⟨rfl, -⟩ := hbatch.preroll
      · simp only [Bool.false_eq_true, if_false, List.countP_nil]
        split_ifs <;> omega
      · simp only [if_true, List.countP_singleton, decide_eq_true_eq]
        split_ifs <;> omega
  | replay mtu seconds => exact h

/-! ## The order without a preroll -/

/-- What is included on the way from one state to another is in ring order, from the first cursor
to the second. -/
def Onward (s s' : LiveDevice) : Prop :=
  s.drain.cursor ≤ s'.drain.cursor ∧ ∃ more, s'.included = s.included ++ more ∧
    more.Pairwise (· < ·) ∧ ∀ i ∈ more, s.drain.cursor ≤ i ∧ i < s'.drain.cursor

theorem Onward.of_same {s s' : LiveDevice} (hcursor : s'.drain.cursor = s.drain.cursor)
    (hincluded : s'.included = s.included) : s.Onward s' :=
  ⟨hcursor.ge, [], by rw [hincluded, List.append_nil], List.Pairwise.nil, by simp⟩

theorem Onward.trans {s s' s'' : LiveDevice} (h : s.Onward s') (h' : s'.Onward s'') :
    s.Onward s'' := by
  obtain ⟨hle, more, heq, hmore, hrange⟩ := h
  obtain ⟨hle', more', heq', hmore', hrange'⟩ := h'
  refine ⟨hle.trans hle', more ++ more', by rw [heq', heq, List.append_assoc], ?_, ?_⟩
  · rw [List.pairwise_append]
    exact ⟨hmore, hmore', fun i hi j hj => (hrange i hi).2.trans_le (hrange' j hj).1⟩
  · intro i hi
    rcases List.mem_append.mp hi with hold | hnew
    · exact ⟨(hrange i hold).1, (hrange i hold).2.trans_le hle'⟩
    · exact ⟨hle.trans (hrange' i hnew).1, (hrange' i hnew).2⟩

/-- A step adds at most one preroll, and one without goes on in ring order. -/
theorem Tracked.onward {s : LiveDevice} (h : s.Tracked) {st : DrainReads.DeviceStep}
    (hkeeps : s.Keeps st) :
    s.rewinds.length ≤ (s.step st).rewinds.length ∧
      ((s.step st).rewinds.length = s.rewinds.length → s.Onward (s.step st)) := by
  cases st with
  | hear heard => exact ⟨le_rfl, fun _ => Onward.of_same rfl rfl⟩
  | drain mtu =>
    obtain heq | ⟨start, prerolled, packets, drain, hbatch, heq⟩ := h.drain_cases hkeeps mtu
    · rw [heq]
      exact ⟨le_rfl, fun _ => Onward.of_same rfl rfl⟩
    · rw [heq]
      obtain ⟨rfl, hstart⟩ | ⟨rfl, -⟩ := hbatch.preroll
      · refine ⟨?_, fun _ => ?_⟩
        · show s.rewinds.length ≤ (s.rewinds ++ _).length
          rw [List.length_append]
          exact Nat.le_add_right _ _
        · refine ⟨?_, batchIndices s.recorded (bodyBudget mtu) start, rfl, ?_, fun i hi => ?_⟩
          · show s.drain.cursor ≤ drain.cursor
            rw [hbatch.cursor, hstart]
            exact Nat.le_add_right _ _
          · exact List.Pairwise.filter _ List.pairwise_lt_range'
          · have hrange := List.mem_range'_1.mp (List.mem_filter.mp hi).1
            rw [hstart] at hrange
            refine ⟨hrange.1, ?_⟩
            show i < drain.cursor
            rw [hbatch.cursor, hstart]
            exact hrange.2
      · refine ⟨?_, fun hsame => ?_⟩
        · show s.rewinds.length ≤ (s.rewinds ++ _).length
          rw [List.length_append]
          exact Nat.le_add_right _ _
        · have hlonger : (s.rewinds ++ [(start, s.drain.cursor)]).length = s.rewinds.length :=
            hsame
          rw [List.length_append, List.length_singleton] at hlonger
          omega
  | replay mtu seconds => exact ⟨le_rfl, fun _ => Onward.of_same rfl rfl⟩

/-! ## The cursor gets ahead -/

/-- The frame at the index is recorded and silent. -/
def SilentAt (s : LiveDevice) (i : ℕ) : Prop := ∃ f ∈ s.recorded[i]?, f.silent = true

/-- Every frame of the ring is voiced or silent; the audio task pushes no other.
SOURCE: openrecall_sensor.c:111-166 -/
def Encoded (s : LiveDevice) : Prop :=
  ∀ f ∈ s.recorded, f.silent = !f.vadState.isVoiced

theorem silent_pushed {heard : HeardFrame} {relTsMs : UInt32} {f : RingFrame}
    (h : heard.pushed relTsMs = some f) : f.silent = !f.vadState.isVoiced := by
  cases heard with
  | gap =>
    obtain rfl := Option.some.inj h
    simp [RingFrame.silent, RingFrame.gap, VadState.isVoiced]
  | voiced hangover opus =>
    rw [HeardFrame.pushed] at h
    by_cases hlength : 0 < opus.length ∧ opus.length ≤ 255
    · rw [dif_pos hlength] at h
      obtain rfl := Option.some.inj h
      have hne : opus ≠ [] := List.ne_nil_of_length_pos hlength.1
      cases hangover <;> simp [RingFrame.silent, VadState.isVoiced, hne]
    · rw [dif_neg hlength] at h
      cases h

theorem Encoded.step {s : LiveDevice} (htracked : s.Tracked) (h : s.Encoded)
    {st : DrainReads.DeviceStep} (hkeeps : s.Keeps st) : (s.step st).Encoded := by
  cases st with
  | hear heard =>
    intro f hf
    rcases List.mem_append.mp hf with hold | hnew
    · exact h f hold
    · exact silent_pushed (Option.mem_toList.mp hnew)
  | drain mtu =>
    obtain heq | ⟨start, prerolled, packets, drain, -, heq⟩ := htracked.drain_cases hkeeps mtu
    · rw [heq]
      exact h
    · rw [heq]
      exact h
  | replay mtu seconds => exact h

/-- A batch is followed by speech, unless it was a preroll or has no voice. -/
theorem Batch.quiet {s : LiveDevice} (hencoded : s.Encoded) {mtu start : ℕ} {prerolled : Bool}
    {packets : List DrainPacket} {drain : DrainState}
    (h : s.Batch mtu start prerolled packets drain) (hspeech : drain.inSpeech = false) :
    prerolled = true ∨ ∀ i, start ≤ i → i < start + c6FramesPerChunk → s.SilentAt i := by
  cases prerolled with
  | true => exact Or.inl rfl
  | false =>
    right
    rw [h.inSpeech, chunkFrames] at hspeech
    -- the last frame of a batch with voice is voiced, as all frames that are not silent are
    have hnone : ((s.recorded.drop start).take c6FramesPerChunk).filter (fun f => !f.silent) =
        [] := by
      by_contra hsome
      have hlast := List.getLast?_eq_some_getLast hsome
      have hmem := List.mem_filter.mp (List.getLast_mem hsome)
      have hcoded := hencoded _ (List.mem_of_mem_drop (List.mem_of_mem_take hmem.1))
      have hmute : (List.getLast _ hsome).vadState.isVoiced = false := by
        simpa only [List.getLast?_map, hlast, Option.map_some, Option.getD_some,
          Bool.false_eq_true, if_false] using hspeech
      rw [hmute, Bool.not_false] at hcoded
      rw [hcoded] at hmem
      exact absurd hmem.2 (by simp)
    intro i hi hlt
    have hbound : i < s.recorded.length := hlt.trans_le h.end_le
    refine ⟨s.recorded[i], List.getElem?_eq_getElem hbound, ?_⟩
    have hsilent := List.filter_eq_nil_iff.mp hnone s.recorded[i] (by
      rw [List.mem_iff_getElem?]
      refine ⟨i - start, ?_⟩
      rw [List.getElem?_take_of_lt (by omega), List.getElem?_drop, Nat.add_sub_cancel' hi,
        List.getElem?_eq_getElem hbound])
    simpa using hsilent

/-- The drain is not in speech at the start, or after a batch without voice, and has not lost
ground. -/
structure Ahead (s : LiveDevice) : Prop where
  batches : 5 * s.batches ≤ 2 * s.drain.cursor
  quiet : s.drain.inSpeech = true ∨ s.drain.cursor = 0 ∨
    c6FramesPerChunk ≤ s.drain.cursor ∧
      ∀ i, s.drain.cursor ≤ i + c6FramesPerChunk → i < s.drain.cursor → s.SilentAt i

/-- The drain has gone back before an onset: the next batch begins in silence. -/
structure Returning (s : LiveDevice) : Prop where
  batches : 5 * s.batches ≤ 2 * s.drain.cursor + 15
  silent : s.SilentAt s.drain.cursor

/-- The cursor gets ahead, unless a preroll has gone back from index ten to the start. -/
def GetsAhead (s : LiveDevice) : Prop :=
  (0, c6FramesPerChunk) ∈ s.rewinds ∨ s.Ahead ∨ s.Returning

theorem getsAhead_new : GetsAhead {} :=
  Or.inr (Or.inl ⟨le_rfl, Or.inr (Or.inl rfl)⟩)

theorem SilentAt.hear {s : LiveDevice} {i : ℕ} (h : s.SilentAt i) (heard : HeardFrame) :
    (s.step (.hear heard)).SilentAt i := by
  obtain ⟨f, hf, hsilent⟩ := h
  refine ⟨f, ?_, hsilent⟩
  have hlt := (List.getElem?_eq_some_iff.mp hf).1
  show f ∈ (s.recorded ++ _)[i]?
  rwa [List.getElem?_append_left hlt]

/-- A batch from the cursor on takes the drain ahead. -/
theorem Batch.ahead {s : LiveDevice} (hencoded : s.Encoded) {mtu : ℕ}
    {packets : List DrainPacket} {drain : DrainState}
    (hbatch : s.Batch mtu s.drain.cursor false packets drain)
    (hbatches : 5 * s.batches ≤ 2 * s.drain.cursor + 15) :
    (s.sendBatch mtu s.drain.cursor false packets drain).Ahead := by
  have hcursor := hbatch.cursor
  unfold c6FramesPerChunk at hcursor
  refine ⟨?_, ?_⟩
  · show 5 * (s.batches + 1) ≤ 2 * drain.cursor
    omega
  · show drain.inSpeech = true ∨ drain.cursor = 0 ∨ c6FramesPerChunk ≤ drain.cursor ∧ _
    cases hspeech : drain.inSpeech with
    | true => exact Or.inl rfl
    | false =>
      obtain hfalse | hquiet := hbatch.quiet hencoded hspeech
      · cases hfalse
      · refine Or.inr (Or.inr ⟨?_, fun i hi hlt => hquiet i ?_ ?_⟩)
        · unfold c6FramesPerChunk
          omega
        · change drain.cursor ≤ i + c6FramesPerChunk at hi
          unfold c6FramesPerChunk at hi
          omega
        · change i < drain.cursor at hlt
          unfold c6FramesPerChunk
          omega

/-- A preroll takes it back by five frames, into the silence before the onset. -/
theorem Ahead.returning {s : LiveDevice} (h : s.Ahead) {mtu start : ℕ}
    {packets : List DrainPacket} {drain : DrainState}
    (hbatch : s.Batch mtu start true packets drain) :
    (0, c6FramesPerChunk) ∈ (s.sendBatch mtu start true packets drain).rewinds ∨
      (s.sendBatch mtu start true packets drain).Returning := by
  obtain ⟨hfalse, -⟩ | ⟨-, hstart, hspeech, hpos, -⟩ := hbatch.preroll
  · cases hfalse
  · obtain hin | hzero | ⟨hten, hquiet⟩ := h.quiet
    · rw [hspeech] at hin
      cases hin
    · omega
    · have hbatches := h.batches
      have hcursor := hbatch.cursor
      unfold c6FramesPerChunk at hcursor hten hquiet
      unfold vadPrerollFrames at hstart
      rcases hten.eq_or_lt with hten' | hlater
      · left
        apply List.mem_append_right
        rw [if_pos rfl, hstart, ← hten']
        exact List.mem_singleton_self _
      · right
        refine ⟨?_, ?_⟩
        · show 5 * (s.batches + 1) ≤ 2 * drain.cursor + 15
          omega
        · show s.SilentAt drain.cursor
          apply hquiet <;> omega

/-- **The step lemma.** -/
theorem GetsAhead.step {s : LiveDevice} (htracked : s.Tracked) (hencoded : s.Encoded)
    (h : s.GetsAhead) {st : DrainReads.DeviceStep} (hkeeps : s.Keeps st) :
    (s.step st).GetsAhead := by
  cases st with
  | hear heard =>
    obtain hstuck | hahead | hreturning := h
    · exact Or.inl hstuck
    · refine Or.inr (Or.inl ⟨hahead.batches, ?_⟩)
      exact hahead.quiet.imp id (Or.imp id fun hquiet =>
        ⟨hquiet.1, fun i hi hlt => (hquiet.2 i hi hlt).hear heard⟩)
    · exact Or.inr (Or.inr ⟨hreturning.batches, hreturning.silent.hear heard⟩)
  | drain mtu =>
    obtain heq | ⟨start, prerolled, packets, drain, hbatch, heq⟩ :=
      htracked.drain_cases hkeeps mtu
    · rw [heq]
      exact h
    · rw [heq]
      obtain hstuck | hahead | hreturning := h
      · exact Or.inl (List.mem_append_left _ hstuck)
      · obtain ⟨rfl, rfl⟩ | ⟨rfl, -⟩ := hbatch.preroll
        · exact Or.inr (Or.inl (hbatch.ahead hencoded (hahead.batches.trans (Nat.le_add_right _ _))))
        · exact (hahead.returning hbatch).imp id Or.inr
      · obtain ⟨rfl, rfl⟩ | ⟨-, -, -, -, head, hhead, hvoiced⟩ := hbatch.preroll
        · exact Or.inr (Or.inl (hbatch.ahead hencoded hreturning.batches))
        · -- there is no onset where the frame is silent
          obtain ⟨f, hf, hsilent⟩ := hreturning.silent
          obtain rfl : head = f := Option.some.inj (hhead.symm.trans hf)
          have hcoded := hencoded head (List.mem_of_getElem? hhead)
          rw [hsilent, hvoiced] at hcoded
          cases hcoded
  | replay mtu seconds =>
    obtain hstuck | hahead | hreturning := h
    · exact Or.inl hstuck
    · exact Or.inr (Or.inl ⟨hahead.batches, hahead.quiet⟩)
    · exact Or.inr (Or.inr ⟨hreturning.batches, hreturning.silent⟩)

theorem GetsAhead.lt_cursor {s : LiveDevice} (h : s.GetsAhead)
    (hstuck : (0, c6FramesPerChunk) ∉ s.rewinds) {n : ℕ} (hn : 2 * n + 15 < 5 * s.batches) :
    n < s.drain.cursor := by
  obtain hstuck' | hahead | hreturning := h
  · exact absurd hstuck' hstuck
  · have hbatches := hahead.batches
    omega
  · have hbatches := hreturning.batches
    omega

end LiveDevice

/-! ## The run -/

/-- **What a run of the live drain amounts to.** -/
structure Delivers (steps : List DrainReads.DeviceStep) (s : LiveDevice) : Prop where
  /-- The live packets have the frames at the indices included, one after the other. -/
  frames : s.live.flatMap DrainPacket.frames = s.included.filterMap (s.recorded[·]?)
  /-- A voiced frame that fits is included once the cursor has passed it, and once more for each
  preroll that went back over it. -/
  counted : ∀ i f, s.recorded[i]? = some f → f.silent = false →
    (∀ mtu, .drain mtu ∈ steps → f.cost ≤ bodyBudget mtu) →
      s.included.count i = (if i < s.drain.cursor then 1 else 0) + s.rewoundOver i
  /-- From one preroll to the next the frames are included in ring order. -/
  ordered : ∀ before stretch, steps = before ++ stretch →
    (run LiveDevice.step {} before).rewinds = s.rewinds →
      (run LiveDevice.step {} before).Onward s
  /-- The cursor exceeds every index after finitely many batches, unless a preroll went back from
  index ten to the start. -/
  ahead : (0, c6FramesPerChunk) ∉ s.rewinds → ∀ n, 2 * n + 15 < 5 * s.batches →
    n < s.drain.cursor

theorem tracked_run {steps : List DrainReads.DeviceStep} {s : LiveDevice} (h : s.Tracked)
    (hkeeps : EveryStep LiveDevice.step LiveDevice.Keeps s steps) :
    (run LiveDevice.step s steps).Tracked :=
  hkeeps.invariant (fun _ _ htracked hstep => htracked.step hstep) h

/-- A run without a new preroll goes on in ring order. -/
theorem onward_run {s : LiveDevice} (h : s.Tracked) {steps : List DrainReads.DeviceStep}
    (hkeeps : EveryStep LiveDevice.step LiveDevice.Keeps s steps) :
    s.rewinds.length ≤ (run LiveDevice.step s steps).rewinds.length ∧
      ((run LiveDevice.step s steps).rewinds.length = s.rewinds.length →
        s.Onward (run LiveDevice.step s steps)) := by
  induction steps generalizing s with
  | nil => exact ⟨le_rfl, fun _ => LiveDevice.Onward.of_same rfl rfl⟩
  | cons st steps ih =>
    obtain ⟨hstep, hrest⟩ := (everyStep_cons s st steps).mp hkeeps
    obtain ⟨hle, honward⟩ := h.onward hstep
    obtain ⟨hle', honward'⟩ := ih (h.step hstep) hrest
    rw [run_cons]
    refine ⟨hle.trans hle', fun hsame => ?_⟩
    exact (honward (by omega)).trans (honward' (by omega))

/-- **The live drain delivers**: in every run of the audio task and the drain, at any MTU and with
any replays between the passes, as long as the drain is never more than the ring behind.
SOURCE: ble_drain.c:177-381 -/
theorem live_delivers (steps : List DrainReads.DeviceStep)
    (hkeeps : EveryStep LiveDevice.step LiveDevice.Keeps {} steps) :
    Delivers steps (run LiveDevice.step {} steps) := by
  have hfaithful : (run LiveDevice.step {} steps).Tracked ∧
      (run LiveDevice.step {} steps).Faithful ∧ (run LiveDevice.step {} steps).Encoded ∧
      (run LiveDevice.step {} steps).GetsAhead := by
    apply hkeeps.invariant (I := fun s => s.Tracked ∧ s.Faithful ∧ s.Encoded ∧ s.GetsAhead)
    · rintro s st ⟨htracked, hfaithful, hencoded, hahead⟩ hstep
      exact ⟨htracked.step hstep, hfaithful.step htracked hstep, hencoded.step htracked hstep,
        hahead.step htracked hencoded hstep⟩
    · exact ⟨LiveDevice.tracked_new, ⟨by simp, rfl⟩, by simp [LiveDevice.Encoded],
        LiveDevice.getsAhead_new⟩
  obtain ⟨-, hfaithful, -, hahead⟩ := hfaithful
  refine ⟨hfaithful.frames, fun i f hf hsilent hfits => ?_, ?_, fun hstuck n hn => ?_⟩
  · have hbudget : EveryStep LiveDevice.step
        (fun _ st => ∀ mtu, st = DrainReads.DeviceStep.drain mtu → f.cost ≤ bodyBudget mtu) {}
        steps := by
      apply everyStep_of_forall
        (P := fun st => ∀ mtu, st = DrainReads.DeviceStep.drain mtu → f.cost ≤ bodyBudget mtu)
      rintro st hst mtu rfl
      exact hfits mtu hst
    have hcounted : (run LiveDevice.step {} steps).Tracked ∧
        (run LiveDevice.step {} steps).Counted f.cost := by
      apply (hkeeps.and hbudget).invariant (I := fun s => s.Tracked ∧ s.Counted f.cost)
      · rintro s st ⟨htracked, hcounted⟩ ⟨hstep, hfit⟩
        exact ⟨htracked.step hstep, hcounted.step htracked hstep hfit⟩
      · exact ⟨LiveDevice.tracked_new, fun i _ => by simp [LiveDevice.rewoundOver]⟩
    apply hcounted.2 i
    rintro f' hf'
    obtain rfl : f' = f := Option.some.inj (hf'.symm.trans hf)
    exact ⟨hsilent, le_rfl⟩
  · rintro before stretch rfl hsame
    obtain ⟨hbefore, hstretch⟩ := (everyStep_append _ before stretch).mp hkeeps
    rw [run_append] at hsame ⊢
    exact (onward_run (tracked_run LiveDevice.tracked_new hbefore) hstretch).2
      (congrArg List.length hsame).symm
  · exact hahead.lt_cursor hstuck hn

/-! ## Onsets -/

instance (s : LiveDevice) : (st : DrainReads.DeviceStep) → Decidable (s.Keeps st)
  | .hear _ => inferInstanceAs (Decidable (_ < _))
  | .drain _ => inferInstanceAs (Decidable (_ ≤ _))
  | .replay _ _ => inferInstanceAs (Decidable True)

/-- So many frames of speech, of one byte each. -/
def speech (n : ℕ) : List DrainReads.DeviceStep := List.replicate n (.hear (.voiced false [0]))

/-- So many frames without voice. -/
def pause (n : ℕ) : List DrainReads.DeviceStep := List.replicate n (.hear .gap)

/-- Two utterances with a pause of ten frames, and a pass for each ten frames. -/
def twoUtterances : List DrainReads.DeviceStep :=
  speech 10 ++ pause 10 ++ speech 10 ++ List.replicate 3 (.drain 247)

/-- The preroll of the second utterance sends the end of the first one again.
SOURCE: ble_drain.c:193-224 -/
theorem not_exactly_once : ¬ ∀ steps, EveryStep LiveDevice.step LiveDevice.Keeps {} steps →
    ∀ i f, (run LiveDevice.step {} steps).recorded[i]? = some f → f.silent = false →
      (∀ mtu, .drain mtu ∈ steps → f.cost ≤ bodyBudget mtu) →
        i < (run LiveDevice.step {} steps).drain.cursor →
          ((run LiveDevice.step {} steps).live.flatMap DrainPacket.frames).count f = 1 := by
  intro h
  have hfits : ∀ mtu, .drain mtu ∈ twoUtterances → 2 ≤ bodyBudget mtu := by
    intro mtu hmtu
    obtain rfl : mtu = 247 := by simpa [twoUtterances, speech, pause] using hmtu
    decide
  have honce := h twoUtterances (by decide +kernel) 5 ⟨.speech, 100, [0], by simp⟩
    (by decide +kernel) (by decide) hfits (by decide +kernel)
  exact absurd honce (by decide +kernel)

/-- The run of the two utterances: the frames of the second half of the first one are included
twice, and the cursor is past the others once. -/
theorem live_delivers_twoUtterances : Delivers twoUtterances (run LiveDevice.step {} twoUtterances) :=
  live_delivers twoUtterances (by decide +kernel)

end OpenRecall.Analysis.LiveDrain
