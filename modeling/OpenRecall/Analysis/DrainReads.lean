import OpenRecall.Analysis.PacketTime
import OpenRecall.Foundation.Run

/-!
# What the drain reads again

A frame of the ring is read by its position, the number of frames before it. The cursor of the
live drain goes up, but the preroll takes it back, and a replay reads its window whatever was
read before. So what is sent is what was recorded, each frame at most once, and what was read
again: below the highest position that the cursor has had, or in the window of a replay.
-/

set_option autoImplicit false

namespace OpenRecall.Analysis.DrainReads

open Foundation OpenRecall.Model OpenRecall.Analysis.ReplayBounds OpenRecall.Analysis.PacketTime

/-- A frame of the microphone, a pass of the drain, or a replay. -/
inductive DeviceStep where
  | hear (heard : HeardFrame)
  | drain (mtu : ℕ)
  | replay (mtu seconds : ℕ)

/-- The audio task and the drain, with what they have recorded and sent; `reach` is the highest
position of the cursor so far, and `again` the frames that were read although they are below it,
or in a replay. -/
structure Device where
  task : AudioTask := {}
  drain : DrainState := {}
  recorded : List RingFrame := []
  sent : List DrainPacket := []
  reach : ℕ := 0
  again : List RingFrame := []

namespace Device

/-- The number of frames before a cursor. -/
def position (s : Device) (cursor : ℕ) : ℕ := s.recorded.length - available s.task.ring cursor

/-- The cursor may have gone up. -/
def advance (s : Device) : Device := { s with reach := max s.reach (s.position s.drain.cursor) }

/-- SOURCE: openrecall_sensor.c:105-171, ble_drain.c:177-381 -/
def step (s : Device) : DeviceStep → Device
  | .hear heard =>
    { s with
      task := s.task.step heard
      recorded := s.recorded ++ (heard.pushed s.task.relTsMs).toList }.advance
  | .drain mtu =>
    { s with
      drain := (drainLive mtu s.task.ring s.drain).2
      sent := s.sent ++ (drainLive mtu s.task.ring s.drain).1
      again := s.again ++ (liveSlots s.task.ring s.drain).take
        (s.reach - s.position (prerollCursor s.task.ring s.drain).1) }.advance
  | .replay mtu seconds =>
    { s with
      drain := { s.drain with
        chunkSeq := (drainReplay mtu seconds s.task.ring s.drain.chunkSeq).2.2 }
      sent := s.sent ++ (drainReplay mtu seconds s.task.ring s.drain.chunkSeq).2.1
      again := s.again ++ windowFrames seconds s.task.ring }

/-- A pass goes on where the last one ended, and no replay is served. -/
def Forward (s : Device) : DeviceStep → Prop
  | .hear _ => True
  | .drain _ => (prerollCursor s.task.ring s.drain).2 = false
  | .replay _ _ => False

end Device

/-! ## The ring and what was recorded -/

/-- The ring has the last frames that were recorded: `back` steps before the next one. -/
structure Records (recorded : List RingFrame) (ring : RingBuffer) : Prop where
  writeIndex : ring.writeIndex = recorded.length % 2 ^ 32
  slots : ∀ back, 0 < back → back ≤ ringFrames → back ≤ ring.writeIndex →
    recorded[recorded.length - back]? = some (ring.slots (RingBuffer.slot (ring.writeIndex - back)))

theorem slot_ne {i j : ℕ} (hlt : i < j) (hnear : j - i < ringFrames) :
    RingBuffer.slot i ≠ RingBuffer.slot j := by
  intro heq
  have hmod : i % ringFrames = j % ringFrames := congrArg Fin.val heq
  unfold ringFrames at hnear hmod
  omega

theorem Records.writeIndex_le {recorded : List RingFrame} {ring : RingBuffer}
    (h : Records recorded ring) : ring.writeIndex ≤ recorded.length := by
  rw [h.writeIndex]
  exact Nat.mod_le _ _

/-- SOURCE: ring_buffer.c:34-47 -/
theorem Records.push {recorded : List RingFrame} {ring : RingBuffer} (h : Records recorded ring)
    (f : RingFrame) : Records (recorded ++ [f]) (ring.push f) := by
  have hindex := h.writeIndex
  refine ⟨?_, fun back hpos hring hback => ?_⟩
  · show (ring.writeIndex + 1) % 2 ^ 32 = (recorded ++ [f]).length % 2 ^ 32
    rw [hindex, List.length_append, List.length_singleton, Nat.mod_add_mod]
  · have hwrite : (ring.push f).writeIndex = ring.writeIndex + 1 := by
      show (ring.writeIndex + 1) % 2 ^ 32 = ring.writeIndex + 1
      have hback' : back ≤ (ring.writeIndex + 1) % 2 ^ 32 := hback
      omega
    rw [hwrite] at hback ⊢
    show _ = some (Function.update ring.slots (RingBuffer.slot ring.writeIndex) f _)
    rw [List.length_append, List.length_singleton]
    obtain ⟨back, rfl⟩ := Nat.exists_eq_succ_of_ne_zero hpos.ne'
    have hlength := h.writeIndex_le
    rw [Nat.succ_eq_add_one, Nat.add_sub_add_right, Nat.add_sub_add_right]
    cases back with
    | zero => simp
    | succ back =>
      rw [Function.update_of_ne, List.getElem?_append_left (by omega)]
      · exact h.slots (back + 1) (Nat.succ_pos back) (by omega) (by omega)
      · apply slot_ne
        · omega
        · omega

theorem Records.get {recorded : List RingFrame} {ring : RingBuffer} (h : Records recorded ring)
    {index : ℕ} {f : RingFrame} (hget : ring.get index = some f) :
    index < ring.writeIndex ∧
      recorded[recorded.length - (ring.writeIndex - index)]? = some f := by
  unfold RingBuffer.get at hget
  split_ifs at hget with hwindow
  obtain rfl := Option.some.inj hget
  have hslot := h.slots (ring.writeIndex - index) (by omega) hwindow.2 (Nat.sub_le _ _)
  rw [Nat.sub_sub_self hwindow.1.le] at hslot
  exact ⟨hwindow.1, hslot⟩

theorem available_of_lt {ring : RingBuffer} {cursor : ℕ} (hlt : cursor < ring.writeIndex)
    (hwrite : ring.writeIndex < 2 ^ 32) :
    available ring cursor = ring.writeIndex - cursor := by
  unfold available
  omega

/-- A batch has the frames from its position on, or none.
SOURCE: ble_drain.c:241-247 -/
theorem Records.sublist_batch {recorded : List RingFrame} {ring : RingBuffer}
    (h : Records recorded ring) (cursor n : ℕ) :
    (readBatch ring cursor n).Sublist
      ((recorded.drop (recorded.length - available ring cursor)).take n) := by
  have hwrite : ring.writeIndex < 2 ^ 32 := by
    rw [h.writeIndex]
    exact Nat.mod_lt _ (Nat.two_pow_pos 32)
  have hlength := h.writeIndex_le
  induction n generalizing cursor with
  | zero => exact List.nil_sublist _
  | succ n ih =>
    rw [readBatch]
    cases hget : ring.get cursor with
    | none => exact List.nil_sublist _
    | some f =>
      obtain ⟨hlt, hframe⟩ := h.get hget
      obtain ⟨hbound, hf⟩ := List.getElem?_eq_some_iff.mp hframe
      have hnext : (cursor + 1) % 2 ^ 32 = cursor + 1 := by omega
      have hrest := ih (cursor + 1)
      rw [available_of_lt hlt hwrite, List.drop_eq_getElem_cons hbound, List.take_succ_cons, hf,
        hnext]
      apply List.Sublist.cons_cons
      rcases Nat.lt_or_ge (cursor + 1) ring.writeIndex with hlt' | hge
      · rw [available_of_lt hlt' hwrite] at hrest
        have hposition : recorded.length - (ring.writeIndex - (cursor + 1)) =
            recorded.length - (ring.writeIndex - cursor) + 1 := by omega
        rwa [hposition] at hrest
      · have hnone : readBatch ring (cursor + 1) n = [] := by
          cases n with
          | zero => rfl
          | succ n =>
            have hget' : ring.get (cursor + 1) = none := by
              unfold RingBuffer.get
              exact if_neg fun hwindow => absurd hwindow.1 (not_lt.mpr hge)
            rw [readBatch, hget']
        rw [hnone]
        exact List.nil_sublist _

/-! ## A pass -/

/-- The preroll leaves the cursor, or takes it back to a frame that is there.
SOURCE: ble_drain.c:196-224 -/
theorem prerollCursor_cases (ring : RingBuffer) (d : DrainState) :
    prerollCursor ring d = (d.cursor, false) ∨
      ∃ rewindTo head f, prerollCursor ring d = (rewindTo, true) ∧ rewindTo ≤ d.cursor ∧
        ring.get d.cursor = some head ∧ ring.get rewindTo = some f := by
  unfold prerollCursor
  by_cases hspeech : d.inSpeech = true
  · exact .inl (if_pos hspeech)
  · rw [if_neg hspeech]
    cases hhead : ring.get d.cursor with
    | none => exact .inl rfl
    | some head =>
      dsimp only
      by_cases hvoiced : head.vadState.isVoiced = true
      · have hle : (if vadPrerollFrames ≤ d.cursor then d.cursor - vadPrerollFrames else 0) ≤
            d.cursor := by
          split_ifs <;> omega
        rw [if_pos hvoiced]
        generalize (if vadPrerollFrames ≤ d.cursor then d.cursor - vadPrerollFrames else 0) =
          rewindTo at *
        cases hrewind : ring.get rewindTo with
        | none => exact .inl rfl
        | some f =>
          dsimp only
          split_ifs
          · exact .inr ⟨rewindTo, head, f, rfl, hle, rfl, hrewind⟩
          · exact .inl rfl
      · exact .inl (if_neg hvoiced)

/-- The preroll does not go on, nor before the first frame. -/
theorem Records.prerollCursor {recorded : List RingFrame} {ring : RingBuffer}
    (h : Records recorded ring) {d : DrainState} (hcursor : d.cursor < 2 ^ 32)
    (havailable : available ring d.cursor ≤ recorded.length) :
    (prerollCursor ring d).1 < 2 ^ 32 ∧
      available ring d.cursor ≤ available ring (Model.prerollCursor ring d).1 ∧
      available ring (Model.prerollCursor ring d).1 ≤ recorded.length := by
  have hwrite : ring.writeIndex < 2 ^ 32 := by
    rw [h.writeIndex]
    exact Nat.mod_lt _ (Nat.two_pow_pos 32)
  have hlength := h.writeIndex_le
  rcases prerollCursor_cases ring d with heq | ⟨rewindTo, head, f, heq, hle, hhead, -⟩
  · rw [heq]
    exact ⟨hcursor, le_rfl, havailable⟩
  · have hlt := (h.get hhead).1
    rw [heq, available_of_lt hlt hwrite, available_of_lt (hle.trans_lt hlt) hwrite]
    dsimp only
    omega

/-- Where a pass leaves the cursor. -/
theorem cursor_drainLive (mtu : ℕ) (ring : RingBuffer) (d : DrainState) :
    (drainLive mtu ring d).2.cursor =
      if available ring d.cursor < c6FramesPerChunk then d.cursor
      else if available ring (prerollCursor ring d).1 < c6FramesPerChunk then
        (prerollCursor ring d).1
      else ((prerollCursor ring d).1 + c6FramesPerChunk) % 2 ^ 32 := by
  unfold drainLive
  by_cases hcase : available ring d.cursor < c6FramesPerChunk
  · rw [if_pos hcase, if_pos hcase]
  · rw [if_neg hcase, if_neg hcase]
    dsimp only
    by_cases hpreroll : available ring (prerollCursor ring d).1 < c6FramesPerChunk
    · rw [if_pos hpreroll, if_pos hpreroll]
    · rw [if_neg hpreroll, if_neg hpreroll]

/-- A batch takes ten frames off what is available. -/
theorem available_add {ring : RingBuffer} {cursor : ℕ} (hwrite : ring.writeIndex < 2 ^ 32)
    (h : c6FramesPerChunk ≤ available ring cursor) :
    available ring ((cursor + c6FramesPerChunk) % 2 ^ 32) =
      available ring cursor - c6FramesPerChunk := by
  unfold available c6FramesPerChunk at *
  omega

/-- What a pass or a replay sends was read, and is sent once.
SOURCE: ble_drain.c:287-371 -/
theorem sublist_of_carries {packets : List DrainPacket} {budget : ℕ} {slots : List RingFrame}
    (h : Carries packets (chunks RingFrame.cost budget (voiced slots))) :
    (packets.flatMap DrainPacket.frames).Sublist slots := by
  rw [List.flatMap, ← List.flatten_filter_ne_nil, h.frames]
  apply List.Sublist.trans (List.Sublist.flatten List.filter_sublist)
  exact (flatten_chunks_sublist RingFrame.cost budget (voiced slots)).trans List.filter_sublist

/-! ## The run of a device -/

namespace Device

/-- The ring has what was recorded, and the cursor is behind its reach. -/
structure Tracked (s : Device) : Prop where
  records : Records s.recorded s.task.ring
  cursor_lt : s.drain.cursor < 2 ^ 32
  available_le : available s.task.ring s.drain.cursor ≤ s.recorded.length
  position_le : s.position s.drain.cursor ≤ s.reach

theorem tracked_new : Tracked {} := by
  refine ⟨⟨rfl, fun back hpos _ hback => ?_⟩, by decide, Nat.le_refl 0, Nat.le_refl 0⟩
  exact absurd hback (not_le.mpr hpos)

theorem Tracked.writeIndex_lt {s : Device} (h : s.Tracked) : s.task.ring.writeIndex < 2 ^ 32 := by
  rw [h.records.writeIndex]
  exact Nat.mod_lt _ (Nat.two_pow_pos 32)

/-- The reach goes up with the cursor. -/
theorem Tracked.advance {s : Device} (records : Records s.recorded s.task.ring)
    (cursor_lt : s.drain.cursor < 2 ^ 32)
    (available_le : available s.task.ring s.drain.cursor ≤ s.recorded.length) :
    s.advance.Tracked := by
  refine ⟨records, cursor_lt, available_le, ?_⟩
  have hsame : s.advance.position s.advance.drain.cursor = s.position s.drain.cursor := by
    simp only [Device.advance, position]
  rw [hsame]
  exact le_max_right _ _

/-- A frame more. -/
theorem Tracked.hear {s : Device} (h : s.Tracked) (heard : HeardFrame) :
    (s.step (.hear heard)).Tracked := by
  have hwrite := h.writeIndex_lt
  have hcursor := h.cursor_lt
  have havailable := h.available_le
  unfold step AudioTask.step
  dsimp only
  cases heard.pushed s.task.relTsMs with
  | none =>
    rw [Option.toList_none, List.append_nil]
    apply Tracked.advance
    · exact h.records
    · exact hcursor
    · exact havailable
  | some f =>
    have hmore : available (s.task.ring.push f) s.drain.cursor ≤
        available s.task.ring s.drain.cursor + 1 := by
      unfold available RingBuffer.push at *
      dsimp only
      omega
    apply Tracked.advance
    · exact h.records.push f
    · exact hcursor
    · show available (s.task.ring.push f) s.drain.cursor ≤ (s.recorded ++ [f]).length
      rw [List.length_append, List.length_singleton]
      exact hmore.trans (Nat.succ_le_succ havailable)

/-- The cursor moves, to a place behind a frame. -/
theorem Tracked.moved {s : Device} (h : s.Tracked) {d : DrainState} (sent : List DrainPacket)
    (again : List RingFrame) (hlt : d.cursor < 2 ^ 32)
    (hle : available s.task.ring d.cursor ≤ s.recorded.length) :
    { s with drain := d, sent := sent, again := again }.advance.Tracked := by
  apply Tracked.advance
  · exact h.records
  · exact hlt
  · exact hle

theorem reach_moved (s : Device) (d : DrainState) (sent : List DrainPacket)
    (again : List RingFrame) :
    ({ s with drain := d, sent := sent, again := again }.advance).reach =
      max s.reach (s.position d.cursor) := by
  simp only [advance, position]

/-- A pass of the drain takes the cursor up from where the preroll has put it. -/
theorem Tracked.drain {s : Device} (h : s.Tracked) (mtu : ℕ) : (s.step (.drain mtu)).Tracked := by
  have hwrite := h.writeIndex_lt
  have hcursor := cursor_drainLive mtu s.task.ring s.drain
  obtain ⟨hlt, -, hle⟩ := h.records.prerollCursor h.cursor_lt h.available_le
  have hmoved : (drainLive mtu s.task.ring s.drain).2.cursor < 2 ^ 32 ∧
      available s.task.ring (drainLive mtu s.task.ring s.drain).2.cursor ≤
        s.recorded.length := by
    rw [hcursor]
    by_cases hcase : available s.task.ring s.drain.cursor < c6FramesPerChunk
    · rw [if_pos hcase]
      exact ⟨h.cursor_lt, h.available_le⟩
    · rw [if_neg hcase]
      by_cases hcase' : available s.task.ring (prerollCursor s.task.ring s.drain).1 <
          c6FramesPerChunk
      · rw [if_pos hcase']
        exact ⟨hlt, hle⟩
      · rw [if_neg hcase', available_add hwrite (not_lt.mp hcase')]
        exact ⟨Nat.mod_lt _ (Nat.two_pow_pos 32), (Nat.sub_le _ _).trans hle⟩
  obtain ⟨hlt', hle'⟩ := hmoved
  exact h.moved _ _ hlt' hle'

/-- **The step lemma.** -/
theorem Tracked.step {s : Device} (h : s.Tracked) (st : DeviceStep) : (s.step st).Tracked := by
  cases st with
  | hear heard => exact h.hear heard
  | drain mtu => exact h.drain mtu
  | replay mtu seconds =>
    unfold Device.step
    dsimp only
    exact ⟨h.records, h.cursor_lt, h.available_le, h.position_le⟩

/-! ## How often a frame is sent -/

section

variable {p : RingFrame → Bool}

variable (p) in
/-- What was sent is not more than what the drain has gone past and what it read again. -/
def Bounded (s : Device) : Prop :=
  (s.sent.flatMap DrainPacket.frames).countP p ≤
    (s.recorded.take s.reach).countP p + s.again.countP p

/-- The part of a batch that is above the reach. -/
theorem countP_fresh {recorded slots : List RingFrame} {position reach : ℕ}
    (hslots : slots.Sublist ((recorded.drop position).take c6FramesPerChunk))
    (hposition : position ≤ reach) :
    (recorded.take reach).countP p + (slots.drop (reach - position)).countP p ≤
      (recorded.take (max reach (position + c6FramesPerChunk))).countP p := by
  have hreach : max reach (position + c6FramesPerChunk) =
      reach + (c6FramesPerChunk - (reach - position)) := by omega
  have hfresh := hslots.drop (reach - position)
  rw [List.drop_take, List.drop_drop, Nat.add_sub_cancel' hposition] at hfresh
  rw [hreach, List.take_add, List.countP_append]
  exact Nat.add_le_add_left (hfresh.countP_le) _

theorem countP_hear {s : Device} (heard : HeardFrame) :
    (s.recorded.take s.reach).countP p ≤
      ((s.step (.hear heard)).recorded.take (s.step (.hear heard)).reach).countP p := by
  have hreach : s.reach ≤ (s.step (.hear heard)).reach := le_max_left _ _
  have hprefix : s.recorded <+: (s.step (.hear heard)).recorded := List.prefix_append _ _
  apply List.Sublist.countP_le
  exact (( hprefix.take s.reach).trans (List.take_prefix_take_left hreach)).sublist

/-- The slots of a pass are from the position of its cursor on. -/
theorem Tracked.liveSlots {s : Device} (h : s.Tracked) :
    (liveSlots s.task.ring s.drain).Sublist
      ((s.recorded.drop (s.position (prerollCursor s.task.ring s.drain).1)).take
        c6FramesPerChunk) := by
  unfold PacketTime.liveSlots
  split_ifs
  · exact List.nil_sublist _
  · exact h.records.sublist_batch _ _

/-- The reach after a pass that has slots. -/
theorem Tracked.reach_drain {s : Device} (h : s.Tracked) (mtu : ℕ)
    (hslots : PacketTime.liveSlots s.task.ring s.drain ≠ []) :
    max s.reach (s.position (drainLive mtu s.task.ring s.drain).2.cursor) =
      max s.reach (s.position (prerollCursor s.task.ring s.drain).1 + c6FramesPerChunk) := by
  obtain ⟨-, -, hle⟩ := h.records.prerollCursor h.cursor_lt h.available_le
  have hcase : ¬ (available s.task.ring s.drain.cursor < c6FramesPerChunk ∨
      available s.task.ring (prerollCursor s.task.ring s.drain).1 < c6FramesPerChunk) := by
    intro hshort
    exact hslots (if_pos hshort)
  obtain ⟨hready, hready'⟩ := not_or.mp hcase
  have hcursor := cursor_drainLive mtu s.task.ring s.drain
  rw [if_neg hready, if_neg hready'] at hcursor
  rw [position, hcursor, available_add h.writeIndex_lt (not_lt.mp hready'), position]
  have hten := not_lt.mp hready'
  generalize available s.task.ring (prerollCursor s.task.ring s.drain).1 = ready at *
  congr 1
  omega

theorem Tracked.position_prerollCursor {s : Device} (h : s.Tracked) :
    s.position (prerollCursor s.task.ring s.drain).1 ≤ s.reach := by
  obtain ⟨-, hle, -⟩ := h.records.prerollCursor h.cursor_lt h.available_le
  exact (Nat.sub_le_sub_left hle _).trans h.position_le

theorem Bounded.moved {s : Device} {d : DrainState} {sent : List DrainPacket}
    {again : List RingFrame}
    (h : (sent.flatMap DrainPacket.frames).countP p ≤
      (s.recorded.take (max s.reach (s.position d.cursor))).countP p + again.countP p) :
    ({ s with drain := d, sent := sent, again := again }.advance).Bounded p := by
  unfold Bounded
  rw [reach_moved]
  exact h

variable (p) in
theorem Bounded.drain {s : Device} (htracked : s.Tracked) (h : s.Bounded p) (mtu : ℕ) :
    (s.step (.drain mtu)).Bounded p := by
  have hsent := (sublist_of_carries (carries_drainLive mtu s.task.ring s.drain)).countP_le (p := p)
  have hsplit := List.take_append_drop
    (s.reach - s.position (prerollCursor s.task.ring s.drain).1)
    (PacketTime.liveSlots s.task.ring s.drain)
  have hfresh := countP_fresh (p := p) htracked.liveSlots htracked.position_prerollCursor
  have hreach : (s.recorded.take s.reach).countP p +
      ((PacketTime.liveSlots s.task.ring s.drain).drop
        (s.reach - s.position (prerollCursor s.task.ring s.drain).1)).countP p ≤
      (s.recorded.take (max s.reach (s.position
        (drainLive mtu s.task.ring s.drain).2.cursor))).countP p := by
    by_cases hslots : PacketTime.liveSlots s.task.ring s.drain = []
    · rw [hslots, List.drop_nil, List.countP_nil, Nat.add_zero]
      exact (List.take_prefix_take_left (Nat.le_max_left _ _)).sublist.countP_le
    · rwa [htracked.reach_drain mtu hslots]
  apply Bounded.moved
  unfold Bounded at h
  have htotal := congrArg (List.countP p) hsplit
  rw [List.countP_append] at htotal
  rw [List.flatMap_append, List.countP_append, List.countP_append]
  omega

variable (p) in
theorem Bounded.replay {s : Device} (h : s.Bounded p) (mtu seconds : ℕ) :
    (s.step (.replay mtu seconds)).Bounded p := by
  have hsent := (sublist_of_carries (carries_drainReplay mtu seconds s.task.ring
    s.drain.chunkSeq)).countP_le (p := p)
  unfold Bounded at h ⊢
  show ((s.sent ++ (drainReplay mtu seconds s.task.ring s.drain.chunkSeq).2.1).flatMap
      DrainPacket.frames).countP p ≤
    (s.recorded.take s.reach).countP p + (s.again ++ windowFrames seconds s.task.ring).countP p
  rw [List.flatMap_append, List.countP_append, List.countP_append]
  omega

variable (p) in
/-- **The step lemma**: what is sent is above the reach, or counted as read again. -/
theorem Bounded.step {s : Device} (htracked : s.Tracked) (h : s.Bounded p) (st : DeviceStep) :
    (s.step st).Bounded p := by
  cases st with
  | hear heard => exact h.trans (Nat.add_le_add_right (countP_hear heard) _)
  | drain mtu => exact h.drain p htracked mtu
  | replay mtu seconds => exact h.replay p mtu seconds

variable (p) in
/-- **The run lemma.** -/
theorem bounded_run (steps : List DeviceStep) : (run Device.step {} steps).Bounded p := by
  have hrun : (run Device.step {} steps).Tracked ∧ (run Device.step {} steps).Bounded p := by
    apply run_invariant (I := fun s => Tracked s ∧ Bounded p s)
    · exact fun s st h => ⟨h.1.step st, h.2.step p h.1 st⟩
    · exact ⟨tracked_new, Nat.zero_le _⟩
  exact hrun.2

end

/-! ## Nothing is read again -/

/-- The cursor has its highest position, and nothing was read again. -/
structure Fresh (s : Device) : Prop where
  reach_le : s.reach ≤ s.position s.drain.cursor
  again : s.again = []

theorem Fresh.advance {s : Device} (hreach : s.reach ≤ s.position s.drain.cursor)
    (hagain : s.again = []) : s.advance.Fresh := by
  refine ⟨?_, hagain⟩
  have hsame : s.advance.position s.advance.drain.cursor = s.position s.drain.cursor := by
    simp only [Device.advance, position]
  rw [hsame]
  exact max_le hreach le_rfl

theorem Fresh.hear {s : Device} (h : s.Fresh) (heard : HeardFrame) :
    (s.step (.hear heard)).Fresh := by
  have hreach := h.reach_le
  unfold Device.step AudioTask.step
  dsimp only
  cases heard.pushed s.task.relTsMs with
  | none =>
    rw [Option.toList_none, List.append_nil]
    apply Fresh.advance
    · exact hreach
    · exact h.again
  | some f =>
    have hmore : available (s.task.ring.push f) s.drain.cursor ≤
        available s.task.ring s.drain.cursor + 1 := by
      unfold available RingBuffer.push
      dsimp only
      omega
    apply Fresh.advance
    · show s.reach ≤ (s.recorded ++ [f]).length - available (s.task.ring.push f) s.drain.cursor
      rw [List.length_append, List.length_singleton]
      unfold position at hreach
      generalize available (s.task.ring.push f) s.drain.cursor = ready at *
      omega
    · exact h.again

theorem Fresh.moved {s : Device} {d : DrainState} {sent : List DrainPacket}
    {again : List RingFrame} (hreach : s.reach ≤ s.position d.cursor) (hagain : again = []) :
    { s with drain := d, sent := sent, again := again }.advance.Fresh := by
  apply Fresh.advance
  · exact hreach
  · exact hagain

theorem Fresh.drain {s : Device} (htracked : s.Tracked) (h : s.Fresh) {mtu : ℕ}
    (hforward : (prerollCursor s.task.ring s.drain).2 = false) :
    (s.step (.drain mtu)).Fresh := by
  have hreach := h.reach_le
  have hstay : (prerollCursor s.task.ring s.drain).1 = s.drain.cursor := by
    rcases prerollCursor_cases s.task.ring s.drain with heq | ⟨rewindTo, head, f, heq, -⟩
    · rw [heq]
    · rw [heq] at hforward
      cases hforward
  apply Fresh.moved
  · have hcursor := cursor_drainLive mtu s.task.ring s.drain
    rw [hstay] at hcursor
    by_cases hready : available s.task.ring s.drain.cursor < c6FramesPerChunk
    · rw [if_pos hready] at hcursor
      rwa [hcursor]
    · rw [if_neg hready, if_neg hready] at hcursor
      rw [hcursor, position, available_add htracked.writeIndex_lt (not_lt.mp hready)]
      exact hreach.trans (Nat.sub_le_sub_left (Nat.sub_le _ _) _)
  · rw [hstay, Nat.sub_eq_zero_of_le hreach, h.again]
    rfl

/-- Without a preroll and without a replay nothing is read again.
SOURCE: ble_drain.c:177-381 -/
theorem fresh_run {steps : List DeviceStep} (hforward : EveryStep Device.step Forward {} steps) :
    (run Device.step {} steps).Fresh := by
  have hstep : ∀ (s : Device) (st : DeviceStep), s.Tracked ∧ s.Fresh → s.Forward st →
      (s.step st).Tracked ∧ (s.step st).Fresh := by
    intro s st h hst
    refine ⟨h.1.step st, ?_⟩
    cases st with
    | hear heard => exact h.2.hear heard
    | drain mtu => exact h.2.drain h.1 hst
    | replay mtu seconds => exact absurd hst id
  exact (EveryStep.invariant hstep ⟨tracked_new, ⟨Nat.zero_le _, rfl⟩⟩ hforward).2

end Device

end OpenRecall.Analysis.DrainReads
