import OpenRecall.Analysis.SlotSemantics

/-!
# A crash while a record is appended

A log is a list of records, and a crash can leave the last of them cut. The walk of the log skips
what is left of it, so a restart loses that record and no more. But the store then appends behind
what is left. If any byte is, its header takes the next record for the rest of its own, and what
is written from then on is not what is read.
-/

set_option autoImplicit false

namespace OpenRecall.Analysis.TornLog

open Foundation OpenRecall.Model SlotSemantics

/-! ## What is left of a record -/

/-- What is left of a record that was cut yields no slot.
SOURCE: media/audio.py:350-380 -/
theorem iterSlots_take (r : AudioStore.LogRecord) {k : ℕ} (hk : k < r.bytes.length) :
    iterSlots (r.bytes.take k) = [] := by
  match k with
  | 0 => rfl
  | 1 => cases r <;> rfl
  | k + 2 =>
    cases r with
    | frame f =>
      obtain ⟨hunpack, hne⟩ := AudioStore.header_frame f.2
      have hk' : k + 2 < f.1.length + 2 := hk
      show iterSlots (_ :: _ :: f.1.take k) = []
      rw [AudioStore.iterSlots_cons, hunpack, if_neg hne, if_pos]
      rw [List.length_take]
      omega
    | gap count =>
      show iterSlots (_ :: _ :: (packU32 count.1).take k) = []
      rw [AudioStore.iterSlots_cons, if_pos AudioStore.header_gap]
      have hk' : k + 2 < 6 := hk
      match k with
      | 0 | 1 | 2 | 3 => rfl
      | k + 4 => omega

theorem u32_pos {b₀ b₁ b₂ b₃ : UInt8} (h : 1 ∈ [b₀, b₁, b₂, b₃]) :
    0 < AudioPacket.u32 b₀ b₁ b₂ b₃ := by
  have hone : UInt8.toNat 1 = 1 := rfl
  simp only [List.mem_cons, List.not_mem_nil, or_false] at h
  unfold AudioPacket.u32
  rcases h with rfl | rfl | rfl | rfl <;> omega

/-- A count that is cut, with a 1 behind it, is cut still or read as one that is not 0. -/
theorem readGap_take_append (count k : ℕ) (hk : k < 4) :
    readGap ((packU32 count).take k ++ [1, 0, 0]) = none ∨
      ∃ n rest, 0 < n ∧ readGap ((packU32 count).take k ++ [1, 0, 0]) = some (n, rest) := by
  match k with
  | 0 => exact .inl rfl
  | 1 | 2 | 3 => exact .inr ⟨_, _, u32_pos (by simp), rfl⟩

theorem replicate_append_ne {n : ℕ} (h : 0 < n) (tail : List Bytes) :
    List.replicate n [] ++ tail ≠ [[0]] := by
  obtain ⟨m, rfl⟩ := Nat.exists_eq_succ_of_ne_zero h.ne'
  simp [List.replicate_succ]

/-- Behind what is left of a record, the record of a frame is not read as that frame: the header
that is left takes its first byte for a part of a length, of a frame or of a count.
SOURCE: media/audio.py:350-380 -/
theorem iterSlots_take_append (r : AudioStore.LogRecord) {k : ℕ} (hk : k < r.bytes.length)
    (hpos : 0 < k) : iterSlots (r.bytes.take k ++ [1, 0, 0]) ≠ [[0]] := by
  match k with
  | 1 =>
    -- the 1 is the other byte of the length, which then is 256 or more
    obtain ⟨b, hb⟩ : ∃ b, r.bytes.take 1 = [b] := by cases r <;> exact ⟨_, rfl⟩
    have hlt := b.toNat_lt
    have hunpack : unpackU16 b 1 = b.toNat + 256 := rfl
    rw [hb]
    show iterSlots (b :: 1 :: [0, 0]) ≠ _
    rw [AudioStore.iterSlots_cons, hunpack, if_neg (by rw [gapMarker]; omega),
      if_pos (by simp only [List.length_cons, List.length_nil]; omega)]
    exact (List.cons_ne_nil _ _).symm
  | k + 2 =>
    cases r with
    | frame f =>
      obtain ⟨hunpack, hne⟩ := AudioStore.header_frame f.2
      have hk' : k + 2 < f.1.length + 2 := hk
      show iterSlots (_ :: _ :: (f.1.take k ++ [1, 0, 0])) ≠ _
      rw [AudioStore.iterSlots_cons, hunpack, if_neg hne]
      split_ifs with hshort
      · exact (List.cons_ne_nil _ _).symm
      · intro heq
        have hfirst := (List.cons.inj heq).1
        have hlength := congrArg List.length hfirst
        rw [List.length_take, min_eq_left (Nat.le_of_not_lt hshort)] at hlength
        have hone : f.1.length = 1 := hlength
        obtain rfl : k = 0 := by omega
        rw [hone] at hfirst
        cases hfirst
    | gap count =>
      have hk' : k + 2 < 6 := hk
      show iterSlots (_ :: _ :: ((packU32 count.1).take k ++ [1, 0, 0])) ≠ _
      rw [AudioStore.iterSlots_cons, if_pos AudioStore.header_gap]
      rcases readGap_take_append count.1 k (by omega) with hread | ⟨n, rest, hn, hread⟩
      · rw [hread]
        exact (List.cons_ne_nil _ _).symm
      · rw [hread]
        exact replicate_append_ne hn _

/-! ## Writing after a restart -/

/-- A call of `writeAt`. -/
structure Write where
  slot : ℤ
  frames : List Bytes
  peaks : Option (List ℤ)

def Write.call (w : Write) : AudioCall := .writeAt w.slot w.frames w.peaks

/-- What the slots hold after a write: the frames are placed at its slot, unless that is behind
the end or too far ahead for a gap record. -/
def Write.placed (items : List Bytes) (w : Write) : List Bytes :=
  if items.length ≤ w.slot ∧ w.slot - items.length < 2 ^ 32 then
    Slots.place [] w.slot.toNat (w.frames.map AudioStore.kept) items
  else items

section

variable (isAlnum : Char → Bool) (sid : String)

/-- The store after a restart on a log: the counts in memory are gone. -/
def reopened (log : Bytes) (st : AudioStore) : AudioStore :=
  { st with logs := st.logs.set (AudioStore.safe isAlnum sid) log, slots := .empty }

/-- The store after a restart on records of which the last one was cut after `k` bytes, and the
writes that followed. -/
def recovered (records : List AudioStore.LogRecord) (last : AudioStore.LogRecord) (k : ℕ)
    (st : AudioStore) (writes : List Write) : AudioStore :=
  run (step isAlnum sid)
    (reopened isAlnum sid (records.flatMap AudioStore.LogRecord.bytes ++ last.bytes.take k) st)
    (writes.map Write.call)

end

section

variable {isAlnum : Char → Bool} {sid : String} {st : AudioStore}

theorem log?_reopened (log : Bytes) :
    (reopened isAlnum sid log st).log? isAlnum sid = some log :=
  Dict.get?_set_self _ _ _

theorem slotsOf_reopened (log : Bytes) :
    (reopened isAlnum sid log st).slotsOf isAlnum sid = iterSlots log := by
  rw [AudioStore.slotsOf, log?_reopened, Option.getD_some]

/-- After a restart the slots of the complete records are there, wherever the last was cut. -/
theorem slotsOf_cut (records : List AudioStore.LogRecord) {last : AudioStore.LogRecord} {k : ℕ}
    (hk : k < last.bytes.length) :
    (recovered isAlnum sid records last k st []).slotsOf isAlnum sid =
      records.flatMap AudioStore.LogRecord.held := by
  show (reopened isAlnum sid _ st).slotsOf isAlnum sid = _
  rw [slotsOf_reopened, AudioStore.iterSlots_flatMap_append, iterSlots_take last hk,
    List.append_nil]

/-- What a write does to a sound store.
SOURCE: media/audio.py:138-190 -/
theorem sound_write (h : st.Sound isAlnum sid) (w : Write) :
    (step isAlnum sid st w.call).Sound isAlnum sid ∧
      (step isAlnum sid st w.call).slotsOf isAlnum sid =
        w.placed (st.slotsOf isAlnum sid) := by
  obtain ⟨slot, frames, peaks⟩ := w
  have hremembered := h.slotCountLocked.2
  unfold Write.call step Write.placed
  dsimp only
  cases slot with
  | negSucc n =>
    rw [if_neg (by omega)]
    exact hremembered
  | ofNat slot =>
    show (st.writeAt isAlnum sid slot frames peaks).2.Sound isAlnum sid ∧
      (st.writeAt isAlnum sid slot frames peaks).2.slotsOf isAlnum sid = _
    simp only [Int.ofNat_eq_natCast, Int.toNat_natCast]
    split_ifs with haccepted
    · exact h.writeAt (by omega) frames peaks
    · by_cases hlate : slot < (st.slotsOf isAlnum sid).length
      · rw [h.writeAt_late hlate]
        exact hremembered
      · have hunfit : ¬ slot - (st.slotsOf isAlnum sid).length < 2 ^ 32 := by omega
        rcases h.writeAt_unfit hunfit frames peaks with heq | heq
        · rw [heq]
          exact hremembered
        · obtain ⟨hsound, hslots⟩ := hremembered.1.appendLog_nil
          rw [heq]
          exact ⟨hsound, hslots.trans hremembered.2⟩

theorem sound_writes (h : st.Sound isAlnum sid) (writes : List Write) :
    (run (step isAlnum sid) st (writes.map Write.call)).slotsOf isAlnum sid =
      writes.foldl Write.placed (st.slotsOf isAlnum sid) := by
  induction writes generalizing st with
  | nil => rfl
  | cons w writes ih =>
    obtain ⟨hsound, hslots⟩ := sound_write h w
    rw [List.map_cons, run_cons, ih hsound, hslots, List.foldl_cons]

/-- A frame that is written behind what is left of a record is not read back.
SOURCE: media/audio.py:138-190 -/
theorem slotsOf_write_behind (records : List AudioStore.LogRecord) {last : AudioStore.LogRecord}
    {k : ℕ} (hk : k < last.bytes.length) :
    (recovered isAlnum sid records last k st
        [⟨(records.flatMap AudioStore.LogRecord.held).length, [[0]], none⟩]).slotsOf isAlnum sid =
      records.flatMap AudioStore.LogRecord.held ++
        iterSlots (last.bytes.take k ++ [1, 0, 0]) := by
  have hslots : (recovered isAlnum sid records last k st []).slotsOf isAlnum sid = _ :=
    slotsOf_cut records hk
  have hcount : ((reopened isAlnum sid
      (records.flatMap AudioStore.LogRecord.bytes ++ last.bytes.take k) st).slotCountLocked
      isAlnum sid).1 = (records.flatMap AudioStore.LogRecord.held).length :=
    congrArg List.length hslots
  apply (AudioStore.slotsOf_writeAt_cursor (List.cons_ne_nil _ _) hcount none).trans
  rw [log?_reopened, Option.getD_some, List.append_assoc, AudioStore.iterSlots_flatMap_append]
  rfl

end

/-- **A log is recovered after a crash if and only if the crash left nothing of the record it
cut**: then, whatever is written after the restart, a read yields the slots of the complete
records and the frames at the slots they were written to.
SOURCE: media/audio.py:125-200, media/audio.py:350-380 -/
theorem recovered_iff (isAlnum : Char → Bool) (sid : String) (st : AudioStore)
    (records : List AudioStore.LogRecord) (last : AudioStore.LogRecord)
    (k : Fin last.bytes.length) :
    (∀ writes, readAll isAlnum sid (recovered isAlnum sid records last k st writes) =
      writes.foldl Write.placed (records.flatMap AudioStore.LogRecord.held)) ↔ k.val = 0 := by
  constructor
  · intro h
    by_contra hk
    have hwrite := h [⟨(records.flatMap AudioStore.LogRecord.held).length, [[0]], none⟩]
    have hplaced : Write.placed (records.flatMap AudioStore.LogRecord.held)
        ⟨(records.flatMap AudioStore.LogRecord.held).length, [[0]], none⟩ =
          records.flatMap AudioStore.LogRecord.held ++ [[0]] := by
      rw [Write.placed, if_pos (by simp), Int.toNat_natCast, Slots.place_of_le le_rfl,
        Slots.padTo, Nat.sub_self]
      simp [AudioStore.kept, AudioStore.Storable, maxFrameBytes, gapMarker]
    rw [readAll_eq, slotsOf_write_behind records k.isLt, List.foldl_cons, List.foldl_nil,
      hplaced] at hwrite
    exact iterSlots_take_append last k.isLt (Nat.pos_of_ne_zero hk)
      (List.append_cancel_left hwrite)
  · intro hk writes
    have hrecorded : AudioStore.Recorded (records.flatMap AudioStore.LogRecord.bytes)
        (records.flatMap AudioStore.LogRecord.held) := ⟨records, rfl, rfl⟩
    have hslots : (reopened isAlnum sid (records.flatMap AudioStore.LogRecord.bytes)
        st).slotsOf isAlnum sid = records.flatMap AudioStore.LogRecord.held := by
      rw [slotsOf_reopened, hrecorded.iterSlots_eq]
    have hsound : (reopened isAlnum sid (records.flatMap AudioStore.LogRecord.bytes)
        st).Sound isAlnum sid := by
      refine ⟨?_, fun count hcount => ?_⟩
      · rw [hslots, log?_reopened]
        exact hrecorded
      · cases hcount
    rw [readAll_eq, recovered, hk, List.take_zero, List.append_nil, sound_writes hsound, hslots]

/-- Every log that calls on a session produce is records, one or more if it is not empty. -/
theorem records_after (isAlnum : Char → Bool) (sid : String) (calls : List AudioCall) :
    ∃ records : List AudioStore.LogRecord,
      ((after isAlnum sid calls).log? isAlnum sid).getD [] =
        records.flatMap AudioStore.LogRecord.bytes := by
  obtain ⟨t, hshows, -⟩ : ∃ t, Shows isAlnum sid (after isAlnum sid calls) t ∧ _ :=
    shows_after calls
  obtain ⟨records, hlog, -⟩ := hshows.sound.complete
  exact ⟨records, hlog⟩

/-- A frame of three bytes, cut after the first of them. -/
theorem not_always_recovered :
    ¬ ∀ (isAlnum : Char → Bool) (sid : String) (st : AudioStore)
      (records : List AudioStore.LogRecord) (last : AudioStore.LogRecord)
      (k : Fin last.bytes.length) (writes : List Write),
      readAll isAlnum sid (recovered isAlnum sid records last k st writes) =
        writes.foldl Write.placed (records.flatMap AudioStore.LogRecord.held) := by
  intro h
  have hread := h Char.isAlphanum "s" {} [] (.frame ⟨[7, 8, 9], by decide⟩) ⟨3, by decide⟩
    [⟨0, [[1, 2]], none⟩]
  revert hread
  decide +kernel

end OpenRecall.Analysis.TornLog
