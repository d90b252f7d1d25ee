import OpenRecall.Foundation.Dict
import OpenRecall.Foundation.Slots
import OpenRecall.Model.AudioPacket

/-!
# The audio store

A log of Opus frames for each session, and beside it an array of peaks. A record of the log
is a length in two bytes and the frame, or the gap marker and, in four bytes, how many slots
it spans. Slot `i` is the `i`-th twenty milliseconds of session time, and the only writer
keeps it so: it fills the way to a slot ahead with a gap, and drops what comes behind the end.

Files are the bytes under a name. Which characters are alphanumeric, a question of Unicode,
is a parameter.
-/

set_option autoImplicit false

namespace OpenRecall.Model

open Foundation

/-- SOURCE: media/audio.py:49 -/
def frameMs : ℕ := 20

/-- SOURCE: media/audio.py:50 -/
def gapMarker : ℕ := 0xFFFF

/-- SOURCE: media/audio.py:51 -/
def maxFrameBytes : ℕ := gapMarker - 1

/-- What packing or a file operation raises. -/
structure AudioStoreError where
  message : String
  deriving DecidableEq

/-- SOURCE: media/audio.py:57-60 -/
structure AudioStat where
  slotCount : ℕ := 0
  byteCount : ℕ := 0
  deriving DecidableEq

/-- SOURCE: media/audio.py:67-68 -/
def msToSlot (ms : ℤ) : ℕ := (ms / frameMs).toNat

/-- A little-endian unsigned 16-bit integer. -/
def unpackU16 (b₀ b₁ : UInt8) : ℕ := b₀.toNat + 256 * b₁.toNat

def packU16 (n : ℕ) : Bytes := [UInt8.ofNat n, UInt8.ofNat (n / 256)]

def packU32 (n : ℕ) : Bytes :=
  [UInt8.ofNat n, UInt8.ofNat (n / 256), UInt8.ofNat (n / 65536), UInt8.ofNat (n / 16777216)]

/-- SOURCE: media/audio.py:346-347 -/
def gapRecord (count : ℕ) : Except AudioStoreError Bytes :=
  if count < 2 ^ 32 then .ok (packU16 gapMarker ++ packU32 count)
  else .error ⟨"'I' format requires 0 <= number <= 4294967295"⟩

/-- The slots of a gap, after its marker, and what follows it. -/
def readGap : Bytes → Option (ℕ × Bytes)
  | c₀ :: c₁ :: c₂ :: c₃ :: rest => some (AudioPacket.u32 c₀ c₁ c₂ c₃, rest)
  | _ => none

/-- Walk a log; every record takes two bytes or more, so its length is fuel enough.
SOURCE: media/audio.py:350-380 -/
def iterSlotsFrom : ℕ → Bytes → List Bytes
  | fuel + 1, b₀ :: b₁ :: rest =>
    if unpackU16 b₀ b₁ = gapMarker then
      match readGap rest with
      | none => []
      | some (count, rest) => List.replicate count [] ++ iterSlotsFrom fuel rest
    else if rest.length < unpackU16 b₀ b₁ then []
    else rest.take (unpackU16 b₀ b₁) :: iterSlotsFrom fuel (rest.drop (unpackU16 b₀ b₁))
  | _, _ => []

/-- What each slot of a log holds; a gap slot holds no bytes. -/
def iterSlots (log : Bytes) : List Bytes := iterSlotsFrom log.length log

/-- SOURCE: media/audio.py:83-90 -/
structure AudioStore where
  logs : Dict String Bytes := .empty
  peakFiles : Dict String Bytes := .empty
  slots : Dict String ℕ := .empty
  deriving DecidableEq

namespace AudioStore

section

variable (isAlnum : Char → Bool)

/-- A session id as a file name.
SOURCE: media/audio.py:94-101 -/
def safe (sessionId : String) : String :=
  let cleaned := sessionId.toList.map fun c =>
    if isAlnum c ∨ c ∈ ['-', '_', '.'] then c else '_'
  let cleaned := (cleaned.dropWhile (· = '.')).rdropWhile (· = '.')
  if cleaned = [] then "unnamed" else String.ofList (cleaned.take 128)

/-- The bytes of a session's log, if it has one. -/
def log? (sessionId : String) (st : AudioStore) : Option Bytes :=
  st.logs.get? (safe isAlnum sessionId)

/-- What the slots of a session hold. -/
def slotsOf (sessionId : String) (st : AudioStore) : List Bytes :=
  iterSlots ((st.log? isAlnum sessionId).getD [])

/-- The bytes of a session's peak file. -/
def peaksOf (sessionId : String) (st : AudioStore) : Bytes :=
  (st.peakFiles.get? (safe isAlnum sessionId)).getD []

/-- Append to a session's log.
SOURCE: media/audio.py:185-186 -/
def appendLog (sessionId : String) (payload : Bytes) (st : AudioStore) : AudioStore :=
  { st with
    logs := st.logs.set (safe isAlnum sessionId)
      ((st.log? isAlnum sessionId).getD [] ++ payload) }

/-- The slots written so far: what is remembered, or else a scan that is then remembered.
SOURCE: media/audio.py:125-136 -/
def slotCountLocked (sessionId : String) (st : AudioStore) : ℕ × AudioStore :=
  match st.slots.get? sessionId with
  | some cached => (cached, st)
  | none =>
    let count := (st.slotsOf isAlnum sessionId).length
    (count, { st with slots := st.slots.set sessionId count })

/-- SOURCE: media/audio.py:219-225 -/
def padPeaks (sessionId : String) (uptoSlot : ℕ) (st : AudioStore) : AudioStore :=
  let peaks := (st.peakFiles.get? (safe isAlnum sessionId)).getD []
  if peaks.length < uptoSlot then
    { st with
      peakFiles := st.peakFiles.set (safe isAlnum sessionId) (Slots.padTo 0 uptoSlot peaks) }
  else st

/-- A peak as a byte. -/
def clampPeak (v : ℤ) : UInt8 := UInt8.ofNat (max 0 (min 255 v)).toNat

/-- SOURCE: media/audio.py:227-236 -/
def writePeaks (sessionId : String) (slot : ℕ) (frames : List Bytes) (peaks : Option (List ℤ))
    (st : AudioStore) : AudioStore :=
  let st := st.padPeaks isAlnum sessionId slot
  let values := (peaks.getD [] ++ List.replicate frames.length 0).take frames.length
  { st with
    peakFiles := st.peakFiles.set (safe isAlnum sessionId)
      ((st.peakFiles.get? (safe isAlnum sessionId)).getD [] ++ values.map clampPeak) }

/-- Fill with a gap up to a slot. The log is opened, and so exists, before the gap is packed.
SOURCE: media/audio.py:192-200 -/
def advanceTo (sessionId : String) (slot : ℕ) (st : AudioStore) :
    Except AudioStoreError Unit × AudioStore :=
  let (cursor, st) := st.slotCountLocked isAlnum sessionId
  if slot ≤ cursor then (.ok (), st)
  else
    match gapRecord (slot - cursor) with
    | .error e => (.error e, st.appendLog isAlnum sessionId [])
    | .ok gap =>
      let st := st.appendLog isAlnum sessionId gap
      let st := { st with slots := st.slots.set sessionId slot }
      (.ok (), st.padPeaks isAlnum sessionId slot)

/-- A frame that the log can hold. -/
def Storable (frame : Bytes) : Prop := frame ≠ [] ∧ frame.length ≤ maxFrameBytes

instance (frame : Bytes) : Decidable (Storable frame) :=
  inferInstanceAs (Decidable (_ ∧ _))

/-- The record of a frame, and that of a one-slot gap for a frame the log cannot hold.
SOURCE: media/audio.py:175-184 -/
def frameRecord (frame : Bytes) : Bytes :=
  if Storable frame then packU16 frame.length ++ frame else packU16 gapMarker ++ packU32 1

/-- Place frames at a slot; the first component is how many frames were written.
SOURCE: media/audio.py:138-190 -/
def writeAt (sessionId : String) (slot : ℕ) (frames : List Bytes) (peaks : Option (List ℤ))
    (st : AudioStore) : Except AudioStoreError ℕ × AudioStore :=
  if frames = [] then
    let (result, st) := st.advanceTo isAlnum sessionId slot
    (result.map fun _ => 0, st)
  else
    let (cursor, st) := st.slotCountLocked isAlnum sessionId
    if slot < cursor then (.ok 0, st)
    else
      match if cursor < slot then gapRecord (slot - cursor) else .ok [] with
      | .error e => (.error e, st)
      | .ok gap =>
        let st := st.appendLog isAlnum sessionId (gap ++ frames.flatMap frameRecord)
        let st := { st with slots := st.slots.set sessionId (slot + frames.length) }
        (.ok (frames.countP fun frame => Storable frame),
          st.writePeaks isAlnum sessionId slot frames peaks)

/-- `writeAt` at any slot: one before the start of the session is behind every cursor.
SOURCE: media/audio.py:138-190 -/
def writeAtSlot (sessionId : String) (slot : ℤ) (frames : List Bytes) (peaks : Option (List ℤ))
    (st : AudioStore) : Except AudioStoreError ℕ × AudioStore :=
  match slot with
  | .ofNat slot => st.writeAt isAlnum sessionId slot frames peaks
  | .negSucc _ => (.ok 0, (st.slotCountLocked isAlnum sessionId).2)

/-- SOURCE: media/audio.py:202-206 -/
def markGap (sessionId : String) (count : ℤ) (st : AudioStore) :
    Except AudioStoreError Unit × AudioStore :=
  if count ≤ 0 then (.ok (), st)
  else
    let (cursor, st) := st.slotCountLocked isAlnum sessionId
    st.advanceTo isAlnum sessionId (cursor + count.toNat)

/-- SOURCE: media/audio.py:208-215 -/
def stat (sessionId : String) (st : AudioStore) : AudioStat × AudioStore :=
  match st.log? isAlnum sessionId with
  | none => ({}, st)
  | some log =>
    let (count, st) := st.slotCountLocked isAlnum sessionId
    ({ slotCount := count, byteCount := log.length }, st)

/-- One entry for each slot of a time range.
SOURCE: media/audio.py:257-280 -/
def readRange (sessionId : String) (startMs endMs : ℤ) (st : AudioStore) : List Bytes :=
  match st.log? isAlnum sessionId with
  | none => []
  | some log => Slots.slice (msToSlot startMs) (msToSlot endMs) (iterSlots log)

/-- A gap record for the empty slots seen since the last frame, if there are any. -/
def closeGap (pendingGap : ℕ) : Except AudioStoreError Bytes :=
  if pendingGap = 0 then .ok [] else gapRecord pendingGap

/-- The log without what the slots from `first` to before `last` hold, and how many frames
that were; `slot` is the first of the slots that are left to rewrite.
SOURCE: media/audio.py:302-318 -/
def rewriteFrom (first last : ℕ) : ℕ → ℕ → List Bytes → Except AudioStoreError (Bytes × ℕ)
  | _, pendingGap, [] => (closeGap pendingGap).map fun gap => (gap, 0)
  | slot, pendingGap, frame :: rest =>
    if first ≤ slot ∧ slot < last then
      (rewriteFrom first last (slot + 1) (pendingGap + 1) rest).map fun (log, erased) =>
        (log, if frame = [] then erased else erased + 1)
    else if frame = [] then rewriteFrom first last (slot + 1) (pendingGap + 1) rest
    else do
      let gap ← closeGap pendingGap
      let (log, erased) ← rewriteFrom first last (slot + 1) 0 rest
      .ok (gap ++ (packU16 frame.length ++ frame) ++ log, erased)

/-- SOURCE: media/audio.py:323-332 -/
def zeroPeaks (sessionId : String) (firstSlot lastSlot : ℕ) (st : AudioStore) : AudioStore :=
  match st.peakFiles.get? (safe isAlnum sessionId) with
  | none => st
  | some peaks =>
    if lastSlot ≤ firstSlot ∨ peaks.length ≤ firstSlot then st
    else
      let lastSlot := min lastSlot peaks.length
      { st with
        peakFiles := st.peakFiles.set (safe isAlnum sessionId)
          (peaks.take firstSlot ++ List.replicate (lastSlot - firstSlot) 0 ++
            peaks.drop lastSlot) }

/-- Replace a range of slots with silence; the first component is how many frames that were.
SOURCE: media/audio.py:284-321 -/
def eraseRange (sessionId : String) (startMs endMs : ℤ) (st : AudioStore) :
    Except AudioStoreError ℕ × AudioStore :=
  match st.log? isAlnum sessionId with
  | none => (.ok 0, st)
  | some log =>
    match rewriteFrom (msToSlot startMs) (msToSlot endMs) 0 0 (iterSlots log) with
    | .error e => (.error e, st)
    | .ok (log, erased) =>
      let st := { st with
        logs := st.logs.set (safe isAlnum sessionId) log
        slots := st.slots.erase sessionId }
      (.ok erased, st.zeroPeaks isAlnum sessionId (msToSlot startMs) (msToSlot endMs))

/-- Remove the files of a session; the first component is whether there was one.
SOURCE: media/audio.py:334-343 -/
def delete (sessionId : String) (st : AudioStore) : Bool × AudioStore :=
  let name := safe isAlnum sessionId
  ((st.logs.get? name).isSome || (st.peakFiles.get? name).isSome, {
    logs := st.logs.erase name
    peakFiles := st.peakFiles.erase name
    slots := st.slots.erase sessionId })

/-- The file names that have a log, not the ids these came from.
SOURCE: media/audio.py:113-117 -/
def sessions (st : AudioStore) : List String := st.logs.keys.insertionSort (· ≤ ·)

end

/-! ## Records -/

theorem unpackU16_packU16 {n : ℕ} (h : n < 65536) :
    unpackU16 (UInt8.ofNat n) (UInt8.ofNat (n / 256)) = n := by
  rw [unpackU16, UInt8.toNat_ofNat', UInt8.toNat_ofNat']
  omega

theorem u32_packU32 {n : ℕ} (h : n < 2 ^ 32) :
    AudioPacket.u32 (UInt8.ofNat n) (UInt8.ofNat (n / 256)) (UInt8.ofNat (n / 65536))
      (UInt8.ofNat (n / 16777216)) = n := by
  simp only [AudioPacket.u32, UInt8.toNat_ofNat']
  omega

theorem length_readGap {rest : Bytes} {gap : ℕ × Bytes} (h : readGap rest = some gap) :
    gap.2.length ≤ rest.length := by
  unfold readGap at h
  split at h
  · obtain rfl := Option.some.inj h
    simp only [List.length_cons]
    omega
  · cases h

/-- Fuel past the length of the log changes nothing. -/
theorem iterSlotsFrom_eq {fuel fuel' : ℕ} {log : Bytes} (h : log.length ≤ fuel)
    (h' : log.length ≤ fuel') : iterSlotsFrom fuel log = iterSlotsFrom fuel' log := by
  induction fuel generalizing fuel' log with
  | zero =>
    obtain rfl := List.eq_nil_of_length_eq_zero (Nat.le_zero.mp h)
    cases fuel' <;> rfl
  | succ fuel ih =>
    match log, fuel' with
    | [], fuel' => cases fuel' <;> rfl
    | [b₀], fuel' => cases fuel' <;> rfl
    | b₀ :: b₁ :: rest, 0 => simp at h'
    | b₀ :: b₁ :: rest, fuel' + 1 =>
      simp only [List.length_cons] at h h'
      rw [iterSlotsFrom, iterSlotsFrom]
      split_ifs
      · cases hgap : readGap rest with
        | none => rfl
        | some gap =>
          have hle := length_readGap hgap
          dsimp only
          rw [ih (by omega) (by omega : gap.2.length ≤ fuel')]
      · rfl
      · have hdrop : (rest.drop (unpackU16 b₀ b₁)).length ≤ rest.length := by
          rw [List.length_drop]
          omega
        rw [ih (by omega) (by omega : _ ≤ fuel')]

/-- The walk of a log takes its first record, and goes on with what follows it.
SOURCE: media/audio.py:350-380 -/
theorem iterSlots_cons (b₀ b₁ : UInt8) (rest : Bytes) :
    iterSlots (b₀ :: b₁ :: rest) =
      if unpackU16 b₀ b₁ = gapMarker then
        ((readGap rest).map fun gap => List.replicate gap.1 [] ++ iterSlots gap.2).getD []
      else if rest.length < unpackU16 b₀ b₁ then []
      else rest.take (unpackU16 b₀ b₁) :: iterSlots (rest.drop (unpackU16 b₀ b₁)) := by
  show iterSlotsFrom (rest.length + 1 + 1) (b₀ :: b₁ :: rest) = _
  rw [iterSlotsFrom]
  split_ifs
  · cases hgap : readGap rest with
    | none => rfl
    | some gap =>
      have hle := length_readGap hgap
      apply congrArg (List.replicate gap.1 [] ++ ·)
      exact iterSlotsFrom_eq (by omega) le_rfl
  · rfl
  · apply congrArg (rest.take _ :: ·)
    apply iterSlotsFrom_eq _ le_rfl
    rw [List.length_drop]
    omega

/-- A record of a log: a frame, or the slots of a gap.
SOURCE: media/audio.py:27-28 -/
inductive LogRecord where
  | frame (frame : { frame : Bytes // Storable frame })
  | gap (count : { count : ℕ // 0 < count ∧ count < 2 ^ 32 })

namespace LogRecord

def bytes : LogRecord → Bytes
  | frame f => packU16 f.1.length ++ f.1
  | gap count => packU16 gapMarker ++ packU32 count.1

/-- What the slots of the record hold. -/
def held : LogRecord → List Bytes
  | frame f => [f.1]
  | gap count => List.replicate count.1 []

end LogRecord

/-- The header of a frame is its length, which is not the marker. -/
theorem header_frame {frame : Bytes} (h : Storable frame) :
    unpackU16 (UInt8.ofNat frame.length) (UInt8.ofNat (frame.length / 256)) = frame.length ∧
      frame.length ≠ gapMarker := by
  have hlength : frame.length < gapMarker := Nat.lt_of_le_of_lt h.2 (by decide)
  exact ⟨unpackU16_packU16 (Nat.lt_trans hlength (by decide)), hlength.ne⟩

theorem header_gap :
    unpackU16 (UInt8.ofNat gapMarker) (UInt8.ofNat (gapMarker / 256)) = gapMarker := by decide

/-- The walk takes a record and goes on with what follows it. -/
theorem iterSlots_bytes_append (r : LogRecord) (rest : Bytes) :
    iterSlots (r.bytes ++ rest) = r.held ++ iterSlots rest := by
  cases r with
  | frame f =>
    obtain ⟨hunpack, hne⟩ := header_frame f.2
    show iterSlots (_ :: _ :: (f.1 ++ rest)) = _
    rw [iterSlots_cons, hunpack, if_neg hne, if_neg (by simp), List.take_left, List.drop_left]
    rfl
  | gap count =>
    show iterSlots (_ :: _ :: _ :: _ :: _ :: _ :: rest) = _
    rw [iterSlots_cons, if_pos header_gap, readGap, Option.map_some, Option.getD_some,
      u32_packU32 count.2.2]
    rfl

theorem iterSlots_flatMap_append (records : List LogRecord) (rest : Bytes) :
    iterSlots (records.flatMap LogRecord.bytes ++ rest) =
      records.flatMap LogRecord.held ++ iterSlots rest := by
  induction records with
  | nil => rfl
  | cons r records ih =>
    rw [List.flatMap_cons, List.flatMap_cons, List.append_assoc, iterSlots_bytes_append, ih,
      List.append_assoc]

/-- The bytes are those of records, and their slots hold the items. -/
def Recorded (log : Bytes) (items : List Bytes) : Prop :=
  ∃ records : List LogRecord,
    log = records.flatMap LogRecord.bytes ∧ items = records.flatMap LogRecord.held

theorem recorded_nil : Recorded [] [] := ⟨[], rfl, rfl⟩

theorem recorded_record (r : LogRecord) : Recorded r.bytes r.held :=
  ⟨[r], (List.append_nil _).symm, (List.append_nil _).symm⟩

theorem Recorded.append {log more : Bytes} {items items' : List Bytes}
    (h : Recorded log items) (hmore : Recorded more items') :
    Recorded (log ++ more) (items ++ items') := by
  obtain ⟨records, rfl, rfl⟩ := h
  obtain ⟨records', rfl, rfl⟩ := hmore
  exact ⟨records ++ records', List.flatMap_append.symm, List.flatMap_append.symm⟩

theorem Recorded.iterSlots_eq {log : Bytes} {items : List Bytes} (h : Recorded log items) :
    iterSlots log = items := by
  obtain ⟨records, rfl, rfl⟩ := h
  have hall := iterSlots_flatMap_append records []
  rwa [List.append_nil, show iterSlots [] = [] from rfl, List.append_nil] at hall

theorem recorded_gap {count : ℕ} (hpos : 0 < count) (h : count < 2 ^ 32) :
    Recorded (packU16 gapMarker ++ packU32 count) (List.replicate count []) :=
  recorded_record (.gap ⟨count, hpos, h⟩)

/-- What the log keeps of a frame. -/
def kept (frame : Bytes) : Bytes := if Storable frame then frame else []

theorem kept_eq {frame : Bytes} (h : frame.length ≤ maxFrameBytes) : kept frame = frame := by
  by_cases hnil : frame = []
  · rw [hnil]
    rfl
  · exact if_pos ⟨hnil, h⟩

theorem recorded_frameRecord (frame : Bytes) : Recorded (frameRecord frame) [kept frame] := by
  unfold frameRecord kept
  split_ifs with h
  · exact recorded_record (.frame ⟨frame, h⟩)
  · exact recorded_gap (by decide) (by decide)

theorem recorded_frameRecords (frames : List Bytes) :
    Recorded (frames.flatMap frameRecord) (frames.map kept) := by
  induction frames with
  | nil => exact recorded_nil
  | cons frame frames ih => exact (recorded_frameRecord frame).append ih

/-! ## Rewriting a log -/

/-- What a log yields fits a record.
SOURCE: media/audio.py:350-380 -/
theorem length_le_of_mem_iterSlots {log frame : Bytes} (h : frame ∈ iterSlots log) :
    frame.length ≤ maxFrameBytes := by
  suffices hfrom : ∀ fuel log, frame ∈ iterSlotsFrom fuel log → frame.length ≤ maxFrameBytes from
    hfrom _ _ h
  intro fuel
  induction fuel with
  | zero => simp [iterSlotsFrom]
  | succ fuel ih =>
    intro log hmem
    match log with
    | [] | [_] => simp [iterSlotsFrom] at hmem
    | b₀ :: b₁ :: rest =>
      rw [iterSlotsFrom] at hmem
      split_ifs at hmem with hgap hlength
      · cases hread : readGap rest with
        | none => simp [hread] at hmem
        | some gap =>
          simp only [hread, List.mem_append, List.mem_replicate] at hmem
          rcases hmem with ⟨-, rfl⟩ | hmem
          · exact Nat.zero_le _
          · exact ih _ hmem
      · cases hmem
      · rcases List.mem_cons.mp hmem with rfl | hmem
        · have h₀ := b₀.toNat_lt
          have h₁ := b₁.toNat_lt
          simp only [unpackU16, gapMarker, maxFrameBytes, List.length_take] at hgap ⊢
          omega
        · exact ih _ hmem

theorem recorded_closeGap {pendingGap : ℕ} {gap : Bytes} (h : closeGap pendingGap = .ok gap) :
    Recorded gap (List.replicate pendingGap []) := by
  unfold closeGap gapRecord at h
  split_ifs at h with hzero hfits
  · obtain rfl := Except.ok.inj h
    rw [hzero]
    exact recorded_nil
  · obtain rfl := Except.ok.inj h
    exact recorded_gap (Nat.pos_of_ne_zero hzero) hfits

/-- **The rewritten log holds the slots with the range blanked.**
SOURCE: media/audio.py:302-318 -/
theorem recorded_rewriteFrom {first last slot pendingGap erased : ℕ} {frames : List Bytes}
    {log : Bytes} (hframes : ∀ frame ∈ frames, frame.length ≤ maxFrameBytes)
    (h : rewriteFrom first last slot pendingGap frames = .ok (log, erased)) :
    Recorded log (List.replicate pendingGap [] ++
      Slots.blankOut [] (first - slot) (last - slot) frames) := by
  induction frames generalizing slot pendingGap erased log with
  | nil =>
    rw [rewriteFrom] at h
    cases hgap : closeGap pendingGap with
    | error e => simp [hgap, Except.map] at h
    | ok gap =>
      simp only [hgap, Except.map, Except.ok.injEq, Prod.mk.injEq] at h
      rw [Slots.blankOut_nil, List.append_nil, ← h.1]
      exact recorded_closeGap hgap
  | cons frame rest ih =>
    have hrest := fun frame hmem => hframes frame (List.mem_cons_of_mem _ hmem)
    have hpending (tail : List Bytes) : List.replicate pendingGap [] ++ [] :: tail =
        List.replicate (pendingGap + 1) [] ++ tail := by
      rw [List.replicate_succ', List.append_assoc, List.singleton_append]
    rw [Slots.blankOut_cons]
    rw [rewriteFrom] at h
    by_cases hrange : first ≤ slot ∧ slot < last
    · rw [if_pos hrange] at h
      rw [if_pos hrange, hpending]
      cases hr : rewriteFrom first last (slot + 1) (pendingGap + 1) rest with
      | error e => simp [hr, Except.map] at h
      | ok out =>
        simp only [hr, Except.map, Except.ok.injEq, Prod.mk.injEq] at h
        rw [← h.1]
        exact ih hrest hr
    · rw [if_neg hrange] at h
      rw [if_neg hrange]
      by_cases hnil : frame = []
      · rw [if_pos hnil] at h
        rw [hnil, hpending]
        exact ih hrest h
      · rw [if_neg hnil] at h
        cases hgap : closeGap pendingGap with
        | error e => simp [hgap, bind, Except.bind] at h
        | ok gap =>
          cases hr : rewriteFrom first last (slot + 1) 0 rest with
          | error e => simp [hgap, hr, bind, Except.bind] at h
          | ok out =>
            simp only [hgap, hr, bind, Except.bind, Except.ok.injEq, Prod.mk.injEq] at h
            rw [← h.1, List.append_assoc, ← List.singleton_append]
            have hframe := recorded_record
              (.frame ⟨frame, hnil, hframes frame List.mem_cons_self⟩)
            apply (recorded_closeGap hgap).append
            apply hframe.append
            simpa using ih hrest hr

/-- Rewriting what is blanked already writes the same log.
SOURCE: media/audio.py:302-318 -/
theorem rewriteFrom_blankOut (first last slot pendingGap : ℕ) (frames : List Bytes) :
    (rewriteFrom first last slot pendingGap
        (Slots.blankOut [] (first - slot) (last - slot) frames)).map Prod.fst =
      (rewriteFrom first last slot pendingGap frames).map Prod.fst := by
  induction frames generalizing slot pendingGap with
  | nil => rfl
  | cons frame rest ih =>
    rw [Slots.blankOut_cons, rewriteFrom, rewriteFrom]
    by_cases hrange : first ≤ slot ∧ slot < last
    · have h := ih (slot + 1) (pendingGap + 1)
      rw [if_pos hrange, if_pos hrange, if_pos hrange]
      revert h
      cases rewriteFrom first last (slot + 1) (pendingGap + 1)
        (Slots.blankOut [] (first - (slot + 1)) (last - (slot + 1)) rest) <;>
      cases rewriteFrom first last (slot + 1) (pendingGap + 1) rest <;>
      simp +contextual [Except.map]
    · rw [if_neg hrange, if_neg hrange, if_neg hrange]
      by_cases hnil : frame = []
      · rw [if_pos hnil, if_pos hnil]
        exact ih (slot + 1) (pendingGap + 1)
      · have h := ih (slot + 1) 0
        rw [if_neg hnil, if_neg hnil]
        revert h
        cases closeGap pendingGap <;>
        cases rewriteFrom first last (slot + 1) 0
          (Slots.blankOut [] (first - (slot + 1)) (last - (slot + 1)) rest) <;>
        cases rewriteFrom first last (slot + 1) 0 rest <;>
        simp +contextual [Except.map, bind, Except.bind]

/-- A gap of fewer than `2 ^ 32` slots fits in a record. -/
theorem closeGap_isOk_iff (pendingGap : ℕ) :
    (∃ gap, closeGap pendingGap = .ok gap) ↔ pendingGap < 2 ^ 32 := by
  unfold closeGap gapRecord
  split_ifs with hzero hfits
  · simp [hzero]
  · simpa using hfits
  · simpa using hfits

/-- **A log can be rewritten exactly when blanking makes no silence too long for one gap.**
SOURCE: media/audio.py:302-318 -/
theorem rewriteFrom_isOk_iff (first last slot pendingGap : ℕ) (frames : List Bytes) :
    (∃ out, rewriteFrom first last slot pendingGap frames = .ok out) ↔
      ¬ Slots.HasStretch [] (2 ^ 32) (List.replicate pendingGap [] ++
        Slots.blankOut [] (first - slot) (last - slot) frames) := by
  induction frames generalizing slot pendingGap with
  | nil =>
    rw [Slots.blankOut_nil, List.append_nil, Slots.hasStretch_replicate_iff, not_le,
      ← closeGap_isOk_iff, rewriteFrom]
    cases closeGap pendingGap <;> simp [Except.map]
  | cons frame rest ih =>
    have hpending (tail : List Bytes) : List.replicate pendingGap [] ++ [] :: tail =
        List.replicate (pendingGap + 1) [] ++ tail := by
      rw [List.replicate_succ', List.append_assoc, List.singleton_append]
    rw [Slots.blankOut_cons, rewriteFrom]
    by_cases hrange : first ≤ slot ∧ slot < last
    · rw [if_pos hrange, if_pos hrange, hpending, ← ih]
      cases rewriteFrom first last (slot + 1) (pendingGap + 1) rest <;> simp [Except.map]
    · rw [if_neg hrange, if_neg hrange]
      by_cases hnil : frame = []
      · rw [if_pos hnil, hnil, hpending, ← ih]
      · have hrest := ih (slot + 1) 0
        rw [List.replicate_zero, List.nil_append] at hrest
        rw [if_neg hnil, Slots.hasStretch_append_cons_iff hnil (by positivity),
          Slots.hasStretch_replicate_iff, not_or, not_le, ← closeGap_isOk_iff, ← hrest]
        cases closeGap pendingGap <;> cases rewriteFrom first last (slot + 1) 0 rest <;>
          simp [bind, Except.bind]

/-! ## What the operations leave -/

section

variable {isAlnum : Char → Bool} {sessionId : String} {st : AudioStore}

/-- The session's log is records, and the remembered count is its number of slots. -/
structure Sound (isAlnum : Char → Bool) (sessionId : String) (st : AudioStore) : Prop where
  complete : Recorded ((st.log? isAlnum sessionId).getD []) (st.slotsOf isAlnum sessionId)
  counted : ∀ count, st.slots.get? sessionId = some count →
    count = (st.slotsOf isAlnum sessionId).length

theorem sound_empty : Sound isAlnum sessionId {} := ⟨recorded_nil, nofun⟩

theorem log?_appendLog (payload : Bytes) :
    (st.appendLog isAlnum sessionId payload).log? isAlnum sessionId =
      some ((st.log? isAlnum sessionId).getD [] ++ payload) :=
  Dict.get?_set_self _ _ _

theorem slotsOf_appendLog (payload : Bytes) :
    (st.appendLog isAlnum sessionId payload).slotsOf isAlnum sessionId =
      iterSlots ((st.log? isAlnum sessionId).getD [] ++ payload) := by
  rw [slotsOf, log?_appendLog, Option.getD_some]

/-- The logs of a store decide what its slots hold. -/
theorem slotsOf_congr {st' : AudioStore} (h : st'.logs = st.logs) :
    st'.slotsOf isAlnum sessionId = st.slotsOf isAlnum sessionId := by
  rw [slotsOf, slotsOf, log?, log?, h]

theorem padPeaks_frame (slot : ℕ) : (st.padPeaks isAlnum sessionId slot).logs = st.logs ∧
    (st.padPeaks isAlnum sessionId slot).slots = st.slots := by
  unfold padPeaks
  dsimp only
  split_ifs <;> exact ⟨rfl, rfl⟩

theorem writePeaks_frame (slot : ℕ) (frames : List Bytes) (peaks : Option (List ℤ)) :
    (st.writePeaks isAlnum sessionId slot frames peaks).logs = st.logs ∧
      (st.writePeaks isAlnum sessionId slot frames peaks).slots = st.slots :=
  padPeaks_frame slot

/-- The count of a sound store is its number of slots; remembering it changes no slot. -/
theorem Sound.slotCountLocked (h : Sound isAlnum sessionId st) :
    (st.slotCountLocked isAlnum sessionId).1 = (st.slotsOf isAlnum sessionId).length ∧
      Sound isAlnum sessionId (st.slotCountLocked isAlnum sessionId).2 ∧
      (st.slotCountLocked isAlnum sessionId).2.slotsOf isAlnum sessionId =
        st.slotsOf isAlnum sessionId := by
  unfold AudioStore.slotCountLocked
  cases hcached : st.slots.get? sessionId with
  | some cached => exact ⟨h.counted cached hcached, h, rfl⟩
  | none =>
    refine ⟨rfl, ⟨h.complete, fun count hcount => ?_⟩, rfl⟩
    rw [Dict.get?_set_self] at hcount
    exact (Option.some.inj hcount).symm

/-- Appending records and remembering how many slots there are then. -/
theorem Sound.append (h : Sound isAlnum sessionId st) {payload : Bytes} {held : List Bytes}
    (hpayload : Recorded payload held) {st' : AudioStore} {slot : ℕ}
    (hlogs : st'.logs = (st.appendLog isAlnum sessionId payload).logs)
    (hslots : st'.slots = st.slots.set sessionId slot)
    (hcount : slot = (st.slotsOf isAlnum sessionId ++ held).length) :
    Sound isAlnum sessionId st' ∧
      st'.slotsOf isAlnum sessionId = st.slotsOf isAlnum sessionId ++ held := by
  have hlog : st'.log? isAlnum sessionId =
      some ((st.log? isAlnum sessionId).getD [] ++ payload) := by
    rw [log?, hlogs]
    exact log?_appendLog payload
  have hrecorded := h.complete.append hpayload
  have hslotsOf : st'.slotsOf isAlnum sessionId = st.slotsOf isAlnum sessionId ++ held := by
    rw [slotsOf, hlog]
    exact hrecorded.iterSlots_eq
  refine ⟨⟨?_, fun count hget => ?_⟩, hslotsOf⟩
  · rw [hslotsOf, hlog]
    exact hrecorded
  · rw [hslots, Dict.get?_set_self] at hget
    rw [hslotsOf, ← hcount]
    exact (Option.some.inj hget).symm

/-- Appending a gap up to a slot that is not behind the end, and frames, places the frames. -/
theorem Sound.append_gap (h : Sound isAlnum sessionId st) {slot : ℕ} {gap payload : Bytes}
    {items : List Bytes} (hle : (st.slotsOf isAlnum sessionId).length ≤ slot)
    (hgap : Recorded gap (List.replicate (slot - (st.slotsOf isAlnum sessionId).length) []))
    (hpayload : Recorded payload items) {st' : AudioStore}
    (hlogs : st'.logs = (st.appendLog isAlnum sessionId (gap ++ payload)).logs)
    (hslots : st'.slots = st.slots.set sessionId (slot + items.length)) :
    Sound isAlnum sessionId st' ∧ st'.slotsOf isAlnum sessionId =
      Slots.place [] slot items (st.slotsOf isAlnum sessionId) := by
  rw [Slots.place_of_le hle, Slots.padTo, List.append_assoc]
  apply h.append (hgap.append hpayload) hlogs hslots
  rw [List.length_append, List.length_append, List.length_replicate]
  omega

theorem gapRecord_eq {count : ℕ} (h : count < 2 ^ 32) :
    gapRecord count = .ok (packU16 gapMarker ++ packU32 count) :=
  if_pos h

/-- `advanceTo` places nothing at the slot, which fills the way there.
SOURCE: media/audio.py:192-200 -/
theorem Sound.advanceTo (h : Sound isAlnum sessionId st) {slot : ℕ}
    (hcount : slot - (st.slotsOf isAlnum sessionId).length < 2 ^ 32) :
    Sound isAlnum sessionId (st.advanceTo isAlnum sessionId slot).2 ∧
      (st.advanceTo isAlnum sessionId slot).2.slotsOf isAlnum sessionId =
        Slots.place [] slot [] (st.slotsOf isAlnum sessionId) := by
  obtain ⟨hcursor, hsound, hsame⟩ := h.slotCountLocked
  unfold AudioStore.advanceTo
  dsimp only
  rw [hcursor]
  by_cases hle : slot ≤ (st.slotsOf isAlnum sessionId).length
  · rw [if_pos hle]
    refine ⟨hsound, hsame.trans ?_⟩
    rcases hle.lt_or_eq with hlt | heq
    · exact (Slots.place_of_lt hlt).symm
    · rw [Slots.place_of_le heq.ge, Slots.padTo, heq]
      simp
  · rw [if_neg hle, gapRecord_eq hcount, ← hsame]
    rw [← hsame] at hle hcount
    apply hsound.append_gap (Nat.le_of_not_le hle) (recorded_gap (by omega) hcount) recorded_nil
    · rw [List.append_nil]
      exact (padPeaks_frame slot).1
    · exact (padPeaks_frame slot).2

/-- **`writeAt` places the frames at their slot**: the log after it holds what the timeline
holds after the placement.
SOURCE: media/audio.py:138-190 -/
theorem Sound.writeAt (h : Sound isAlnum sessionId st) {slot : ℕ}
    (hcount : slot - (st.slotsOf isAlnum sessionId).length < 2 ^ 32) (frames : List Bytes)
    (peaks : Option (List ℤ)) :
    Sound isAlnum sessionId (st.writeAt isAlnum sessionId slot frames peaks).2 ∧
      (st.writeAt isAlnum sessionId slot frames peaks).2.slotsOf isAlnum sessionId =
        Slots.place [] slot (frames.map kept) (st.slotsOf isAlnum sessionId) := by
  unfold AudioStore.writeAt
  by_cases hnil : frames = []
  · rw [if_pos hnil, hnil]
    exact h.advanceTo hcount
  · obtain ⟨hcursor, hsound, hsame⟩ := h.slotCountLocked
    rw [if_neg hnil]
    dsimp only
    rw [hcursor]
    by_cases hlt : slot < (st.slotsOf isAlnum sessionId).length
    · rw [if_pos hlt, Slots.place_of_lt hlt]
      exact ⟨hsound, hsame⟩
    · obtain ⟨gap, hgap, hrecorded⟩ : ∃ gap,
          (if (st.slotsOf isAlnum sessionId).length < slot then
            gapRecord (slot - (st.slotsOf isAlnum sessionId).length) else .ok []) = .ok gap ∧
          Recorded gap (List.replicate (slot - (st.slotsOf isAlnum sessionId).length) []) := by
        split_ifs with hahead
        · exact ⟨_, gapRecord_eq hcount, recorded_gap (by omega) hcount⟩
        · rw [Nat.sub_eq_zero_of_le (Nat.le_of_not_lt hahead)]
          exact ⟨[], rfl, recorded_nil⟩
      rw [if_neg hlt, hgap, ← hsame]
      rw [← hsame] at hlt hrecorded
      apply hsound.append_gap (Nat.le_of_not_lt hlt) hrecorded (recorded_frameRecords frames)
      · exact (writePeaks_frame slot frames peaks).1
      · rw [List.length_map]
        exact (writePeaks_frame slot frames peaks).2

/-- A write behind the cursor changes no file.
SOURCE: media/audio.py:138-190 -/
theorem Sound.writeAt_late (h : Sound isAlnum sessionId st) {slot : ℕ}
    (hlt : slot < (st.slotsOf isAlnum sessionId).length) (frames : List Bytes)
    (peaks : Option (List ℤ)) :
    (st.writeAt isAlnum sessionId slot frames peaks).2 =
      (st.slotCountLocked isAlnum sessionId).2 := by
  have hcursor := h.slotCountLocked.1
  unfold AudioStore.writeAt AudioStore.advanceTo
  dsimp only
  rw [hcursor]
  split_ifs
  · rfl
  · omega
  · rfl

/-- A gap that fits no record raises, and nothing is written, though the log may be opened.
SOURCE: media/audio.py:138-190 -/
theorem Sound.writeAt_unfit (h : Sound isAlnum sessionId st) {slot : ℕ}
    (hfits : ¬ slot - (st.slotsOf isAlnum sessionId).length < 2 ^ 32) (frames : List Bytes)
    (peaks : Option (List ℤ)) :
    (st.writeAt isAlnum sessionId slot frames peaks).2 =
        (st.slotCountLocked isAlnum sessionId).2 ∨
      (st.writeAt isAlnum sessionId slot frames peaks).2 =
        (st.slotCountLocked isAlnum sessionId).2.appendLog isAlnum sessionId [] := by
  have hcursor := h.slotCountLocked.1
  have hgap : gapRecord (slot - (st.slotsOf isAlnum sessionId).length) =
    .error ⟨"'I' format requires 0 <= number <= 4294967295"⟩ := if_neg hfits
  unfold AudioStore.writeAt AudioStore.advanceTo
  dsimp only
  rw [hcursor, if_neg (show ¬ slot ≤ (st.slotsOf isAlnum sessionId).length by omega),
    if_neg (show ¬ slot < (st.slotsOf isAlnum sessionId).length by omega),
    if_pos (show (st.slotsOf isAlnum sessionId).length < slot by omega), hgap]
  split_ifs
  · exact .inr rfl
  · exact .inl rfl

/-- Opening the log changes nothing in it. -/
theorem Sound.appendLog_nil (h : Sound isAlnum sessionId st) :
    Sound isAlnum sessionId (st.appendLog isAlnum sessionId []) ∧
      (st.appendLog isAlnum sessionId []).slotsOf isAlnum sessionId =
        st.slotsOf isAlnum sessionId := by
  have hlog : (st.appendLog isAlnum sessionId []).log? isAlnum sessionId =
      some ((st.log? isAlnum sessionId).getD []) := by
    rw [log?_appendLog, List.append_nil]
  have hslots : (st.appendLog isAlnum sessionId []).slotsOf isAlnum sessionId =
      st.slotsOf isAlnum sessionId := by
    rw [slotsOf_appendLog, List.append_nil, slotsOf]
  refine ⟨⟨?_, fun count hcount => ?_⟩, hslots⟩
  · rw [hslots, hlog]
    exact h.complete
  · rw [hslots]
    exact h.counted count hcount

theorem slotCountLocked_frame : (st.slotCountLocked isAlnum sessionId).2.logs = st.logs ∧
    (st.slotCountLocked isAlnum sessionId).2.peakFiles = st.peakFiles := by
  unfold AudioStore.slotCountLocked
  cases st.slots.get? sessionId <;> exact ⟨rfl, rfl⟩

/-- What frames that are written at the cursor leave, whatever the log ends with.
SOURCE: media/audio.py:138-190 -/
theorem slotsOf_writeAt_cursor {frames : List Bytes} (hframes : frames ≠ []) {slot : ℕ}
    (hcursor : (st.slotCountLocked isAlnum sessionId).1 = slot) (peaks : Option (List ℤ)) :
    (st.writeAt isAlnum sessionId slot frames peaks).2.slotsOf isAlnum sessionId =
      iterSlots ((st.log? isAlnum sessionId).getD [] ++ frames.flatMap frameRecord) := by
  unfold AudioStore.writeAt
  rw [if_neg hframes]
  dsimp only
  rw [hcursor, if_neg (lt_irrefl _), if_neg (lt_irrefl _)]
  dsimp only
  rw [slotsOf, log?, (writePeaks_frame _ _ _).1]
  show iterSlots ((log? isAlnum sessionId (appendLog isAlnum sessionId _
    (slotCountLocked isAlnum sessionId st).2)).getD []) = _
  rw [log?_appendLog, log?, slotCountLocked_frame.1]
  rfl

theorem peaksOf_congr {st' : AudioStore} (h : st'.peakFiles = st.peakFiles) :
    st'.peaksOf isAlnum sessionId = st.peaksOf isAlnum sessionId := by
  rw [peaksOf, peaksOf, h]

theorem peaksOf_padPeaks (slot : ℕ) :
    (st.padPeaks isAlnum sessionId slot).peaksOf isAlnum sessionId =
      Slots.padTo 0 slot (st.peaksOf isAlnum sessionId) := by
  unfold padPeaks
  dsimp only
  split_ifs with hlt
  · rw [peaksOf, Dict.get?_set_self]
    rfl
  · rw [Slots.padTo, peaksOf, Nat.sub_eq_zero_of_le (Nat.le_of_not_lt hlt)]
    simp

/-- The peaks of frames, one for each: what is missing is 0 and what is left over is dropped. -/
def peakBytes (frames : List Bytes) (peaks : Option (List ℤ)) : Bytes :=
  ((peaks.getD [] ++ List.replicate frames.length 0).take frames.length).map clampPeak

@[simp] theorem length_peakBytes (frames : List Bytes) (peaks : Option (List ℤ)) :
    (peakBytes frames peaks).length = frames.length := by
  simp [peakBytes]

/-- SOURCE: media/audio.py:227-236 -/
theorem peaksOf_writePeaks (slot : ℕ) (frames : List Bytes) (peaks : Option (List ℤ)) :
    (st.writePeaks isAlnum sessionId slot frames peaks).peaksOf isAlnum sessionId =
      Slots.padTo 0 slot (st.peaksOf isAlnum sessionId) ++ peakBytes frames peaks := by
  rw [← peaksOf_padPeaks, peaksOf, writePeaks, Dict.get?_set_self]
  rfl

/-- SOURCE: media/audio.py:323-332 -/
theorem peaksOf_zeroPeaks (first last : ℕ) :
    (st.zeroPeaks isAlnum sessionId first last).peaksOf isAlnum sessionId =
      Slots.blankOut 0 first last (st.peaksOf isAlnum sessionId) := by
  unfold zeroPeaks peaksOf
  cases hpeaks : st.peakFiles.get? (safe isAlnum sessionId) with
  | none =>
    rw [hpeaks]
    rfl
  | some peaks =>
    dsimp only
    split_ifs with hout
    · rw [hpeaks, Option.getD_some, Slots.blankOut_eq_self 0 hout]
    · rw [Dict.get?_set_self, Option.getD_some, Option.getD_some]
      push Not at hout
      exact Slots.take_append_drop_eq_blankOut 0 hout.1.le hout.2.le

theorem zeroPeaks_frame (first last : ℕ) :
    (st.zeroPeaks isAlnum sessionId first last).logs = st.logs ∧
      (st.zeroPeaks isAlnum sessionId first last).slots = st.slots := by
  unfold zeroPeaks
  cases st.peakFiles.get? (safe isAlnum sessionId) with
  | none => exact ⟨rfl, rfl⟩
  | some peaks =>
    dsimp only
    split_ifs <;> exact ⟨rfl, rfl⟩

/-- An erasure that raises leaves the files as they are. -/
theorem eraseRange_of_error {startMs endMs : ℤ} {e : AudioStoreError}
    (h : (st.eraseRange isAlnum sessionId startMs endMs).1 = .error e) :
    (st.eraseRange isAlnum sessionId startMs endMs).2 = st := by
  unfold AudioStore.eraseRange at h ⊢
  cases hlog : st.log? isAlnum sessionId with
  | none => rfl
  | some log =>
    dsimp only
    cases hrewrite : rewriteFrom (msToSlot startMs) (msToSlot endMs) 0 0 (iterSlots log) with
    | error e => rfl
    | ok out => simp [hlog, hrewrite] at h

/-- The erasure of a range leaves no silence that is too long for one gap. -/
def Erasable (isAlnum : Char → Bool) (sessionId : String) (startMs endMs : ℤ) (st : AudioStore) :
    Prop :=
  ¬ Slots.HasStretch [] (2 ^ 32)
    (Slots.blankOut [] (msToSlot startMs) (msToSlot endMs) (st.slotsOf isAlnum sessionId))

theorem eraseRange_isOk_iff (startMs endMs : ℤ) :
    (∃ erased, (st.eraseRange isAlnum sessionId startMs endMs).1 = .ok erased) ↔
      st.Erasable isAlnum sessionId startMs endMs := by
  unfold AudioStore.eraseRange Erasable slotsOf
  cases hlog : st.log? isAlnum sessionId with
  | none =>
    have hnone : ¬ Slots.HasStretch ([] : Bytes) (2 ^ 32) [] :=
      Slots.not_hasStretch_of_length_lt (by positivity)
    rw [Option.getD_none, show iterSlots [] = [] from rfl, Slots.blankOut_nil]
    simpa using hnone
  | some log =>
    have h := rewriteFrom_isOk_iff (msToSlot startMs) (msToSlot endMs) 0 0 (iterSlots log)
    rw [List.replicate_zero, List.nil_append, Nat.sub_zero, Nat.sub_zero] at h
    rw [Option.getD_some, ← h]
    dsimp only
    cases rewriteFrom (msToSlot startMs) (msToSlot endMs) 0 0 (iterSlots log) <;> simp

/-- What the slots of every session hold after an erasure; sessions share a log when their ids
make one file name.
SOURCE: media/audio.py:284-321 -/
theorem slotsOf_eraseRange {startMs endMs : ℤ} (h : st.Erasable isAlnum sessionId startMs endMs)
    (other : String) :
    (st.eraseRange isAlnum sessionId startMs endMs).2.slotsOf isAlnum other =
      if safe isAlnum other = safe isAlnum sessionId then
        Slots.blankOut [] (msToSlot startMs) (msToSlot endMs) (st.slotsOf isAlnum other)
      else st.slotsOf isAlnum other := by
  obtain ⟨erased, hok⟩ := (eraseRange_isOk_iff startMs endMs).mpr h
  unfold AudioStore.eraseRange at hok ⊢
  cases hlog : st.log? isAlnum sessionId with
  | none =>
    split_ifs with hsame
    · have hnone : st.slotsOf isAlnum other = [] := by
        rw [slotsOf, log?, hsame, ← log?, hlog]
        rfl
      dsimp only
      rw [hnone, Slots.blankOut_nil]
    · rfl
  | some log =>
    dsimp only
    cases hrewrite : rewriteFrom (msToSlot startMs) (msToSlot endMs) 0 0 (iterSlots log) with
    | error e => simp [hlog, hrewrite] at hok
    | ok out =>
      obtain ⟨log', erased'⟩ := out
      have hrecorded := recorded_rewriteFrom (fun frame => length_le_of_mem_iterSlots) hrewrite
      rw [List.replicate_zero, List.nil_append, Nat.sub_zero, Nat.sub_zero] at hrecorded
      dsimp only
      rw [slotsOf_congr (zeroPeaks_frame _ _).1, slotsOf, log?, Dict.get?_set]
      split_ifs with hsame
      · rw [Option.getD_some, hrecorded.iterSlots_eq, slotsOf, log?, hsame, ← log?, hlog,
          Option.getD_some]
      · rfl

/-- An erasure that cannot be packed leaves the slots as they are. -/
theorem eraseRange_of_not_erasable {startMs endMs : ℤ}
    (h : ¬ st.Erasable isAlnum sessionId startMs endMs) :
    (st.eraseRange isAlnum sessionId startMs endMs).2 = st := by
  cases hresult : (st.eraseRange isAlnum sessionId startMs endMs).1 with
  | error e => exact eraseRange_of_error hresult
  | ok erased => exact absurd ((eraseRange_isOk_iff startMs endMs).mp ⟨erased, hresult⟩) h

/-- **`eraseRange` blanks the slots of the range** and keeps the others where they are.
SOURCE: media/audio.py:284-321 -/
theorem Sound.eraseRange (h : Sound isAlnum sessionId st) {startMs endMs : ℤ} {erased : ℕ}
    (hok : (st.eraseRange isAlnum sessionId startMs endMs).1 = .ok erased) :
    Sound isAlnum sessionId (st.eraseRange isAlnum sessionId startMs endMs).2 ∧
      (st.eraseRange isAlnum sessionId startMs endMs).2.slotsOf isAlnum sessionId =
        Slots.blankOut [] (msToSlot startMs) (msToSlot endMs)
          (st.slotsOf isAlnum sessionId) := by
  unfold AudioStore.eraseRange at hok ⊢
  cases hlog : st.log? isAlnum sessionId with
  | none =>
    have hnone : st.slotsOf isAlnum sessionId = [] := by
      rw [slotsOf, hlog]
      rfl
    refine ⟨h, ?_⟩
    rw [hnone, Slots.blankOut_nil]
  | some log =>
    have hslots : st.slotsOf isAlnum sessionId = iterSlots log := by
      rw [slotsOf, hlog]
      rfl
    rw [hslots]
    dsimp only
    cases hrewrite : rewriteFrom (msToSlot startMs) (msToSlot endMs) 0 0 (iterSlots log) with
    | error e => simp [hlog, hrewrite] at hok
    | ok out =>
      obtain ⟨log', erased'⟩ := out
      have hrecorded := recorded_rewriteFrom (fun frame => length_le_of_mem_iterSlots) hrewrite
      rw [List.replicate_zero, List.nil_append, Nat.sub_zero, Nat.sub_zero] at hrecorded
      dsimp only
      have hlog' : (AudioStore.zeroPeaks isAlnum sessionId (msToSlot startMs) (msToSlot endMs)
          { st with
            logs := st.logs.set (safe isAlnum sessionId) log'
            slots := st.slots.erase sessionId }).log? isAlnum sessionId = some log' := by
        rw [log?, (zeroPeaks_frame _ _).1]
        exact Dict.get?_set_self _ _ _
      refine ⟨⟨?_, fun count hcount => ?_⟩, ?_⟩
      · rw [slotsOf, hlog']
        exact hrecorded.iterSlots_eq.symm ▸ hrecorded
      · rw [(zeroPeaks_frame _ _).2, Dict.get?_erase, if_pos rfl] at hcount
        cases hcount
      · rw [slotsOf, hlog']
        exact hrecorded.iterSlots_eq

theorem zeroPeaks_eq_self {first last : ℕ}
    (h : Slots.blankOut 0 first last (st.peaksOf isAlnum sessionId) =
      st.peaksOf isAlnum sessionId) :
    st.zeroPeaks isAlnum sessionId first last = st := by
  unfold zeroPeaks
  cases hpeaks : st.peakFiles.get? (safe isAlnum sessionId) with
  | none => rfl
  | some peaks =>
    rw [peaksOf, hpeaks, Option.getD_some] at h
    dsimp only
    split_ifs with hout
    · rfl
    · push Not at hout
      rw [Slots.take_append_drop_eq_blankOut 0 hout.1.le hout.2.le, h, Dict.set_eq_self hpeaks]

/-- A second erasure of the range changes nothing.
SOURCE: media/audio.py:284-321 -/
theorem Sound.eraseRange_idem (h : Sound isAlnum sessionId st) (startMs endMs : ℤ) :
    ((st.eraseRange isAlnum sessionId startMs endMs).2.eraseRange isAlnum sessionId startMs
      endMs).2 = (st.eraseRange isAlnum sessionId startMs endMs).2 := by
  cases hresult : (st.eraseRange isAlnum sessionId startMs endMs).1 with
  | error e => rw [eraseRange_of_error hresult, eraseRange_of_error hresult]
  | ok erased =>
    have hslots := (h.eraseRange hresult).2
    cases hlog : st.log? isAlnum sessionId with
    | none => simp only [AudioStore.eraseRange, hlog]
    | some log =>
      cases hrewrite : rewriteFrom (msToSlot startMs) (msToSlot endMs) 0 0 (iterSlots log) with
      | error e => simp [AudioStore.eraseRange, hlog, hrewrite] at hresult
      | ok out =>
        obtain ⟨log', erased'⟩ := out
        set st' := (st.eraseRange isAlnum sessionId startMs endMs).2 with hst'
        have heq : st' = AudioStore.zeroPeaks isAlnum sessionId (msToSlot startMs)
            (msToSlot endMs) { st with
              logs := st.logs.set (safe isAlnum sessionId) log'
              slots := st.slots.erase sessionId } := by
          simp only [hst', AudioStore.eraseRange, hlog, hrewrite]
        have hget : st'.log? isAlnum sessionId = some log' := by
          rw [heq, log?, (zeroPeaks_frame _ _).1]
          exact Dict.get?_set_self _ _ _
        have hcount : st'.slots.get? sessionId = none := by
          rw [heq, (zeroPeaks_frame _ _).2, Dict.get?_erase, if_pos rfl]
        have hpeaks : Slots.blankOut 0 (msToSlot startMs) (msToSlot endMs)
            (st'.peaksOf isAlnum sessionId) = st'.peaksOf isAlnum sessionId := by
          rw [heq, peaksOf_zeroPeaks, Slots.blankOut_blankOut]
        have hblank : iterSlots log' = Slots.blankOut [] (msToSlot startMs) (msToSlot endMs)
            (iterSlots log) := by
          rw [slotsOf, hget, slotsOf, hlog] at hslots
          exact hslots
        have hagain := rewriteFrom_blankOut (msToSlot startMs) (msToSlot endMs) 0 0
          (iterSlots log)
        rw [Nat.sub_zero, Nat.sub_zero, ← hblank, hrewrite] at hagain
        unfold AudioStore.eraseRange
        rw [hget]
        dsimp only
        cases hsecond : rewriteFrom (msToSlot startMs) (msToSlot endMs) 0 0
          (iterSlots log') with
        | error e => rfl
        | ok out =>
          rw [hsecond] at hagain
          obtain rfl : out.1 = log' := Except.ok.inj hagain
          dsimp only
          rw [Dict.set_eq_self hget, Dict.erase_eq_self hcount]
          exact zeroPeaks_eq_self hpeaks

/-- The count of a sound store.
SOURCE: media/audio.py:208-215 -/
theorem Sound.stat (h : Sound isAlnum sessionId st) :
    (st.stat isAlnum sessionId).1.slotCount = (st.slotsOf isAlnum sessionId).length ∧
      Sound isAlnum sessionId (st.stat isAlnum sessionId).2 ∧
      (st.stat isAlnum sessionId).2.slotsOf isAlnum sessionId =
        st.slotsOf isAlnum sessionId := by
  unfold AudioStore.stat
  cases hlog : st.log? isAlnum sessionId with
  | none =>
    refine ⟨?_, h, rfl⟩
    rw [slotsOf, hlog]
    rfl
  | some log => exact h.slotCountLocked

/-- Reading a range takes it out of what the slots hold. -/
theorem readRange_eq (startMs endMs : ℤ) (st : AudioStore) :
    st.readRange isAlnum sessionId startMs endMs =
      Slots.slice (msToSlot startMs) (msToSlot endMs) (st.slotsOf isAlnum sessionId) := by
  unfold readRange slotsOf
  cases st.log? isAlnum sessionId with
  | none => simp [Slots.slice, iterSlots, iterSlotsFrom]
  | some log => rfl

end

end AudioStore

end OpenRecall.Model
