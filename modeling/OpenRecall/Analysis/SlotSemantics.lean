import OpenRecall.Foundation.Run
import OpenRecall.Model.AudioStore

/-!
# What the slots of a session hold

Calls that write, mark gaps and erase, on one session. The store refines a timeline of cells,
a frame and its peak each: an accepted write places cells at its slot, a gap places none, and
an erasure blanks the cells of its range. The run lemma tells what the cells are from the calls
alone, and with it what a read of the whole log yields and what the peak file says.

The peaks of a write are stored also where the log cannot hold the frame and has a gap instead.
So the peak file says 0 for every gap just when no write brings such a frame a peak.
-/

set_option autoImplicit false

namespace OpenRecall.Analysis.SlotSemantics

open Foundation OpenRecall.Model

/-- A call on the session's audio. -/
inductive AudioCall where
  | writeAt (slot : ℤ) (frames : List Bytes) (peaks : Option (List ℤ))
  | markGap (count : ℤ)
  | eraseRange (startMs endMs : ℤ)

section

variable (isAlnum : Char → Bool) (sid : String)

def step (st : AudioStore) : AudioCall → AudioStore
  | .writeAt slot frames peaks => (st.writeAtSlot isAlnum sid slot frames peaks).2
  | .markGap count => (st.markGap isAlnum sid count).2
  | .eraseRange startMs endMs => (st.eraseRange isAlnum sid startMs endMs).2

/-- The store after the calls, the first ones on the session. -/
def after (calls : List AudioCall) : AudioStore := run (step isAlnum sid) {} calls

/-- The slots that a scan of the log finds. -/
def slotTotal (st : AudioStore) : ℕ := (st.slotsOf isAlnum sid).length

/-- A read of the whole log. -/
def readAll (st : AudioStore) : List Bytes :=
  st.readRange isAlnum sid 0 (slotTotal isAlnum sid st * frameMs)

/-- The slot is not behind the end of the log, and a gap up to it fits a record. -/
def Accepts (st : AudioStore) (slot : ℤ) : Prop :=
  slotTotal isAlnum sid st ≤ slot ∧ slot - slotTotal isAlnum sid st < 2 ^ 32

instance (st : AudioStore) (slot : ℤ) : Decidable (Accepts isAlnum sid st slot) :=
  inferInstanceAs (Decidable (_ ∧ _))

/-- The call is an accepted write and puts the frame, with the peak, at slot `i`. -/
def Puts (st : AudioStore) (c : AudioCall) (i : ℕ) (frame : Bytes) (peak : UInt8) : Prop :=
  ∃ slot frames peaks, c = .writeAt slot frames peaks ∧ Accepts isAlnum sid st slot ∧
    ∃ j : ℕ, (i : ℤ) = slot + j ∧ frames[j]? = some frame ∧
      peak = AudioStore.clampPeak ((peaks.getD [])[j]?.getD 0)

/-- The call is an erasure that returns and has slot `i` in its range. -/
def Erases (st : AudioStore) (c : AudioCall) (i : ℕ) : Prop :=
  ∃ startMs endMs erased, c = .eraseRange startMs endMs ∧
    (st.eraseRange isAlnum sid startMs endMs).1 = .ok erased ∧
    msToSlot startMs ≤ i ∧ i < msToSlot endMs

/-- None of the calls from here on erases slot `i`. -/
def Spared (st : AudioStore) (calls : List AudioCall) (i : ℕ) : Prop :=
  EveryStep (step isAlnum sid) (fun st c => ¬ Erases isAlnum sid st c i) st calls

/-- What the calls say about slot `i`, by what the cell of the slot then is: an accepted write
put something there and nothing erased it since, or that was erased, or no write put anything
there. A later write cannot put anything there, so each is the first. -/
structure Told {α : Type} (calls : List AudioCall) (i : ℕ) (cell : Option α)
    (shown : Bytes → UInt8 → α) (blank : α) : Prop where
  spared : ∀ earlier c later frame peak, calls = earlier ++ c :: later →
    Puts isAlnum sid (after isAlnum sid earlier) c i frame peak →
    Spared isAlnum sid (after isAlnum sid (earlier ++ [c])) later i →
    cell = some (shown frame peak)
  erased : ∀ earlier c later frame peak, calls = earlier ++ c :: later →
    Puts isAlnum sid (after isAlnum sid earlier) c i frame peak →
    ¬ Spared isAlnum sid (after isAlnum sid (earlier ++ [c])) later i → cell = some blank
  untouched : (∀ earlier c later frame peak, calls = earlier ++ c :: later →
    ¬ Puts isAlnum sid (after isAlnum sid earlier) c i frame peak) →
    i < slotTotal isAlnum sid (after isAlnum sid calls) → cell = some blank

/-- **The slots of a session hold what the calls say.** The contents, as a read of the whole log
yields them; the number of slots, which no call lowers and of which the remembered count is the
number; a write behind the cursor, which changes no file; an erasure, which keeps the number of
slots and what is outside its range and does nothing the second time; and the peaks, 0 where
there is a gap. -/
structure Faithful (calls : List AudioCall) : Prop where
  contents : ∀ i, Told isAlnum sid calls i (readAll isAlnum sid (after isAlnum sid calls))[i]?
    (fun frame _ => AudioStore.kept frame) []
  grows : ∀ c, slotTotal isAlnum sid (after isAlnum sid calls) ≤
    slotTotal isAlnum sid (after isAlnum sid (calls ++ [c]))
  late : ∀ (slot : ℤ) frames peaks, slot < slotTotal isAlnum sid (after isAlnum sid calls) →
    (after isAlnum sid (calls ++ [.writeAt slot frames peaks])).logs =
        (after isAlnum sid calls).logs ∧
      (after isAlnum sid (calls ++ [.writeAt slot frames peaks])).peakFiles =
        (after isAlnum sid calls).peakFiles
  erasure_count : ∀ startMs endMs,
    slotTotal isAlnum sid (after isAlnum sid (calls ++ [.eraseRange startMs endMs])) =
      slotTotal isAlnum sid (after isAlnum sid calls)
  erasure_outside : ∀ startMs endMs i, ¬ (msToSlot startMs ≤ i ∧ i < msToSlot endMs) →
    (readAll isAlnum sid (after isAlnum sid (calls ++ [.eraseRange startMs endMs])))[i]? =
      (readAll isAlnum sid (after isAlnum sid calls))[i]?
  erasure_idem : ∀ startMs endMs,
    after isAlnum sid (calls ++ [.eraseRange startMs endMs, .eraseRange startMs endMs]) =
      after isAlnum sid (calls ++ [.eraseRange startMs endMs])
  counted : ∀ count, (after isAlnum sid calls).slots.get? sid = some count →
    count = slotTotal isAlnum sid (after isAlnum sid calls)
  peaks : ∀ file, (after isAlnum sid calls).peakFiles.get? (AudioStore.safe isAlnum sid) =
    some file → file.length ≤ slotTotal isAlnum sid (after isAlnum sid calls) ∧
      ∀ i < file.length, Told isAlnum sid calls i file[i]?
        (fun frame peak => if AudioStore.Storable frame then peak else 0) 0

/-- The condition: a frame that an accepted write cannot store comes without a peak. -/
def SilentGaps (st : AudioStore) (c : AudioCall) : Prop :=
  ∀ i frame peak, Puts isAlnum sid st c i frame peak → ¬ AudioStore.Storable frame → peak = 0

end

/-! ## The timeline -/

/-- A slot of the timeline: what the log holds there, and the peak. -/
abbrev Cell : Type := Bytes × UInt8

def Cell.blank : Cell := ([], 0)

/-- The cells that a write places. -/
def cells (frames : List Bytes) (peaks : Option (List ℤ)) : List Cell :=
  (frames.map AudioStore.kept).zip (AudioStore.peakBytes frames peaks)

theorem map_fst_cells (frames : List Bytes) (peaks : Option (List ℤ)) :
    (cells frames peaks).map Prod.fst = frames.map AudioStore.kept := by
  apply List.map_fst_zip
  rw [List.length_map, AudioStore.length_peakBytes]

theorem map_snd_cells (frames : List Bytes) (peaks : Option (List ℤ)) :
    (cells frames peaks).map Prod.snd = AudioStore.peakBytes frames peaks := by
  apply List.map_snd_zip
  rw [List.length_map, AudioStore.length_peakBytes]

theorem getElem?_peakBytes (frames : List Bytes) (peaks : Option (List ℤ)) {j : ℕ}
    (h : j < frames.length) : (AudioStore.peakBytes frames peaks)[j]? =
      some (AudioStore.clampPeak ((peaks.getD [])[j]?.getD 0)) := by
  rw [AudioStore.peakBytes, List.getElem?_map, List.getElem?_take_of_lt h,
    List.getElem?_append]
  split_ifs with hj
  · rw [List.getElem?_eq_getElem hj]
    rfl
  · rw [List.getElem?_replicate_of_lt (by omega), List.getElem?_eq_none (by omega)]
    rfl

theorem getElem?_cells {frames : List Bytes} (peaks : Option (List ℤ)) {j : ℕ} {frame : Bytes}
    (h : frames[j]? = some frame) : (cells frames peaks)[j]? =
      some (AudioStore.kept frame, AudioStore.clampPeak ((peaks.getD [])[j]?.getD 0)) := by
  obtain ⟨hj, -⟩ := List.getElem?_eq_some_iff.mp h
  rw [cells, List.getElem?_zip_eq_some]
  refine ⟨?_, getElem?_peakBytes frames peaks hj⟩
  rw [List.getElem?_map, h]
  rfl

section

variable {isAlnum : Char → Bool} {sid : String} {st : AudioStore} {t : List Cell}

/-- The store has the cells on file. -/
structure Shows (isAlnum : Char → Bool) (sid : String) (st : AudioStore) (t : List Cell) :
    Prop where
  sound : st.Sound isAlnum sid
  slots : st.slotsOf isAlnum sid = t.map Prod.fst
  peaks : st.peaksOf isAlnum sid = t.map Prod.snd

theorem shows_empty : Shows isAlnum sid {} [] := ⟨AudioStore.sound_empty, rfl, rfl⟩

theorem Shows.slotTotal_eq (h : Shows isAlnum sid st t) : slotTotal isAlnum sid st = t.length := by
  rw [slotTotal, h.slots, List.length_map]

/-- Remembering the number of slots changes no file. -/
theorem Shows.slotCountLocked (h : Shows isAlnum sid st t) :
    Shows isAlnum sid (st.slotCountLocked isAlnum sid).2 t := by
  obtain ⟨-, hsound, hslots⟩ := h.sound.slotCountLocked
  exact ⟨hsound, hslots.trans h.slots,
    (AudioStore.peaksOf_congr AudioStore.slotCountLocked_frame.2).trans h.peaks⟩

/-- Opening the log changes nothing in it. -/
theorem Shows.appendLog_nil (h : Shows isAlnum sid st t) :
    Shows isAlnum sid (st.appendLog isAlnum sid []) t :=
  ⟨h.sound.appendLog_nil.1, h.sound.appendLog_nil.2.trans h.slots, h.peaks⟩

/-- The peaks after a write that is not behind the end.
SOURCE: media/audio.py:138-190 -/
theorem Shows.peaksOf_writeAt (h : Shows isAlnum sid st t) {slot : ℕ} (hle : t.length ≤ slot)
    (hfits : slot - t.length < 2 ^ 32) (frames : List Bytes) (peaks : Option (List ℤ)) :
    (st.writeAt isAlnum sid slot frames peaks).2.peaksOf isAlnum sid =
      Slots.place 0 slot (AudioStore.peakBytes frames peaks) (t.map Prod.snd) := by
  have hcursor := h.sound.slotCountLocked.1
  have hpeaks := h.slotCountLocked.peaks
  rw [h.slots, List.length_map] at hcursor
  rw [Slots.place_of_le (by rwa [List.length_map])]
  unfold AudioStore.writeAt
  by_cases hnil : frames = []
  · rw [if_pos hnil, hnil]
    unfold AudioStore.advanceTo
    dsimp only
    rw [hcursor]
    by_cases hslot : slot ≤ t.length
    · rw [if_pos hslot, hpeaks, Slots.padTo, List.length_map, Nat.sub_eq_zero_of_le hslot]
      simp [AudioStore.peakBytes]
    · rw [if_neg hslot, AudioStore.gapRecord_eq hfits]
      dsimp only
      rw [AudioStore.peaksOf_padPeaks, ← hpeaks]
      exact (List.append_nil _).symm
  · rw [if_neg hnil]
    dsimp only
    rw [hcursor, if_neg (Nat.not_lt.mpr hle)]
    have hgap : ∃ gap, (if t.length < slot then gapRecord (slot - t.length)
        else .ok []) = .ok gap := by
      split_ifs
      · exact ⟨_, AudioStore.gapRecord_eq hfits⟩
      · exact ⟨_, rfl⟩
    obtain ⟨gap, hgap⟩ := hgap
    rw [hgap]
    dsimp only
    rw [AudioStore.peaksOf_writePeaks, ← hpeaks]
    rfl

/-- **An accepted write places cells.**
SOURCE: media/audio.py:138-190 -/
theorem Shows.writeAt (h : Shows isAlnum sid st t) {slot : ℕ} (hle : t.length ≤ slot)
    (hfits : slot - t.length < 2 ^ 32) (frames : List Bytes) (peaks : Option (List ℤ)) :
    Shows isAlnum sid (st.writeAt isAlnum sid slot frames peaks).2
      (Slots.place Cell.blank slot (cells frames peaks) t) := by
  have hcount : slot - (st.slotsOf isAlnum sid).length < 2 ^ 32 := by
    rwa [h.slots, List.length_map]
  obtain ⟨hsound, hslots⟩ := h.sound.writeAt hcount frames peaks
  refine ⟨hsound, ?_, ?_⟩
  · rw [hslots, h.slots, Slots.map_place, map_fst_cells]
    rfl
  · rw [h.peaksOf_writeAt hle hfits, Slots.map_place, map_snd_cells]
    rfl

/-- A gap that fits no record raises, and nothing is written.
SOURCE: media/audio.py:138-190 -/
theorem Shows.writeAt_unfit (h : Shows isAlnum sid st t) {slot : ℕ}
    (hfits : ¬ slot - t.length < 2 ^ 32) (frames : List Bytes) (peaks : Option (List ℤ)) :
    Shows isAlnum sid (st.writeAt isAlnum sid slot frames peaks).2 t := by
  rw [← List.length_map (f := Prod.fst), ← h.slots] at hfits
  rcases h.sound.writeAt_unfit hfits frames peaks with heq | heq
  · rw [heq]
    exact h.slotCountLocked
  · rw [heq]
    exact h.slotCountLocked.appendLog_nil

/-- An erasure that returns blanks the cells of its range.
SOURCE: media/audio.py:284-321 -/
theorem Shows.eraseRange (h : Shows isAlnum sid st t) {startMs endMs : ℤ} {erased : ℕ}
    (hok : (st.eraseRange isAlnum sid startMs endMs).1 = .ok erased) :
    Shows isAlnum sid (st.eraseRange isAlnum sid startMs endMs).2
      (Slots.blankOut Cell.blank (msToSlot startMs) (msToSlot endMs) t) := by
  obtain ⟨hsound, hslots⟩ := h.sound.eraseRange hok
  refine ⟨hsound, ?_, ?_⟩
  · rw [hslots, h.slots, Slots.map_blankOut]
    rfl
  · rw [Slots.map_blankOut, ← h.peaks]
    unfold AudioStore.eraseRange at hok ⊢
    cases hlog : st.log? isAlnum sid with
    | none =>
      have hnil := h.slots
      rw [AudioStore.slotsOf, hlog] at hnil
      have ht : t = [] := List.map_eq_nil_iff.mp hnil.symm
      rw [h.peaks, ht]
      rfl
    | some log =>
      dsimp only
      cases hrewrite : AudioStore.rewriteFrom (msToSlot startMs) (msToSlot endMs) 0 0
        (iterSlots log) with
      | error e => simp [hlog, hrewrite] at hok
      | ok out => exact AudioStore.peaksOf_zeroPeaks _ _

/-! ## Step and run -/

/-- How the timeline before a call and the one after it differ. -/
structure Changes (isAlnum : Char → Bool) (sid : String) (st : AudioStore) (c : AudioCall)
    (t t' : List Cell) : Prop where
  grows : t.length ≤ t'.length
  spared : ∀ i < t.length, ¬ Erases isAlnum sid st c i → t'[i]? = t[i]?
  erased : ∀ i < t.length, Erases isAlnum sid st c i → t'[i]? = some Cell.blank
  put : ∀ i frame peak, Puts isAlnum sid st c i frame peak →
    t.length ≤ i ∧ t'[i]? = some (AudioStore.kept frame, peak)
  filled : ∀ i, t.length ≤ i → i < t'.length →
    (∀ frame peak, ¬ Puts isAlnum sid st c i frame peak) → t'[i]? = some Cell.blank

/-- A call that is neither an accepted write nor an erasure that returns. -/
theorem Changes.refl {c : AudioCall} (hputs : ∀ i frame peak, ¬ Puts isAlnum sid st c i frame peak)
    (herases : ∀ i, ¬ Erases isAlnum sid st c i) : Changes isAlnum sid st c t t where
  grows := le_rfl
  spared _ _ _ := rfl
  erased _ _ h := absurd h (herases _)
  put i frame peak h := absurd h (hputs i frame peak)
  filled _ hle hlt _ := absurd hlt (Nat.not_lt.mpr hle)

/-- Placing items at the slot of a write, or none after a gap. -/
theorem Changes.place {c : AudioCall} {slot : ℕ} {items : List Cell} (hle : t.length ≤ slot)
    (herases : ∀ i, ¬ Erases isAlnum sid st c i)
    (hputs : ∀ i frame peak, Puts isAlnum sid st c i frame peak →
      slot ≤ i ∧ items[i - slot]? = some (AudioStore.kept frame, peak))
    (hitems : ∀ i, slot ≤ i → i - slot < items.length →
      ∃ frame peak, Puts isAlnum sid st c i frame peak) :
    Changes isAlnum sid st c t (Slots.place Cell.blank slot items t) where
  grows := (Slots.isPrefix_place Cell.blank slot items t).length_le
  spared i hi _ := Slots.getElem?_place_of_lt Cell.blank items hi
  erased _ _ h := absurd h (herases _)
  put i frame peak h := by
    obtain ⟨hslot, hitem⟩ := hputs i frame peak h
    exact ⟨hle.trans hslot, (Slots.getElem?_place_items Cell.blank items hle hslot).trans hitem⟩
  filled i hi hlt hnone := by
    rw [Slots.length_place_of_le hle] at hlt
    by_cases hslot : i < slot
    · exact Slots.getElem?_place_gap Cell.blank items hi hslot
    · obtain ⟨frame, peak, h⟩ := hitems i (Nat.le_of_not_lt hslot) (by omega)
      exact absurd h (hnone frame peak)

theorem not_puts_of_not_accepts {slot : ℤ} {frames : List Bytes} {peaks : Option (List ℤ)}
    (h : ¬ Accepts isAlnum sid st slot) (i : ℕ) (frame : Bytes) (peak : UInt8) :
    ¬ Puts isAlnum sid st (.writeAt slot frames peaks) i frame peak := by
  rintro ⟨_, _, _, hc, haccepts, -⟩
  cases hc
  exact h haccepts

theorem not_erases_writeAt (slot : ℤ) (frames : List Bytes) (peaks : Option (List ℤ)) (i : ℕ) :
    ¬ Erases isAlnum sid st (.writeAt slot frames peaks) i := by
  rintro ⟨_, _, _, hc, -⟩
  cases hc

theorem Shows.step_writeAt (h : Shows isAlnum sid st t) (slot : ℕ) (frames : List Bytes)
    (peaks : Option (List ℤ)) :
    ∃ t', Shows isAlnum sid (st.writeAt isAlnum sid slot frames peaks).2 t' ∧
      Changes isAlnum sid st (.writeAt slot frames peaks) t t' := by
  by_cases haccepts : Accepts isAlnum sid st slot
  · have hle := haccepts.1
    have hfits := haccepts.2
    rw [h.slotTotal_eq] at hle hfits
    refine ⟨_, h.writeAt (by omega) (by omega) frames peaks, ?_⟩
    apply Changes.place (by omega) (not_erases_writeAt slot frames peaks)
    · rintro i frame peak ⟨_, _, _, hc, -, j, hi, hframe, rfl⟩
      cases hc
      obtain rfl : i = slot + j := by omega
      refine ⟨Nat.le_add_right slot j, ?_⟩
      rw [Nat.add_sub_cancel_left]
      exact getElem?_cells peaks hframe
    · intro i hi hlt
      rw [cells, List.length_zip, List.length_map, AudioStore.length_peakBytes, min_self] at hlt
      exact ⟨_, _, slot, frames, peaks, rfl, haccepts, i - slot, by omega,
        List.getElem?_eq_getElem hlt, rfl⟩
  · refine ⟨t, ?_, Changes.refl (not_puts_of_not_accepts haccepts)
      (not_erases_writeAt slot frames peaks)⟩
    rw [Accepts, h.slotTotal_eq, not_and_or] at haccepts
    rcases haccepts with hlt | hunfit
    · have hlate : slot < (st.slotsOf isAlnum sid).length := by
        rw [h.slots, List.length_map]
        omega
      rw [h.sound.writeAt_late hlate]
      exact h.slotCountLocked
    · exact h.writeAt_unfit (by omega) frames peaks

theorem Shows.step_markGap (h : Shows isAlnum sid st t) (count : ℤ) :
    ∃ t', Shows isAlnum sid (st.markGap isAlnum sid count).2 t' ∧
      Changes isAlnum sid st (.markGap count) t t' := by
  have hputs : ∀ i frame peak, ¬ Puts isAlnum sid st (.markGap count) i frame peak := by
    rintro i frame peak ⟨_, _, _, hc, -⟩
    cases hc
  have herases : ∀ i, ¬ Erases isAlnum sid st (.markGap count) i := by
    rintro i ⟨_, _, _, hc, -⟩
    cases hc
  unfold AudioStore.markGap
  split_ifs with hcount
  · exact ⟨t, h, Changes.refl hputs herases⟩
  · have hcursor := h.sound.slotCountLocked.1
    rw [h.slots, List.length_map] at hcursor
    dsimp only
    rw [hcursor]
    -- advancing the cursor is what a write without frames does
    show ∃ t', Shows isAlnum sid ((st.slotCountLocked isAlnum sid).2.writeAt isAlnum sid
      (t.length + count.toNat) [] none).2 t' ∧ _
    by_cases hfits : t.length + count.toNat - t.length < 2 ^ 32
    · refine ⟨_, h.slotCountLocked.writeAt (Nat.le_add_right _ _) hfits [] none, ?_⟩
      apply Changes.place (Nat.le_add_right _ _) herases
      · intro i frame peak hput
        exact absurd hput (hputs i frame peak)
      · intro i _ hlt
        exact absurd hlt (Nat.not_lt_zero _)
    · exact ⟨t, h.slotCountLocked.writeAt_unfit hfits [] none, Changes.refl hputs herases⟩

theorem Shows.step_eraseRange (h : Shows isAlnum sid st t) (startMs endMs : ℤ) :
    ∃ t', Shows isAlnum sid (st.eraseRange isAlnum sid startMs endMs).2 t' ∧
      Changes isAlnum sid st (.eraseRange startMs endMs) t t' := by
  have hputs : ∀ i frame peak, ¬ Puts isAlnum sid st (.eraseRange startMs endMs) i frame peak := by
    rintro i frame peak ⟨_, _, _, hc, -⟩
    cases hc
  cases hresult : (st.eraseRange isAlnum sid startMs endMs).1 with
  | error e =>
    rw [AudioStore.eraseRange_of_error hresult]
    refine ⟨t, h, Changes.refl hputs ?_⟩
    rintro i ⟨_, _, _, hc, hok, -⟩
    cases hc
    rw [hresult] at hok
    cases hok
  | ok erased =>
    have herases : ∀ i, Erases isAlnum sid st (.eraseRange startMs endMs) i ↔
        msToSlot startMs ≤ i ∧ i < msToSlot endMs := by
      intro i
      constructor
      · rintro ⟨_, _, _, hc, -, hrange⟩
        cases hc
        exact hrange
      · exact fun hrange => ⟨startMs, endMs, erased, rfl, hresult, hrange⟩
    refine ⟨_, h.eraseRange hresult, ?_⟩
    refine ⟨(Slots.length_blankOut _ _ _ t).ge, fun i _ hspared => ?_, fun i hi herased => ?_,
      fun i frame peak hput => absurd hput (hputs i frame peak), fun i hle hlt _ => ?_⟩
    · rw [herases] at hspared
      rw [Slots.getElem?_blankOut, if_neg hspared]
    · rw [herases] at herased
      rw [Slots.getElem?_blankOut, if_pos herased, List.getElem?_eq_getElem hi]
      rfl
    · rw [Slots.length_blankOut] at hlt
      omega

/-- **The step lemma.** -/
theorem Shows.step (h : Shows isAlnum sid st t) (c : AudioCall) :
    ∃ t', Shows isAlnum sid (step isAlnum sid st c) t' ∧ Changes isAlnum sid st c t t' := by
  cases c with
  | writeAt slot frames peaks =>
    cases slot with
    | ofNat slot => exact h.step_writeAt slot frames peaks
    | negSucc n =>
      refine ⟨t, h.slotCountLocked, Changes.refl (not_puts_of_not_accepts fun haccepts => ?_)
        (not_erases_writeAt _ frames peaks)⟩
      have hle := haccepts.1
      omega
  | markGap count => exact h.step_markGap count
  | eraseRange startMs endMs => exact h.step_eraseRange startMs endMs

theorem lt_length_of_getElem? {α : Type} {xs : List α} {i : ℕ} {x : α} (h : xs[i]? = some x) :
    i < xs.length :=
  (List.getElem?_eq_some_iff.mp h).1

/-- A blank cell stays blank. -/
theorem Changes.blank {c : AudioCall} {t' : List Cell} (h : Changes isAlnum sid st c t t') {i : ℕ}
    (hblank : t[i]? = some Cell.blank) : t'[i]? = some Cell.blank := by
  have hi := lt_length_of_getElem? hblank
  by_cases herased : Erases isAlnum sid st c i
  · exact h.erased i hi herased
  · rw [h.spared i hi herased, hblank]

theorem after_concat (calls : List AudioCall) (c : AudioCall) :
    after isAlnum sid (calls ++ [c]) = step isAlnum sid (after isAlnum sid calls) c :=
  run_append _ _ _ _

/-- The store after the calls up to one of them, and those that follow it. -/
theorem run_after (earlier later : List AudioCall) (c : AudioCall) :
    run (step isAlnum sid) (after isAlnum sid (earlier ++ [c])) later =
      after isAlnum sid (earlier ++ c :: later) := by
  rw [after, after, ← run_append, List.append_assoc, List.singleton_append]

/-- What the calls say about a slot, after one more call. -/
theorem Told.concat {calls : List AudioCall} {c : AudioCall} {t' : List Cell} {i : ℕ}
    (h : Told isAlnum sid calls i t[i]? (fun frame peak => (AudioStore.kept frame, peak))
      Cell.blank) (hshows : Shows isAlnum sid (after isAlnum sid calls) t)
    (hshows' : Shows isAlnum sid (after isAlnum sid (calls ++ [c])) t')
    (hchanges : Changes isAlnum sid (after isAlnum sid calls) c t t') :
    Told isAlnum sid (calls ++ [c]) i t'[i]? (fun frame peak => (AudioStore.kept frame, peak))
      Cell.blank where
  spared earlier c' later frame peak hsplit hputs hspared := by
    rcases concat_split hsplit with ⟨rfl, rfl, rfl⟩ | ⟨later, rfl, rfl⟩
    · exact (hchanges.put i frame peak hputs).2
    · obtain ⟨hbefore, hnot, -⟩ := (everyStep_append _ _ _).mp hspared
      rw [run_after] at hnot
      have hcell := h.spared _ _ _ _ _ rfl hputs hbefore
      rw [hchanges.spared i (lt_length_of_getElem? hcell) hnot, hcell]
  erased earlier c' later frame peak hsplit hputs hnot := by
    rcases concat_split hsplit with ⟨rfl, rfl, rfl⟩ | ⟨later, rfl, rfl⟩
    · exact absurd trivial hnot
    · by_cases hspared : Spared isAlnum sid (after isAlnum sid (earlier ++ [c'])) later i
      · have hi := lt_length_of_getElem? (h.spared _ _ _ _ _ rfl hputs hspared)
        apply hchanges.erased i hi
        by_contra herases
        rw [← run_after] at herases
        exact hnot ((everyStep_append _ _ _).mpr ⟨hspared, herases, trivial⟩)
      · exact hchanges.blank (h.erased _ _ _ _ _ rfl hputs hspared)
  untouched hnone hlt := by
    rw [hshows'.slotTotal_eq] at hlt
    by_cases hi : i < t.length
    · apply hchanges.blank
      apply h.untouched (fun earlier c' later frame peak hsplit => ?_) (by rwa [hshows.slotTotal_eq])
      apply hnone earlier c' (later ++ [c])
      rw [hsplit, List.append_assoc, List.cons_append]
    · exact hchanges.filled i (Nat.le_of_not_lt hi) hlt
        fun frame peak => hnone calls c [] frame peak rfl

/-- **The run lemma.** After any calls the store shows a timeline, and its cells are what the
calls say. -/
theorem shows_after (calls : List AudioCall) :
    ∃ t, Shows isAlnum sid (after isAlnum sid calls) t ∧
      ∀ i, Told isAlnum sid calls i t[i]? (fun frame peak => (AudioStore.kept frame, peak))
        Cell.blank := by
  induction calls using List.reverseRecOn with
  | nil =>
    refine ⟨[], shows_empty, fun i => ⟨?_, ?_, fun _ hlt => ?_⟩⟩
    · intro earlier c later frame peak hsplit
      simp at hsplit
    · intro earlier c later frame peak hsplit
      simp at hsplit
    · exact absurd hlt (Nat.not_lt_zero i)
  | append_singleton calls c ih =>
    obtain ⟨t, hshows, htold⟩ := ih
    obtain ⟨t', hshows', hchanges⟩ := hshows.step c
    rw [← after_concat] at hshows'
    exact ⟨t', hshows', fun i => (htold i).concat hshows hshows' hchanges⟩

/-- What is told about a cell is told about a part of it. -/
theorem Told.map {α β : Type} {calls : List AudioCall} {i : ℕ} {cell : Option α}
    {shown : Bytes → UInt8 → α} {blank : α} (h : Told isAlnum sid calls i cell shown blank)
    (f : α → β) :
    Told isAlnum sid calls i (cell.map f) (fun frame peak => f (shown frame peak)) (f blank) where
  spared _ _ _ _ _ hsplit hputs hspared := by
    rw [h.spared _ _ _ _ _ hsplit hputs hspared, Option.map_some]
  erased _ _ _ _ _ hsplit hputs hnot := by
    rw [h.erased _ _ _ _ _ hsplit hputs hnot, Option.map_some]
  untouched hnone hlt := by
    rw [h.untouched hnone hlt, Option.map_some]

/-- A read of the whole log yields what the slots hold. -/
theorem readAll_eq (isAlnum : Char → Bool) (sid : String) (st : AudioStore) :
    readAll isAlnum sid st = st.slotsOf isAlnum sid := by
  have hfirst : msToSlot 0 = 0 := by decide
  have hlast : msToSlot ((st.slotsOf isAlnum sid).length * frameMs) =
      (st.slotsOf isAlnum sid).length := by
    rw [msToSlot, frameMs]
    omega
  rw [readAll, AudioStore.readRange_eq, slotTotal, hfirst, hlast, Slots.slice, List.drop_zero,
    List.take_length]

theorem Shows.readAll_eq (h : Shows isAlnum sid st t) :
    readAll isAlnum sid st = t.map Prod.fst :=
  (SlotSemantics.readAll_eq isAlnum sid st).trans h.slots

/-- A peak file that is there says what the cells say. -/
theorem Shows.peakFile_eq (h : Shows isAlnum sid st t) {file : Bytes}
    (hfile : st.peakFiles.get? (AudioStore.safe isAlnum sid) = some file) :
    file = t.map Prod.snd := by
  rw [← h.peaks, AudioStore.peaksOf, hfile, Option.getD_some]

/-- An erasure, whether it returns or raises, keeps the number of slots and those outside its
range.
SOURCE: media/audio.py:284-321 -/
theorem Shows.outside_eraseRange (h : Shows isAlnum sid st t) (startMs endMs : ℤ) :
    ∃ t', Shows isAlnum sid (st.eraseRange isAlnum sid startMs endMs).2 t' ∧
      t'.length = t.length ∧
      ∀ i, ¬ (msToSlot startMs ≤ i ∧ i < msToSlot endMs) → t'[i]? = t[i]? := by
  cases hresult : (st.eraseRange isAlnum sid startMs endMs).1 with
  | error e =>
    rw [AudioStore.eraseRange_of_error hresult]
    exact ⟨t, h, rfl, fun _ _ => rfl⟩
  | ok erased =>
    refine ⟨_, h.eraseRange hresult, Slots.length_blankOut _ _ _ t, fun i hi => ?_⟩
    rw [Slots.getElem?_blankOut, if_neg hi]

theorem late_files {calls : List AudioCall} (hshows : Shows isAlnum sid (after isAlnum sid calls) t)
    {slot : ℤ} (hlt : slot < t.length) (frames : List Bytes) (peaks : Option (List ℤ)) :
    (after isAlnum sid (calls ++ [.writeAt slot frames peaks])).logs =
        (after isAlnum sid calls).logs ∧
      (after isAlnum sid (calls ++ [.writeAt slot frames peaks])).peakFiles =
        (after isAlnum sid calls).peakFiles := by
  rw [after_concat]
  cases slot with
  | ofNat slot =>
    have hlate : slot < ((after isAlnum sid calls).slotsOf isAlnum sid).length := by
      rw [hshows.slots, List.length_map]
      exact Int.ofNat_lt.mp hlt
    rw [step, AudioStore.writeAtSlot, hshows.sound.writeAt_late hlate]
    exact AudioStore.slotCountLocked_frame
  | negSucc n => exact AudioStore.slotCountLocked_frame

/-- What needs no condition. -/
theorem faithful_of_peaks {calls : List AudioCall}
    (hpeaks : ∀ file, (after isAlnum sid calls).peakFiles.get? (AudioStore.safe isAlnum sid) =
      some file → file.length ≤ slotTotal isAlnum sid (after isAlnum sid calls) ∧
        ∀ i < file.length, Told isAlnum sid calls i file[i]?
          (fun frame peak => if AudioStore.Storable frame then peak else 0) 0) :
    Faithful isAlnum sid calls := by
  obtain ⟨t, hshows, htold⟩ : ∃ t, Shows isAlnum sid (after isAlnum sid calls) t ∧ _ :=
    shows_after calls
  refine ⟨fun i => ?_, fun c => ?_, fun slot frames peaks hlt => ?_, fun startMs endMs => ?_,
    fun startMs endMs i hi => ?_, fun startMs endMs => ?_, fun count hcount => ?_, hpeaks⟩
  · rw [hshows.readAll_eq, List.getElem?_map]
    exact (htold i).map Prod.fst
  · obtain ⟨t', hshows', hchanges⟩ := hshows.step c
    rw [after_concat, hshows.slotTotal_eq, hshows'.slotTotal_eq]
    exact hchanges.grows
  · rw [hshows.slotTotal_eq] at hlt
    exact late_files hshows hlt frames peaks
  · obtain ⟨t', hshows', hlength, -⟩ := hshows.outside_eraseRange startMs endMs
    rw [after_concat, step, hshows.slotTotal_eq, hshows'.slotTotal_eq, hlength]
  · obtain ⟨t', hshows', -, houtside⟩ := hshows.outside_eraseRange startMs endMs
    rw [after_concat, step, hshows.readAll_eq, hshows'.readAll_eq, List.getElem?_map,
      List.getElem?_map, houtside i hi]
  · rw [after_concat, show [AudioCall.eraseRange startMs endMs, .eraseRange startMs endMs] =
      [.eraseRange startMs endMs] ++ [.eraseRange startMs endMs] from rfl, ← List.append_assoc,
      after_concat, after_concat]
    exact hshows.sound.eraseRange_idem startMs endMs
  · rw [hshows.sound.counted count hcount, slotTotal]

/-- The peaks of a run whose steps all meet the condition. -/
theorem told_peaks {calls : List AudioCall}
    (h : EveryStep (step isAlnum sid) (SilentGaps isAlnum sid) {} calls) {i : ℕ}
    {peak? : Option UInt8} (htold : Told isAlnum sid calls i peak? (fun _ peak => peak) 0) :
    Told isAlnum sid calls i peak?
      (fun frame peak => if AudioStore.Storable frame then peak else 0) 0 where
  spared earlier c later frame peak hsplit hputs hspared := by
    rw [htold.spared _ _ _ _ _ hsplit hputs hspared]
    split_ifs with hstorable
    · rfl
    · rw [hsplit] at h
      rw [h.at_split i frame peak hputs hstorable]
  erased := htold.erased
  untouched := htold.untouched

end

/-- **The slots of a session hold what the calls say, after each of the calls, if and only if
no accepted write brings a peak for a frame that the log cannot hold.**
SOURCE: media/audio.py:125-206, media/audio.py:219-332 -/
theorem faithful_iff (isAlnum : Char → Bool) (sid : String) (calls : List AudioCall) :
    (∀ done rest, calls = done ++ rest → Faithful isAlnum sid done) ↔
      EveryStep (step isAlnum sid) (SilentGaps isAlnum sid) {} calls := by
  constructor
  · intro h
    rw [everyStep_iff_at_split]
    intro done c rest hsplit i frame peak hputs hstorable
    obtain ⟨t, hshows, htold⟩ : ∃ t, Shows isAlnum sid (after isAlnum sid (done ++ [c])) t ∧ _ :=
      shows_after (done ++ [c])
    have hcell := (htold i).spared done c [] frame peak rfl hputs trivial
    have hpeak : (t.map Prod.snd)[i]? = some peak := by
      rw [List.getElem?_map, hcell]
      rfl
    have hfaithful := h (done ++ [c]) rest (by rw [hsplit, List.append_assoc]; rfl)
    cases hfile : (after isAlnum sid (done ++ [c])).peakFiles.get?
      (AudioStore.safe isAlnum sid) with
    | none =>
      rw [← hshows.peaks, AudioStore.peaksOf, hfile] at hpeak
      cases hpeak
    | some file =>
      have htold' := (hfaithful.peaks file hfile).2 i
      rw [hshows.peakFile_eq hfile] at htold'
      have hsaid := (htold' (lt_length_of_getElem? hpeak)).spared done c [] frame peak rfl hputs
        trivial
      rw [hpeak, if_neg hstorable] at hsaid
      exact Option.some.inj hsaid
  · rintro h done rest rfl
    apply faithful_of_peaks
    intro file hfile
    obtain ⟨t, hshows, htold⟩ : ∃ t, Shows isAlnum sid (after isAlnum sid done) t ∧ _ :=
      shows_after done
    rw [hshows.peakFile_eq hfile]
    refine ⟨?_, fun i _ => told_peaks h.prefix_of ?_⟩
    · rw [List.length_map, hshows.slotTotal_eq]
    · rw [List.getElem?_map]
      exact (htold i).map Prod.snd

/-- A frame without bytes, which the log has as a gap, and a peak for it. -/
theorem not_always_faithful :
    ¬ ∀ (isAlnum : Char → Bool) (sid : String) (calls : List AudioCall),
      Faithful isAlnum sid calls := by
  intro h
  have hfaithful := h Char.isAlphanum "s" [.writeAt 0 [[]] (some [77])]
  have htold := (hfaithful.peaks [77] (by decide +kernel)).2 0 (by decide)
  have hputs : Puts Char.isAlphanum "s" (after Char.isAlphanum "s" [])
      (.writeAt 0 [[]] (some [77])) 0 [] 77 :=
    ⟨0, [[]], some [77], rfl, by decide, 0, rfl, rfl, by decide⟩
  have hsaid := htold.spared [] _ [] [] 77 rfl hputs trivial
  revert hsaid
  decide

end OpenRecall.Analysis.SlotSemantics
