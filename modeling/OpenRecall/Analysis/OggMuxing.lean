import OpenRecall.Model.OggMux

/-!
# Muxing is lossless

The checksum from the table is the division by the polynomial (`crc32_eq_crc`), and every page the
muxer writes is the layout of a page that holds whole packets (`page_eq`). Over a whole session
the pages are numbered, counted and flagged as they should be, and a demuxer gets the two headers
and every frame back, as long as the numbers of the pages fit their field of 32 bits.
-/

set_option autoImplicit false

namespace OpenRecall.Analysis.OggMuxing

open OpenRecall.Model OpenRecall.Model.OggMux
open Foundation Foundation.Ogg

/-! ## The checksum -/

/-- RFC 3533's polynomial. -/
def polynomial : BitVec 32 := 0x04C11DB7#32

theorem and_msb (r : BitVec 32) : (r.toNat &&& 0x80000000 ≠ 0) ↔ r.msb = true := by
  have hpow : (0x80000000 : ℕ) = 2 ^ 31 := by norm_num
  rw [hpow, Nat.and_two_pow, BitVec.msb_eq_getLsbD_last, BitVec.getLsbD]
  cases r.toNat.testBit 31 <;> simp

theorem and_mask (n : ℕ) : n &&& 0xFFFFFFFF = n % 2 ^ 32 := by
  have hmask : (0xFFFFFFFF : ℕ) = 2 ^ 32 - 1 := by norm_num
  rw [hmask, Nat.and_two_pow_sub_one_eq_mod]

/-- A round of the loop that fills the table shifts a bit out.
SOURCE: media/ogg.py:45 -/
theorem tableStep_toNat (r : BitVec 32) :
    tableStep r.toNat = (Crc.shiftBit polynomial r).toNat := by
  unfold tableStep Crc.shiftBit
  by_cases h : r.msb = true
  · rw [if_pos ((and_msb r).mpr h), if_pos h, and_mask, BitVec.toNat_xor, BitVec.toNat_shiftLeft,
      Nat.xor_mod_two_pow]
    rfl
  · rw [if_neg (mt (and_msb r).mp h), if_neg h, and_mask, BitVec.toNat_shiftLeft]

theorem iterate_tableStep (n : ℕ) (r : BitVec 32) :
    tableStep^[n] r.toNat = (Crc.shiftBits polynomial n r).toNat := by
  induction n with
  | zero => rfl
  | succ n ih => rw [Function.iterate_succ_apply', ih, tableStep_toNat, Crc.shiftBits]

theorem toNat_atTop (b : UInt8) : (Crc.atTop 32 b).toNat = b.toNat <<< 24 := by
  have hb := b.toNat_lt
  have hin : b.toNat <<< 24 < 2 ^ 32 := by
    rw [Nat.shiftLeft_eq]
    omega
  have hbyte : b.toNat % 2 ^ 32 = b.toNat := by omega
  rw [Crc.atTop, BitVec.toNat_shiftLeft, BitVec.toNat_ofNat, hbyte]
  exact Nat.mod_eq_of_lt hin

/-- The table holds what eight bits shifted out leave. -/
theorem crcTable_toNat (b : UInt8) : crcTable b.toNat = (Crc.entry polynomial b).toNat := by
  rw [crcTable, ← toNat_atTop, iterate_tableStep, Crc.entry]

theorem toNat_top (r : BitVec 32) : (Crc.top r).toNat = (r.toNat >>> 24) &&& 0xFF := by
  have hmask : (0xFF : ℕ) = 2 ^ 8 - 1 := by norm_num
  rw [Crc.top, UInt8.toNat_ofNat', hmask, Nat.and_two_pow_sub_one_eq_mod]

theorem crcStep_toNat (r : BitVec 32) (b : UInt8) :
    crcStep r.toNat b = (Crc.feed polynomial r b).toNat := by
  rw [Crc.feed_eq_table polynomial (by norm_num), BitVec.toNat_xor, BitVec.toNat_shiftLeft,
    ← crcTable_toNat, UInt8.toNat_xor, toNat_top, crcStep, and_mask]

/-- **The checksum from the table is the remainder under the polynomial.**
SOURCE: media/ogg.py:33-55 -/
theorem crc32_eq_crc (data : Bytes) : crc32 data = (Crc.crc polynomial data).toNat := by
  have hfold : ∀ r : BitVec 32, data.foldl crcStep r.toNat =
      (data.foldl (Crc.feed polynomial) r).toNat := by
    induction data with
    | nil => exact fun r => rfl
    | cons b bs ih =>
      intro r
      rw [List.foldl_cons, crcStep_toNat, ih, List.foldl_cons]
  exact hfold 0

/-! ## Pages -/

theorem lacing_eq (size : ℕ) : lacing size = lace size := by
  induction size using Nat.strong_induction_on with
  | _ size ih =>
    rw [lacing]
    split_ifs with h
    · rw [ih (size - 255) (by omega), lace_of_le h]
    · rw [lace_of_lt (not_le.mp h)]

/-- SOURCE: media/ogg.py:58-70 -/
theorem segmentTable_eq (packets : List Bytes) :
    segmentTable (packets.map List.length) =
      packets.flatMap fun packet => lace packet.length := by
  rw [segmentTable, List.flatMap_map]
  simp only [lacing_eq]

/-- **A page is laid out** with its check, when the numbers fit their fields.
SOURCE: media/ogg.py:73-88 -/
theorem page_eq {packets : List Bytes} {granule : ℤ} {serial sequence headerType : ℕ}
    (h : (ofPackets headerType granule serial sequence packets).Fits) :
    page packets granule serial sequence headerType =
      .ok (ofPackets headerType granule serial sequence packets).bytes := by
  have hfits : headerType < 256 ∧ (-2 ^ 63 ≤ granule ∧ granule < 2 ^ 63) ∧ serial < 2 ^ 32 ∧
      sequence < 2 ^ 32 ∧ (segmentTable (packets.map List.length)).length < 256 := by
    rw [segmentTable_eq]
    exact ⟨h.flags, h.granule, h.serial, h.sequence, h.lacing⟩
  have hbody : [0x4F, 0x67, 0x67, 0x53] ++ [0] ++ leBytes 1 headerType ++
      leBytes 8 (wrap64 granule) ++ leBytes 4 serial ++ leBytes 4 sequence ++ leBytes 4 0 ++
      leBytes 1 (segmentTable (packets.map List.length)).length ++
      segmentTable (packets.map List.length) ++ packets.flatten =
      (ofPackets headerType granule serial sequence packets).front ++ ([0, 0, 0, 0] ++
        (ofPackets headerType granule serial sequence packets).back) := by
    rw [segmentTable_eq]
    simp [Page.front, Page.back, capture, ofPackets, leBytes]
  have hlength := (ofPackets headerType granule serial sequence packets).length_front
  rw [page, packHeader, if_pos hfits]
  simp only [bind, Except.bind, hbody, crc32_eq_crc]
  simp [pure, Except.pure, Page.bytes, checksum, polynomial, hlength, List.drop_append]

/-- A page whose number does not fit is not written.
SOURCE: media/ogg.py:82-84 -/
theorem page_error {sequence : ℕ} (h : 2 ^ 32 ≤ sequence) (packets : List Bytes) (granule : ℤ)
    (serial headerType : ℕ) :
    page packets granule serial sequence headerType = .error {} := by
  rw [page, packHeader, if_neg (by omega)]
  rfl

/-! ## The pages of a session -/

section

variable {serial framesPerPage : ℕ}

variable (serial framesPerPage) in
/-- The pages that the loop writes. -/
def pagesFrom : MuxState → List Bytes → List Page
  | st, [] => [ofPackets 0x04 st.nextGranule serial st.sequence st.batch]
  | st, frame :: frames =>
    if framesPerPage ≤ (st.add frame).batch.length then
      ofPackets 0 (st.add frame).nextGranule serial st.sequence (st.add frame).batch ::
        pagesFrom (st.add frame).next frames
    else pagesFrom (st.add frame) frames

@[simp] theorem batch_add (st : MuxState) (frame : Bytes) :
    (st.add frame).batch = st.batch ++ [orSilent frame] := rfl

@[simp] theorem sequence_add (st : MuxState) (frame : Bytes) :
    (st.add frame).sequence = st.sequence := rfl

@[simp] theorem granule_add (st : MuxState) (frame : Bytes) :
    (st.add frame).granule = st.granule := rfl

@[simp] theorem batch_next (st : MuxState) : st.next.batch = [] := rfl

@[simp] theorem sequence_next (st : MuxState) : st.next.sequence = st.sequence + 1 := rfl

@[simp] theorem granule_next (st : MuxState) : st.next.granule = st.nextGranule := rfl

/-- SOURCE: media/ogg.py:139-155 -/
theorem muxFrom_eq {st : MuxState} {frames : List Bytes}
    (h : ∀ page ∈ pagesFrom serial framesPerPage st frames, page.Fits) :
    muxFrom serial framesPerPage st frames =
      .ok ((pagesFrom serial framesPerPage st frames).map Page.bytes) := by
  induction frames generalizing st with
  | nil =>
    rw [pagesFrom, List.forall_mem_singleton] at h
    rw [muxFrom, page_eq h]
    rfl
  | cons frame frames ih =>
    rw [pagesFrom] at h ⊢
    rw [muxFrom]
    split_ifs at h ⊢ with hfull
    · obtain ⟨hpage, hrest⟩ := List.forall_mem_cons.mp h
      rw [sequence_add, page_eq hpage, ih hrest]
      rfl
    · exact ih h

variable (serial framesPerPage) in
/-- Every frame is a packet, in order.
SOURCE: media/ogg.py:139-155 -/
theorem packetsFrom_pagesFrom (st : MuxState) (frames : List Bytes) :
    packetsFrom none (pagesFrom serial framesPerPage st frames) =
      some (st.batch ++ frames.map orSilent) := by
  induction frames generalizing st with
  | nil =>
    rw [pagesFrom]
    exact packetsFrom_cons_ofPackets (by decide) _ serial st.sequence st.batch rfl
  | cons frame frames ih =>
    rw [pagesFrom]
    split_ifs with hfull
    · rw [packetsFrom_cons_ofPackets (by decide) _ _ _ _ (ih _)]
      simp
    · rw [ih]
      simp

/-- The pages are numbered on.
SOURCE: media/ogg.py:147 -/
theorem sequence_pagesFrom (st : MuxState) (frames : List Bytes) {i : ℕ}
    (hi : i < (pagesFrom serial framesPerPage st frames).length) :
    (pagesFrom serial framesPerPage st frames)[i].sequence = st.sequence + i := by
  induction frames generalizing st i with
  | nil =>
    simp only [pagesFrom, List.length_singleton] at hi ⊢
    obtain rfl : i = 0 := by omega
    simp [ofPackets]
  | cons frame frames ih =>
    simp only [pagesFrom] at hi ⊢
    split_ifs at hi ⊢ with hfull
    · cases i with
      | zero => simp [ofPackets]
      | succ i =>
        rw [List.getElem_cons_succ, ih, sequence_next, sequence_add]
        omega
    · rw [ih, sequence_add]

/-- No page of the loop begins the stream. -/
theorem bos_pagesFrom (st : MuxState) (frames : List Bytes) :
    ∀ page ∈ pagesFrom serial framesPerPage st frames, page.bos = false := by
  induction frames generalizing st with
  | nil =>
    rw [pagesFrom, List.forall_mem_singleton]
    simp [Page.bos, ofPackets, Nat.testBit]
  | cons frame frames ih =>
    rw [pagesFrom]
    split_ifs with hfull
    · rw [List.forall_mem_cons]
      exact ⟨by simp [Page.bos, ofPackets], ih _⟩
    · exact ih _

variable (serial framesPerPage) in
theorem pagesFrom_ne_nil (st : MuxState) (frames : List Bytes) :
    pagesFrom serial framesPerPage st frames ≠ [] := by
  induction frames generalizing st with
  | nil => simp [pagesFrom]
  | cons frame frames ih =>
    rw [pagesFrom]
    split_ifs
    · simp
    · exact ih _

/-- The last page, and no other, ends the stream.
SOURCE: media/ogg.py:149-155 -/
theorem eos_pagesFrom (st : MuxState) (frames : List Bytes) {i : ℕ}
    (hi : i < (pagesFrom serial framesPerPage st frames).length) :
    (pagesFrom serial framesPerPage st frames)[i].eos = true ↔
      i + 1 = (pagesFrom serial framesPerPage st frames).length := by
  induction frames generalizing st i with
  | nil =>
    simp only [pagesFrom, List.length_singleton] at hi ⊢
    obtain rfl : i = 0 := by omega
    simp [Page.eos, ofPackets, Nat.testBit]
  | cons frame frames ih =>
    simp only [pagesFrom] at hi ⊢
    split_ifs at hi ⊢ with hfull
    · have hpos := List.length_pos_of_ne_nil
        (pagesFrom_ne_nil serial framesPerPage (st.add frame).next frames)
      cases i with
      | zero =>
        have hmore : (ofPackets 0 (st.add frame).nextGranule serial st.sequence
            (st.add frame).batch).eos = false := by simp [Page.eos, ofPackets]
        rw [List.getElem_cons_zero, hmore, List.length_cons]
        constructor
        · simp
        · omega
      | succ i =>
        rw [List.getElem_cons_succ, ih, List.length_cons]
        omega
    · exact ih _ hi

/-- The granule position counts the frames up to the end of the page.
SOURCE: media/ogg.py:142, media/ogg.py:151 -/
theorem granule_pagesFrom (st : MuxState) (frames : List Bytes) {i : ℕ}
    (hi : i < (pagesFrom serial framesPerPage st frames).length) :
    (pagesFrom serial framesPerPage st frames)[i].granule = st.granule +
      960 * (((pagesFrom serial framesPerPage st frames).take (i + 1)).map Page.endings).sum := by
  induction frames generalizing st i with
  | nil =>
    simp only [pagesFrom, List.length_singleton] at hi ⊢
    obtain rfl : i = 0 := by omega
    simp [endings_ofPackets]
    simp [ofPackets, MuxState.nextGranule, granulesPerFrame]
  | cons frame frames ih =>
    simp only [pagesFrom] at hi ⊢
    split_ifs at hi ⊢ with hfull
    · have hfirst : (st.add frame).nextGranule = st.granule + 960 * (st.batch.length + 1) := by
        simp [MuxState.nextGranule, granulesPerFrame]
      cases i with
      | zero =>
        simp [endings_ofPackets]
        simp [ofPackets, hfirst]
      | succ i =>
        rw [List.getElem_cons_succ, ih, List.take_succ_cons, List.map_cons, List.sum_cons,
          endings_ofPackets, granule_next, hfirst, batch_add, List.length_append,
          List.length_singleton]
        push_cast
        ring
    · exact ih _ hi

theorem length_orSilent {frame : Bytes} (h : frame.length ≤ 255) :
    (orSilent frame).length ≤ 255 := by
  unfold orSilent
  split_ifs
  · exact h
  · simp [silentFrame]

/-- Frames of at most 255 bytes have at most two lacing values each. -/
theorem length_flatMap_lace {packets : List Bytes} (h : ∀ packet ∈ packets, packet.length ≤ 255) :
    (packets.flatMap fun packet => lace packet.length).length ≤ 2 * packets.length := by
  induction packets with
  | nil => simp
  | cons packet packets ih =>
    obtain ⟨hpacket, hpackets⟩ := List.forall_mem_cons.mp h
    have hrest := ih hpackets
    rw [List.flatMap_cons, List.length_append, length_lace, List.length_cons]
    omega

/-- The batch is not full, and its packets are short. -/
structure Ready (framesPerPage : ℕ) (st : MuxState) : Prop where
  room : st.batch.length < framesPerPage
  short : ∀ packet ∈ st.batch, packet.length ≤ 255

theorem Ready.short_add {st : MuxState} (h : Ready framesPerPage st) {frame : Bytes}
    (hframe : frame.length ≤ 255) : ∀ packet ∈ (st.add frame).batch, packet.length ≤ 255 := by
  intro packet hpacket
  rw [batch_add, List.mem_append, List.mem_singleton] at hpacket
  rcases hpacket with hpacket | rfl
  · exact h.short packet hpacket
  · exact length_orSilent hframe

/-- **The pages fit**, when the number of the last one does: a page holds few enough frames that
their lacing values fit.
SOURCE: media/ogg.py:125-127 -/
theorem fits_pagesFrom {st : MuxState} {frames : List Bytes} (hready : Ready framesPerPage st)
    (hframes : ∀ frame ∈ frames, frame.length ≤ 255) (hpage : framesPerPage ≤ 127)
    (hserial : serial < 2 ^ 32)
    (hsequence : st.sequence + (st.batch.length + frames.length) / framesPerPage < 2 ^ 32)
    (hgranule : st.granule + 960 * (st.batch.length + frames.length) < 2 ^ 63) :
    ∀ page ∈ pagesFrom serial framesPerPage st frames, page.Fits := by
  induction frames generalizing st with
  | nil =>
    have hlacing := length_flatMap_lace hready.short
    have hroom := hready.room
    rw [List.length_nil, Nat.add_zero] at hgranule hsequence
    rw [pagesFrom, List.forall_mem_singleton]
    apply fits_ofPackets (by norm_num) ?_ hserial ?_ (hlacing.trans_lt (by omega))
    · simp only [MuxState.nextGranule, granulesPerFrame]
      omega
    · exact (Nat.le_add_right _ _).trans_lt hsequence
  | cons frame frames ih =>
    obtain ⟨hframe, hrest⟩ := List.forall_mem_cons.mp hframes
    have hshort := hready.short_add hframe
    have hlength : (st.add frame).batch.length = st.batch.length + 1 := by simp
    have hroom := hready.room
    rw [List.length_cons] at hsequence hgranule
    rw [pagesFrom]
    split_ifs with hfull
    · have hlacing := length_flatMap_lace hshort
      have hnext : (st.add frame).nextGranule = st.granule + 960 * (st.batch.length + 1) := by
        rw [MuxState.nextGranule, granulesPerFrame, granule_add, hlength]
      have hfilled : st.batch.length + (frames.length + 1) = frames.length + framesPerPage := by
        omega
      rw [hfilled, Nat.add_div_right _ (by omega)] at hsequence
      rw [List.forall_mem_cons]
      constructor
      · apply fits_ofPackets (by norm_num) ?_ hserial ?_ (hlacing.trans_lt (by omega))
        · rw [hnext]
          omega
        · exact (Nat.le_add_right _ _).trans_lt hsequence
      · apply ih ⟨by simpa using hroom.pos, by simp⟩ hrest
        · rw [sequence_next, sequence_add, batch_next, List.length_nil, Nat.zero_add]
          omega
        · rw [granule_next, hnext, batch_next, List.length_nil]
          omega
    · apply ih ⟨not_le.mp hfull, hshort⟩ hrest
      · rw [sequence_add, hlength]
        convert hsequence using 3
        omega
      · rw [granule_add, hlength]
        omega

/-- The loop only ends when the number of its last page fits. -/
theorem sequence_lt_of_muxFrom {st : MuxState} {frames pages : List Bytes}
    (hroom : st.batch.length < framesPerPage)
    (h : muxFrom serial framesPerPage st frames = .ok pages) :
    st.sequence + (st.batch.length + frames.length) / framesPerPage < 2 ^ 32 := by
  induction frames generalizing st pages with
  | nil =>
    rw [List.length_nil, Nat.add_zero, Nat.div_eq_of_lt hroom, Nat.add_zero]
    by_contra hover
    rw [muxFrom, page_error (not_lt.mp hover)] at h
    cases h
  | cons frame frames ih =>
    have hlength : (st.add frame).batch.length = st.batch.length + 1 := by simp
    rw [muxFrom] at h
    rw [List.length_cons]
    split_ifs at h with hfull
    · cases hout : page (st.add frame).batch (st.add frame).nextGranule serial
        (st.add frame).sequence 0 with
      | error e =>
        rw [hout] at h
        cases h
      | ok out =>
        cases hrest : muxFrom serial framesPerPage (st.add frame).next frames with
        | error e =>
          rw [hout, hrest] at h
          cases h
        | ok rest =>
          have hnext := ih (by simpa using hroom.pos) hrest
          have hfilled : st.batch.length + (frames.length + 1) =
              frames.length + framesPerPage := by omega
          rw [sequence_next, sequence_add, batch_next, List.length_nil, Nat.zero_add] at hnext
          rw [hfilled, Nat.add_div_right _ (by omega)]
          omega
    · have hnext := ih (not_le.mp hfull) h
      rw [sequence_add, hlength] at hnext
      convert hnext using 3
      omega

end

/-! ## The stream -/

/-- The frames that end on the pages after the two headers, up to page `i`. -/
def framesUpTo (pages : List Page) (i : ℕ) : ℕ :=
  (((pages.take (i + 1)).drop 2).map Page.endings).sum

/-- What a demuxer must find in the stream of the frames. -/
structure Faithful (frames : List Bytes) (pages : List Page) (packets : List Bytes) : Prop where
  packets : packets = opusHead :: opusTags :: frames.map orSilent
  sequence : ∀ i (hi : i < pages.length), pages[i].sequence = i
  lacing : ∀ page ∈ pages, page.lacing.length ≤ 255
  granule : ∀ i (hi : i < pages.length), 2 ≤ i → pages[i].granule = 960 * framesUpTo pages i
  bos : ∀ i (hi : i < pages.length), pages[i].bos = true ↔ i = 0
  eos : ∀ i (hi : i < pages.length), pages[i].eos = true ↔ i + 1 = pages.length

/-- The state that the loop starts from. -/
def start : MuxState := { sequence := 2, granule := 0, batch := [] }

/-- The page with the identification header. -/
def headPage : Page := ofPackets 0x02 0 1 0 [opusHead]

/-- The page with the comment header. -/
def tagsPage : Page := ofPackets 0 0 1 1 [opusTags]

/-- All pages of the stream. -/
def pagesOf (frames : List Bytes) : List Page :=
  headPage :: tagsPage :: pagesFrom 1 50 start frames

theorem ready_start : Ready 50 start where
  room := by simp [start]
  short := by simp [start]

theorem fits_headPage : headPage.Fits :=
  fits_ofPackets (by norm_num) (by norm_num) (by norm_num) (by norm_num) (by decide)

theorem fits_tagsPage : tagsPage.Fits :=
  fits_ofPackets (by norm_num) (by norm_num) (by norm_num) (by norm_num) (by decide)

/-- All pages of the stream fit. -/
theorem fits_pagesOf {frames : List Bytes} (hframes : ∀ frame ∈ frames, frame.length ≤ 255)
    (hcount : frames.length < 50 * (2 ^ 32 - 2)) : ∀ page ∈ pagesOf frames, page.Fits := by
  have hloop : ∀ page ∈ pagesFrom 1 50 start frames, page.Fits := by
    apply fits_pagesFrom ready_start hframes (by norm_num) (by norm_num)
    · simp only [start, List.length_nil]
      omega
    · simp only [start, List.length_nil]
      omega
  rw [pagesOf, List.forall_mem_cons, List.forall_mem_cons]
  exact ⟨fits_headPage, fits_tagsPage, hloop⟩

/-- The muxer writes these pages.
SOURCE: media/ogg.py:111-159 -/
theorem muxToBytes_eq {frames : List Bytes} (hfits : ∀ page ∈ pagesOf frames, page.Fits) :
    muxToBytes frames = .ok ((pagesOf frames).map Page.bytes).flatten := by
  rw [pagesOf, List.forall_mem_cons, List.forall_mem_cons] at hfits
  obtain ⟨hhead, htags, hloop⟩ := hfits
  have hpages : mux frames 1 50 = .ok ((pagesOf frames).map Page.bytes) := by
    rw [mux, page_eq hhead, page_eq htags, ← start, muxFrom_eq hloop]
    rfl
  rw [muxToBytes, hpages]
  rfl

/-- What a demuxer must find is in these pages. -/
theorem faithful_pagesOf {frames : List Bytes} (hfits : ∀ page ∈ pagesOf frames, page.Fits) :
    Faithful frames (pagesOf frames) (opusHead :: opusTags :: frames.map orSilent) where
  packets := rfl
  sequence := by
    intro i hi
    rcases i with _ | _ | i
    · simp [pagesOf, headPage, ofPackets]
    · simp [pagesOf, tagsPage, ofPackets]
    · simp only [pagesOf, List.getElem_cons_succ]
      rw [sequence_pagesFrom]
      exact Nat.add_comm 2 i
  lacing := fun page hpage => Nat.le_of_lt_succ (hfits page hpage).lacing
  granule := by
    intro i hi htwo
    obtain ⟨i, rfl⟩ := Nat.exists_eq_add_of_le' htwo
    simp only [pagesOf, List.getElem_cons_succ]
    rw [granule_pagesFrom]
    simp [start, framesUpTo]
  bos := by
    intro i hi
    rcases i with _ | _ | i
    · simp [pagesOf, headPage, ofPackets, Page.bos, Nat.testBit]
    · simp [pagesOf, tagsPage, ofPackets, Page.bos]
    · have hloop : i < (pagesFrom 1 50 start frames).length := by
        simp only [pagesOf, List.length_cons] at hi
        omega
      simp [pagesOf, bos_pagesFrom start frames _ (List.getElem_mem hloop)]
  eos := by
    intro i hi
    rcases i with _ | _ | i
    · simp [pagesOf, headPage, ofPackets, Page.eos, Nat.testBit]
    · simp [pagesOf, tagsPage, ofPackets, Page.eos, pagesFrom_ne_nil]
    · simp only [pagesOf, List.getElem_cons_succ]
      rw [eos_pagesFrom]
      simp

/-- The packets of these pages are the two headers and the frames. -/
theorem packetsFrom_pagesOf (frames : List Bytes) :
    packetsFrom none (pagesOf frames) = some (opusHead :: opusTags :: frames.map orSilent) := by
  have hplain : (0 : ℕ).testBit 0 = false := by simp
  have hbos : (0x02 : ℕ).testBit 0 = false := by simp
  have hloop := packetsFrom_pagesFrom 1 50 start frames
  have htags := packetsFrom_cons_ofPackets hplain 0 1 1 [opusTags] hloop
  exact packetsFrom_cons_ofPackets hbos 0 1 0 [opusHead] htags

/-- **Muxing is lossless**, and the stream is well formed, as long as there are fewer frames than
the pages can be numbered for.
SOURCE: media/ogg.py:111-159 -/
theorem demux_muxToBytes {frames : List Bytes} (hframes : ∀ frame ∈ frames, frame.length ≤ 255)
    (hcount : frames.length < 50 * (2 ^ 32 - 2)) :
    ∃ data pages packets, muxToBytes frames = .ok data ∧ demux data = some (pages, packets) ∧
      Faithful frames pages packets := by
  have hfits := fits_pagesOf hframes hcount
  exact ⟨_, _, _, muxToBytes_eq hfits, demux_bytes hfits (packetsFrom_pagesOf frames),
    faithful_pagesOf hfits⟩

/-- A gap slot, a short frame and one of the largest size. -/
theorem demux_muxToBytes_threeFrames :
    ∃ data pages packets, muxToBytes [[], [0xF8, 7], List.replicate 255 9] = .ok data ∧
      demux data = some (pages, packets) ∧
      Faithful [[], [0xF8, 7], List.replicate 255 9] pages packets := by
  apply demux_muxToBytes
  · rw [List.forall_mem_cons, List.forall_mem_cons, List.forall_mem_singleton,
      List.length_replicate]
    exact ⟨by simp, by simp, le_rfl⟩
  · simp only [List.length_cons, List.length_nil]
    norm_num

/-- More frames than the pages can be numbered for are not muxed at all.
SOURCE: media/ogg.py:82-84 -/
theorem muxToBytes_ne_ok {frames : List Bytes} (h : 50 * (2 ^ 32 - 2) ≤ frames.length)
    (data : Bytes) : muxToBytes frames ≠ .ok data := by
  intro hdata
  rw [muxToBytes, mux, page_eq fits_headPage, page_eq fits_tagsPage, ← start] at hdata
  cases hloop : muxFrom 1 50 start frames with
  | error e =>
    rw [hloop] at hdata
    cases hdata
  | ok pages =>
    have hlt := sequence_lt_of_muxFrom ready_start.room hloop
    simp only [start, List.length_nil] at hlt
    omega

/-- Not every list of frames is muxed: after page 2³² − 1 there is no number left. -/
theorem not_always_muxed :
    ¬ ∀ frames : List Bytes, (∀ frame ∈ frames, frame.length ≤ 255) →
      ∃ data pages packets, muxToBytes frames = .ok data ∧ demux data = some (pages, packets) ∧
        Faithful frames pages packets := by
  intro hall
  -- The count stays a variable, so that nothing unfolds the list.
  obtain ⟨n, hn⟩ : ∃ n : ℕ, 50 * (2 ^ 32 - 2) ≤ n := ⟨50 * (2 ^ 32 - 2), le_rfl⟩
  have hlong : 50 * (2 ^ 32 - 2) ≤ (List.replicate n ([] : Bytes)).length := by
    rwa [List.length_replicate]
  have hshort : ∀ frame ∈ List.replicate n ([] : Bytes), frame.length ≤ 255 := by
    intro frame hframe
    rw [List.eq_of_mem_replicate hframe]
    simp
  obtain ⟨data, pages, packets, hdata, -, -⟩ := hall _ hshort
  exact muxToBytes_ne_ok hlong data hdata

end OpenRecall.Analysis.OggMuxing
