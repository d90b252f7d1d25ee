import OpenRecall.Foundation.Crc

/-!
# Ogg streams

A logical Ogg stream as RFC 3533 lays it out: pages with a capture pattern, a version, flags, a
granule position, the stream's serial number, the page's sequence number, a checksum over the page
with this field zeroed, and the lacing values of its segments. A packet ends with the first
lacing value below 255; one that a page leaves open goes on in the next page, which has to say so.

`readPages` reads the pages and `packetsFrom` puts the packets together. What `Page.bytes` lays out
is read back (`readPages_bytes`), and so are packets laced by `lace` (`packetsFrom_cons_laced`).
-/

set_option autoImplicit false

namespace Foundation.Ogg

/-! ## Little-endian numbers -/

/-- The number that bytes hold, the lowest first. -/
def leNat : List UInt8 → ℕ
  | [] => 0
  | b :: bs => b.toNat + 256 * leNat bs

/-- The lowest `k` bytes of a number, the lowest first. -/
def leBytes : ℕ → ℕ → List UInt8
  | 0, _ => []
  | k + 1, n => UInt8.ofNat n :: leBytes k (n / 256)

@[simp] theorem length_leBytes (k n : ℕ) : (leBytes k n).length = k := by
  induction k generalizing n with
  | zero => rfl
  | succ k ih => simp [leBytes, ih]

theorem leNat_leBytes {k n : ℕ} (h : n < 256 ^ k) : leNat (leBytes k n) = n := by
  induction k generalizing n with
  | zero => simp_all [leBytes, leNat]
  | succ k ih =>
    rw [leBytes, leNat, ih, UInt8.toNat_ofNat']
    · omega
    · rw [pow_succ] at h
      omega

/-- A number in two's complement, as the 64-bit field holds it. -/
def wrap64 (z : ℤ) : ℕ := (z % 2 ^ 64).toNat

/-- The number that a 64-bit field in two's complement holds. -/
def unwrap64 (n : ℕ) : ℤ := if n < 2 ^ 63 then n else n - 2 ^ 64

theorem wrap64_lt (z : ℤ) : wrap64 z < 256 ^ 8 := by
  unfold wrap64
  omega

theorem unwrap64_wrap64 {z : ℤ} (h : -2 ^ 63 ≤ z ∧ z < 2 ^ 63) : unwrap64 (wrap64 z) = z := by
  unfold unwrap64 wrap64
  split_ifs <;> omega

/-! ## Pages -/

/-- A page, without what follows from the rest of it. -/
structure Page where
  flags : ℕ
  granule : ℤ
  serial : ℕ
  sequence : ℕ
  lacing : List UInt8
  body : List UInt8
  deriving DecidableEq

namespace Page

/-- The page goes on with a packet that the page before left open. -/
def continued (page : Page) : Bool := page.flags.testBit 0

/-- The page begins the stream. -/
def bos (page : Page) : Bool := page.flags.testBit 1

/-- The page ends the stream. -/
def eos (page : Page) : Bool := page.flags.testBit 2

/-- The packets that end on the page. -/
def endings (page : Page) : ℕ := page.lacing.countP (· < 255)

end Page

/-- The segments' lengths, summed. -/
def total (lacing : List UInt8) : ℕ := (lacing.map UInt8.toNat).sum

/-- "OggS", and version 0. -/
def capture : List UInt8 := [0x4F, 0x67, 0x67, 0x53, 0]

/-- The check of a page: the polynomial is 0x04C11DB7, and the field of the check is zero. -/
def checksum (front back : List UInt8) : ℕ :=
  (Crc.crc 0x04C11DB7#32 (front ++ [0, 0, 0, 0] ++ back)).toNat

/-- The first `n` bytes, when there are so many, and the rest. -/
def readN (n : ℕ) (data : List UInt8) : Option (List UInt8 × List UInt8) :=
  if data.length < n then none else some (data.take n, data.drop n)

/-- Read a page: `front` is the header up to the check. -/
def readPage (data : List UInt8) : Option (Page × List UInt8) := do
  let (front, data) ← readN 22 data
  let (sum, data) ← readN 4 data
  let (count, data) ← readN 1 data
  let (lacing, data) ← readN (leNat count) data
  let (body, rest) ← readN (total lacing) data
  if front.take 5 = capture ∧ leNat sum = checksum front (count ++ lacing ++ body) then
    return ({
      flags := leNat ((front.drop 5).take 1)
      granule := unwrap64 (leNat ((front.drop 6).take 8))
      serial := leNat ((front.drop 14).take 4)
      sequence := leNat ((front.drop 18).take 4)
      lacing := lacing
      body := body }, rest)
  else none

/-- Read pages to the end of the data. -/
def readPages : ℕ → List UInt8 → Option (List Page)
  | _, [] => some []
  | 0, _ :: _ => none
  | fuel + 1, b :: bs => do
    let (page, rest) ← readPage (b :: bs)
    let pages ← readPages fuel rest
    return page :: pages

/-! ## Packets -/

/-- The packets that end on a page, and what it leaves open, if it does: `part` is what the page
before left open. -/
def segments : Option (List UInt8) → List UInt8 → List UInt8 →
    List (List UInt8) × Option (List UInt8)
  | part, [], _ => ([], part)
  | part, l :: ls, body =>
    if l < 255 then
      ((part.getD [] ++ body.take l.toNat) :: (segments none ls (body.drop l.toNat)).1,
        (segments none ls (body.drop l.toNat)).2)
    else segments (some (part.getD [] ++ body.take l.toNat)) ls (body.drop l.toNat)

/-- The packets of the pages: a page is marked as continued exactly when a packet is open, and no
packet is open at the end. -/
def packetsFrom : Option (List UInt8) → List Page → Option (List (List UInt8))
  | none, [] => some []
  | some _, [] => none
  | part, page :: pages =>
    if page.continued = part.isSome then do
      let more ← packetsFrom (segments part page.lacing page.body).2 pages
      return (segments part page.lacing page.body).1 ++ more
    else none

/-- The pages and the packets of a stream. -/
def demux (data : List UInt8) : Option (List Page × List (List UInt8)) := do
  let pages ← readPages data.length data
  let packets ← packetsFrom none pages
  return (pages, packets)

/-! ## Reading what was laid out -/

theorem readN_append {n : ℕ} {front : List UInt8} (h : front.length = n) (rest : List UInt8) :
    readN n (front ++ rest) = some (front, rest) := by
  subst h
  simp [readN]

namespace Page

/-- The header up to the check. -/
def front (page : Page) : List UInt8 :=
  capture ++ (leBytes 1 page.flags ++ (leBytes 8 (wrap64 page.granule) ++
    (leBytes 4 page.serial ++ leBytes 4 page.sequence)))

/-- What follows the check. -/
def back (page : Page) : List UInt8 :=
  leBytes 1 page.lacing.length ++ page.lacing ++ page.body

/-- The page, laid out. -/
def bytes (page : Page) : List UInt8 :=
  page.front ++ (leBytes 4 (checksum page.front page.back) ++ page.back)

/-- The fields fit their widths, and the body is as long as the lacing values say. -/
structure Fits (page : Page) : Prop where
  flags : page.flags < 256
  granule : -2 ^ 63 ≤ page.granule ∧ page.granule < 2 ^ 63
  serial : page.serial < 2 ^ 32
  sequence : page.sequence < 2 ^ 32
  lacing : page.lacing.length < 256
  body : page.body.length = total page.lacing

@[simp] theorem length_front (page : Page) : page.front.length = 22 := by
  simp [front, capture]

theorem length_bytes_pos (page : Page) : 0 < page.bytes.length := by
  simp [bytes]

end Page

theorem checksum_lt (front back : List UInt8) : checksum front back < 256 ^ 4 :=
  (Crc.crc 0x04C11DB7#32 (front ++ [0, 0, 0, 0] ++ back)).isLt

/-- Reading a page whose parts are as they should be. -/
theorem readPage_append {front sum count lacing body : List UInt8} (rest : List UInt8)
    (hfront : front.length = 22) (hsum : sum.length = 4) (hcount : count.length = 1)
    (hlacing : lacing.length = leNat count) (hbody : body.length = total lacing)
    (hcapture : front.take 5 = capture)
    (hcheck : leNat sum = checksum front (count ++ lacing ++ body)) :
    readPage (front ++ (sum ++ (count ++ (lacing ++ (body ++ rest))))) = some ({
      flags := leNat ((front.drop 5).take 1)
      granule := unwrap64 (leNat ((front.drop 6).take 8))
      serial := leNat ((front.drop 14).take 4)
      sequence := leNat ((front.drop 18).take 4)
      lacing := lacing
      body := body }, rest) := by
  simp only [readPage, Option.bind_eq_bind, readN_append hfront, Option.bind_some,
    readN_append hsum, readN_append hcount, readN_append hlacing, readN_append hbody]
  exact if_pos ⟨hcapture, hcheck⟩

/-- A page that was laid out is read back. -/
theorem readPage_bytes {page : Page} (h : page.Fits) (rest : List UInt8) :
    readPage (page.bytes ++ rest) = some (page, rest) := by
  have hcount : leNat (leBytes 1 page.lacing.length) = page.lacing.length :=
    leNat_leBytes h.lacing
  have hsum : leNat (leBytes 4 (checksum page.front page.back)) =
      checksum page.front page.back :=
    leNat_leBytes (checksum_lt _ _)
  have hread := readPage_append rest page.length_front (length_leBytes 4 _) (length_leBytes 1 _)
    hcount.symm h.body (by simp [Page.front, capture]) hsum
  have hflags : (page.front.drop 5).take 1 = leBytes 1 page.flags := by
    simp [Page.front, capture]
  have hgranule : (page.front.drop 6).take 8 = leBytes 8 (wrap64 page.granule) := by
    simp [Page.front, capture]
  have hserial : (page.front.drop 14).take 4 = leBytes 4 page.serial := by
    simp [Page.front, capture, leBytes]
  have hsequence : (page.front.drop 18).take 4 = leBytes 4 page.sequence := by
    simp [Page.front, capture, leBytes]
  rw [hflags, hgranule, hserial, hsequence, leNat_leBytes h.flags, leNat_leBytes (wrap64_lt _),
    leNat_leBytes h.serial, leNat_leBytes h.sequence, unwrap64_wrap64 h.granule] at hread
  simpa [Page.bytes, Page.back] using hread

/-- **Pages that were laid out are read back**, when the fuel is enough for them. -/
theorem readPages_bytes {pages : List Page} (h : ∀ page ∈ pages, page.Fits) {fuel : ℕ}
    (hfuel : pages.length ≤ fuel) : readPages fuel (pages.map Page.bytes).flatten = some pages := by
  induction pages generalizing fuel with
  | nil => simp [readPages]
  | cons page pages ih =>
    obtain ⟨hpage, hpages⟩ := List.forall_mem_cons.mp h
    obtain ⟨fuel, rfl⟩ := Nat.exists_eq_add_of_le' (Nat.one_le_of_lt hfuel)
    have hread := readPage_bytes hpage (pages.map Page.bytes).flatten
    rw [List.map_cons, List.flatten_cons]
    cases hdata : page.bytes ++ (pages.map Page.bytes).flatten with
    | nil =>
      have hpos := page.length_bytes_pos
      have hzero := congrArg List.length hdata
      rw [List.length_append, List.length_nil] at hzero
      omega
    | cons b bs =>
      rw [readPages, ← hdata, hread]
      simp [ih hpages (Nat.le_of_succ_le_succ hfuel)]

/-- Every page takes up some of the data. -/
theorem length_le_length_flatten (pages : List Page) :
    pages.length ≤ (pages.map Page.bytes).flatten.length := by
  induction pages with
  | nil => simp
  | cons page pages ih =>
    have hpos := page.length_bytes_pos
    rw [List.map_cons, List.flatten_cons, List.length_append, List.length_cons]
    omega

/-- A stream that was laid out is read back, with the packets that its pages hold. -/
theorem demux_bytes {pages : List Page} (h : ∀ page ∈ pages, page.Fits)
    {packets : List (List UInt8)} (hpackets : packetsFrom none pages = some packets) :
    demux (pages.map Page.bytes).flatten = some (pages, packets) := by
  rw [demux, readPages_bytes h (length_le_length_flatten pages)]
  simp [hpackets]

/-! ## Lacing -/

/-- The lacing values of a packet: full segments, and one that is not full. -/
def lace (size : ℕ) : List UInt8 :=
  List.replicate (size / 255) 255 ++ [UInt8.ofNat (size % 255)]

/-- The page that holds whole packets. -/
def ofPackets (flags : ℕ) (granule : ℤ) (serial sequence : ℕ) (packets : List (List UInt8)) :
    Page where
  flags := flags
  granule := granule
  serial := serial
  sequence := sequence
  lacing := packets.flatMap fun packet => lace packet.length
  body := packets.flatten

theorem toNat_last (size : ℕ) : (UInt8.ofNat (size % 255)).toNat = size % 255 := by
  rw [UInt8.toNat_ofNat']
  omega

theorem total_append (a b : List UInt8) : total (a ++ b) = total a + total b := by
  simp [total]

/-- The segments of a packet are as long as the packet. -/
theorem total_lace (size : ℕ) : total (lace size) = size := by
  have hfull : total (List.replicate (size / 255) 255) = size / 255 * 255 := by
    simp [total]
  have hlast : total [UInt8.ofNat (size % 255)] = size % 255 := by
    simp [total]
    omega
  rw [lace, total_append, hfull, hlast]
  exact Nat.div_add_mod' size 255

theorem length_lace (size : ℕ) : (lace size).length = size / 255 + 1 := by
  simp [lace]

/-- A packet has one lacing value that ends it. -/
theorem countP_lace (size : ℕ) : (lace size).countP (· < 255) = 1 := by
  have hlast : UInt8.ofNat (size % 255) < 255 := by
    rw [UInt8.lt_iff_toNat_lt, toNat_last]
    exact Nat.mod_lt _ (by norm_num)
  simp [lace, List.countP_replicate, hlast]

theorem total_flatMap_lace (packets : List (List UInt8)) :
    total (packets.flatMap fun packet => lace packet.length) = packets.flatten.length := by
  induction packets with
  | nil => rfl
  | cons packet packets ih =>
    rw [List.flatMap_cons, total_append, total_lace, ih, List.flatten_cons, List.length_append]

/-- As many packets end on a page as it holds. -/
theorem endings_ofPackets (flags : ℕ) (granule : ℤ) (serial sequence : ℕ)
    (packets : List (List UInt8)) :
    (ofPackets flags granule serial sequence packets).endings = packets.length := by
  induction packets with
  | nil => rfl
  | cons packet packets ih =>
    rw [Page.endings, ofPackets] at ih ⊢
    rw [List.flatMap_cons, List.countP_append, countP_lace, ih, List.length_cons, Nat.add_comm]

/-- A full segment leaves the packet open. -/
theorem segments_full (part : Option (List UInt8)) (ls body : List UInt8) :
    segments part (255 :: ls) body =
      segments (some (part.getD [] ++ body.take 255)) ls (body.drop 255) := by
  rw [segments, if_neg (by decide)]
  rfl

theorem lace_of_lt {size : ℕ} (h : size < 255) : lace size = [UInt8.ofNat size] := by
  rw [lace, Nat.div_eq_of_lt h, Nat.mod_eq_of_lt h]
  rfl

theorem lace_of_le {size : ℕ} (h : 255 ≤ size) : lace size = 255 :: lace (size - 255) := by
  have hdiv : size / 255 = (size - 255) / 255 + 1 := by omega
  have hmod : size % 255 = (size - 255) % 255 := by omega
  rw [lace, hdiv, hmod, List.replicate_succ, List.cons_append, lace]

/-- The segments of a packet put it together, whatever of it is there already. -/
theorem segments_lace (part : Option (List UInt8)) (packet ls body : List UInt8) :
    segments part (lace packet.length ++ ls) (packet ++ body) =
      ((part.getD [] ++ packet) :: (segments none ls body).1, (segments none ls body).2) := by
  induction hn : packet.length using Nat.strong_induction_on generalizing part packet with
  | _ n ih =>
    rcases Nat.lt_or_ge n 255 with hlt | hle
    · have hlast : (UInt8.ofNat n).toNat = n := by
        rw [UInt8.toNat_ofNat']
        omega
      have hends : UInt8.ofNat n < 255 := by
        rw [UInt8.lt_iff_toNat_lt, hlast]
        exact hlt
      rw [lace_of_lt hlt, List.singleton_append, segments, if_pos hends, hlast, ← hn,
        List.take_left, List.drop_left]
    · have htail : (packet.drop 255).length = n - 255 := by
        rw [List.length_drop, hn]
      have hrest := ih (n - 255) (by omega) (some (part.getD [] ++ packet.take 255))
        (packet.drop 255) htail
      rw [lace_of_le hle, List.cons_append, segments_full,
        List.take_append_of_le_length (hn ▸ hle), List.drop_append_of_le_length (hn ▸ hle), hrest,
        Option.getD_some, List.append_assoc, List.take_append_drop]

/-- A page of whole packets holds them, and leaves nothing open. -/
theorem segments_flatMap_lace (packets : List (List UInt8)) :
    segments none (packets.flatMap fun packet => lace packet.length) packets.flatten =
      (packets, none) := by
  induction packets with
  | nil => rfl
  | cons packet packets ih =>
    rw [List.flatMap_cons, List.flatten_cons, segments_lace, ih]
    rfl

/-- **The packets of a page of whole packets** come first, and then those of the other pages. -/
theorem packetsFrom_cons_ofPackets {flags : ℕ} (hflags : flags.testBit 0 = false) (granule : ℤ)
    (serial sequence : ℕ) (packets : List (List UInt8)) {pages : List Page}
    {more : List (List UInt8)} (h : packetsFrom none pages = some more) :
    packetsFrom none (ofPackets flags granule serial sequence packets :: pages) =
      some (packets ++ more) := by
  have hcontinued : (ofPackets flags granule serial sequence packets).continued =
      (none : Option (List UInt8)).isSome := hflags
  rw [packetsFrom, if_pos hcontinued]
  simp [ofPackets, segments_flatMap_lace, h]

/-- A page of whole packets fits when its lacing values do. -/
theorem fits_ofPackets {flags : ℕ} {granule : ℤ} {serial sequence : ℕ}
    {packets : List (List UInt8)} (hflags : flags < 256)
    (hgranule : -2 ^ 63 ≤ granule ∧ granule < 2 ^ 63) (hserial : serial < 2 ^ 32)
    (hsequence : sequence < 2 ^ 32)
    (hlacing : (packets.flatMap fun packet => lace packet.length).length < 256) :
    (ofPackets flags granule serial sequence packets).Fits where
  flags := hflags
  granule := hgranule
  serial := hserial
  sequence := hsequence
  lacing := hlacing
  body := (total_flatMap_lace packets).symm

end Foundation.Ogg
