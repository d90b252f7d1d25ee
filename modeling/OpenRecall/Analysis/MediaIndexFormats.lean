import OpenRecall.Model.MediaIndex

/-!
# The texts of the media index are read back

A line of the manifest is read as what it was made of, the paths of snapshots and videos are names
that such a line and the list of the consumed can hold, and the list of the consumed is read as the
names that were joined.
-/

set_option autoImplicit false

namespace OpenRecall.Analysis.MediaIndexFormats

open Foundation Foundation.DecimalBytes OpenRecall.Model OpenRecall.Model.MediaIndex
open OpenRecall.Model.Manifest (newline bar nameMaxLen cString)

/-- A path that a line can hold: a C text, not empty and not too long, without bars and newlines. -/
structure IsName (path : Bytes) : Prop where
  ne_nil : path ≠ []
  length_lt : path.length < nameMaxLen
  clean : ∀ b ∈ path, b ≠ 0 ∧ b ≠ bar ∧ b ≠ newline

/-! ## Numbers -/

theorem toNat_lt (n : UInt32) : n.toNat < 10 ^ 10 := by
  have := n.toNat_lt
  omega

theorem length_u32_le (n : UInt32) : (u32 n).length ≤ 10 :=
  length_decimal_le (by norm_num) (toNat_lt n)

theorem length_u32Padded (n : UInt32) : (u32Padded n).length = 10 := by
  have := length_u32_le n
  simp only [u32Padded, List.length_append, List.length_replicate]
  omega

theorem isDigit_u32 {n : UInt32} {b : UInt8} (h : b ∈ u32 n) : isDigit b = true := isDigit_decimal h

theorem isDigit_u32Padded {n : UInt32} {b : UInt8} (h : b ∈ u32Padded n) : isDigit b = true := by
  rcases List.mem_append.mp h with h | h
  · rw [List.eq_of_mem_replicate h]
    rfl
  · exact isDigit_u32 h

/-- A number is told by its text. -/
theorem u32_inj {n m : UInt32} (h : u32 n = u32 m) : n = m := by
  apply UInt32.toNat_inj.mp
  rw [← value_decimal n.toNat, ← value_decimal m.toNat]
  exact congrArg value h

theorem u32Padded_inj {n m : UInt32} (h : u32Padded n = u32Padded m) : n = m := by
  have hvalue := congrArg value h
  rw [u32Padded, u32Padded, value_zeros, value_zeros] at hvalue
  apply UInt32.toNat_inj.mp
  rw [← value_decimal n.toNat, ← value_decimal m.toNat]
  exact hvalue

/-- A digit may stand in a name. -/
theorem clean_of_isDigit {b : UInt8} (h : isDigit b = true) : b ≠ 0 ∧ b ≠ bar ∧ b ≠ newline := by
  refine ⟨?_, ?_, ?_⟩ <;> rintro rfl <;> exact absurd h (by decide)

/-! ## Paths -/

section Paths

variable {dir ext : String} (bootId relTsMs seq : UInt32)

/-- A path is at most so long. -/
theorem length_mediaPath_le : (mediaPath dir ext bootId relTsMs seq).length ≤
    (ascii dir).length + (ascii ext).length + 32 := by
  have hboot := length_u32_le bootId
  have htime := length_u32Padded relTsMs
  have hseq := length_u32_le seq
  simp only [mediaPath, List.length_append, List.length_cons]
  omega

theorem isName_mediaPath (hlength : (ascii dir).length + (ascii ext).length + 32 < nameMaxLen)
    (hclean : ∀ b ∈ ascii dir ++ ascii ext, b ≠ 0 ∧ b ≠ bar ∧ b ≠ newline) :
    IsName (mediaPath dir ext bootId relTsMs seq) := by
  refine ⟨by simp [mediaPath], (length_mediaPath_le bootId relTsMs seq).trans_lt hlength, ?_⟩
  intro b hb
  simp only [mediaPath, List.mem_append, List.mem_cons] at hb
  rcases hb with (((hb | hb) | rfl | hb) | rfl | hb) | hb
  · exact hclean b (List.mem_append_left _ hb)
  · exact clean_of_isDigit (isDigit_u32 hb)
  · decide
  · exact clean_of_isDigit (isDigit_u32Padded hb)
  · decide
  · exact clean_of_isDigit (isDigit_u32 hb)
  · exact hclean b (List.mem_append_right _ hb)

/-- **A path tells its boot, its time and its number.** -/
theorem mediaPath_inj {bootId' relTsMs' seq' : UInt32} (hdot : ∃ e, ascii ext = 46 :: e)
    (h : mediaPath dir ext bootId relTsMs seq = mediaPath dir ext bootId' relTsMs' seq') :
    bootId = bootId' ∧ relTsMs = relTsMs' ∧ seq = seq' := by
  obtain ⟨e, hext⟩ := hdot
  simp only [mediaPath, hext, List.append_assoc, List.cons_append] at h
  obtain ⟨hboot, hrest⟩ := append_cons_inj (fun _ => isDigit_u32) (fun _ => isDigit_u32) (by decide)
    (List.append_cancel_left h)
  obtain ⟨htime, hrest⟩ := append_cons_inj (fun _ => isDigit_u32Padded)
    (fun _ => isDigit_u32Padded) (by decide) hrest
  obtain ⟨hseq, -⟩ := append_cons_inj (fun _ => isDigit_u32) (fun _ => isDigit_u32) (by decide) hrest
  exact ⟨u32_inj hboot, u32Padded_inj htime, u32_inj hseq⟩

end Paths

/-! ## Lines of the manifest -/

theorem snprintf_of_length_lt {cap : ℕ} {text : Bytes} (h : text.length < cap) :
    snprintf cap text = text :=
  List.take_of_length_le (Nat.le_sub_one_of_lt h)

/-- A text without null bytes is what C reads of it. -/
theorem cString_eq {text : Bytes} (h : ∀ b ∈ text, b ≠ 0) : cString text = text :=
  List.takeWhile_eq_self_iff.mpr fun b hb => by simpa using h b hb

/-- A number is read up to the bar after it. -/
theorem scanU32_u32 (n : UInt32) (rest : Bytes) :
    Manifest.scanU32 (u32 n ++ bar :: rest) = some (n.toNat, bar :: rest) := by
  obtain ⟨d, ds, hds⟩ := List.exists_cons_of_ne_nil (decimal_ne_nil n.toNat)
  have hu32 : u32 n = d :: ds := hds
  have hfirst : isDigit d = true := isDigit_u32 (n := n) (by simp [hu32])
  have hspace : Manifest.isSpace d = false := by
    simp only [isDigit, decide_eq_true_eq, UInt8.le_iff_toNat_le, UInt8.reduceToNat] at hfirst
    simp only [Manifest.isSpace, decide_eq_false_iff_not, UInt8.le_iff_toNat_le, ← UInt8.toNat_inj,
      UInt8.reduceToNat]
    omega
  have hsign : d ≠ 43 ∧ d ≠ 45 := by
    constructor <;> rintro rfl <;> exact absurd hfirst (by decide)
  have htext : (u32 n ++ bar :: rest).dropWhile Manifest.isSpace = u32 n ++ bar :: rest := by
    rw [hu32, List.cons_append, List.dropWhile_cons_of_neg (by simp [hspace])]
  have hhead : (u32 n ++ bar :: rest).head? = some d := by simp [hu32]
  have hdigits : (u32 n ++ bar :: rest).takeWhile Manifest.isDigit = u32 n := by
    have hcut : (u32 n ++ bar :: rest).takeWhile isDigit = u32 n := by
      rw [List.takeWhile_append_of_pos fun b hb => isDigit_u32 hb,
        List.takeWhile_cons_of_neg (by decide), List.append_nil]
    exact hcut
  have hvalue : (u32 n).foldl (fun n c => 10 * n + (c.toNat - 48)) 0 = n.toNat :=
    value_decimal n.toNat
  have hbound : ¬ 4294967296 ≤ n.toNat := not_le.mpr n.toNat_lt
  have hne : u32 n ≠ [] := decimal_ne_nil n.toNat
  simp [Manifest.scanU32, htext, hhead, hsign.1, hsign.2, hdigits, hvalue, hbound, hne]

/-- **A line of the manifest is read as what it was made of.**
SOURCE: media_index.c:14-32 -/
theorem manifestParse_manifestLine {path : Bytes} (h : IsName path) (relTsMs bootId : UInt32)
    {kind : UInt8} (hkind : kind = 115 ∨ kind = 118) :
    Manifest.manifestParse (manifestLine (nameMaxLen + 32) path relTsMs bootId kind) =
      some ⟨path, relTsMs.toNat, bootId.toNat, kind⟩ := by
  have hlength : path.length ≤ nameMaxLen - 1 := Nat.le_sub_one_of_lt h.length_lt
  have htime := length_u32_le relTsMs
  have hboot := length_u32_le bootId
  obtain ⟨line, hline⟩ : ∃ line, line =
      path ++ bar :: (u32 relTsMs ++ bar :: (u32 bootId ++ [bar, kind, newline])) := ⟨_, rfl⟩
  have hwritten : manifestLine (nameMaxLen + 32) path relTsMs bootId kind = line := by
    rw [manifestLine, snprintf_of_length_lt]
    · simp [hline]
    · have hpath := h.length_lt
      simp only [List.length_append, List.length_cons, List.length_nil]
      omega
  have hclean : ∀ b ∈ line, b ≠ 0 := by
    intro b hb
    simp only [hline, List.mem_append, List.mem_cons, List.not_mem_nil, or_false] at hb
    rcases hb with hb | rfl | hb | rfl | hb | rfl | rfl | rfl
    · exact (h.clean b hb).1
    · decide
    · exact (clean_of_isDigit (isDigit_u32 hb)).1
    · decide
    · exact (clean_of_isDigit (isDigit_u32 hb)).1
    · decide
    · rcases hkind with rfl | rfl <;> decide
    · decide
  have hpath : Manifest.scanPath line =
      some (path, bar :: (u32 relTsMs ++ bar :: (u32 bootId ++ [bar, kind, newline]))) := by
    have htake : line.takeWhile (· ≠ bar) = path := by
      rw [hline, List.takeWhile_append_of_pos fun b hb => by simpa using (h.clean b hb).2.1,
        List.takeWhile_cons_of_neg (by simp), List.append_nil]
    rw [Manifest.scanPath, htake, if_neg (not_or.mpr ⟨h.ne_nil, not_lt.mpr hlength⟩), hline, List.drop_left]
  rw [hwritten, Manifest.manifestParse, cString_eq hclean, hpath]
  simp [Manifest.scanBar, scanU32_u32, hkind]

/-! ## What was consumed -/

/-- The first line of a text, and those after it. -/
theorem linesOf_eq (p : Bytes) :
    Manifest.linesOf p =
      (if p.takeWhile (· ≠ newline) = [] then [] else [p.takeWhile (· ≠ newline)]) ++
        Manifest.linesOf (p.drop ((p.takeWhile (· ≠ newline)).length + 1)) := by
  have hwhole : ∀ {xs : Bytes} (rest : Bytes), (∀ c ∈ xs, decide (c = newline) = false) →
      (xs ++ rest).takeWhile (· ≠ newline) = xs ++ rest.takeWhile (· ≠ newline) := fun rest h =>
    List.takeWhile_append_of_pos fun c hc => by simpa using h c hc
  rcases SpacedWords.first_space (p := (· = newline)) p with hnone | ⟨xs, s, ys, rfl, hs, hxs⟩
  · have htake : p.takeWhile (· ≠ newline) = p := by simpa using hwhole [] hnone
    rw [htake, List.drop_eq_nil_of_le (Nat.le_succ _)]
    simpa [Manifest.linesOf] using SpacedWords.words_of_forall hnone
  · obtain rfl : s = newline := by simpa using hs
    have htake : (xs ++ newline :: ys).takeWhile (· ≠ newline) = xs := by
      rw [hwhole _ hxs, List.takeWhile_cons_of_neg (by simp), List.append_nil]
    have hdrop : (xs ++ newline :: ys).drop (xs.length + 1) = ys := by
      rw [← List.drop_drop, List.drop_left]
      rfl
    have hwords : Manifest.linesOf (xs ++ newline :: ys) =
        Manifest.linesOf xs ++ Manifest.linesOf ys :=
      SpacedWords.words_append_space (by simp) xs ys
    have hfirst : Manifest.linesOf xs = if xs = [] then [] else [xs] :=
      SpacedWords.words_of_forall hxs
    rw [htake, hdrop, hwords, hfirst]

/-- The loop finds the lines that are not empty, when none is too long and there are not too many.
SOURCE: media_index.c:33-50 -/
theorem consumedScan_eq {max : ℕ} (p : Bytes) {names : List Bytes} (h : names.length ≤ max) :
    consumedScan max p names =
      if (∀ name ∈ Manifest.linesOf p, name.length < nameMaxLen) ∧
          names.length + (Manifest.linesOf p).length ≤ max then
        some (names ++ Manifest.linesOf p)
      else none := by
  induction hn : p.length using Nat.strong_induction_on generalizing p names with
  | _ n ih =>
    by_cases hp : p = []
    · subst hp
      rw [consumedScan]
      simp [Manifest.linesOf, h]
    have hlines := linesOf_eq p
    rw [consumedScan, if_neg hp]
    dsimp only
    generalize p.takeWhile (· ≠ newline) = name at hlines ⊢
    have hshort : (p.drop (name.length + 1)).length < n := by
      have := List.length_pos_iff.mpr hp
      rw [List.length_drop]
      omega
    generalize p.drop (name.length + 1) = rest at hlines hshort ⊢
    split_ifs at hlines with hname
    · rw [if_pos hname, ih _ hshort rest h rfl, hlines, List.nil_append]
    · rw [if_neg hname, hlines]
      by_cases hlong : nameMaxLen ≤ name.length
      · rw [if_pos hlong, if_neg]
        rintro ⟨hall, -⟩
        exact absurd (hall name (by simp)) (not_lt.mpr hlong)
      · rw [if_neg hlong]
        by_cases hfull : max ≤ names.length
        · rw [if_pos hfull, if_neg]
          rintro ⟨-, hroom⟩
          simp only [List.length_append, List.length_singleton] at hroom
          omega
        · have hmore : (names ++ [name]).length ≤ max := by
            rw [List.length_append, List.length_singleton]
            omega
          rw [if_neg hfull, ih _ hshort rest hmore rfl]
          simp [Nat.add_assoc, Nat.add_comm 1, not_le.mp hlong]

/-- The source's loop is what the deletion of consumed files takes it for. -/
theorem consumedParse_eq (body : Bytes) (max : ℕ) :
    consumedParse body max = Manifest.consumedParse body max := by
  rw [consumedParse, consumedScan_eq _ (Nat.zero_le max), Manifest.consumedParse]
  simp

/-- Lines, each of which is a name or blank, are read as the names.
SOURCE: media_index.c:33-50 -/
theorem consumedParse_intercalate {max : ℕ} {lines : List Bytes}
    (h : ∀ line ∈ lines, line ≠ [] → IsName line)
    (hmax : (lines.filter (· ≠ [])).length ≤ max) :
    consumedParse ([newline].intercalate lines) max = some (lines.filter (· ≠ [])) := by
  have hclean : ∀ line ∈ lines, ∀ b ∈ line, b ≠ 0 ∧ b ≠ bar ∧ b ≠ newline := by
    intro line hline b hb
    exact (h line hline (List.ne_nil_of_mem hb)).clean b hb
  have hbody : cString ([newline].intercalate lines) = [newline].intercalate lines := by
    apply cString_eq
    intro b hb
    rcases SpacedWords.mem_intercalate hb with rfl | ⟨line, hline, hbline⟩
    · decide
    · exact (hclean line hline b hbline).1
  have hlines : Manifest.linesOf ([newline].intercalate lines) = lines.filter (· ≠ []) := by
    have hwords : Manifest.linesOf ([newline].intercalate lines) = lines.flatMap Manifest.linesOf :=
      SpacedWords.words_intercalate (by simp) lines
    rw [hwords]
    clear hbody hwords hmax h
    induction lines with
    | nil => rfl
    | cons line lines ih =>
      have hline : Manifest.linesOf line = if line = [] then [] else [line] :=
        SpacedWords.words_of_forall fun b hb => by
          simpa using (hclean line List.mem_cons_self b hb).2.2
      rw [List.flatMap_cons, hline, ih fun l hl => hclean l (List.mem_cons_of_mem line hl)]
      by_cases hblank : line = [] <;> simp [hblank]
  rw [consumedParse, hbody, consumedScan_eq _ (Nat.zero_le max), hlines]
  rw [if_pos]
  · rfl
  · refine ⟨fun name hname => ?_, by simpa using hmax⟩
    obtain ⟨hmem, hne⟩ := List.mem_filter.mp hname
    exact (h name hmem (by simpa using hne)).length_lt

/-! ## The formats -/

/-- A path of a video is as the model of the clips has it. -/
theorem mediaPath_video (bootId relTsMs seq : UInt32) :
    mediaPath "/sdcard/video/" ".mjpeg" bootId relTsMs seq =
      VideoCapture.videoPath bootId relTsMs seq := by
  unfold mediaPath VideoCapture.videoPath ascii
  generalize "/sdcard/video/".toList = dir, ".mjpeg".toList = ext
  simp only [u32, u32Padded, decimal]
  simp only [List.map_append, List.map_replicate, List.map_cons, List.length_map,
    List.append_assoc, List.cons_append, List.nil_append]
  rfl

/-- The paths are not cut off. -/
theorem snapshotPath_eq (bootId relTsMs seq : UInt32) :
    snapshotPath nameMaxLen bootId relTsMs seq =
        mediaPath "/sdcard/snapshots/" ".jpg" bootId relTsMs seq ∧
      IsName (snapshotPath nameMaxLen bootId relTsMs seq) := by
  have hname := @isName_mediaPath "/sdcard/snapshots/" ".jpg" bootId relTsMs seq (by decide)
    (by simp [ascii, bar, newline])
  have hwhole : snapshotPath nameMaxLen bootId relTsMs seq = _ := snprintf_of_length_lt hname.length_lt
  exact ⟨hwhole, hwhole ▸ hname⟩

theorem videoPath_eq (bootId relTsMs seq : UInt32) :
    videoPath nameMaxLen bootId relTsMs seq =
        mediaPath "/sdcard/video/" ".mjpeg" bootId relTsMs seq ∧
      IsName (videoPath nameMaxLen bootId relTsMs seq) := by
  have hname := @isName_mediaPath "/sdcard/video/" ".mjpeg" bootId relTsMs seq (by decide)
    (by simp [ascii, bar, newline])
  have hwhole : videoPath nameMaxLen bootId relTsMs seq = _ := snprintf_of_length_lt hname.length_lt
  exact ⟨hwhole, hwhole ▸ hname⟩

/-- **The formats of the media index.** First, a line of the manifest is read as what it was made
of. Second, the path of a snapshot or a video is a name, and tells its boot, its time and its
number. Third, names joined by newlines, with blank lines anywhere and with a newline at the end or
without, are read as these names.
SOURCE: media_index.c:6-50 -/
theorem mediaIndex_formats :
    (∀ (path : Bytes) (kind : UInt8) (relTsMs bootId : UInt32), IsName path →
      (kind = 115 ∨ kind = 118) →
      Manifest.manifestParse (manifestLine (nameMaxLen + 32) path relTsMs bootId kind) =
        some ⟨path, relTsMs.toNat, bootId.toNat, kind⟩) ∧
    (∀ bootId relTsMs seq, IsName (snapshotPath nameMaxLen bootId relTsMs seq) ∧
      IsName (videoPath nameMaxLen bootId relTsMs seq)) ∧
    (∀ bootId relTsMs seq bootId' relTsMs' seq',
      (snapshotPath nameMaxLen bootId relTsMs seq = snapshotPath nameMaxLen bootId' relTsMs' seq' ∨
        videoPath nameMaxLen bootId relTsMs seq = videoPath nameMaxLen bootId' relTsMs' seq') →
      bootId = bootId' ∧ relTsMs = relTsMs' ∧ seq = seq') ∧
    (∀ (max : ℕ) (names lines : List Bytes), (∀ name ∈ names, IsName name) → names.length ≤ max →
      lines.filter (· ≠ []) = names →
      consumedParse ([newline].intercalate lines) max = some names) := by
  refine ⟨?_, ?_, ?_, ?_⟩
  · exact fun path kind relTsMs bootId h hkind =>
      manifestParse_manifestLine h relTsMs bootId hkind
  · exact fun bootId relTsMs seq =>
      ⟨(snapshotPath_eq bootId relTsMs seq).2, (videoPath_eq bootId relTsMs seq).2⟩
  · rintro bootId relTsMs seq bootId' relTsMs' seq' (h | h)
    · rw [(snapshotPath_eq bootId relTsMs seq).1, (snapshotPath_eq bootId' relTsMs' seq').1] at h
      exact mediaPath_inj bootId relTsMs seq ⟨_, rfl⟩ h
    · rw [(videoPath_eq bootId relTsMs seq).1, (videoPath_eq bootId' relTsMs' seq').1] at h
      exact mediaPath_inj bootId relTsMs seq ⟨_, rfl⟩ h
  · rintro max names lines hnames hmax rfl
    refine consumedParse_intercalate (fun line hline hne => hnames line ?_) hmax
    exact List.mem_filter.mpr ⟨hline, by simpa using hne⟩

/-- A name as long as it may be, and a list of names with blank lines. -/
theorem mediaIndex_formats_longest :
    Manifest.manifestParse (manifestLine (nameMaxLen + 32) (List.replicate 79 65) 4294967295
      4294967295 118) = some ⟨List.replicate 79 65, 4294967295, 4294967295, 118⟩ ∧
    consumedParse ([newline].intercalate [[], [65], [], [66], []]) 2 = some [[65], [66]] := by
  have hletter : ∀ k : ℕ, 0 < k → k < 80 → ∀ b : UInt8, b = 65 ∨ b = 66 →
      IsName (List.replicate k b) := by
    intro k hpos hk b hb
    refine ⟨by simp [hpos.ne'], by simpa [nameMaxLen] using hk, fun c hc => ?_⟩
    rw [List.eq_of_mem_replicate hc]
    rcases hb with rfl | rfl <;> decide
  refine ⟨mediaIndex_formats.1 _ 118 4294967295 4294967295
    (hletter 79 (by decide) (by decide) 65 (.inl rfl)) (.inr rfl), ?_⟩
  refine mediaIndex_formats.2.2.2 2 _ _ ?_ (by decide) (by decide)
  intro name hname
  rcases List.mem_pair.mp hname with rfl | rfl
  · exact hletter 1 (by decide) (by decide) 65 (.inl rfl)
  · exact hletter 1 (by decide) (by decide) 66 (.inr rfl)

end OpenRecall.Analysis.MediaIndexFormats
