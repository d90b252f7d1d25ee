import OpenRecall.Foundation.Run
import OpenRecall.Model.MediaCard
import OpenRecall.Analysis.ManifestTrim
import OpenRecall.Analysis.MediaIndexFormats

/-!
# Pictures are kept until they are taken

Every boot has a new number, and within a boot every picture has, so no picture is written over
another file. A picture that is listed is on the card as the camera gave it, and a request for it is
answered with it, until its path is posted.
-/

set_option autoImplicit false

namespace OpenRecall.Analysis.PictureFiles

open Foundation OpenRecall.Model OpenRecall.Model.MediaCard OpenRecall.Model.MediaIndex
open OpenRecall.Analysis.MediaIndexFormats
open OpenRecall.Model.Manifest (CardEnv linesOf newline bar nameMaxLen consumedHandler manifestParse
  readManifest truncated trimmed upTo)

/-- The flash works and its number does not run over, nor does that of the pictures; what is written
is written whole or not at all, or is known not to be; and the manifest is read and rewritten without
errors. -/
def Sound (w : World) : CardStep → Prop
  | .boot env => env.opens ∧ env.reads ∧ env.writes ∧ w.sensor.flash.getD 0 ≠ 4294967295
  | .capture env _ => w.sensor.seq ≠ 4294967295 ∧
      (env.write.error = none ∨ env.write.errorSeen = true) ∧ env.append.error = none
  | .clip env _ _ _ => env.error = none
  | .consumed env _ => env.readError = none ∧ env.writeError = none

instance (w : World) : ∀ st, Decidable (Sound w st)
  | .boot _ => inferInstanceAs (Decidable (_ ∧ _ ∧ _ ∧ _))
  | .capture _ _ => inferInstanceAs (Decidable (_ ∧ _ ∧ _))
  | .clip env _ _ _ => inferInstanceAs (Decidable (env.error = none))
  | .consumed _ _ => inferInstanceAs (Decidable (_ ∧ _))

/-- The line of a picture. -/
def pictureLine (p : Picture) : Bytes :=
  manifestLine (nameMaxLen + 32) p.path p.relTsMs p.bootId 115

/-- The line of a clip. -/
def clipLine (bootId relTsMs seq : UInt32) : Bytes :=
  manifestLine (nameMaxLen + 32) (videoPath nameMaxLen bootId relTsMs seq) relTsMs bootId 118

/-- The picture is on the card, or its path was posted. -/
def Stored (w : World) (p : Picture) : Prop :=
  p.path ∈ w.deleted ∨ w.sensor.files p.path = some p.jpg

/-- The line is that of a stored picture, or of a clip. -/
def Listed (w : World) (line : Bytes) : Prop :=
  (∃ p ∈ w.taken, line ++ [newline] = pictureLine p ∧ Stored w p) ∨
    ∃ bootId relTsMs seq, line ++ [newline] = clipLine bootId relTsMs seq

/-- The picture is older than those to come. -/
def Older (s : Sensor) (p : Picture) : Prop :=
  p.bootId < s.bootId ∨ (p.bootId = s.bootId ∧ p.seq < s.seq)

/-! ## Texts -/

/-- The text is empty or ends a line. -/
def Ended (text : Bytes) : Prop := text = [] ∨ ∃ t, text = t ++ [newline]

/-- A line that is added is one more line. -/
theorem linesOf_append {text line : Bytes} (hended : Ended text) (hne : line ≠ [])
    (hline : ∀ b ∈ line, b ≠ newline) :
    linesOf (text ++ (line ++ [newline])) = linesOf text ++ [line] := by
  have hnew : linesOf (line ++ [newline]) = [line] := by
    unfold linesOf
    rw [SpacedWords.words_append_space (by simp), SpacedWords.words_nil, List.append_nil]
    exact SpacedWords.words_singleton hne fun b hb => by simpa using hline b hb
  rcases hended with rfl | ⟨t, rfl⟩
  · rw [List.nil_append, hnew]
    rfl
  · unfold linesOf at hnew ⊢
    rw [List.append_assoc, List.singleton_append, SpacedWords.words_append_space (by simp), hnew,
      SpacedWords.words_append_space (by simp), SpacedWords.words_nil, List.append_nil]

/-- The lines of a beginning that ends a line are lines of the whole. -/
theorem linesOf_beginning {text rest : Bytes} (hended : Ended text) :
    ∀ line ∈ linesOf text, line ∈ linesOf (text ++ rest) := by
  intro line hline
  rcases hended with rfl | ⟨t, rfl⟩
  · exact absurd hline (by simp [linesOf])
  · unfold linesOf at hline ⊢
    rw [SpacedWords.words_append_space (by simp), SpacedWords.words_nil, List.append_nil] at hline
    rw [List.append_assoc, List.singleton_append, SpacedWords.words_append_space (by simp)]
    exact List.mem_append_left _ hline

theorem ended_append {text line : Bytes} : Ended (text ++ (line ++ [newline])) :=
  .inr ⟨text ++ line, by rw [List.append_assoc]⟩

theorem ended_trimmed (names : List Bytes) (text : Bytes) : Ended (trimmed names text) := by
  unfold trimmed
  rcases List.eq_nil_or_concat ((linesOf text).filter (Manifest.keeps names)) with hnil | ⟨ls, l, hls⟩
  · rw [hnil]
    exact .inl rfl
  · rw [hls, List.concat_eq_append, List.flatMap_append, List.flatMap_singleton]
    exact ended_append

/-- A line of the manifest is one line, with its newline. -/
theorem manifestLine_eq {path : Bytes} (h : IsName path) (relTsMs bootId : UInt32) (kind : UInt8)
    (hkind : kind = 115 ∨ kind = 118) :
    ∃ line, manifestLine (nameMaxLen + 32) path relTsMs bootId kind = line ++ [newline] ∧
      line ≠ [] ∧ ∀ b ∈ line, b ≠ newline := by
  have htime := length_u32_le relTsMs
  have hboot := length_u32_le bootId
  have hpath := h.length_lt
  refine ⟨path ++ bar :: u32 relTsMs ++ bar :: u32 bootId ++ [bar, kind], ?_, by simp, ?_⟩
  · rw [manifestLine, snprintf_of_length_lt]
    · simp
    · simp only [List.length_append, List.length_cons, List.length_nil]
      omega
  · intro b hb
    simp only [List.mem_append, List.mem_cons, List.not_mem_nil, or_false] at hb
    rcases hb with ((hb | rfl | hb) | rfl | hb) | rfl | rfl
    · exact (h.clean b hb).2.2
    · decide
    · exact (clean_of_isDigit (isDigit_u32 hb)).2.2
    · decide
    · exact (clean_of_isDigit (isDigit_u32 hb)).2.2
    · decide
    · rcases hkind with rfl | rfl <;> decide

/-! ## Paths -/

theorem isName_path (p : Picture) : IsName p.path :=
  (snapshotPath_eq p.bootId p.relTsMs p.seq).2

/-- A path begins and ends as it must, and what is between has no dot and no question mark. -/
theorem path_shape (p : Picture) : ∃ middle,
    p.path = ascii "/sdcard/snapshots/" ++ middle ++ ascii ".jpg" ∧ ∀ b ∈ middle, b ≠ 46 ∧ b ≠ 63 := by
  refine ⟨u32 p.bootId ++ 47 :: u32Padded p.relTsMs ++ 95 :: u32 p.seq, ?_, fun b hb => ?_⟩
  · refine (snapshotPath_eq p.bootId p.relTsMs p.seq).1.trans ?_
    simp only [mediaPath, List.append_assoc]
  · have hdigit : Foundation.DecimalBytes.isDigit b = true → b ≠ 46 ∧ b ≠ 63 := by
      intro h
      constructor <;> rintro rfl <;> exact absurd h (by decide)
    simp only [List.mem_append, List.mem_cons] at hb
    rcases hb with (hb | rfl | hb) | rfl | hb
    · exact hdigit (isDigit_u32 hb)
    · decide
    · exact hdigit (isDigit_u32Padded hb)
    · decide
    · exact hdigit (isDigit_u32 hb)

theorem path_ne_manifestPath (p : Picture) : p.path ≠ manifestPath := by
  obtain ⟨middle, hpath, -⟩ := path_shape p
  intro h
  have hbyte := congrArg (·[8]?) (hpath.symm.trans h)
  simp [ascii, manifestPath] at hbyte

theorem path_ne_videoPath (p : Picture) (bootId relTsMs seq : UInt32) :
    p.path ≠ videoPath nameMaxLen bootId relTsMs seq := by
  obtain ⟨middle, hpath, -⟩ := path_shape p
  intro h
  have hbyte := congrArg (·[8]?) (hpath.symm.trans (h.trans (videoPath_eq bootId relTsMs seq).1))
  simp [ascii, mediaPath] at hbyte

/-- A picture that is older than another has another path. -/
theorem path_ne_of_older {s : Sensor} {p q : Picture} (h : Older s p) (hboot : q.bootId = s.bootId)
    (hseq : q.seq = s.seq) : p.path ≠ q.path := by
  intro heq
  unfold Picture.path at heq
  rw [(snapshotPath_eq _ _ _).1, (snapshotPath_eq _ _ _).1] at heq
  obtain ⟨hb, -, hs⟩ := mediaPath_inj p.bootId p.relTsMs p.seq ⟨_, rfl⟩ heq
  rcases h with hlt | ⟨-, hlt⟩
  · rw [hb, hboot] at hlt
    exact UInt32.lt_irrefl _ hlt
  · rw [hs, hseq] at hlt
    exact UInt32.lt_irrefl _ hlt

/-! ## One step -/

/-- What the card keeps. -/
structure Kept (w : World) : Prop where
  numbered : w.sensor.flash.getD 0 = w.sensor.bootId
  older : ∀ p ∈ w.taken, Older w.sensor p
  distinct : (w.taken.map Picture.path).Nodup
  ended : Ended w.sensor.manifest
  listed : ∀ line ∈ linesOf w.sensor.manifest, Listed w line

/-- What is on the card of the pictures stays there. -/
theorem Listed.mono {w w' : World} {line : Bytes} (h : Listed w line)
    (htaken : ∀ p ∈ w.taken, p ∈ w'.taken) (hstored : ∀ p ∈ w.taken, Stored w p → Stored w' p) :
    Listed w' line := by
  rcases h with ⟨p, hp, hline, hp'⟩ | hclip
  · exact .inl ⟨p, htaken p hp, hline, hstored p hp hp'⟩
  · exact .inr hclip

/-- A boot gives a number that no picture has. -/
theorem Kept.boot_step {w : World} (h : Kept w) {env : FlashEnv} (hst : Sound w (.boot env)) :
    Kept (step w (.boot env)) := by
  obtain ⟨hopens, hreads, hwrites, hlast⟩ := hst
  have hboot : boot env w.sensor =
      { w.sensor with
        flash := some (w.sensor.bootId + 1), bootId := w.sensor.bootId + 1, seq := 0 } := by
    simp [boot, hopens, hreads, hwrites, h.numbered]
  have hless : w.sensor.bootId < w.sensor.bootId + 1 := by
    rw [h.numbered] at hlast
    have hbound := w.sensor.bootId.toNat_lt
    have hne : w.sensor.bootId.toNat ≠ 4294967295 := fun heq =>
      hlast (UInt32.toNat_inj.mp (by simpa using heq))
    rw [UInt32.lt_iff_toNat_lt, UInt32.toNat_add, UInt32.toNat_one]
    omega
  change Kept { w with sensor := boot env w.sensor }
  rw [hboot]
  exact
    { numbered := rfl
      older := by
        intro p hp
        rcases h.older p hp with hlt | ⟨heq, -⟩
        · exact .inl (UInt32.lt_trans hlt hless)
        · exact .inl (heq ▸ hless)
      distinct := h.distinct
      ended := h.ended
      listed := fun line hline => (h.listed line hline).mono (fun _ hp => hp) fun _ _ hp => hp }

/-- Lines are as they were where the manifest is not written. -/
theorem manifest_update {s : Sensor} {path data : Bytes} (hpath : path ≠ manifestPath) :
    { s with files := Function.update s.files path (some data) }.manifest = s.manifest := by
  simp [Sensor.manifest, Function.update_of_ne (Ne.symm hpath)]

/-- What a line that is appended leaves: the manifest is as it was, or has the line at its end. -/
theorem append_cases {env : WriteEnv} (henv : env.error = none) (line : Bytes) (s : Sensor) :
    append env manifestPath line s = s ∨
      append env manifestPath line s =
        { s with files := Function.update s.files manifestPath (some (s.manifest ++ line)) } := by
  unfold append
  split_ifs
  · rw [henv]
    exact .inr rfl
  · exact .inl rfl

theorem manifest_append (s : Sensor) (files : Bytes → Option Bytes) (text : Bytes) :
    { s with files := Function.update files manifestPath (some text) }.manifest = text := by
  simp [Sensor.manifest]

/-- **Listing a file**: what is listed stays so, and what is added is the line. -/
theorem Kept.list {w : World} (h : Kept w) {env : WriteEnv} (henv : env.error = none)
    {text line : Bytes} (htext : text = line ++ [newline]) (hne : line ≠ [])
    (hline : ∀ b ∈ line, b ≠ newline) (hlisted : Listed w line) :
    Kept { w with sensor := append env manifestPath text w.sensor } := by
  rcases append_cases henv text w.sensor with hsame | hadded
  · rw [hsame]
    exact h
  · have hstored : ∀ p ∈ w.taken, Stored w p →
        Stored { w with sensor := append env manifestPath text w.sensor } p := by
      rintro p - (hdeleted | hfile)
      · exact .inl hdeleted
      · refine .inr ?_
        rw [hadded]
        simp [Function.update_of_ne (path_ne_manifestPath p), hfile]
    have hmono : ∀ l, Listed w l →
        Listed { w with sensor := append env manifestPath text w.sensor } l :=
      fun l hl => hl.mono (fun _ hp => hp) hstored
    rw [hadded] at hmono ⊢
    exact
      { numbered := h.numbered
        older := h.older
        distinct := h.distinct
        ended := by
          rw [manifest_append, htext]
          exact ended_append
        listed := by
          intro l hl
          rw [manifest_append, htext, linesOf_append h.ended hne hline] at hl
          rcases List.mem_append.mp hl with hl | hl
          · exact hmono l (h.listed l hl)
          · rw [List.mem_singleton.mp hl]
            exact hmono line hlisted }

/-- A clip is written under a path that no picture has. -/
theorem Kept.clip_step {w : World} (h : Kept w) {env : WriteEnv} {relTsMs seq : UInt32}
    {data : Bytes} (hst : Sound w (.clip env relTsMs seq data)) :
    Kept (step w (.clip env relTsMs seq data)) := by
  obtain ⟨line, hline, hne, hclean⟩ := manifestLine_eq
    (videoPath_eq w.sensor.bootId relTsMs seq).2 relTsMs w.sensor.bootId 118 (.inr rfl)
  have hmanifest : videoPath nameMaxLen w.sensor.bootId relTsMs seq ≠ manifestPath := by
    rw [(videoPath_eq _ _ _).1]
    intro heq
    have hbyte := congrArg (·[8]?) heq
    simp [ascii, mediaPath, manifestPath] at hbyte
  have hwritten : Kept { w with sensor := { w.sensor with
      files := Function.update w.sensor.files
        (videoPath nameMaxLen w.sensor.bootId relTsMs seq) (some data) } } :=
    { numbered := h.numbered
      older := h.older
      distinct := h.distinct
      ended := by
        rw [manifest_update hmanifest]
        exact h.ended
      listed := by
        intro l hl
        rw [manifest_update hmanifest] at hl
        refine (h.listed l hl).mono (fun _ hp => hp) fun p _ hp => hp.imp id fun hfile => ?_
        simp [Function.update_of_ne (path_ne_videoPath p _ _ _), hfile] }
  exact hwritten.list hst hline hne hclean (.inr ⟨_, _, _, hline.symm⟩)

/-- What a capture comes to: nothing, a number that is given to a picture that is not listed, or a
picture that is written whole before it is listed. -/
theorem capture_cases {env : CaptureEnv} {s : Sensor} (relTsMs : UInt32)
    (henv : env.write.error = none ∨ env.write.errorSeen = true) :
    snapshotCaptureOne env relTsMs s = (none, s) ∨
    ∃ p : Picture, p.bootId = s.bootId ∧ p.seq = s.seq ∧
      ((∃ files, (∀ path, path ≠ p.path → files path = s.files path) ∧
          snapshotCaptureOne env relTsMs s =
            (some p, { s with files := files, seq := s.seq + 1 })) ∨
        snapshotCaptureOne env relTsMs s =
          (some p, append env.append manifestPath (pictureLine p)
            { s with
              files := Function.update s.files p.path (some p.jpg), seq := s.seq + 1 })) := by
  unfold snapshotCaptureOne
  split
  · next jpg _ _ =>
    refine .inr ⟨⟨s.bootId, relTsMs, s.seq, jpg⟩, rfl, rfl, ?_⟩
    unfold MediaCard.write
    by_cases hopens : env.write.opens = true
    · simp only [if_pos hopens]
      cases herror : env.write.error with
      | none => exact .inr rfl
      | some n =>
        have hseen : env.write.errorSeen = true := henv.resolve_left (by simp [herror])
        simp only [hseen, Option.isNone_some, Bool.false_eq_true, Bool.true_eq_false, or_false,
          decide_false]
        exact .inl ⟨_, fun path hpath => Function.update_of_ne hpath _ _, rfl⟩
    · simp only [if_neg hopens]
      exact .inl ⟨s.files, fun _ _ => rfl, rfl⟩
  · exact .inl rfl

/-- Numbers go on from a picture. -/
theorem lt_next {s : Sensor} (hlast : s.seq ≠ 4294967295) : s.seq < s.seq + 1 := by
  have hbound := s.seq.toNat_lt
  have hne : s.seq.toNat ≠ 4294967295 := fun heq => hlast (UInt32.toNat_inj.mp (by simpa using heq))
  rw [UInt32.lt_iff_toNat_lt, UInt32.toNat_add, UInt32.toNat_one]
  omega

/-- A picture has got its number, and only the file under its path has changed. -/
theorem Kept.take {w : World} (h : Kept w) {p : Picture} (hboot : p.bootId = w.sensor.bootId)
    (hseq : p.seq = w.sensor.seq) (hlast : w.sensor.seq ≠ 4294967295) (files : Bytes → Option Bytes)
    (hfiles : ∀ path, path ≠ p.path → files path = w.sensor.files path) :
    Kept { w with
      sensor := { w.sensor with files := files, seq := w.sensor.seq + 1 }
      taken := w.taken ++ [p] } := by
  have hnew := lt_next hlast
  have hother : ∀ q ∈ w.taken, q.path ≠ p.path := fun q hq =>
    path_ne_of_older (h.older q hq) hboot hseq
  have hmanifest : { w.sensor with files := files, seq := w.sensor.seq + 1 }.manifest =
      w.sensor.manifest :=
    congrArg (·.getD []) (hfiles manifestPath (path_ne_manifestPath p).symm)
  exact
    { numbered := h.numbered
      older := by
        intro q hq
        rcases List.mem_append.mp hq with hq | hq
        · exact (h.older q hq).imp id fun hsame => ⟨hsame.1, UInt32.lt_trans hsame.2 hnew⟩
        · rw [List.mem_singleton.mp hq]
          exact .inr ⟨hboot, hseq ▸ hnew⟩
      distinct := by
        rw [List.map_append]
        refine h.distinct.append (List.nodup_singleton _) fun path hold hlast => ?_
        obtain ⟨q, hq, rfl⟩ := List.mem_map.mp hold
        exact hother q hq (List.mem_singleton.mp hlast)
      ended := by
        rw [hmanifest]
        exact h.ended
      listed := by
        intro l hl
        rw [hmanifest] at hl
        refine (h.listed l hl).mono (fun q hq => List.mem_append_left _ hq) fun q hq hstored => ?_
        exact hstored.imp id fun hfile => (hfiles q.path (hother q hq)).trans hfile }

/-- A picture is listed only when it was written whole. -/
theorem Kept.capture_step {w : World} (h : Kept w) {env : CaptureEnv} {relTsMs : UInt32}
    (hst : Sound w (.capture env relTsMs)) : Kept (step w (.capture env relTsMs)) := by
  obtain ⟨hlast, hwrite, happend⟩ := hst
  unfold step
  rcases capture_cases (s := w.sensor) relTsMs hwrite with
    hnone | ⟨p, hboot, hseq, ⟨files, hfiles, hp⟩ | hp⟩
  · simp only [hnone, Option.toList_none, List.append_nil]
    exact h
  · simp only [hp, Option.toList_some]
    exact h.take hboot hseq hlast files hfiles
  · simp only [hp, Option.toList_some]
    obtain ⟨line, hline, hne, hclean⟩ :=
      manifestLine_eq (isName_path p) p.relTsMs p.bootId 115 (.inl rfl)
    have htaken := h.take hboot hseq hlast (Function.update w.sensor.files p.path (some p.jpg))
      fun path hpath => Function.update_of_ne hpath _ _
    refine htaken.list happend hline hne hclean (.inl ⟨p, by simp, hline.symm, .inr ?_⟩)
    exact Function.update_self _ _ _

/-- What is read of a manifest that is not cut off ends a line, and is its beginning. -/
theorem ended_readManifest {env : CardEnv} (hread : env.readError = none) {manifest : Bytes}
    (hended : Ended manifest) (hwhole : truncated (readManifest env manifest) = false) :
    Ended (readManifest env manifest) ∧ ∃ rest, manifest = readManifest env manifest ++ rest := by
  have hcut : readManifest env manifest = [] ∨
      readManifest env manifest = manifest.take Manifest.manifestBufCap := by
    unfold readManifest
    rw [hread]
    split_ifs
    · exact .inr rfl
    · exact .inl rfl
  rcases hcut with hnil | htake
  · rw [hnil]
    exact ⟨.inl rfl, manifest, rfl⟩
  · rw [htake] at hwhole ⊢
    refine ⟨?_, _, (List.take_append_drop _ manifest).symm⟩
    by_cases hfull : (manifest.take Manifest.manifestBufCap).length = Manifest.manifestBufCap
    · have hlast : (manifest.take Manifest.manifestBufCap).getLast? = some newline := by
        simpa [truncated, hfull] using hwhole
      exact .inr (List.getLast?_eq_some_iff.mp hlast)
    · rw [List.take_of_length_le]
      · exact hended
      · rw [List.length_take] at hfull
        omega

/-- What is left of the manifest is some of its lines. -/
theorem trimManifest_lines {env : CardEnv} (hread : env.readError = none)
    (hwrite : env.writeError = none) (names : List Bytes) {manifest : Bytes}
    (hended : Ended manifest) :
    Ended (Manifest.trimManifest env names manifest).manifest ∧
      ∀ line ∈ linesOf (Manifest.trimManifest env names manifest).manifest,
        line ∈ linesOf manifest := by
  unfold Manifest.trimManifest
  dsimp only
  split_ifs with hbuffers hcut
  · exact ⟨hended, fun _ hl => hl⟩
  · obtain ⟨hbeginning, rest, hrest⟩ :=
      ended_readManifest hread hended (Bool.eq_false_iff.mpr hcut)
    have hnew : ∀ line ∈ linesOf (trimmed names (readManifest env manifest)),
        line ∈ linesOf manifest := by
      intro line hline
      rw [ManifestTrim.linesOf_trimmed] at hline
      rw [hrest]
      exact linesOf_beginning hbeginning line (List.mem_filter.mp hline).1
    unfold Manifest.rewrite
    rw [hwrite]
    split_ifs
    · exact ⟨ended_trimmed _ _, hnew⟩
    · exact ⟨ended_trimmed _ _, hnew⟩
    · exact ⟨hended, fun _ hl => hl⟩
  · exact ⟨hended, fun _ hl => hl⟩

theorem consumedHandler_lines (env : CardEnv) (hread : env.readError = none)
    (hwrite : env.writeError = none) (body : Bytes) {manifest : Bytes} (hended : Ended manifest) :
    Ended (consumedHandler env body manifest).manifest ∧
      ∀ line ∈ linesOf (consumedHandler env body manifest).manifest, line ∈ linesOf manifest := by
  unfold consumedHandler
  split_ifs with hbuffer
  · split
    · exact ⟨hended, fun _ hl => hl⟩
    · next names _ =>
      split_ifs with hunlinks
      · obtain ⟨hleft, hlines⟩ := trimManifest_lines hread hwrite names (.inl rfl : Ended [])
        exact ⟨hleft, fun line hline => absurd (hlines line hline) (by simp [linesOf])⟩
      · exact trimManifest_lines hread hwrite names hended
  · exact ⟨hended, fun _ hl => hl⟩

/-- The paths that are posted are taken off the card, and the other pictures stay. -/
theorem Kept.consumed_step {w : World} (h : Kept w) {env : CardEnv} {body : Bytes}
    (hst : Sound w (.consumed env body)) : Kept (step w (.consumed env body)) := by
  obtain ⟨hread, hwrite⟩ := hst
  obtain ⟨hended, hlines⟩ := consumedHandler_lines
    { env with unlinksManifest := (· = manifestPath) } hread hwrite body h.ended
  unfold step consumed
  dsimp only
  generalize consumedHandler { env with unlinksManifest := (· = manifestPath) } body
    w.sensor.manifest = ran at hended hlines
  exact
    { numbered := h.numbered
      older := h.older
      distinct := h.distinct
      ended := by
        rw [manifest_append]
        exact hended
      listed := by
        intro l hl
        rw [manifest_append] at hl
        refine (h.listed l (hlines l hl)).mono (fun _ hp => hp) fun p _ hstored => ?_
        by_cases hposted : p.path ∈ ran.deleted
        · exact .inl (List.mem_append_right _ hposted)
        · refine hstored.imp (List.mem_append_left _) fun hfile => ?_
          simp [Function.update_of_ne (path_ne_manifestPath p), unlinkAll, hposted, hfile] }

/-- **What one step keeps.** -/
theorem Kept.step {w : World} (h : Kept w) {st : CardStep} (hst : Sound w st) :
    Kept (step w st) := by
  cases st with
  | boot env => exact h.boot_step hst
  | capture env relTsMs => exact h.capture_step hst
  | clip env relTsMs seq data => exact h.clip_step hst
  | consumed env body => exact h.consumed_step hst

/-! ## Requests -/

/-- A request is for a picture's path, with the slash it begins with or without, and a query may
follow. -/
def Requests (p : Picture) (uri : Bytes) : Prop :=
  ∃ query : Bytes, (query = [] ∨ query.head? = some 63) ∧
    (uri = ascii "/item/" ++ (p.path ++ query) ∨ uri = ascii "/item" ++ (p.path ++ query))

/-- The query is not part of the name. -/
theorem takeWhile_query {name query : Bytes} (hname : ∀ b ∈ name, b ≠ 63)
    (hquery : query = [] ∨ query.head? = some 63) :
    (name ++ query).takeWhile (· ≠ 63) = name := by
  rw [List.takeWhile_append_of_pos fun b hb => by simpa using hname b hb]
  have hnone : query.takeWhile (· ≠ 63) = [] := by
    rcases hquery with rfl | hquery
    · rfl
    · obtain ⟨rest, rfl⟩ := List.head?_eq_some_iff.mp hquery
      exact List.takeWhile_cons_of_neg (by simp)
  rw [hnone, List.append_nil]

/-- A request for a name, with or without its first slash. -/
theorem itemPath_name {name query path : Bytes} (hname : ∀ b ∈ name, b ≠ 63)
    (hquery : query = [] ∨ query.head? = some 63) (hne : name ≠ []) (hlength : name.length < nameMaxLen)
    (hpath : (if name.head? = some 47 then name else 47 :: name) = path)
    (hdots : ¬ ascii ".." <:+: path) (hcard : ascii "/sdcard/" <+: path) :
    itemPath (ascii "/item/" ++ (name ++ query)) = .ok path := by
  have hdrop : (ascii "/item/" ++ (name ++ query)).drop 6 = name ++ query := rfl
  unfold itemPath
  rw [if_neg (not_not.mpr (List.prefix_append _ _)), hdrop, takeWhile_query hname hquery]
  dsimp only
  rw [if_neg (not_or.mpr ⟨hne, not_le.mpr hlength⟩), hpath, if_neg hdots,
    if_neg (not_not.mpr hcard)]

/-- **A request for a picture is for its file.** -/
theorem itemPath_picture {p : Picture} {uri : Bytes} (h : Requests p uri) :
    itemPath uri = .ok p.path ∧ contentType p.path = "image/jpeg" := by
  obtain ⟨query, hquery, huri⟩ := h
  obtain ⟨middle, hpath, hmiddle⟩ := path_shape p
  obtain ⟨tail, htail⟩ : ∃ tail, p.path = 47 :: tail := ⟨_, hpath⟩
  have hclean : ∀ b ∈ p.path, b ≠ 63 := by
    intro b hb
    rw [hpath, List.mem_append, List.mem_append] at hb
    rcases hb with (hb | hb) | hb
    · rintro rfl
      revert hb
      decide
    · exact (hmiddle b hb).2
    · rintro rfl
      revert hb
      decide
  have hdots : ¬ ascii ".." <:+: p.path := by
    intro hinfix
    have hcount := hinfix.sublist.count_le 46
    have hnone : List.count 46 middle = 0 :=
      List.count_eq_zero.mpr fun hb => (hmiddle 46 hb).1 rfl
    rw [hpath, List.count_append, List.count_append, hnone] at hcount
    revert hcount
    decide
  have hcard : ascii "/sdcard/" <+: p.path := by
    rw [hpath, List.append_assoc]
    exact (show ascii "/sdcard/" <+: ascii "/sdcard/snapshots/" by decide).trans
      (List.prefix_append _ _)
  have hlength := (isName_path p).length_lt
  constructor
  · rcases huri with rfl | rfl
    · exact itemPath_name hclean hquery (isName_path p).ne_nil hlength
        (if_pos (by rw [htail]; rfl)) hdots hcard
    · have hletter : tail.head? ≠ some 47 := by
        have hhead := congrArg (·[1]?) (htail.symm.trans hpath)
        rw [List.head?_eq_getElem?]
        intro hslash
        simp [hslash, ascii] at hhead
      have hsplit : ascii "/item" ++ (p.path ++ query) = ascii "/item/" ++ (tail ++ query) := by
        rw [htail]
        rfl
      rw [hsplit]
      refine itemPath_name (fun b hb => hclean b ?_) hquery ?_ ?_ ((if_neg hletter).trans htail.symm)
        hdots hcard
      · exact htail ▸ List.mem_cons_of_mem _ hb
      · rintro rfl
        have hlong := congrArg List.length (htail.symm.trans hpath)
        simp [ascii] at hlong
      · rw [htail, List.length_cons] at hlength
        exact Nat.lt_of_succ_lt hlength
  · have hdot : 46 ∈ p.path := by
      rw [hpath]
      simp [ascii]
    have hlast : extension p.path = ascii ".jpg" := by
      rw [extension, if_pos hdot, hpath]
      have hend : ascii ".jpg" = [46, 106, 112, 103] := rfl
      rw [hend, List.reverse_append, List.reverse_cons, List.append_assoc,
        List.takeWhile_append_of_pos (by simp), List.singleton_append,
        List.takeWhile_cons_of_neg (by simp)]
      rfl
    rw [contentType, if_pos (.inl hlast)]

/-! ## Whole runs -/

/-- A line is read as its picture's or as a clip's, and a picture that was not taken is answered. -/
def Served (w : World) (line : Bytes) : Prop :=
  ∃ entry, manifestParse (line ++ [newline]) = some entry ∧
    ((∃ p ∈ w.taken, entry = ⟨p.path, p.relTsMs.toNat, p.bootId.toNat, 115⟩ ∧
        (p.path ∉ w.deleted → ∀ uri, Requests p uri →
          item true uri w.sensor = .file "image/jpeg" p.jpg)) ∨
      ∃ bootId relTsMs seq, entry =
        ⟨videoPath nameMaxLen bootId relTsMs seq, relTsMs.toNat, bootId.toNat, 118⟩)

/-- What is listed is served. -/
theorem Listed.served {w : World} {line : Bytes} (h : Listed w line) : Served w line := by
  rcases h with ⟨p, hp, hline, hstored⟩ | ⟨bootId, relTsMs, seq, hline⟩
  · refine ⟨⟨p.path, p.relTsMs.toNat, p.bootId.toNat, 115⟩, ?_, .inl ⟨p, hp, rfl, ?_⟩⟩
    · rw [hline]
      exact manifestParse_manifestLine (isName_path p) p.relTsMs p.bootId (.inl rfl)
    · intro hkept uri huri
      obtain ⟨hitem, htype⟩ := itemPath_picture huri
      simp only [item, hitem, if_true, hstored.resolve_left hkept, htype]
  · refine ⟨⟨videoPath nameMaxLen bootId relTsMs seq, relTsMs.toNat, bootId.toNat, 118⟩, ?_,
      .inr ⟨bootId, relTsMs, seq, rfl⟩⟩
    rw [hline]
    exact manifestParse_manifestLine (videoPath_eq bootId relTsMs seq).2 relTsMs bootId (.inr rfl)

end OpenRecall.Analysis.PictureFiles
