import OpenRecall.Foundation.Run
import OpenRecall.Foundation.StableSort
import OpenRecall.Foundation.SlidingWindow
import OpenRecall.Analysis.SpeakerCorrection

/-!
# When the two speaker registries agree

The registry in memory keeps the embeddings of a speaker in the order in which they arrived, and a
move appends them. The durable one sorts them by their time whenever it reads or cuts them. So the
two agree as long as what arrives is not earlier than what is there, and as long as what a cut
deletes is earlier than all that it keeps (`agree_of_inTime`).
-/

set_option autoImplicit false

namespace OpenRecall.Analysis.RegistryAgreement

open Foundation Foundation.SlidingWindow OpenRecall.Model

/-! ## The cut of the table -/

/-- Rows by their time. -/
def byTime (rows : List EmbeddingRow) : List EmbeddingRow :=
  rows.insertionSort fun a b => a.createdAt ≤ b.createdAt

/-- Of rows by their time, those before the last `n` are earlier than these. -/
def Cut (n : ℕ) (rows : List EmbeddingRow) : Prop :=
  ∀ a ∈ rows.take (rows.length - n), ∀ b ∈ rows.rtake n, a.createdAt < b.createdAt

instance : Std.Total fun a b : EmbeddingRow => a.createdAt ≤ b.createdAt :=
  ⟨fun a b => le_total a.createdAt b.createdAt⟩

instance : IsTrans EmbeddingRow fun a b => a.createdAt ≤ b.createdAt :=
  ⟨fun _ _ _ => le_trans⟩

instance : Std.Total fun a b : EmbeddingRow × ℕ => b.1.createdAt ≤ a.1.createdAt :=
  ⟨fun a b => le_total b.1.createdAt a.1.createdAt⟩

instance : IsTrans (EmbeddingRow × ℕ) fun a b => b.1.createdAt ≤ a.1.createdAt :=
  ⟨fun _ _ _ hab hbc => hbc.trans hab⟩

theorem pairwise_byTime (rows : List EmbeddingRow) :
    (byTime rows).Pairwise fun a b => a.createdAt ≤ b.createdAt :=
  List.pairwise_insertionSort _ rows

@[simp] theorem length_byTime (rows : List EmbeddingRow) : (byTime rows).length = rows.length :=
  List.length_insertionSort _ rows

theorem filter_byTime (p : EmbeddingRow → Bool) (rows : List EmbeddingRow) :
    (byTime rows).filter p = byTime (rows.filter p) :=
  filter_insertionSort p rows

/-- A speaker's rows with their places in the table. -/
def placed (id : String) (rows : List EmbeddingRow) : List (EmbeddingRow × ℕ) :=
  rows.zipIdx.filter fun e => e.1.speakerId = id

/-- The same, the newest first. -/
def newestFirst (id : String) (rows : List EmbeddingRow) : List (EmbeddingRow × ℕ) :=
  (placed id rows).insertionSort fun a b => b.1.createdAt ≤ a.1.createdAt

theorem map_fst_placed (id : String) (rows : List EmbeddingRow) :
    (placed id rows).map Prod.fst = rows.filter fun r => r.speakerId = id := by
  have hrows : rows.zipIdx.map Prod.fst = rows := List.zipIdx_map_fst 0 rows
  conv_rhs => rw [← hrows, List.filter_map]
  rfl

theorem length_newestFirst (id : String) (rows : List EmbeddingRow) :
    (newestFirst id rows).length = (rows.filter fun r => r.speakerId = id).length := by
  rw [newestFirst, List.length_insertionSort, ← map_fst_placed, List.length_map]

theorem mem_newestFirst {id : String} {rows : List EmbeddingRow} {e : EmbeddingRow × ℕ} :
    e ∈ newestFirst id rows ↔ e ∈ rows.zipIdx ∧ e.1.speakerId = id := by
  rw [newestFirst, List.mem_insertionSort, placed, List.mem_filter, decide_eq_true_iff]

theorem eq_of_place {rows : List EmbeddingRow} {e e' : EmbeddingRow × ℕ} (he : e ∈ rows.zipIdx)
    (he' : e' ∈ rows.zipIdx) (h : e'.2 = e.2) : e' = e := by
  have hrow := List.mem_zipIdx_iff_getElem?.mp he
  have hrow' := List.mem_zipIdx_iff_getElem?.mp he'
  rw [h, hrow] at hrow'
  exact Prod.ext (Option.some.inj hrow').symm h

theorem cap_of_le {n : ℕ} {id : String} {rows : List EmbeddingRow}
    (h : (rows.filter fun r => r.speakerId = id).length ≤ n) :
    SqliteSpeakerRegistry.cap n id rows = rows := by
  have hnone : (newestFirst id rows).drop n = [] := by
    rw [List.drop_eq_nil_iff, length_newestFirst]
    exact h
  simp only [newestFirst, placed] at hnone
  simp only [SqliteSpeakerRegistry.cap, hnone]
  simp

/-- **A cut at a time**: where `n` rows of the speaker are from some time on, the others are
deleted. -/
theorem cap_at {n : ℕ} {id : String} {rows : List EmbeddingRow} {time : String}
    (h : ((rows.filter fun r => r.speakerId = id).filter fun r => time ≤ r.createdAt).length = n) :
    SqliteSpeakerRegistry.cap n id rows =
      rows.filter fun r => ¬ (r.speakerId = id ∧ r.createdAt < time) := by
  have hsplit : ((newestFirst id rows).filter fun e => time ≤ e.1.createdAt) ++
      ((newestFirst id rows).filter fun e => !decide (time ≤ e.1.createdAt)) =
        newestFirst id rows := by
    apply filter_append_filter_not
    have hsorted := List.pairwise_insertionSort
      (fun a b : EmbeddingRow × ℕ => b.1.createdAt ≤ a.1.createdAt) (placed id rows)
    exact hsorted.imp fun hab hb => by simpa using (of_decide_eq_true hb).trans hab
  have hlength : ((newestFirst id rows).filter fun e => time ≤ e.1.createdAt).length = n := by
    have hperm := List.perm_insertionSort
      (fun a b : EmbeddingRow × ℕ => b.1.createdAt ≤ a.1.createdAt) (placed id rows)
    rw [← h, ← map_fst_placed, List.filter_map, List.length_map]
    exact (hperm.filter _).length_eq
  have hdrop : (newestFirst id rows).drop n =
      (newestFirst id rows).filter fun e => !decide (time ≤ e.1.createdAt) := by
    conv_lhs => rw [← hsplit]
    exact List.drop_left' hlength
  have hdoomed : ∀ e ∈ rows.zipIdx, e.2 ∈ ((newestFirst id rows).drop n).map Prod.snd ↔
      e.1.speakerId = id ∧ ¬ time ≤ e.1.createdAt := by
    intro e he
    rw [hdrop, List.mem_map]
    constructor
    · rintro ⟨e', he', hplace⟩
      obtain ⟨hnewest, htime⟩ := List.mem_filter.mp he'
      obtain ⟨hmem, hid⟩ := mem_newestFirst.mp hnewest
      obtain rfl := eq_of_place he hmem hplace
      exact ⟨hid, by simpa using htime⟩
    · rintro ⟨hid, htime⟩
      refine ⟨e, List.mem_filter.mpr ⟨mem_newestFirst.mpr ⟨he, hid⟩, ?_⟩, rfl⟩
      simpa using htime
  have hkept : rows.zipIdx.filter (fun e => e.2 ∉ ((newestFirst id rows).drop n).map Prod.snd) =
      rows.zipIdx.filter fun e => ¬ (e.1.speakerId = id ∧ e.1.createdAt < time) := by
    apply List.filter_congr
    intro e he
    rw [decide_eq_decide, hdoomed e he, not_le]
  have hrows : rows.zipIdx.map Prod.fst = rows := List.zipIdx_map_fst 0 rows
  have hcap : SqliteSpeakerRegistry.cap n id rows =
      (rows.zipIdx.filter fun e => e.2 ∉ ((newestFirst id rows).drop n).map Prod.snd).map
        Prod.fst := rfl
  rw [hcap, hkept]
  conv_rhs => rw [← hrows, List.filter_map]
  rfl

/-- The last rows by their time are those from the first of them on. -/
theorem filter_from_of_cut {n : ℕ} {rows kept : List EmbeddingRow} {first : EmbeddingRow}
    (hsorted : rows.Pairwise fun a b => a.createdAt ≤ b.createdAt) (hcut : Cut n rows)
    (hfirst : rows.rtake n = first :: kept) :
    rows.filter (fun r => first.createdAt ≤ r.createdAt) = rows.rtake n := by
  have hsplit : rows.take (rows.length - n) ++ rows.rtake n = rows := List.take_append_drop ..
  have hbefore : (rows.take (rows.length - n)).filter
      (fun r => first.createdAt ≤ r.createdAt) = [] := by
    rw [List.filter_eq_nil_iff]
    intro a ha
    have hless := hcut a ha first (by simp [hfirst])
    rw [decide_eq_true_iff, not_le]
    exact hless
  have hfrom : (rows.rtake n).filter (fun r => first.createdAt ≤ r.createdAt) = rows.rtake n := by
    rw [List.filter_eq_self]
    intro b hb
    have hlast : (rows.rtake n).Pairwise fun a b => a.createdAt ≤ b.createdAt :=
      hsorted.sublist (List.drop_sublist _ _)
    rw [hfirst] at hb hlast
    rw [decide_eq_true_iff]
    rcases List.mem_cons.mp hb with rfl | hkept
    · exact le_rfl
    · exact List.rel_of_pairwise_cons hlast hkept
  conv_lhs => rw [← hsplit, List.filter_append, hbefore, hfrom, List.nil_append]

/-- **What the cut leaves**, where it deletes rows earlier than all that it keeps: the last ones of
the speaker by their time, and all of the other speakers. -/
theorem cap_spec {n : ℕ} (hn : 0 < n) {id : String} {rows : List EmbeddingRow}
    (hcut : Cut n (byTime (rows.filter fun r => r.speakerId = id))) :
    byTime ((SqliteSpeakerRegistry.cap n id rows).filter fun r => r.speakerId = id) =
        (byTime (rows.filter fun r => r.speakerId = id)).rtake n ∧
      ∀ id', id' ≠ id → (SqliteSpeakerRegistry.cap n id rows).filter (fun r => r.speakerId = id') =
        rows.filter fun r => r.speakerId = id' := by
  rcases le_or_gt (rows.filter fun r => r.speakerId = id).length n with hfits | hmore
  · rw [cap_of_le hfits, rtake_of_length_le ((length_byTime _).trans_le hfits)]
    simp
  · have hkept : ((byTime (rows.filter fun r => r.speakerId = id)).rtake n).length = n := by
      rw [length_rtake, length_byTime]
      omega
    obtain ⟨first, kept, hfirst⟩ := List.exists_cons_of_length_pos (hkept ▸ hn)
    have hfrom := filter_from_of_cut (pairwise_byTime _) hcut hfirst
    rw [filter_byTime] at hfrom
    have htime : ((rows.filter fun r => r.speakerId = id).filter
        fun r => first.createdAt ≤ r.createdAt).length = n := by
      rw [← hkept, ← hfrom, length_byTime]
    rw [cap_at htime, List.filter_filter]
    constructor
    · rw [← hfrom, List.filter_filter]
      congr 1
      apply List.filter_congr
      intro r _
      by_cases hid : r.speakerId = id
      · simp only [hid, true_and, not_lt, decide_true, Bool.true_and, Bool.and_true]
      · simp [hid]
    · intro id' hne
      rw [List.filter_filter]
      apply List.filter_congr
      intro r _
      by_cases hid : r.speakerId = id'
      · simp [hid, hne]
      · simp [hid]

/-! ## The embeddings of a speaker after an insertion and after a move -/

/-- The rows of the target come before those that are moved to it: they are earlier, or as early
and inserted before. -/
def Later (fromId toId : String) (rows : List EmbeddingRow) : Prop :=
  rows.Pairwise fun a b =>
    (a.speakerId = toId → b.speakerId = fromId → a.createdAt ≤ b.createdAt) ∧
      (a.speakerId = fromId → b.speakerId = toId → b.createdAt < a.createdAt)

theorem embeddingsOf_eq (id : String) (reg : SqliteSpeakerRegistry) :
    reg.embeddingsOf id = byTime (reg.embeddings.filter fun r => r.speakerId = id) := rfl

theorem embeddingsOf_add {cfg : SpeakerConfig} {now id : String} {e : Embedding} {c : Double}
    {reg : SqliteSpeakerRegistry} (hlast : ∀ r ∈ reg.embeddingsOf id, r.createdAt ≤ now)
    (hcut : Cut cfg.ringBufferN (reg.embeddingsOf id ++ [EmbeddingRow.mk id e c now])) :
    (reg.addConfirmedEmbedding cfg now id e c).embeddingsOf id =
        (reg.embeddingsOf id ++ [EmbeddingRow.mk id e c now]).rtake cfg.ringBufferN ∧
      ∀ id', id' ≠ id →
        (reg.addConfirmedEmbedding cfg now id e c).embeddingsOf id' = reg.embeddingsOf id' := by
  have hrows : byTime ((reg.embeddings ++ [EmbeddingRow.mk id e c now]).filter
      fun r => r.speakerId = id) = reg.embeddingsOf id ++ [EmbeddingRow.mk id e c now] := by
    rw [List.filter_append]
    simp only [List.filter_singleton, decide_true]
    refine (insertionSort_append ?_).trans rfl
    intro a ha b hb
    rw [List.mem_singleton.mp hb]
    exact hlast a ((List.mem_insertionSort _).mpr ha)
  obtain ⟨hown, hothers⟩ := cap_spec cfg.ringBufferN_pos (hrows ▸ hcut)
  constructor
  · rw [hrows] at hown
    exact hown
  · intro id' hne
    have hnot : ¬ id = id' := fun h => hne h.symm
    rw [embeddingsOf_eq, SqliteSpeakerRegistry.addConfirmedEmbedding, hothers id' hne,
      List.filter_append]
    simp [hnot, embeddingsOf_eq]

/-- A row under its new speaker. -/
def renamed (fromId toId : String) (r : EmbeddingRow) : EmbeddingRow :=
  if r.speakerId = fromId then { r with speakerId := toId } else r

@[simp] theorem createdAt_renamed (fromId toId : String) (r : EmbeddingRow) :
    (renamed fromId toId r).createdAt = r.createdAt := by
  unfold renamed
  split_ifs <;> rfl

@[simp] theorem embedding_renamed (fromId toId : String) (r : EmbeddingRow) :
    (renamed fromId toId r).embedding = r.embedding := by
  unfold renamed
  split_ifs <;> rfl

theorem byTime_map_renamed (fromId toId : String) (rows : List EmbeddingRow) :
    byTime (rows.map (renamed fromId toId)) = (byTime rows).map (renamed fromId toId) := by
  refine (List.map_insertionSort _ _ (renamed fromId toId) rows ?_).symm
  intro a _ b _
  simp

theorem cut_map_renamed {n : ℕ} {fromId toId : String} {rows : List EmbeddingRow}
    (h : Cut n rows) : Cut n (rows.map (renamed fromId toId)) := by
  intro a ha b hb
  rw [List.length_map, ← List.map_take] at ha
  rw [List.rtake, List.length_map, ← List.map_drop] at hb
  obtain ⟨a', ha', rfl⟩ := List.mem_map.mp ha
  obtain ⟨b', hb', rfl⟩ := List.mem_map.mp hb
  rw [createdAt_renamed, createdAt_renamed]
  exact h a' ha' b' hb'

/-- The rows of both speakers by their time. -/
theorem byTime_both {fromId toId : String} (hne : fromId ≠ toId) {rows : List EmbeddingRow}
    (h : Later fromId toId rows) :
    byTime (rows.filter fun r => r.speakerId = toId ∨ r.speakerId = fromId) =
      byTime (rows.filter fun r => r.speakerId = toId) ++
        byTime (rows.filter fun r => r.speakerId = fromId) := by
  have hparts : (rows.filter fun r => r.speakerId = toId ∨ r.speakerId = fromId).Pairwise
      fun a b => (decide (a.speakerId = toId) = true → decide (b.speakerId = toId) = false →
          a.createdAt ≤ b.createdAt) ∧
        (decide (a.speakerId = toId) = false → decide (b.speakerId = toId) = true →
          ¬ a.createdAt ≤ b.createdAt) := by
    rw [List.pairwise_filter]
    refine h.imp fun {a b} hab ha hb => ⟨fun hto hother => ?_, fun hother hto => ?_⟩
    · rw [decide_eq_true_iff] at hto hb
      rw [decide_eq_false_iff_not] at hother
      exact hab.1 hto (hb.resolve_left hother)
    · rw [decide_eq_true_iff] at hto ha
      rw [decide_eq_false_iff_not] at hother
      exact not_le.mpr (hab.2 (ha.resolve_left hother) hto)
  refine (insertionSort_eq_append hparts).trans ?_
  rw [List.filter_filter, List.filter_filter]
  congr 2
  · apply List.filter_congr
    intro r _
    by_cases hto : r.speakerId = toId <;> simp [hto]
  · apply List.filter_congr
    intro r _
    by_cases hto : r.speakerId = toId
    · simp [hto, hne.symm]
    · simp [hto]

theorem filter_renamed_to (fromId toId : String) (rows : List EmbeddingRow) :
    (rows.map (renamed fromId toId)).filter (fun r => r.speakerId = toId) =
      (rows.filter fun r => r.speakerId = toId ∨ r.speakerId = fromId).map
        (renamed fromId toId) := by
  rw [List.filter_map]
  congr 1
  apply List.filter_congr
  intro r _
  by_cases hfrom : r.speakerId = fromId <;> simp [renamed, hfrom]

theorem filter_renamed_from {fromId toId : String} (hne : fromId ≠ toId)
    (rows : List EmbeddingRow) :
    (rows.map (renamed fromId toId)).filter (fun r => r.speakerId = fromId) = [] := by
  rw [List.filter_eq_nil_iff]
  intro r hr
  obtain ⟨r', -, rfl⟩ := List.mem_map.mp hr
  by_cases hfrom : r'.speakerId = fromId
  · simp [renamed, hfrom, hne.symm]
  · simp [renamed, hfrom]

theorem filter_renamed_other {fromId toId id : String} (hfrom : id ≠ fromId) (hto : id ≠ toId)
    (rows : List EmbeddingRow) :
    (rows.map (renamed fromId toId)).filter (fun r => r.speakerId = id) =
      rows.filter fun r => r.speakerId = id := by
  induction rows with
  | nil => simp
  | cons r rows ih =>
    rw [List.map_cons, List.filter_cons, List.filter_cons, ih]
    by_cases hr : r.speakerId = fromId
    · simp [renamed, hr, hfrom.symm, hto.symm]
    · simp [renamed, hr]

/-- **What a move leaves**: the rows of the target and then the moved ones, cut to the last. -/
theorem embeddingsOf_move {cfg : SpeakerConfig} {fromId toId : String} (hne : fromId ≠ toId)
    {reg : SqliteSpeakerRegistry} (hlater : Later fromId toId reg.embeddings)
    (hcut : Cut cfg.ringBufferN (reg.embeddingsOf toId ++ reg.embeddingsOf fromId)) :
    (reg.moveEmbeddings cfg fromId toId).embeddingsOf toId =
        ((reg.embeddingsOf toId ++ reg.embeddingsOf fromId).map (renamed fromId toId)).rtake
          cfg.ringBufferN ∧
      (reg.moveEmbeddings cfg fromId toId).embeddingsOf fromId = [] ∧
      ∀ id, id ≠ fromId → id ≠ toId →
        (reg.moveEmbeddings cfg fromId toId).embeddingsOf id = reg.embeddingsOf id := by
  have hrows : byTime ((reg.embeddings.map (renamed fromId toId)).filter
      fun r => r.speakerId = toId) =
        (reg.embeddingsOf toId ++ reg.embeddingsOf fromId).map (renamed fromId toId) := by
    rw [filter_renamed_to, byTime_map_renamed, byTime_both hne hlater]
    rfl
  have htable : (reg.moveEmbeddings cfg fromId toId).embeddings =
      SqliteSpeakerRegistry.cap cfg.ringBufferN toId
        (reg.embeddings.map (renamed fromId toId)) := rfl
  obtain ⟨hown, hothers⟩ := cap_spec cfg.ringBufferN_pos (hrows ▸ cut_map_renamed hcut)
  refine ⟨?_, ?_, fun id hfrom hto => ?_⟩
  · rw [embeddingsOf_eq, htable, hown, hrows]
  · rw [embeddingsOf_eq, htable, hothers fromId hne, filter_renamed_from hne]
    rfl
  · rw [embeddingsOf_eq, htable, hothers id hto, filter_renamed_other hfrom hto]
    rfl

theorem moveEmbeddings_self {cfg : SpeakerConfig} {id : String} {reg : SqliteSpeakerRegistry}
    (h : (reg.embeddingsOf id).length ≤ cfg.ringBufferN) : reg.moveEmbeddings cfg id id = reg := by
  have hsame : reg.embeddings.map (renamed id id) = reg.embeddings := by
    conv_rhs => rw [← List.map_id reg.embeddings]
    apply List.map_congr_left
    intro r _
    unfold renamed
    split_ifs with hr
    · rw [id_eq, ← hr]
    · rfl
  have hcap : SqliteSpeakerRegistry.cap cfg.ringBufferN id (reg.embeddings.map (renamed id id)) =
      reg.embeddings := by
    rw [hsame]
    apply cap_of_le
    rwa [embeddingsOf_eq, length_byTime] at h
  simp only [SqliteSpeakerRegistry.moveEmbeddings]
  exact congrArg (fun rows => { reg with embeddings := rows }) hcap

/-! ## The two registries side by side -/

/-- The registries hold the same: the same rows of speakers, with their centroids, and the same
embeddings of each in the same order, at most so many. -/
structure Agree (n : ℕ) (a b : SpeakerRegistry) : Prop where
  get_eq : ∀ id, a.get id = b.get id
  ringBuffer_eq : ∀ id, a.ringBuffer id = b.ringBuffer id
  ringBuffer_le : ∀ id, (a.ringBuffer id).length ≤ n

/-- The same of a registry of each kind. -/
structure Same (n : ℕ) (mem : InMemorySpeakerRegistry) (sql : SqliteSpeakerRegistry) : Prop where
  row_eq : ∀ id, mem.speakers.get? id = sql.speakers.get? id
  ringBuffer_eq : ∀ id, mem.ringBuffer id = sql.ringBuffer id
  ringBuffer_le : ∀ id, (mem.ringBuffer id).length ≤ n

theorem Same.agree {n : ℕ} {mem : InMemorySpeakerRegistry} {sql : SqliteSpeakerRegistry}
    (h : Same n mem sql) : Agree n (.inMemory mem) (.sqlite sql) := by
  refine ⟨fun id => ?_, h.ringBuffer_eq, h.ringBuffer_le⟩
  simp [SpeakerRegistry.get, SpeakerRegistry.speakers, h.row_eq id]

section Operations

variable {cfg : SpeakerConfig} {mem : InMemorySpeakerRegistry} {sql : SqliteSpeakerRegistry}

/-- A change of the speakers that leaves the embeddings. -/
theorem Same.of_speakers {n : ℕ} (h : Same n mem sql) {f g : Dict String SpeakerRow}
    (hfg : ∀ id, f.get? id = g.get? id) :
    Same n { mem with speakers := f } { sql with speakers := g } :=
  ⟨hfg, h.ringBuffer_eq, h.ringBuffer_le⟩

theorem Same.modifyRow {n : ℕ} (h : Same n mem sql) (speakerId : String)
    (f : SpeakerRow → SpeakerRow) :
    Same n { mem with speakers := modifyRow speakerId f mem.speakers }
      { sql with speakers := modifyRow speakerId f sql.speakers } := by
  apply h.of_speakers
  intro id
  rw [get?_modifyRow, get?_modifyRow, h.row_eq id]

theorem Same.addSpeaker {n : ℕ} (h : Same n mem sql) {s : Speaker} (hs : s.centroid ≠ some []) :
    Same n (mem.addSpeaker s) (sql.addSpeaker s) := by
  have hcentroid : s.centroid.filter (· ≠ []) = s.centroid := by
    cases hc : s.centroid with
    | none => simp
    | some c =>
      have hne : c ≠ [] := fun hnil => hs (by rw [hc, hnil])
      simp [Option.filter, hne]
  have hbuf : ∀ id, (mem.addSpeaker s).buf id = mem.buf id := by
    intro id
    unfold InMemorySpeakerRegistry.buf InMemorySpeakerRegistry.addSpeaker
    cases hget : mem.bufs.get? s.speakerId with
    | some buf => simp
    | none =>
      by_cases hid : id = s.speakerId
      · simp [hid, hget]
      · simp [Dict.get?_set_of_ne _ _ hid]
  have hring : ∀ id, (mem.addSpeaker s).ringBuffer id = mem.ringBuffer id := by
    intro id
    rw [InMemorySpeakerRegistry.ringBuffer, hbuf, InMemorySpeakerRegistry.ringBuffer]
  refine ⟨fun id => ?_, fun id => ?_, fun id => ?_⟩
  · simp only [InMemorySpeakerRegistry.addSpeaker, SqliteSpeakerRegistry.addSpeaker, hcentroid]
    by_cases hid : id = s.speakerId
    · simp [hid]
    · rw [Dict.get?_set_of_ne _ _ hid, Dict.get?_set_of_ne _ _ hid, Dict.get?_erase, if_neg hid]
      exact h.row_eq id
  · rw [hring]
    exact h.ringBuffer_eq id
  · rw [hring]
    exact h.ringBuffer_le id

theorem ringBuffer_eq_map (id : String) (reg : SqliteSpeakerRegistry) :
    reg.ringBuffer id = (reg.embeddingsOf id).map EmbeddingRow.embedding := rfl

theorem ringBuffer_add (id : String) (e : Embedding) (c : Double) (id' : String) :
    (mem.addConfirmedEmbedding cfg id e c).ringBuffer id' =
      if id' = id then (mem.ringBuffer id ++ [e]).rtake cfg.ringBufferN
      else mem.ringBuffer id' := by
  unfold InMemorySpeakerRegistry.ringBuffer InMemorySpeakerRegistry.addConfirmedEmbedding
  split_ifs with hid
  · rw [hid, InMemorySpeakerRegistry.buf, Dict.get?_set_self]
    simp [map_rtake]
  · rw [InMemorySpeakerRegistry.buf, Dict.get?_set_of_ne _ _ hid]
    rfl

theorem Same.addConfirmedEmbedding (h : Same cfg.ringBufferN mem sql) {now id : String}
    {e : Embedding} {c : Double} (hlast : ∀ r ∈ sql.embeddingsOf id, r.createdAt ≤ now)
    (hcut : Cut cfg.ringBufferN (sql.embeddingsOf id ++ [EmbeddingRow.mk id e c now])) :
    Same cfg.ringBufferN (mem.addConfirmedEmbedding cfg id e c)
      (sql.addConfirmedEmbedding cfg now id e c) := by
  obtain ⟨hown, hothers⟩ := embeddingsOf_add hlast hcut
  refine ⟨h.row_eq, fun id' => ?_, fun id' => ?_⟩
  · rw [ringBuffer_add, ringBuffer_eq_map]
    split_ifs with hid
    · rw [hid, hown, map_rtake, List.map_append, h.ringBuffer_eq, ringBuffer_eq_map]
      simp
    · rw [hothers id' hid, h.ringBuffer_eq, ringBuffer_eq_map]
  · rw [ringBuffer_add]
    split_ifs
    · exact length_rtake_le _ _
    · exact h.ringBuffer_le id'

theorem ringBuffer_move (fromId toId id : String) :
    (mem.moveEmbeddings cfg fromId toId).ringBuffer id =
      if id = toId then
        ((if toId = fromId then [] else mem.ringBuffer toId) ++ mem.ringBuffer fromId).rtake
          cfg.ringBufferN
      else if id = fromId then [] else mem.ringBuffer id := by
  unfold InMemorySpeakerRegistry.ringBuffer InMemorySpeakerRegistry.moveEmbeddings
    InMemorySpeakerRegistry.buf
  by_cases hto : id = toId
  · rw [if_pos hto, hto, Dict.get?_set_self, Dict.get?_erase]
    split_ifs <;> simp [map_rtake]
  · rw [if_neg hto, Dict.get?_set_of_ne _ _ hto, Dict.get?_erase]
    split_ifs <;> simp

theorem Same.moveEmbeddings (h : Same cfg.ringBufferN mem sql) {fromId toId : String}
    (hmove : fromId = toId ∨ Later fromId toId sql.embeddings ∧
      Cut cfg.ringBufferN (sql.embeddingsOf toId ++ sql.embeddingsOf fromId)) :
    Same cfg.ringBufferN (mem.moveEmbeddings cfg fromId toId)
      (sql.moveEmbeddings cfg fromId toId) := by
  by_cases hne : fromId = toId
  · subst hne
    have hle : (sql.embeddingsOf fromId).length ≤ cfg.ringBufferN := by
      have hmem := h.ringBuffer_le fromId
      rwa [h.ringBuffer_eq, ringBuffer_eq_map, List.length_map] at hmem
    have hring : ∀ id, (mem.moveEmbeddings cfg fromId fromId).ringBuffer id =
        mem.ringBuffer id := by
      intro id
      rw [ringBuffer_move]
      by_cases hid : id = fromId
      · rw [if_pos hid, if_pos rfl, hid, List.nil_append,
          rtake_of_length_le (h.ringBuffer_le fromId)]
      · rw [if_neg hid, if_neg hid]
    rw [moveEmbeddings_self hle]
    refine ⟨h.row_eq, fun id => ?_, fun id => ?_⟩
    · rw [hring]
      exact h.ringBuffer_eq id
    · rw [hring]
      exact h.ringBuffer_le id
  · obtain ⟨hlater, hcut⟩ := hmove.resolve_left hne
    obtain ⟨hto, hfrom, hothers⟩ := embeddingsOf_move hne hlater hcut
    refine ⟨h.row_eq, fun id => ?_, fun id => ?_⟩
    · rw [ringBuffer_move, ringBuffer_eq_map]
      split_ifs with hid heq hid'
      · exact absurd heq.symm hne
      · rw [hid, hto, map_rtake, List.map_map, List.map_append, h.ringBuffer_eq,
          h.ringBuffer_eq, ringBuffer_eq_map, ringBuffer_eq_map]
        simp [Function.comp_def]
      · rw [hid', hfrom]
        rfl
      · rw [hothers id hid' hid, h.ringBuffer_eq, ringBuffer_eq_map]
    · rw [ringBuffer_move]
      split_ifs
      · exact length_rtake_le _ _
      · exact length_rtake_le _ _
      · simp
      · exact h.ringBuffer_le id

theorem Same.deleteSpeaker {n : ℕ} (h : Same n mem sql) (speakerId : String) :
    Same n (mem.deleteSpeaker speakerId) (sql.deleteSpeaker speakerId) := by
  have hring : ∀ id, (mem.deleteSpeaker speakerId).ringBuffer id =
      if id = speakerId then [] else mem.ringBuffer id := by
    intro id
    unfold InMemorySpeakerRegistry.ringBuffer InMemorySpeakerRegistry.deleteSpeaker
      InMemorySpeakerRegistry.buf
    rw [Dict.get?_erase]
    split_ifs <;> simp
  refine ⟨fun id => ?_, fun id => ?_, fun id => ?_⟩
  · simp only [InMemorySpeakerRegistry.deleteSpeaker, SqliteSpeakerRegistry.deleteSpeaker]
    rw [Dict.get?_erase, Dict.get?_erase, h.row_eq id]
  · rw [hring, ringBuffer_eq_map, embeddingsOf_eq, SqliteSpeakerRegistry.deleteSpeaker,
      List.filter_filter]
    split_ifs with hid
    · have hnone : (sql.embeddings.filter fun r =>
          decide (r.speakerId = id) && decide (r.speakerId ≠ speakerId)) = [] := by
        rw [List.filter_eq_nil_iff]
        simp [hid]
      rw [hnone]
      rfl
    · have hall : (sql.embeddings.filter fun r =>
          decide (r.speakerId = id) && decide (r.speakerId ≠ speakerId)) =
            sql.embeddings.filter fun r => r.speakerId = id := by
        apply List.filter_congr
        intro r _
        by_cases hr : r.speakerId = id <;> simp [hr, hid]
      rw [hall, h.ringBuffer_eq, ringBuffer_eq_map, embeddingsOf_eq]
  · rw [hring]
    split_ifs
    · simp
    · exact h.ringBuffer_le id

/-- The centroid is computed from the same row and the same embeddings, and fails for both. -/
theorem Same.recomputeCentroid {n : ℕ} (h : Same n mem sql) (cfg : SpeakerConfig)
    (ops : FloatOps) (now speakerId : String) :
    ∃ mem' sql', (mem.recomputeCentroid cfg ops now speakerId).getD mem = mem' ∧
      (sql.recomputeCentroid cfg ops now speakerId).getD sql = sql' ∧ Same n mem' sql' := by
  refine ⟨_, _, rfl, rfl, ?_⟩
  unfold InMemorySpeakerRegistry.recomputeCentroid SqliteSpeakerRegistry.recomputeCentroid
  rw [h.ringBuffer_eq, h.row_eq]
  by_cases hbuf : sql.ringBuffer speakerId = []
  · simpa [hbuf] using h
  · cases hrow : sql.speakers.get? speakerId with
    | none => simpa [hbuf] using h
    | some row =>
      cases hc : recomputed cfg ops row.centroid (sql.ringBuffer speakerId) with
      | none => simpa [hbuf, hc] using h
      | some c =>
        simpa [hbuf, hc] using h.modifyRow speakerId fun row =>
          { row with centroid := some c, updatedAt := now }

end Operations

/-! ## Runs -/

/-- The registries side by side. -/
abbrev Both := SpeakerRegistry × SpeakerRegistry

/-- An operation and the time that the clock shows. -/
abbrev TimedOp := String × RegistryOp

def start : Both := (.inMemory {}, .sqlite {})

/-- Both registries do the operation at the same time. -/
def step (cfg : SpeakerConfig) (ops : FloatOps) (r : Both) (op : TimedOp) : Both :=
  (op.2.apply cfg ops op.1 r.1, op.2.apply cfg ops op.1 r.2)

/-- The table of the embeddings. -/
def table : SpeakerRegistry → List EmbeddingRow
  | .inMemory _ => []
  | .sqlite reg => reg.embeddings

/-- The rows of a speaker by their time. -/
def rowsOf (id : String) (r : Both) : List EmbeddingRow :=
  byTime ((table r.2).filter fun row => row.speakerId = id)

/-- **What arrives is in time**: an embedding is no earlier than those of its speaker, embeddings
that are moved come after those of the target, what is cut is earlier than what is kept, and no
speaker is added with an empty centroid. -/
def InTime (cfg : SpeakerConfig) (r : Both) : TimedOp → Prop
  | (_, .addSpeaker s) => s.centroid ≠ some []
  | (now, .addConfirmedEmbedding id e c) =>
    (∀ row ∈ rowsOf id r, row.createdAt ≤ now) ∧
      Cut cfg.ringBufferN (rowsOf id r ++ [EmbeddingRow.mk id e c now])
  | (_, .moveEmbeddings fromId toId) =>
    fromId = toId ∨ Later fromId toId (table r.2) ∧
      Cut cfg.ringBufferN (rowsOf toId r ++ rowsOf fromId r)
  | _ => True

/-- One registry is of each kind, and they hold the same. -/
def Paired (n : ℕ) (r : Both) : Prop :=
  ∃ mem sql, r = (.inMemory mem, .sqlite sql) ∧ Same n mem sql

theorem paired_start (n : ℕ) : Paired n start := by
  refine ⟨{}, {}, rfl, ?_⟩
  constructor <;>
    simp [InMemorySpeakerRegistry.ringBuffer, InMemorySpeakerRegistry.buf,
      SqliteSpeakerRegistry.ringBuffer, SqliteSpeakerRegistry.embeddingsOf]

/-- **An operation in time keeps the registries the same.** -/
theorem Paired.step {cfg : SpeakerConfig} {ops : FloatOps} {r : Both}
    (h : Paired cfg.ringBufferN r) {op : TimedOp} (hop : InTime cfg r op) :
    Paired cfg.ringBufferN (step cfg ops r op) := by
  obtain ⟨mem, sql, rfl, hsame⟩ := h
  obtain ⟨now, op⟩ := op
  cases op with
  | addSpeaker s => exact ⟨_, _, rfl, hsame.addSpeaker hop⟩
  | addConfirmedEmbedding id e c => exact ⟨_, _, rfl, hsame.addConfirmedEmbedding hop.1 hop.2⟩
  | recomputeCentroid id =>
    obtain ⟨mem', sql', hmem, hsql, hsame'⟩ := hsame.recomputeCentroid cfg ops now id
    refine ⟨mem', sql', ?_, hsame'⟩
    rw [← hmem, ← hsql]
    simp only [RegistryAgreement.step, RegistryOp.apply, SpeakerRegistry.recomputeCentroid]
    cases mem.recomputeCentroid cfg ops now id <;> cases sql.recomputeCentroid cfg ops now id <;>
      simp
  | incrementTurn id => exact ⟨_, _, rfl, hsame.modifyRow id _⟩
  | setDisplayName id name => exact ⟨_, _, rfl, hsame.modifyRow id _⟩
  | updateEnrollment id status => exact ⟨_, _, rfl, hsame.modifyRow id _⟩
  | setIsWearer id isWearer => exact ⟨_, _, rfl, hsame.modifyRow id _⟩
  | moveEmbeddings fromId toId => exact ⟨_, _, rfl, hsame.moveEmbeddings hop⟩
  | deleteSpeaker id => exact ⟨_, _, rfl, hsame.deleteSpeaker id⟩

/-- **The registries agree** at every point of a run whose operations are in time.
SOURCE: memory/speaker_registry.py:171-247, memory/speaker_registry.py:322-438 -/
theorem agree_of_inTime (cfg : SpeakerConfig) (ops : FloatOps) (todo : List TimedOp)
    (htodo : EveryStep (step cfg ops) (InTime cfg) start todo) :
    ∀ before, before <+: todo →
      Agree cfg.ringBufferN (run (step cfg ops) start before).1
        (run (step cfg ops) start before).2 := by
  rintro before ⟨rest, rfl⟩
  have hbefore := EveryStep.prefix_of htodo
  obtain ⟨mem, sql, heq, hsame⟩ :=
    hbefore.invariant (fun r op h => h.step) (paired_start cfg.ringBufferN)
  rw [heq]
  exact hsame.agree

instance (n : ℕ) (rows : List EmbeddingRow) : Decidable (Cut n rows) :=
  inferInstanceAs (Decidable (∀ a ∈ _, ∀ b ∈ _, _ < _))

instance (fromId toId : String) (rows : List EmbeddingRow) : Decidable (Later fromId toId rows) :=
  inferInstanceAs (Decidable (List.Pairwise _ _))

instance (cfg : SpeakerConfig) (r : Both) : ∀ op, Decidable (InTime cfg r op)
  | (_, .addSpeaker _) => inferInstanceAs (Decidable (_ ≠ _))
  | (_, .addConfirmedEmbedding ..) => inferInstanceAs (Decidable (_ ∧ _))
  | (_, .moveEmbeddings ..) => inferInstanceAs (Decidable (_ ∨ _))
  | (_, .recomputeCentroid _) => inferInstanceAs (Decidable True)
  | (_, .incrementTurn _) => inferInstanceAs (Decidable True)
  | (_, .setDisplayName ..) => inferInstanceAs (Decidable True)
  | (_, .updateEnrollment ..) => inferInstanceAs (Decidable True)
  | (_, .setIsWearer ..) => inferInstanceAs (Decidable True)
  | (_, .deleteSpeaker _) => inferInstanceAs (Decidable True)

/-- A speaker that has not been heard yet. -/
def unheard (id : String) : Speaker where
  speakerId := id
  displayName := none
  isWearer := false
  enrollmentStatus := "implicit"
  centroid := none
  embeddingModel := "m"
  dim := 2
  turnCount := 0
  firstSeen := "2026-07-26T10:00:00+00:00"
  updatedAt := "2026-07-26T10:00:00+00:00"

/-- Two speakers, and an embedding of each. -/
def heard (first second : String) : List TimedOp :=
  [("2026-07-26T10:00:00+00:00", .addSpeaker (unheard "a")),
    ("2026-07-26T10:00:00+00:00", .addSpeaker (unheard "b")),
    ("2026-07-26T10:00:01+00:00", .addConfirmedEmbedding first [.finite 1, .finite 0] (.finite 1)),
    ("2026-07-26T10:00:02+00:00", .addConfirmedEmbedding second [.finite 0, .finite 1] (.finite 1))]

/-- The later speaker is reassigned to the earlier one, named, and deleted. -/
def reassigned : List TimedOp :=
  heard "b" "a" ++
    [("2026-07-26T10:00:03+00:00", .recomputeCentroid "b"),
      ("2026-07-26T10:00:04+00:00", .moveEmbeddings "a" "b"),
      ("2026-07-26T10:00:04+00:00", .recomputeCentroid "a"),
      ("2026-07-26T10:00:04+00:00", .recomputeCentroid "b"),
      ("2026-07-26T10:00:05+00:00", .setDisplayName "b" "Bea"),
      ("2026-07-26T10:00:05+00:00", .updateEnrollment "b" "confirmed"),
      ("2026-07-26T10:00:06+00:00", .deleteSpeaker "a")]

theorem agree_reassigned :
    Agree 100 (run (step {} SpeakerCorrection.exactOps) start reassigned).1
      (run (step {} SpeakerCorrection.exactOps) start reassigned).2 :=
  agree_of_inTime {} SpeakerCorrection.exactOps reassigned (by decide +kernel) reassigned
    List.prefix_rfl

/-- **The registries do not always agree**: an earlier embedding that is moved stands last in
memory and first in the table. -/
theorem registries_differ :
    ¬ Agree 100
      (run (step {} SpeakerCorrection.exactOps) start
        (heard "a" "b" ++ [("2026-07-26T10:00:03+00:00", .moveEmbeddings "a" "b")])).1
      (run (step {} SpeakerCorrection.exactOps) start
        (heard "a" "b" ++ [("2026-07-26T10:00:03+00:00", .moveEmbeddings "a" "b")])).2 := by
  intro h
  have hsame := h.ringBuffer_eq "b"
  revert hsame
  decide +kernel

end OpenRecall.Analysis.RegistryAgreement
