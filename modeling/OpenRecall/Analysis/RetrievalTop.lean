import OpenRecall.Foundation.TopItems
import OpenRecall.Model.Retrieval

/-!
# Whether a retrieval gives the top results

The index is asked for four times as many atoms as are wanted, by similarity alone, and only these
are scored with their age. A retrieval gives the top of what the index finds. That is the top of all
atoms exactly when the index finds every atom of it.
-/

set_option autoImplicit false

namespace OpenRecall.Analysis.RetrievalTop

open Foundation Keyset Model

universe u

section

variable {R : Type u} [Field R] [LinearOrder R]

/-- The order of the results, the largest first: a higher score, then a later time, then an id that
comes earlier.
SOURCE: memory/retrieval.py:121-124 -/
def rankKey (p : Retriever.ScoredAtom R × Time) : R ×ₗ ℤ ×ₗ Stringᵒᵈ :=
  toLex (p.1.score, toLex (p.2, OrderDual.toDual p.1.atomId))

variable (math : MathLib R) (halfLifeS : R) (queryVec : List R) (now : Time)

/-- The rows whose score is positive, scored. -/
def positive (rows : List (MemoryAtom × List R)) : List (Retriever.ScoredAtom R × Time) :=
  rows.filterMap fun r => Retriever.scoreAtom math halfLifeS queryVec now r.1 r.2

/-- The results are the first of the rows with a positive score. -/
def IsTopResults (limit : ℕ) (rows : List (MemoryAtom × List R))
    (results : List (Retriever.ScoredAtom R)) : Prop :=
  ∃ top, IsTop rankKey limit (positive math halfLifeS queryVec now rows) top ∧
    results = top.map Prod.fst

/-- The rows that the index finds: the most similar, four times as many as are asked for. -/
def found (sessionId : Option String) (limit : ℕ) (index : IndexedAtoms R) :
    List (MemoryAtom × List R) :=
  (Retriever.search math sessionId queryVec (limit * 4) index).map fun sr => (sr.atom, sr.vector)

end

/-! ## The order -/

section

variable {R : Type u} [Field R] [LinearOrder R]

/-- The key that the code sorts by ascends where the rank descends. -/
theorem sortKey_le_iff [IsStrictOrderedRing R] (p q : Retriever.ScoredAtom R × Time) :
    Retriever.sortKey p ≤ Retriever.sortKey q ↔ rankKey q ≤ rankKey p := by
  simp only [Retriever.sortKey, rankKey, Prod.Lex.le_iff, ofLex_toLex, neg_lt_neg_iff, neg_inj,
    OrderDual.toDual_le_toDual, eq_comm]

variable {math : MathLib R} {halfLifeS : R} {queryVec : List R} {now : Time}

/-- A scored atom has the id of its row. -/
theorem atomId_of_scoreAtom {a : MemoryAtom} {v : List R} {p : Retriever.ScoredAtom R × Time}
    (h : Retriever.scoreAtom math halfLifeS queryVec now a v = some p) :
    p.1.atomId = a.atomId := by
  rw [Retriever.scoreAtom] at h
  split_ifs at h
  cases h
  rfl

/-- The ids of scored rows differ when those of the rows do. -/
theorem nodup_atomId_positive {rows : List (MemoryAtom × List R)}
    (h : (rows.map fun r => r.1.atomId).Nodup) :
    ((positive math halfLifeS queryVec now rows).map fun p => p.1.atomId).Nodup := by
  rw [List.Nodup, List.pairwise_map] at h ⊢
  refine List.Pairwise.filterMap _ (fun r r' hne p hp p' hp' => ?_) h
  rwa [atomId_of_scoreAtom hp, atomId_of_scoreAtom hp']

theorem nodup_rankKey_positive {rows : List (MemoryAtom × List R)}
    (h : (rows.map fun r => r.1.atomId).Nodup) :
    ((positive math halfLifeS queryVec now rows).map rankKey).Nodup := by
  refine List.Nodup.of_map (fun k => OrderDual.ofDual (ofLex (ofLex k).2).2) ?_
  rw [List.map_map]
  exact nodup_atomId_positive h

/-- The rows that the index finds are some of the matching ones. -/
theorem found_subperm (sessionId : Option String) (limit : ℕ) (index : IndexedAtoms R) :
    (found math queryVec sessionId limit index).Subperm (Retriever.matching sessionId index) := by
  have hrows : ((Retriever.matching sessionId index).map fun r =>
      (⟨r.1, Retriever.cosine math queryVec r.2, r.2⟩ : SearchResult R)).map
      (fun sr => (sr.atom, sr.vector)) = Retriever.matching sessionId index := by
    rw [List.map_map]
    exact List.map_id _
  have hsorted := (List.perm_insertionSort (fun r s : SearchResult R => s.score ≤ r.score)
    ((Retriever.matching sessionId index).map fun r =>
      ⟨r.1, Retriever.cosine math queryVec r.2, r.2⟩)).map fun sr => (sr.atom, sr.vector)
  rw [hrows] at hsorted
  rw [found, Retriever.search, Retriever.rank, ← Nat.cast_ofNat, ← Nat.cast_mul, sliceTo_natCast]
  exact ((List.take_sublist _ _).map _).subperm.trans hsorted.subperm

/-- So are the scored ones. -/
theorem positive_subperm {rows rows' : List (MemoryAtom × List R)} (h : rows.Subperm rows') :
    (positive math halfLifeS queryVec now rows).Subperm
      (positive math halfLifeS queryVec now rows') := by
  rcases h with ⟨l, hperm, hsub⟩
  exact ⟨positive math halfLifeS queryVec now l, hperm.filterMap _, hsub.filterMap _⟩

omit [Field R] [LinearOrder R] in
/-- The ids of the matching rows differ. -/
theorem nodup_atomId_matching (sessionId : Option String) (index : IndexedAtoms R) :
    ((Retriever.matching sessionId index).map fun r => r.1.atomId).Nodup := by
  cases sessionId with
  | none => exact index.nodup
  | some sid => exact index.nodup.sublist (List.filter_sublist.map _)

/-! ## The results -/

variable [IsStrictOrderedRing R]

/-- A retrieval gives the first of what the index finds. -/
theorem isTopResults_found (embed : String → List R) (traceId : String) (index : IndexedAtoms R)
    (queryText : String) (limit : ℕ) (sessionId : Option String) :
    IsTopResults math halfLifeS (embed queryText) now limit
      (found math (embed queryText) sessionId limit index)
      (Retriever.retrieve math halfLifeS embed now traceId index
        ⟨queryText, limit, sessionId⟩).atoms := by
  have hnodup : ((found math (embed queryText) sessionId limit index).map fun r =>
      r.1.atomId).Nodup := by
    rcases found_subperm sessionId limit index with ⟨l, hperm, hsub⟩
    exact (hperm.map _).nodup_iff.mp
      ((nodup_atomId_matching sessionId index).sublist (hsub.map _))
  refine ⟨_, isTop_take_newest (nodup_rankKey_positive hnodup) limit, ?_⟩
  simp only [Retriever.retrieve, sliceTo_natCast, List.map_take, newest, positive, found,
    List.filterMap_map, sortKey_le_iff, Function.comp_def]

/-- **The results are the top of all matching rows exactly when the index finds each of these.** -/
theorem isTopResults_matching_iff (embed : String → List R) (traceId : String)
    (index : IndexedAtoms R) (queryText : String) (limit : ℕ) (sessionId : Option String) :
    IsTopResults math halfLifeS (embed queryText) now limit
        (Retriever.matching sessionId index)
        (Retriever.retrieve math halfLifeS embed now traceId index
          ⟨queryText, limit, sessionId⟩).atoms ↔
      ∀ top, IsTop rankKey limit (positive math halfLifeS (embed queryText) now
          (Retriever.matching sessionId index)) top →
        ∀ p ∈ top, p ∈ positive math halfLifeS (embed queryText) now
          (found math (embed queryText) sessionId limit index) := by
  have hsub : (positive math halfLifeS (embed queryText) now
      (found math (embed queryText) sessionId limit index)).Subperm _ :=
    positive_subperm (found_subperm sessionId limit index)
  obtain ⟨got, hgot, heq⟩ := isTopResults_found embed traceId index queryText limit sessionId
  constructor
  · rintro ⟨all, hall, heq'⟩ top htop p hp
    rw [htop.unique hall] at hp
    have hin : p.1 ∈ got.map Prod.fst := by
      rw [← heq, heq']
      exact List.mem_map_of_mem hp
    obtain ⟨q, hq, hqp⟩ := List.mem_map.mp hin
    have hsame := List.inj_on_of_nodup_map
      (nodup_atomId_positive (nodup_atomId_matching sessionId index))
      (hsub.subset (hgot.mem q hq)) (hall.mem p hp) (congrArg Retriever.ScoredAtom.atomId hqp)
    rw [← hsame]
    exact hgot.mem q hq
  · intro h
    have htop : IsTop rankKey limit (positive math halfLifeS (embed queryText) now
        (Retriever.matching sessionId index)) _ :=
      isTop_take_newest (nodup_rankKey_positive (nodup_atomId_matching sessionId index)) limit
    refine ⟨_, htop, ?_⟩
    rw [heq, hgot.unique (htop.of_subperm hsub (h _ htop))]

omit [IsStrictOrderedRing R] in
/-- In whatever order the rows stand, their first are the same. -/
theorem isTopResults_perm {limit : ℕ} {rows rows' : List (MemoryAtom × List R)}
    (h : rows.Perm rows') (results : List (Retriever.ScoredAtom R)) :
    IsTopResults math halfLifeS queryVec now limit rows results ↔
      IsTopResults math halfLifeS queryVec now limit rows' results := by
  constructor
  · rintro ⟨top, htop, heq⟩
    exact ⟨top, htop.perm (h.filterMap _), heq⟩
  · rintro ⟨top, htop, heq⟩
    exact ⟨top, htop.perm (h.symm.filterMap _), heq⟩

/-- A retrieval over no more rows than the index finds gives the top of all. -/
theorem isTopResults_matching_of_length_le (embed : String → List R) (traceId : String)
    (index : IndexedAtoms R) (queryText : String) {limit : ℕ} (sessionId : Option String)
    (h : (Retriever.matching sessionId index).length ≤ limit * 4) :
    IsTopResults math halfLifeS (embed queryText) now limit (Retriever.matching sessionId index)
      (Retriever.retrieve math halfLifeS embed now traceId index
        ⟨queryText, limit, sessionId⟩).atoms := by
  have hlength : (found math (embed queryText) sessionId limit index).length =
      (Retriever.matching sessionId index).length := by
    rw [found, Retriever.search, Retriever.rank, ← Nat.cast_ofNat, ← Nat.cast_mul, sliceTo_natCast]
    simp [h]
  have hperm := (found_subperm sessionId limit index).perm_of_length_le hlength.ge
  exact (isTopResults_perm hperm _).mp
    (isTopResults_found embed traceId index queryText limit sessionId)

end

/-! ## Scores as real numbers -/

/-- The library's functions on real numbers. -/
noncomputable def realMath : MathLib ℝ := ⟨Real.sqrt, Real.exp, Real.log⟩

/-- **A retrieval gives the first of the rows that the index finds, and these are the top of all
matching rows exactly when the index finds each of these.**
SOURCE: memory/retrieval.py:86-146, memory/index.py:73-76, memory/scoring.py:62-68 -/
theorem retrieve_top (embed : String → List ℝ) (now : Time) (traceId : String)
    (index : IndexedAtoms ℝ) (queryText : String) (limit : ℕ) (sessionId : Option String) :
    let results := (Retriever.retrieve realMath Retriever.defaultHalfLifeS embed now traceId index
      ⟨queryText, limit, sessionId⟩).atoms
    IsTopResults realMath Retriever.defaultHalfLifeS (embed queryText) now limit
        (found realMath (embed queryText) sessionId limit index) results ∧
      (IsTopResults realMath Retriever.defaultHalfLifeS (embed queryText) now limit
          (Retriever.matching sessionId index) results ↔
        ∀ top, IsTop rankKey limit (positive realMath Retriever.defaultHalfLifeS
            (embed queryText) now (Retriever.matching sessionId index)) top →
          ∀ p ∈ top, p ∈ positive realMath Retriever.defaultHalfLifeS (embed queryText) now
            (found realMath (embed queryText) sessionId limit index)) :=
  ⟨isTopResults_found embed traceId index queryText limit sessionId,
    isTopResults_matching_iff embed traceId index queryText limit sessionId⟩

/-! ## Five notes that are alike -/

/-- A week, in microseconds. -/
def week : Time := 604800000000

/-- A note of some time. -/
def note (atomId : String) (createdAt : Time) : MemoryAtom where
  atomId := atomId
  sessionId := none
  sourceEventId := "event"
  kind := "fact"
  text := "keys"
  createdAt := createdAt
  startMs := 0

/-- Four notes of last week, and one of now, which was indexed last. -/
noncomputable def fiveNotes : IndexedAtoms ℝ where
  rows := [(note "a" 0, [1]), (note "b" 0, [1]), (note "c" 0, [1]), (note "d" 0, [1]),
    (note "new" week, [1])]
  nodup := by simp [note]

theorem cosine_one : Retriever.cosine realMath ([1] : List ℝ) [1] = 1 := by
  simp [Retriever.cosine, realMath]

/-- The four that the index finds for one result. -/
theorem found_fiveNotes : found realMath [1] none 1 fiveNotes = fiveNotes.rows.take 4 := by
  have hsorted : (fiveNotes.rows.map fun r =>
      (⟨r.1, Retriever.cosine realMath [1] r.2, r.2⟩ : SearchResult ℝ)).Pairwise
      fun r s => s.score ≤ r.score := by
    simp [fiveNotes, cosine_one]
  rw [found, Retriever.search, Retriever.rank, Retriever.matching]
  dsimp only
  rw [hsorted.insertionSort_eq]
  simp [fiveNotes, sliceTo]

/-- The score of a note. -/
theorem score_note (ageS : ℝ) (h : 0 ≤ ageS) :
    Retriever.score realMath Retriever.defaultHalfLifeS [1] [1] ageS =
      Real.exp (-Real.log 2 * ageS / Retriever.defaultHalfLifeS) := by
  rw [Retriever.score, cosine_one, if_neg (by norm_num), if_neg (not_lt.mpr h), one_mul]
  rfl

/-- A note of last week is worth half. -/
theorem score_old (id : String) :
    Retriever.score realMath Retriever.defaultHalfLifeS [1] [1] (Retriever.age week (note id 0)) =
      1 / 2 := by
  have hage : Retriever.age week (note id 0) = (Retriever.defaultHalfLifeS : ℝ) := by
    norm_num [Retriever.age, week, note, MemoryAtom.timelineAt, Retriever.defaultHalfLifeS]
  have hpos : (0 : ℝ) < Retriever.defaultHalfLifeS := by norm_num [Retriever.defaultHalfLifeS]
  rw [hage, score_note _ hpos.le, mul_div_assoc, div_self hpos.ne', mul_one, Real.exp_neg,
    Real.exp_log two_pos, one_div]

/-- A note of now is worth its similarity. -/
theorem score_new (id : String) :
    Retriever.score realMath Retriever.defaultHalfLifeS [1] [1]
      (Retriever.age week (note id week)) = 1 := by
  have hage : Retriever.age week (note id week) = (0 : ℝ) := by
    simp [Retriever.age, note, MemoryAtom.timelineAt]
  rw [hage, score_note _ le_rfl, mul_zero, zero_div, Real.exp_zero]

/-- The scored notes: those of last week are worth less than the new one. -/
theorem mem_positive_fiveNotes {p : Retriever.ScoredAtom ℝ × Time}
    (h : p ∈ positive realMath Retriever.defaultHalfLifeS [1] week fiveNotes.rows) :
    p.1.atomId = "new" ∧ p.1.score = 1 ∨ p.1.score = 1 / 2 := by
  have hhalf : ¬ (1 / 2 : ℝ) ≤ 0 := by norm_num
  have hone : ¬ (1 : ℝ) ≤ 0 := by norm_num
  have hold : ∀ id, Retriever.scoreAtom realMath Retriever.defaultHalfLifeS [1] week (note id 0)
      [1] = some p → p.1.score = 1 / 2 := by
    intro id hp
    rw [Retriever.scoreAtom, score_old, if_neg hhalf] at hp
    rw [← Option.some.inj hp]
  obtain ⟨r, hr, hp⟩ := List.mem_filterMap.mp h
  simp only [fiveNotes, List.mem_cons, List.not_mem_nil, or_false] at hr
  rcases hr with rfl | rfl | rfl | rfl | rfl
  · exact .inr (hold _ hp)
  · exact .inr (hold _ hp)
  · exact .inr (hold _ hp)
  · exact .inr (hold _ hp)
  · rw [Retriever.scoreAtom, score_new, if_neg hone] at hp
    exact .inl (by rw [← Option.some.inj hp]; exact ⟨rfl, rfl⟩)

/-- The new note is scored. -/
theorem new_mem_positive : ∃ p ∈ positive realMath Retriever.defaultHalfLifeS [1] week
    fiveNotes.rows, p.1.atomId = "new" ∧ p.1.score = 1 := by
  have hone : ¬ (1 : ℝ) ≤ 0 := by norm_num
  have hnew : Retriever.scoreAtom realMath Retriever.defaultHalfLifeS [1] week (note "new" week)
      [1] = some ({ atomId := "new", sessionId := none, kind := "fact", text := "keys"
                    createdAt := week, startMs := 0, score := 1, sourceEventId := "event" },
        week) := by
    rw [Retriever.scoreAtom, score_new, if_neg hone]
    rfl
  exact ⟨_, List.mem_filterMap.mpr ⟨(note "new" week, [1]), by simp [fiveNotes], hnew⟩, rfl, rfl⟩

/-- **The top result is missed**: the index cuts the note of now, which is no more similar than the
four that were indexed before it.
SOURCE: memory/retrieval.py:93-96 -/
theorem not_always_top :
    ¬ ∀ (embed : String → List ℝ) (now : Time) (index : IndexedAtoms ℝ) (queryText : String)
      (limit : ℕ) (sessionId : Option String),
      IsTopResults realMath Retriever.defaultHalfLifeS (embed queryText) now limit
        (Retriever.matching sessionId index)
        (Retriever.retrieve realMath Retriever.defaultHalfLifeS embed now "trace" index
          ⟨queryText, limit, sessionId⟩).atoms := by
  intro h
  have hall := (isTopResults_matching_iff (fun _ => [1]) "trace" fiveNotes "keys" 1 none).mp
    (h (fun _ => [1]) week fiveNotes "keys" 1 none)
  rcases new_mem_positive with ⟨p, hp, hid, hscore⟩
  obtain ⟨top, htop⟩ : ∃ top, IsTop rankKey 1 (positive realMath Retriever.defaultHalfLifeS [1] week
      fiveNotes.rows) top :=
    ⟨_, isTop_take_newest (nodup_rankKey_positive fiveNotes.nodup) 1⟩
  have hin : p ∈ top := by
    by_contra hout
    have hlength : 0 < top.length := by
      have := List.length_pos_of_mem hp
      rw [htop.length]
      omega
    obtain ⟨q, hq⟩ := List.exists_mem_of_length_pos hlength
    have hbelow := htop.above p hp hout q hq
    rcases mem_positive_fiveNotes (htop.mem q hq) with ⟨hqid, -⟩ | hqscore
    · have hsame := List.inj_on_of_nodup_map (nodup_atomId_positive fiveNotes.nodup)
        (htop.mem q hq) hp (hqid.trans hid.symm)
      exact hout (hsame ▸ hq)
    · rw [rankKey, rankKey, Prod.Lex.toLex_lt_toLex, hscore, hqscore] at hbelow
      norm_num at hbelow
  have hcut := hall top htop p hin
  rw [found_fiveNotes] at hcut
  obtain ⟨r, hr, hpr⟩ := List.mem_filterMap.mp hcut
  have hrid := atomId_of_scoreAtom hpr
  rw [hid] at hrid
  simp only [fiveNotes, List.take_succ_cons, List.take_zero, List.mem_cons, List.not_mem_nil,
    or_false] at hr
  rcases hr with rfl | rfl | rfl | rfl <;> simp [note] at hrid

end OpenRecall.Analysis.RetrievalTop
