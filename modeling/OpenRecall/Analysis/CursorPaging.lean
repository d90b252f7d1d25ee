import OpenRecall.Model.Listings

/-!
# Paging visits each row once

A cursor decodes to the timestamp and the id that it was made of. With that the three lists are
endpoints of keyset paging: whatever is inserted or deleted between the pages, following the
cursors comes by each row that is there throughout exactly once, newest first.
-/

set_option autoImplicit false

namespace OpenRecall.Analysis.CursorPaging

open OpenRecall.Model OpenRecall.Model.Paging
open Foundation

/-! ## The codec -/

theorem valid_utcStamp {t : Time} (h : IsDatetime t) : (utcStamp t).Valid where
  clock := by
    rw [utcStamp, Int.toNat_lt h.1]
    exact_mod_cast h.2
  offset := by simp [utcStamp, IsoTime.dayUs]

theorem instant_utcStamp {t : Time} (h : IsDatetime t) : instant (utcStamp t) = t := by
  have hle := h.1
  simp only [instant, utcStamp, Int.toNat_of_nonneg hle]
  ring

theorem fromIsoformat_isoformat (py : CursorReaders) {t : Time} (h : IsDatetime t) :
    py.fromIsoformat (isoformat t) = some t := by
  rw [CursorReaders.fromIsoformat, isoformat, IsoTime.readIso_isoText (valid_utcStamp h)]
  simp only [instant_utcStamp h]

theorem get?_beforeKey (before lastId : List Char) :
    (JsonText.Json.object [(beforeKey, .string before), (lastIdKey, .string lastId)]).get?
      beforeKey = some (.string before) := by
  simp [JsonText.Json.get?, beforeKey, lastIdKey, List.lookup]

theorem get?_lastIdKey (before lastId : List Char) :
    (JsonText.Json.object [(beforeKey, .string before), (lastIdKey, .string lastId)]).get?
      lastIdKey = some (.string lastId) := by
  simp [JsonText.Json.get?, beforeKey, lastIdKey]

/-- The payload of a cursor is read back. -/
theorem payloadOf_encodeCursor (t : Time) (id : String) :
    payloadOf (encodeCursor t id) = some (.object [(beforeKey, .string (isoformat t)),
      (lastIdKey, .string id.toList)]) := by
  have hloads := JsonText.loads_objectText (beforeKey, isoformat t) [(lastIdKey, id.toList)]
  obtain ⟨hascii, htext⟩ := read_cursorOfText
    (JsonText.objectText [(beforeKey, isoformat t), (lastIdKey, id.toList)])
  show payloadOf (cursorOfText _) = _
  rw [payloadOf, if_pos hascii, htext, Option.bind_some]
  exact hloads

/-- An anchor is read key by key. -/
theorem anchorOf_eq_some {py : CursorReaders} {payload before lastId : JsonText.Json} {t : Time}
    (hbefore : payload.get? beforeKey = some before) (hlast : payload.get? lastIdKey = some lastId)
    (hat : py.timeOf before = some t) : py.anchorOf payload = some (t, py.idOf lastId) := by
  simp only [CursorReaders.anchorOf, hbefore, hlast, hat, Option.bind_eq_bind, Option.bind_some]
  rfl

/-- **A cursor decodes to what it was made of.**
SOURCE: paging.py:25-48 -/
theorem decodeCursor_encodeCursor (py : CursorReaders) {t : Time} (h : IsDatetime t)
    (id : String) : py.decodeCursor (encodeCursor t id) = .ok (t, id) := by
  have hid : py.idOf (.string id.toList) = id := String.ofList_toList
  have hanchor : py.anchorOf (.object [(beforeKey, .string (isoformat t)),
      (lastIdKey, .string id.toList)]) = some (t, id) := by
    rw [anchorOf_eq_some (get?_beforeKey _ _) (get?_lastIdKey _ _) (fromIsoformat_isoformat py h),
      hid]
  rw [CursorReaders.decodeCursor, payloadOf_encodeCursor, Option.bind_some, hanchor]

/-! ## The lists as endpoints -/

theorem checkLimit_of_pos {limit : ℤ} (h : 0 < limit) : checkLimit limit = .ok () :=
  if_neg (not_le.mpr h)

/-- Values that are under their own ids have different ids. -/
theorem nodup_ids {ν : Type} {d : Dict String ν} {id : ν → String}
    (h : ∀ k v, d.get? k = some v → id v = k) : (d.values.map id).Nodup := by
  have hids : d.values.map id = d.keys := by
    rw [Dict.values, Dict.keys, List.map_map]
    apply List.map_congr_left
    rintro ⟨k, v⟩ hmem
    exact h k v ((d.get?_eq_some_iff k v).mpr hmem)
  rw [hids]
  exact d.nodup

/-- Rows with different ids have different keys. -/
theorem nodup_rowKeys {α : Type} {rows : List α} {at_ : α → Time} {id : α → String}
    (h : (rows.map id).Nodup) : (rows.map fun x => (toLex (at_ x, id x) : RowKey)).Nodup := by
  apply List.Nodup.of_map fun k : RowKey => (ofLex k).2
  rw [List.map_map]
  exact h

/-- The cursor of a key. -/
def cursorOf (k : RowKey) : String := encodeCursor (ofLex k).1 (ofLex k).2

/-- A key whose timestamp is a datetime. -/
def ValidKey (k : RowKey) : Prop := IsDatetime (ofLex k).1

/-- The next cursor is the one of the next anchor. -/
theorem nextOf_eq {α χ : Type} {key : α → RowKey} {anchor : α → χ} {code : RowKey → χ}
    (h : ∀ x, anchor x = code (key x)) (limit : ℕ) (before : Option RowKey) (items : List α) :
    nextOf anchor limit (Keyset.rest key before items) =
      (Keyset.page key limit before items).2.map code := by
  have hcode : anchor = code ∘ key := funext h
  rw [nextOf, Keyset.page]
  split_ifs
  · rw [Option.map_map, hcode]
  · rfl

/-! ### Segments -/

/-- The segments that the filter lets through. -/
def segmentsOf (sessionId : Option String) (idx : SegmentIndex) : List SessionSegment :=
  match sessionId with
  | none => idx.segments.values
  | some sessionId => idx.segments.values.filter (·.sessionId = sessionId)

/-- Segments are under their ids, and begin at datetimes. -/
structure GoodSegments (idx : SegmentIndex) : Prop where
  keyed : ∀ k s, idx.segments.get? k = some s → s.id = k
  datetime : ∀ s ∈ idx.segments.values, IsDatetime s.startedAt

theorem segmentsOf_sublist (sessionId : Option String) (idx : SegmentIndex) :
    (segmentsOf sessionId idx).Sublist idx.segments.values := by
  cases sessionId with
  | none => exact .refl _
  | some sessionId => exact List.filter_sublist

/-- SOURCE: sessions/segments.py:326-331 -/
theorem resume_segments (py : CursorReaders) {before : Option RowKey}
    (hvalid : ∀ anchor, before = some anchor → ValidKey anchor) (sessionId : Option String)
    (idx : SegmentIndex) :
    SegmentIndex.resume py (before.map cursorOf) (idx.ordered sessionId) =
      .ok (Keyset.rest SessionSegment.rowKey before (segmentsOf sessionId idx)) := by
  cases before with
  | none => rfl
  | some anchor =>
    rw [Option.map_some, SegmentIndex.resume, cursorOf,
      decodeCursor_encodeCursor py (hvalid anchor rfl)]
    rfl

/-- SOURCE: sessions/segments.py:302-335 -/
def segmentEndpoint (py : CursorReaders) {limit : ℤ} (hlimit : 0 < limit)
    (sessionId : Option String) :
    Keyset.Endpoint SessionSegment.rowKey
      (fun before (idx : SegmentIndex) => idx.list py limit before sessionId)
      (segmentsOf sessionId) GoodSegments where
  limit := limit.toNat
  code := cursorOf
  valid := ValidKey
  pos := by omega
  keys idx hidx := nodup_rowKeys
    ((nodup_ids hidx.keyed).sublist ((segmentsOf_sublist sessionId idx).map _))
  valid_key idx hidx s hs := hidx.datetime s ((segmentsOf_sublist sessionId idx).subset hs)
  spec idx hidx before hvalid := by
    have hcode : ∀ s : SessionSegment, encodeCursor s.startedAt s.id = cursorOf s.rowKey :=
      fun s => rfl
    rw [SegmentIndex.list, checkLimit_of_pos hlimit]
    simp only [bind, Except.bind, resume_segments py hvalid, nextOf_eq hcode]
    rfl

/-! ### Sessions -/

/-- Summaries are under their ids, and begin at datetimes. -/
structure GoodSessions (idx : SessionIndex) : Prop where
  keyed : idx.Keyed
  datetime : ∀ s ∈ idx.summaries.values, IsDatetime s.startedAt

/-- SOURCE: sessions/index.py:288-290 -/
theorem isAfter_eq (anchor : Time × String) (s : SessionSummary) :
    SessionIndex.isAfter anchor s = decide (s.rowKey < toLex anchor) := by
  rw [SessionIndex.isAfter, decide_eq_decide, SessionSummary.rowKey, Prod.Lex.toLex_lt_toLex]

/-- In strict order, the rows from the first one below an anchor on are the rows below it. -/
theorem dropWhile_eq_filter {α : Type} {key : α → RowKey} (anchor : RowKey) {rows : List α}
    (h : rows.Pairwise fun a b => key b < key a) :
    rows.dropWhile (fun x => !decide (key x < anchor)) = rows.filter fun x => key x < anchor := by
  induction rows with
  | nil => rfl
  | cons x rows ih =>
    rw [List.pairwise_cons] at h
    by_cases hx : key x < anchor
    · have hrest : ∀ y ∈ rows, decide (key y < anchor) = true :=
        fun y hy => decide_eq_true ((h.1 y hy).trans hx)
      rw [List.dropWhile_cons_of_neg (by simp [hx]), List.filter_cons_of_pos (by simp [hx]),
        List.filter_eq_self.mpr hrest]
    · rw [List.dropWhile_cons_of_pos (by simp [hx]), List.filter_cons_of_neg (by simp [hx]),
        ih h.2]

/-- SOURCE: sessions/index.py:282-296 -/
theorem resume_sessions (py : CursorReaders) {before : Option RowKey}
    (hvalid : ∀ anchor, before = some anchor → ValidKey anchor) {idx : SessionIndex}
    (hidx : GoodSessions idx) :
    SessionIndex.resume py (before.map cursorOf) idx.ordered =
      .ok (Keyset.rest SessionSummary.rowKey before idx.summaries.values) := by
  cases before with
  | none => rfl
  | some anchor =>
    have hordered : idx.ordered.Pairwise fun a b => b.rowKey < a.rowKey :=
      Keyset.pairwise_rest (nodup_rowKeys (nodup_ids hidx.keyed)) none
    rw [Option.map_some, SessionIndex.resume, cursorOf,
      decodeCursor_encodeCursor py (hvalid anchor rfl)]
    simp only [bind, Except.bind, isAfter_eq]
    exact congrArg Except.ok (dropWhile_eq_filter anchor hordered)

/-- SOURCE: sessions/index.py:265-305 -/
def sessionEndpoint (py : CursorReaders) {limit : ℤ} (hlimit : 0 < limit) :
    Keyset.Endpoint SessionSummary.rowKey
      (fun before (idx : SessionIndex) => idx.list py limit before)
      (fun idx => idx.summaries.values) GoodSessions where
  limit := limit.toNat
  code := cursorOf
  valid := ValidKey
  pos := by omega
  keys idx hidx := nodup_rowKeys (nodup_ids hidx.keyed)
  valid_key idx hidx s hs := hidx.datetime s hs
  spec idx hidx before hvalid := by
    have hcode : ∀ s : SessionSummary, encodeCursor s.startedAt s.id = cursorOf s.rowKey :=
      fun s => rfl
    rw [SessionIndex.list, checkLimit_of_pos hlimit]
    simp only [bind, Except.bind, resume_sessions py hvalid hidx, nextOf_eq hcode]
    rfl

/-! ### Atoms -/

/-- No two atoms have the same id. -/
def GoodAtoms (st : InMemoryAtomStore) : Prop := (st.all.map MemoryAtom.atomId).Nodup

theorem matching_sublist (kind sessionId : Option String) (st : InMemoryAtomStore) :
    (st.matching kind sessionId).Sublist st.all := by
  have hkind : (st.matching kind none).Sublist st.all := by
    cases kind with
    | none => exact .refl _
    | some kind => exact List.filter_sublist
  cases sessionId with
  | none => exact hkind
  | some sessionId => exact List.filter_sublist.trans hkind

/-- SOURCE: memory/store.py:286-288 -/
theorem resume_atoms (before : Option RowKey) (rows : List MemoryAtom) :
    InMemoryAtomStore.resume (before.map ofLex)
        (rows.insertionSort fun a b => b.rowKey ≤ a.rowKey) =
      Keyset.rest MemoryAtom.rowKey before rows := by
  cases before <;> rfl

/-- SOURCE: memory/store.py:277-293 -/
def atomEndpoint (kind sessionId : Option String) {limit : ℤ} (hlimit : 0 < limit) :
    Keyset.Endpoint MemoryAtom.rowKey
      (fun before (st : InMemoryAtomStore) => st.list kind sessionId limit before)
      (fun st => st.matching kind sessionId) GoodAtoms where
  limit := limit.toNat
  code := ofLex
  valid := fun _ => True
  pos := by omega
  keys st hst := nodup_rowKeys (hst.sublist ((matching_sublist kind sessionId st).map _))
  valid_key _ _ _ _ := trivial
  spec st hst before _ := by
    have hcode : ∀ a : MemoryAtom, (a.timelineAt, a.atomId) = ofLex a.rowKey := fun a => rfl
    rw [InMemoryAtomStore.list, checkLimit_of_pos hlimit]
    simp only [bind, Except.bind, resume_atoms, nextOf_eq hcode]
    rfl

/-- Atoms have different ids, which the store has seen. -/
structure KeyedAtoms (st : InMemoryAtomStore) : Prop where
  good : GoodAtoms st
  seen : ∀ a ∈ st.all, a.atomId ∈ st.seen

/-- An atom that is stored comes to the others.
SOURCE: memory/store.py:223-229 -/
theorem all_append_perm {atom : MemoryAtom} {st : InMemoryAtomStore} (h : atom.atomId ∉ st.seen) :
    (st.append atom).2.all.Perm (atom :: st.all) := by
  rw [InMemoryAtomStore.append, if_neg h]
  exact Dict.flatten_values_set_concat st.bySession atom.sessionId atom

/-- **Storing atoms keeps their ids apart.**
SOURCE: memory/store.py:223-229 -/
theorem KeyedAtoms.append {st : InMemoryAtomStore} (h : KeyedAtoms st) (atom : MemoryAtom) :
    KeyedAtoms (st.append atom).2 := by
  by_cases hseen : atom.atomId ∈ st.seen
  · rw [InMemoryAtomStore.append, if_pos hseen]
    exact h
  · have hperm := all_append_perm hseen
    have hfresh : atom.atomId ∉ st.all.map MemoryAtom.atomId := by
      intro hmem
      obtain ⟨a, ha, heq⟩ := List.mem_map.mp hmem
      exact hseen (heq ▸ h.seen a ha)
    constructor
    · rw [GoodAtoms, (hperm.map MemoryAtom.atomId).nodup_iff, List.map_cons, List.nodup_cons]
      exact ⟨hfresh, h.good⟩
    · intro a ha
      rw [InMemoryAtomStore.mem_seen_append]
      rcases List.mem_cons.mp (hperm.mem_iff.mp ha) with rfl | ha
      · exact Or.inl rfl
      · exact Or.inr (h.seen a ha)

/-! ## Every row once -/

/-- **Paging visits each row once**: segments, sessions and atoms, with every filter and page
size, whatever happens between the pages; and a cursor decodes to what it was made of.
SOURCE: paging.py:25-48, sessions/segments.py:302-335, sessions/index.py:265-305,
memory/store.py:277-293 -/
theorem paging_visits_once (py : CursorReaders) {limit : ℤ} (hlimit : 0 < limit)
    (kind sessionId : Option String) :
    Keyset.VisitsOnce SessionSegment.rowKey
        (fun before (idx : SegmentIndex) => idx.list py limit before sessionId)
        (segmentsOf sessionId) GoodSegments ∧
      Keyset.VisitsOnce SessionSummary.rowKey
        (fun before (idx : SessionIndex) => idx.list py limit before)
        (fun idx => idx.summaries.values) GoodSessions ∧
      Keyset.VisitsOnce MemoryAtom.rowKey
        (fun before (st : InMemoryAtomStore) => st.list kind sessionId limit before)
        (fun st => st.matching kind sessionId) GoodAtoms ∧
      ∀ (t : Time) (id : String), IsDatetime t →
        py.decodeCursor (encodeCursor t id) = .ok (t, id) :=
  ⟨Keyset.visitsOnce (segmentEndpoint py hlimit sessionId),
    Keyset.visitsOnce (sessionEndpoint py hlimit),
    Keyset.visitsOnce (atomEndpoint kind sessionId hlimit),
    fun _ id ht => decodeCursor_encodeCursor py ht id⟩

/-- Readers for payloads that the encoder wrote. -/
def plainReaders : CursorReaders := ⟨fun _ => "", fun _ => none⟩

/-- An atom of one session at one instant. -/
def tiedAtom (id : String) : MemoryAtom where
  atomId := id
  sessionId := some "s"
  sourceEventId := "e"
  kind := "fact"
  text := ""
  createdAt := 0
  startMs := 0

/-- Two atoms at one instant. -/
def tiedStore : InMemoryAtomStore :=
  ((InMemoryAtomStore.append (tiedAtom "b") {}).2.append (tiedAtom "a")).2

theorem keyedAtoms_tiedStore : KeyedAtoms tiedStore := by
  have hempty : KeyedAtoms {} := ⟨by simp [GoodAtoms, InMemoryAtomStore.all, Dict.values,
    Dict.empty], by simp [InMemoryAtomStore.all, Dict.values, Dict.empty]⟩
  exact (hempty.append _).append _

/-- A page a time, both atoms are visited once. -/
theorem paging_visits_once_tied :
    ∃ n visited, Keyset.Walk
      (fun before (st : InMemoryAtomStore) => st.list none none 1 before) none
        ((List.range (n + 1)).map fun _ => tiedStore) visited ∧
      (∃! i : Fin visited.length, (visited.get i).rowKey = (tiedAtom "a").rowKey) ∧
      ∃! i : Fin visited.length, (visited.get i).rowKey = (tiedAtom "b").rowKey := by
  have hgood : GoodAtoms tiedStore := keyedAtoms_tiedStore.good
  obtain ⟨-, -, hatoms, -⟩ :=
    paging_visits_once plainReaders (show (0 : ℤ) < 1 by norm_num) none none
  obtain ⟨n, visited, hwalk⟩ := hatoms.ends (fun _ => tiedStore) (fun _ => hgood)
    ((tiedStore.matching none none).map MemoryAtom.rowKey).toFinset
    (fun _ x hx => List.mem_toFinset.mpr (List.mem_map_of_mem hx))
  have hstores : ∀ s ∈ (List.range (n + 1)).map (fun _ => tiedStore), s = tiedStore := by
    intro s hs
    obtain ⟨-, -, rfl⟩ := List.mem_map.mp hs
    rfl
  have hall : ∀ id, tiedAtom id ∈ tiedStore.matching none none →
      ∃! i : Fin visited.length, (visited.get i).rowKey = (tiedAtom id).rowKey := by
    intro id hid
    apply hatoms.once (fun s hs => hstores s hs ▸ hgood) hwalk
    intro s hs
    rw [hstores s hs]
    exact List.mem_map_of_mem hid
  refine ⟨n, visited, hwalk, hall "a" ?_, hall "b" ?_⟩
  · decide +kernel
  · decide +kernel

end OpenRecall.Analysis.CursorPaging
