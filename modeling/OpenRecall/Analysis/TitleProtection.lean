import OpenRecall.Foundation.KeyedTable
import OpenRecall.Model.SegmentTitles
import OpenRecall.Analysis.ReminderSchedule

/-!
# Titles that stay the wearer's

Both stores are simulated by a function of the segment ids, which the titlings and the requests
change at one id a step. Whatever the chat model replies and whenever its reply comes, the title of
a segment is the last one that the wearer gave it since it was last deleted. If there is none, it is
one that cleaning leaves as it is.
-/

set_option autoImplicit false

namespace OpenRecall.Analysis.TitleProtection

open Foundation Foundation.KeyedTable
open OpenRecall.Model (Json SessionSegment Text isSpace stripText)
open OpenRecall.Model.Datetimes
open OpenRecall.Model.SegmentTitles

/-! ## Cleaning -/

theorem trim_isInfix (q : Char → Bool) (text : Text) : SpacedWords.trim q text <:+: text :=
  ( List.rdropWhile_prefix q _).isInfix.trans (List.dropWhile_suffix q).isInfix

theorem stripText_isInfix (text : Text) : stripText text <:+: text := trim_isInfix isSpace text

theorem stripText_stripText (text : Text) : stripText (stripText text) = stripText text := by
  show ((SpacedWords.trim isSpace text).dropWhile isSpace).rdropWhile isSpace = _
  rw [SpacedWords.trim_eq, List.dropWhile_idempotent]
  rw [← SpacedWords.trim_eq, SpacedWords.trim, List.rdropWhile_idempotent]
  rfl

theorem stripOnce_isInfix (title : Text) : stripOnce title <:+: title :=
  (stripText_isInfix _).trans <| ( List.rdropWhile_prefix _ _).isInfix.trans <|
    (trim_isInfix _ _).trans <| (trim_isInfix _ _).trans (stripText_isInfix title)

theorem stripText_stripOnce (title : Text) : stripText (stripOnce title) = stripOnce title :=
  stripText_stripText _

theorem stripAll_isInfix (n : ℕ) (title : Text) : stripAll n title <:+: title := by
  induction n generalizing title with
  | zero => exact List.infix_rfl
  | succ n ih =>
    rw [stripAll]
    split_ifs
    · exact List.infix_rfl
    · exact (ih (stripOnce title)).trans (stripOnce_isInfix title)

/-- As many passes as there are characters leave nothing to strip. -/
theorem stripOnce_stripAll {n : ℕ} {title : Text} (h : title.length ≤ n) :
    stripOnce (stripAll n title) = stripAll n title := by
  induction n generalizing title with
  | zero =>
    rw [List.length_eq_zero_iff.mp (Nat.le_zero.mp h)]
    rfl
  | succ n ih =>
    rw [stripAll]
    split_ifs with hstrip
    · exact hstrip
    · have hlt : (stripOnce title).length < title.length := by
        refine lt_of_le_of_ne (stripOnce_isInfix title).length_le fun hlen => ?_
        exact hstrip ((stripOnce_isInfix title).eq_of_length hlen)
      exact ih (by omega)

theorem stripAll_eq_self {title : Text} (h : stripOnce title = title) (n : ℕ) :
    stripAll n title = title := by
  cases n with
  | zero => rfl
  | succ n => rw [stripAll, if_pos h]

/-- A title that cleaning leaves as it is: one line, which is neither empty nor too long. -/
structure CleanTitle (title : Text) : Prop where
  ne_nil : title ≠ []
  length_le : title.length ≤ titleMaxChars
  oneLine : ∀ c ∈ title, isLineBreak c = false
  clean : clean (some title) = some title

/-- **What cleaning leaves** needs no cleaning.
SOURCE: sessions/titler.py:40-62 -/
theorem cleanTitle_of_clean {raw : Option Text} {title : Text} (h : clean raw = some title) :
    CleanTitle title := by
  unfold Model.SegmentTitles.clean at h
  dsimp only at h
  split_ifs at h with hbody hbad
  rw [Option.some.injEq] at h
  rw [h, not_or, not_lt] at hbad
  have hline : ∀ c ∈ title, isLineBreak c = false := by
    intro c hc
    rw [← h] at hc
    have hfirst := (stripText_isInfix _).subset ((stripAll_isInfix _ _).subset hc)
    simpa using List.mem_takeWhile_imp hfirst
  have hfixed : stripOnce title = title := h ▸ stripOnce_stripAll le_rfl
  have hstripped : stripText title = title := by
    rw [← hfixed, stripText_stripOnce]
  have hfirst : firstLine title = title := by
    rw [firstLine, List.takeWhile_eq_self_iff]
    simpa using hline
  refine ⟨hbad.1, hbad.2, hline, ?_⟩
  unfold Model.SegmentTitles.clean
  dsimp only
  rw [Option.getD_some, hstripped, if_neg hbad.1, hfirst, hstripped, stripAll_eq_self hfixed,
    if_neg (not_or.mpr ⟨hbad.1, not_lt.mpr hbad.2⟩)]

/-- A title that the wearer may give. -/
structure GivenTitle (title : Text) : Prop where
  ne_nil : title ≠ []
  length_le : title.length ≤ titleMaxChars
  stripped : stripText title = title

theorem givenTitle_of_titleOfBody {body : Option Json} {title : Text}
    (h : titleOfBody body = some title) : GivenTitle title := by
  unfold titleOfBody at h
  split at h
  · split at h
    · dsimp only at h
      split_ifs at h with hlen
      rw [Option.some.injEq] at h
      rw [h] at hlen
      exact ⟨List.ne_nil_of_length_pos hlen.1, hlen.2, h ▸ stripText_stripText _⟩
    · cases h
  · cases h

/-! ## Titles as a function -/

abbrev Titles := String → Option SegmentMeta

namespace Titles

/-- What an accepted write leaves. -/
def entry (now : AwareTime) (segmentId : String) (title : Text) (source : TitleSource) :
    SegmentMeta :=
  { segmentId, title := some title, titleSource := some source, updatedAt := some now }

/-- The titler's write is refused over a title of the wearer's. -/
def Refused (m : Titles) (segmentId : String) (source : TitleSource) : Prop :=
  source = .llm ∧ (m segmentId).bind SegmentMeta.titleSource = some .user

instance (m : Titles) (segmentId : String) (source : TitleSource) :
    Decidable (m.Refused segmentId source) :=
  inferInstanceAs (Decidable (_ ∧ _))

def setTitle (now : AwareTime) (segmentId : String) (title : Text) (source : TitleSource)
    (m : Titles) : Bool × Titles :=
  if m.Refused segmentId source then (false, m)
  else (true, Function.update m segmentId (some (entry now segmentId title source)))

def delete (segmentId : String) (m : Titles) : Bool × Titles :=
  ((m segmentId).isSome, Function.update m segmentId none)

theorem refused_llm_iff {m : Titles} {segmentId : String} {x : SegmentMeta}
    (hx : m segmentId = some x) :
    m.Refused segmentId .llm ↔ x.titleSource = some .user := by
  rw [Refused, hx, Option.bind_some, and_iff_right rfl]

theorem not_refused_of_eq_none {m : Titles} {segmentId : String} (hx : m segmentId = none)
    (source : TitleSource) : ¬m.Refused segmentId source := by
  rw [Refused, hx]
  simp

theorem not_refused_user (m : Titles) (segmentId : String) : ¬m.Refused segmentId .user := by
  simp [Refused]

end Titles

def titlesStore : SegmentMetaStore Titles where
  get segmentId m := some (m segmentId)
  titlesFor segmentIds m := dictOf (segmentIds.filterMap fun segmentId =>
    ((m segmentId).bind SegmentMeta.title).map (segmentId, ·))
  setTitle := Titles.setTitle
  delete := Titles.delete

/-! ## The titles of a page -/

theorem dictOf_concat (pairs : List (String × Text)) (p : String × Text) :
    dictOf (pairs ++ [p]) = (dictOf pairs).set p.1 p.2 :=
  List.foldl_concat _ _ _ _

/-- With one value for each key, a dictionary has its pairs. -/
theorem get?_dictOf {pairs : List (String × Text)} {f : String → Option Text}
    (hf : ∀ k v, (k, v) ∈ pairs → f k = some v) (k : String) :
    (dictOf pairs).get? k = if k ∈ pairs.map Prod.fst then f k else none := by
  induction pairs using List.reverseRecOn with
  | nil => rfl
  | append_singleton pairs p ih =>
    have hlast : f p.1 = some p.2 := hf p.1 p.2 (List.mem_append_right _ List.mem_cons_self)
    rw [dictOf_concat, Dict.get?_set, ih fun k v hkv => hf k v (List.mem_append_left _ hkv)]
    by_cases hk : k = p.1
    · rw [if_pos hk, if_pos (by simp [hk]), hk, hlast]
    · rw [if_neg hk, List.map_append, List.map_singleton]
      exact if_congr (by simp [hk]) rfl rfl

/-- The titles of the segments that are asked for. -/
theorem get?_dictOf_filterMap {pairs : List (String × Text)} {f : String → Option Text}
    {segmentIds : List String}
    (hpairs : ∀ k v, (k, v) ∈ pairs ↔ k ∈ segmentIds ∧ f k = some v) {segmentId : String}
    (h : segmentId ∈ segmentIds) : (dictOf pairs).get? segmentId = f segmentId := by
  rw [get?_dictOf (f := f) fun k v hkv => ((hpairs k v).mp hkv).2]
  split_ifs with hmem
  · rfl
  · cases hf : f segmentId with
    | none => rfl
    | some title =>
      exact absurd (List.mem_map_of_mem (f := Prod.fst) ((hpairs _ title).mpr ⟨h, hf⟩)) hmem

/-! ## The stores are simulated -/

/-- Every segment that has an entry has it under its id, with a title that is not empty. -/
def Tidy (m : Titles) : Prop :=
  ∀ segmentId x, m segmentId = some x → x.segmentId = segmentId ∧ x.title ≠ some []

/-- A store does what the function does, and answers the same. -/
structure Simulates {σ : Type} (store : SegmentMetaStore σ) (holds : Titles → σ → Prop) : Prop where
  get : ∀ {m st}, holds m st → ∀ segmentId, store.get segmentId st = some (m segmentId)
  titlesFor : ∀ {m st}, holds m st → Tidy m → ∀ {segmentIds segmentId}, segmentId ∈ segmentIds →
    (store.titlesFor segmentIds st).get? segmentId = (m segmentId).bind SegmentMeta.title
  setTitle : ∀ {m st}, holds m st → ∀ now segmentId title source,
    (store.setTitle now segmentId title source st).1 =
        (m.setTitle now segmentId title source).1 ∧
      holds (m.setTitle now segmentId title source).2
        (store.setTitle now segmentId title source st).2
  delete : ∀ {m st}, holds m st → ∀ segmentId,
    (store.delete segmentId st).1 = (m.delete segmentId).1 ∧
      holds (m.delete segmentId).2 (store.delete segmentId st).2

/-! ### In memory -/

def HoldsDict (m : Titles) (st : InMemorySegmentMetaStore) : Prop := m = st.rows.get?

theorem HoldsDict.set {m : Titles} {st : InMemorySegmentMetaStore} (h : HoldsDict m st)
    (segmentId : String) (x : SegmentMeta) :
    HoldsDict (Function.update m segmentId (some x)) ⟨st.rows.set segmentId x⟩ := by
  funext k
  rw [Dict.get?_set, Function.update_apply, h]

theorem HoldsDict.erase {m : Titles} {st : InMemorySegmentMetaStore} (h : HoldsDict m st)
    (segmentId : String) :
    HoldsDict (Function.update m segmentId none) ⟨st.rows.erase segmentId⟩ := by
  funext k
  rw [Dict.get?_erase, Function.update_apply, h]

/-- **The store in memory**.
SOURCE: sessions/segment_meta.py:55-87 -/
theorem inMemory_simulates : Simulates inMemoryStore HoldsDict where
  get {m st} h segmentId := by
    rw [h]
    rfl
  titlesFor {m st} h htidy segmentIds segmentId hmem := by
    refine get?_dictOf_filterMap (f := fun k => (m k).bind SegmentMeta.title) (fun k v => ?_) hmem
    have htitle : ∀ k, st.titleOf k = ((m k).bind SegmentMeta.title).map (k, ·) := by
      intro k
      rw [InMemorySegmentMetaStore.titleOf, ← h]
      cases hx : m k with
      | none => rfl
      | some x =>
        rw [Option.bind_some]
        split
        · next hnone => rw [hnone]; rfl
        · next hnil => exact absurd hnil (htidy k x hx).2
        · next hsome => rw [hsome]; rfl
    rw [List.mem_filterMap]
    constructor
    · rintro ⟨k', hk', hkv⟩
      rw [htitle, Option.map_eq_some_iff] at hkv
      obtain ⟨v', hv', hpair⟩ := hkv
      obtain ⟨rfl, rfl⟩ := Prod.mk.inj hpair
      exact ⟨hk', hv'⟩
    · rintro ⟨hk, hv⟩
      exact ⟨k, hk, by rw [htitle, hv, Option.map_some]⟩
  setTitle {m st} h now segmentId title source := by
    show (st.setTitle now segmentId title source).1 = _ ∧ HoldsDict _ (st.setTitle _ _ _ _).2
    rw [InMemorySegmentMetaStore.setTitle, Titles.setTitle, ← h]
    by_cases hrefused : source = .llm ∧ (m segmentId).bind SegmentMeta.titleSource = some .user
    · rw [if_pos hrefused, if_pos (show m.Refused _ _ from hrefused)]
      exact ⟨rfl, h⟩
    · rw [if_neg hrefused, if_neg (show ¬m.Refused _ _ from hrefused)]
      exact ⟨rfl, h.set segmentId _⟩
  delete {m st} h segmentId := by
    show (st.delete segmentId).1 = _ ∧ HoldsDict _ (st.delete segmentId).2
    rw [InMemorySegmentMetaStore.delete, ← h]
    exact ⟨rfl, h.erase segmentId⟩

/-! ### In SQLite -/

/-- The row of an entry. -/
def rowOf (x : SegmentMeta) : MetaRow where
  segmentId := x.segmentId
  title := x.title
  titleSource := x.titleSource
  updatedAt := x.updatedAt.map AwareTime.isoformat

/-- **A row reads back as its entry.**
SOURCE: sessions/segment_meta.py:121-126 -/
theorem toMeta_rowOf (x : SegmentMeta) : (rowOf x).toMeta = some x := by
  obtain ⟨segmentId, title, source, _ | updatedAt⟩ := x
  · rfl
  · have hread := ReminderSchedule.fromIsoformat_isoformat updatedAt
    rw [MetaRow.toMeta, rowOf, Option.map_some]
    cases htext : updatedAt.isoformat with
    | nil => exact absurd htext (ReminderSchedule.isoformat_ne_nil updatedAt)
    | cons c cs =>
      rw [htext] at hread
      simp [hread]

/-- The table has the rows of the entries. -/
def HoldsRows (m : Titles) (st : SqliteSegmentMetaStore) : Prop :=
  Mirrors MetaRow.segmentId (fun segmentId => (m segmentId).map rowOf) st.rows

theorem map_update (m : Titles) (segmentId : String) (x : Option SegmentMeta) :
    (fun k => (Function.update m segmentId x k).map rowOf) =
      Function.update (fun k => (m k).map rowOf) segmentId (x.map rowOf) := by
  funext k
  by_cases hk : k = segmentId
  · rw [hk, Function.update_self, Function.update_self]
  · rw [Function.update_of_ne hk, Function.update_of_ne hk]

/-- A row of what is written. -/
theorem HoldsRows.put {m : Titles} {now : AwareTime} {segmentId : String} {title : Text}
    {source : TitleSource} {rows : List MetaRow}
    (h : Mirrors MetaRow.segmentId (Function.update (fun k => (m k).map rowOf) segmentId
      (some ⟨segmentId, some title, some source, some now.isoformat⟩)) rows) :
    HoldsRows (Function.update m segmentId (some (Titles.entry now segmentId title source)))
      ⟨rows⟩ := by
  rw [HoldsRows, map_update]
  exact h

/-- **The store in SQLite**.
SOURCE: sessions/segment_meta.py:90-176 -/
theorem sqlite_simulates : Simulates sqliteStore HoldsRows where
  get {m st} h segmentId := by
    show st.get segmentId = _
    rw [SqliteSegmentMetaStore.get, SqliteSegmentMetaStore.row?, Mirrors.find?_eq h]
    cases m segmentId with
    | none => rfl
    | some x =>
      rw [Option.map_some]
      dsimp only
      rw [toMeta_rowOf, Option.map_some]
  titlesFor {m st} h _ segmentIds segmentId hmem := by
    show (st.titlesFor segmentIds).get? segmentId = _
    rw [SqliteSegmentMetaStore.titlesFor, if_neg (List.ne_nil_of_mem hmem)]
    refine get?_dictOf_filterMap (f := fun k => (m k).bind SegmentMeta.title) (fun k v => ?_) hmem
    rw [List.mem_filterMap]
    constructor
    · rintro ⟨r, hr, hkv⟩
      obtain ⟨hrow, hasked⟩ := List.mem_filter.mp hr
      obtain ⟨v', hv', hpair⟩ := Option.map_eq_some_iff.mp hkv
      obtain ⟨rfl, rfl⟩ := Prod.mk.inj hpair
      obtain ⟨x, hx, hrx⟩ := Option.map_eq_some_iff.mp ((h.mem_iff r).mp hrow)
      refine ⟨of_decide_eq_true hasked, ?_⟩
      rw [hx, Option.bind_some, ← hv', ← hrx, rowOf]
    · rintro ⟨hk, hv⟩
      obtain ⟨x, hx, hv⟩ := Option.bind_eq_some_iff.mp hv
      have hown : (rowOf x).segmentId = k := h.own k (rowOf x) (by rw [hx, Option.map_some])
      refine ⟨rowOf x, List.mem_filter.mpr ⟨(h.mem_iff _).mpr ?_, ?_⟩, ?_⟩
      · rw [hown, hx, Option.map_some]
      · exact decide_eq_true (hown ▸ hk)
      · rw [hown]
        show Option.map _ x.title = _
        rw [hv, Option.map_some]
  setTitle {m st} h now segmentId title source := by
    show (st.setTitle now segmentId title source).1 = _ ∧ HoldsRows _ (st.setTitle _ _ _ _).2
    cases source with
    | user =>
      rw [SqliteSegmentMetaStore.setTitle, Titles.setTitle, if_neg (m.not_refused_user segmentId)]
      exact ⟨rfl, HoldsRows.put (h.replace ⟨segmentId, some title, some .user, _⟩)⟩
    | llm =>
      rw [SqliteSegmentMetaStore.setTitle, SqliteSegmentMetaStore.upsertLlm,
        SqliteSegmentMetaStore.row?, Mirrors.find?_eq h, Titles.setTitle]
      cases hx : m segmentId with
      | none =>
        rw [if_neg (Titles.not_refused_of_eq_none hx _)]
        refine ⟨rfl, HoldsRows.put (h.insert (r := ⟨segmentId, some title, some .llm, _⟩) ?_)⟩
        rw [hx, Option.map_none]
      | some x =>
        rw [Option.map_some]
        dsimp only
        by_cases huser : x.titleSource = some .user
        · rw [if_pos ((Titles.refused_llm_iff hx).mpr huser),
            if_pos (show (rowOf x).titleSource = _ from huser)]
          exact ⟨rfl, h⟩
        · rw [if_neg (mt (Titles.refused_llm_iff hx).mp huser),
            if_neg (show (rowOf x).titleSource ≠ _ from huser)]
          refine ⟨rfl, HoldsRows.put ?_⟩
          have hown : x.segmentId = segmentId := h.own segmentId (rowOf x) (by rw [hx]; rfl)
          have hmod := h.modify
            (f := fun r => ⟨r.segmentId, some title, some .llm, some now.isoformat⟩)
            (fun _ => rfl) segmentId
          rw [hx] at hmod
          rw [← hown] at hmod ⊢
          exact hmod
  delete {m st} h segmentId := by
    show (st.delete segmentId).1 = _ ∧ HoldsRows _ (st.delete segmentId).2
    rw [SqliteSegmentMetaStore.delete, Mirrors.countP_eq h]
    refine ⟨?_, ?_⟩
    · show decide _ = (m segmentId).isSome
      cases m segmentId <;> rfl
    · rw [HoldsRows]
      show Mirrors _ (fun k => (Function.update m segmentId none k).map rowOf) _
      rw [map_update]
      exact h.erase segmentId

/-! ## Runs -/

/-- The same titlings wait, the same was answered, and the titles are held. -/
structure Alike {σ : Type} (holds : Titles → σ → Prop) (s : Titling Titles) (s' : Titling σ) :
    Prop where
  titles : holds s.titles s'.titles
  asking : s'.asking = s.asking
  outcomes : s'.outcomes = s.outcomes

namespace Simulates

variable {σ : Type} {store : SegmentMetaStore σ} {holds : Titles → σ → Prop}

theorem titled (h : Simulates store holds) {m : Titles} {st : σ} (hst : holds m st)
    (segmentId : String) : store.titled segmentId st = titlesStore.titled segmentId m := by
  rw [SegmentMetaStore.titled, SegmentMetaStore.titled, h.get hst]
  rfl

theorem titleSegment (h : Simulates store holds) {m : Titles} {st : σ} (hst : holds m st)
    (segmentId : String) (reply : Option (Option Text)) (now : AwareTime) :
    (store.titleSegment segmentId reply now st).1 =
        (titlesStore.titleSegment segmentId reply now m).1 ∧
      holds (titlesStore.titleSegment segmentId reply now m).2
        (store.titleSegment segmentId reply now st).2 := by
  rw [SegmentMetaStore.titleSegment, SegmentMetaStore.titleSegment]
  cases reply.bind clean with
  | none => exact ⟨rfl, hst⟩
  | some title =>
    obtain ⟨hanswer, hholds⟩ := h.setTitle hst now segmentId title .llm
    exact ⟨if_congr (by rw [hanswer]; rfl) rfl rfl, hholds⟩

theorem patchSegment (h : Simulates store holds) {m : Titles} {st : σ} (hst : holds m st)
    (segment : Option SessionSegment) (body : Option Json) (now : AwareTime) :
    (store.patchSegment segment body now st).1 =
        (titlesStore.patchSegment segment body now m).1 ∧
      holds (titlesStore.patchSegment segment body now m).2
        (store.patchSegment segment body now st).2 := by
  unfold SegmentMetaStore.patchSegment
  cases segment with
  | none => exact ⟨rfl, hst⟩
  | some segment =>
    cases titleOfBody body with
    | none => exact ⟨rfl, hst⟩
    | some title => exact ⟨rfl, (h.setTitle hst now segment.id title .user).2⟩

theorem deleteSegment (h : Simulates store holds) {m : Titles} {st : σ} (hst : holds m st)
    (segment : Option SessionSegment) :
    (store.deleteSegment segment st).1 = (titlesStore.deleteSegment segment m).1 ∧
      holds (titlesStore.deleteSegment segment m).2 (store.deleteSegment segment st).2 := by
  unfold SegmentMetaStore.deleteSegment
  cases segment with
  | none => exact ⟨rfl, hst⟩
  | some segment =>
    dsimp only
    split_ifs
    · exact ⟨rfl, (h.delete hst segment.id).2⟩
    · exact ⟨rfl, hst⟩

/-- **Every step** of the function is one of the store. -/
theorem step (h : Simulates store holds) {s : Titling Titles} {s' : Titling σ}
    (hs : Alike holds s s') (st : TitleStep) :
    Alike holds (titlesStore.step s st) (store.step s' st) := by
  cases st with
  | sweep segment events =>
    show Alike holds (titlesStore.sweep segment events s) (store.sweep segment events s')
    rw [SegmentMetaStore.sweep, SegmentMetaStore.sweep, h.titled hs.titles, hs.asking, hs.outcomes]
    split_ifs
    · exact ⟨hs.titles, rfl, rfl⟩
    · exact ⟨hs.titles, rfl, rfl⟩
  | reply call reply now =>
    show Alike holds (titlesStore.finish call reply now s) (store.finish call reply now s')
    rw [SegmentMetaStore.finish, SegmentMetaStore.finish, hs.asking]
    cases s.asking[call]?.join with
    | none => exact hs
    | some segmentId =>
      obtain ⟨hanswer, hholds⟩ := h.titleSegment hs.titles segmentId reply now
      refine ⟨hholds, rfl, ?_⟩
      show s'.outcomes ++ [Outcome.titled _] = _
      rw [hs.outcomes, hanswer]
      rfl
  | rename segment body now =>
    obtain ⟨hanswer, hholds⟩ := h.patchSegment hs.titles segment body now
    refine ⟨hholds, hs.asking, ?_⟩
    show s'.outcomes ++ [_] = _
    rw [hs.outcomes, hanswer]
    rfl
  | delete segment =>
    obtain ⟨hanswer, hholds⟩ := h.deleteSegment hs.titles segment
    refine ⟨hholds, hs.asking, ?_⟩
    show s'.outcomes ++ [_] = _
    rw [hs.outcomes, hanswer]
    rfl

theorem run (h : Simulates store holds) {s : Titling Titles} {s' : Titling σ}
    (hs : Alike holds s s') (steps : List TitleStep) :
    Alike holds (Foundation.run titlesStore.step s steps) (Foundation.run store.step s' steps) := by
  induction steps generalizing s s' with
  | nil => exact hs
  | cons st steps ih => exact ih (h.step hs st)

end Simulates

/-! ## The title in force -/

/-- The title that the wearer gave a segment, after one more step. -/
def wearerTitle (segmentId : String) (named : Option Text) : TitleStep → Option Text
  | .rename (some segment) body _ =>
    if segment.id = segmentId then (titleOfBody body).or named else named
  | .delete (some segment) => if segment.id = segmentId ∧ segment.closed then none else named
  | _ => named

/-- What a segment has, when the wearer named it and when not. -/
def InForce (segmentId : String) : Option Text → Option SegmentMeta → Prop
  | some title, got => GivenTitle title ∧ ∃ now, got = some (Titles.entry now segmentId title .user)
  | none, got => ∀ x, got = some x →
    ∃ title now, CleanTitle title ∧ x = Titles.entry now segmentId title .llm

theorem InForce.tidy {m : Titles} {named : String → Option Text}
    (h : ∀ segmentId, InForce segmentId (named segmentId) (m segmentId)) : Tidy m := by
  intro segmentId x hx
  have hforce := h segmentId
  rw [hx] at hforce
  cases hnamed : named segmentId with
  | some title =>
    rw [hnamed] at hforce
    obtain ⟨hgiven, now, hentry⟩ := hforce
    rw [Option.some.inj hentry]
    exact ⟨rfl, fun hnil => hgiven.ne_nil (Option.some.inj hnil)⟩
  | none =>
    rw [hnamed] at hforce
    obtain ⟨title, now, hclean, rfl⟩ := hforce x rfl
    exact ⟨rfl, fun hnil => hclean.ne_nil (Option.some.inj hnil)⟩

/-- A write of the titler's is in force only where the wearer gave no title. -/
theorem InForce.titler {segmentId : String} {named : Option Text} {m : Titles} {title : Text}
    (h : InForce segmentId named (m segmentId)) (hclean : CleanTitle title) (now : AwareTime) :
    InForce segmentId named ((m.setTitle now segmentId title .llm).2 segmentId) := by
  rw [Titles.setTitle]
  split_ifs with hrefused
  · exact h
  · cases named with
    | some given =>
      obtain ⟨-, now', hentry⟩ := h
      exact absurd ((Titles.refused_llm_iff hentry).mpr rfl) hrefused
    | none =>
      rintro x hx
      have hentry := (Function.update_self _ _ _).symm.trans hx
      exact ⟨title, now, hclean, (Option.some.inj hentry).symm⟩

theorem Titles.setTitle_of_ne {m : Titles} {segmentId k : String} (hk : k ≠ segmentId)
    (now : AwareTime) (title : Text) (source : TitleSource) :
    (m.setTitle now segmentId title source).2 k = m k := by
  rw [Titles.setTitle]
  split_ifs
  · rfl
  · exact Function.update_of_ne hk _ _

theorem Titles.delete_of_ne {m : Titles} {segmentId k : String} (hk : k ≠ segmentId) :
    (m.delete segmentId).2 k = m k :=
  Function.update_of_ne hk _ _

/-- **Every step** keeps the titles in force. -/
theorem InForce.step {s : Titling Titles} {named : Option Text} {segmentId : String}
    (h : InForce segmentId named (s.titles segmentId)) (st : TitleStep) :
    InForce segmentId (wearerTitle segmentId named st)
      ((titlesStore.step s st).titles segmentId) := by
  cases st with
  | sweep segment events =>
    show InForce segmentId named ((titlesStore.sweep segment events s).titles segmentId)
    rw [SegmentMetaStore.sweep]
    split_ifs <;> exact h
  | reply call reply now =>
    show InForce segmentId named ((titlesStore.finish call reply now s).titles segmentId)
    rw [SegmentMetaStore.finish]
    cases s.asking[call]?.join with
    | none => exact h
    | some asked =>
      show InForce segmentId named ((titlesStore.titleSegment asked reply now s.titles).2 segmentId)
      rw [SegmentMetaStore.titleSegment]
      cases hclean : reply.bind clean with
      | none => exact h
      | some title =>
        show InForce segmentId named ((s.titles.setTitle now asked title .llm).2 segmentId)
        by_cases hid : segmentId = asked
        · obtain ⟨raw, -, hraw⟩ := Option.bind_eq_some_iff.mp hclean
          exact hid ▸ h.titler (cleanTitle_of_clean hraw) now
        · rw [Titles.setTitle_of_ne hid]
          exact h
  | rename segment body now =>
    cases segment with
    | none => exact h
    | some segment =>
      show InForce segmentId (if segment.id = segmentId then _ else named)
        ((titlesStore.patchSegment (some segment) body now s.titles).2 segmentId)
      unfold SegmentMetaStore.patchSegment
      cases hbody : titleOfBody body with
      | none => simpa using h
      | some title =>
        show InForce segmentId _ ((s.titles.setTitle now segment.id title .user).2 segmentId)
        split_ifs with hid
        · rw [hid, Titles.setTitle, if_neg (s.titles.not_refused_user segmentId)]
          exact ⟨givenTitle_of_titleOfBody hbody, now, Function.update_self _ _ _⟩
        · rw [Titles.setTitle_of_ne (Ne.symm hid)]
          exact h
  | delete segment =>
    cases segment with
    | none => exact h
    | some segment =>
      show InForce segmentId (if segment.id = segmentId ∧ segment.closed then none else named)
        ((titlesStore.deleteSegment (some segment) s.titles).2 segmentId)
      unfold SegmentMetaStore.deleteSegment
      by_cases hclosed : segment.closed = true
      · simp only [hclosed, and_true, if_true]
        show InForce segmentId _ ((s.titles.delete segment.id).2 segmentId)
        split_ifs with hid
        · have hnone : (s.titles.delete segmentId).2 segmentId = none := Function.update_self _ _ _
          rw [hid, hnone]
          rintro x hx
          cases hx
        · rw [Titles.delete_of_ne (Ne.symm hid)]
          exact h
      · simpa [hclosed] using h

theorem InForce.run {s : Titling Titles} {named : Option Text} {segmentId : String}
    (h : InForce segmentId named (s.titles segmentId)) (steps : List TitleStep) :
    InForce segmentId (steps.foldl (wearerTitle segmentId) named)
      ((Foundation.run titlesStore.step s steps).titles segmentId) := by
  induction steps generalizing s named with
  | nil => exact h
  | cons st steps ih => exact ih (h.step st)

/-- **The wearer's titles are kept.** However titlings, renames and deletions follow each other, the
two stores answer the same and have the same titles. A segment's title is the last one that the
wearer gave it since it was last deleted; where there is none, it is one that needs no cleaning. The
page of titles has that title.
SOURCE: sessions/segment_meta.py:55-176, sessions/titler.py:40-113,
http/routes/segments.py:303-335 -/
theorem wearer_titles_kept (steps : List TitleStep) (segmentId : String) :
    let memory := Foundation.run inMemoryStore.step ⟨{}, [], []⟩ steps
    let sqlite := Foundation.run sqliteStore.step ⟨{}, [], []⟩ steps
    memory.outcomes = sqlite.outcomes ∧
      ∃ got, InForce segmentId (steps.foldl (wearerTitle segmentId) none) got ∧
        inMemoryStore.get segmentId memory.titles = some got ∧
        sqliteStore.get segmentId sqlite.titles = some got ∧
        ∀ page, segmentId ∈ page →
          (inMemoryStore.titlesFor page memory.titles).get? segmentId =
              got.bind SegmentMeta.title ∧
            (sqliteStore.titlesFor page sqlite.titles).get? segmentId =
              got.bind SegmentMeta.title := by
  intro memory sqlite
  let start : Titling Titles := ⟨fun _ => none, [], []⟩
  have hdict : Alike HoldsDict start ⟨{}, [], []⟩ := ⟨rfl, rfl, rfl⟩
  have hrows : Alike HoldsRows start ⟨{}, [], []⟩ := ⟨Mirrors.nil, rfl, rfl⟩
  have hmemory : Alike HoldsDict (Foundation.run titlesStore.step start steps) memory :=
    inMemory_simulates.run hdict steps
  have hsqlite : Alike HoldsRows (Foundation.run titlesStore.step start steps) sqlite :=
    sqlite_simulates.run hrows steps
  have hforce : ∀ k, InForce k (steps.foldl (wearerTitle k) none)
      ((Foundation.run titlesStore.step start steps).titles k) := by
    intro k
    refine InForce.run ?_ steps
    rintro x hx
    cases hx
  have htidy := InForce.tidy hforce
  refine ⟨hmemory.outcomes.trans hsqlite.outcomes.symm, _, hforce segmentId,
    inMemory_simulates.get hmemory.titles segmentId, sqlite_simulates.get hsqlite.titles segmentId,
    fun page hpage => ⟨inMemory_simulates.titlesFor hmemory.titles htidy hpage,
      sqlite_simulates.titlesFor hsqlite.titles htidy hpage⟩⟩

end OpenRecall.Analysis.TitleProtection
