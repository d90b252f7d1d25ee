import OpenRecall.Model.StampedListings

/-!
# Which cursors are refused cleanly

A list is to return a page or to raise `ValueError`. The sessions are compared with the cursor's
timestamp as it is, which raises `TypeError` where one has an offset and the other does not; the
sort does so where the rows themselves are of both kinds; and a payload may nest deeper than the
interpreter's stack goes. `clean_iff` says exactly when none of this happens.
-/

set_option autoImplicit false

namespace OpenRecall.Analysis.CursorErrors

open Foundation OpenRecall.Model OpenRecall.Model.Paging

/-- **A page, or `ValueError`.** -/
def Clean {α : Type} (result : Except Raised α) : Prop :=
  ∀ e, result = .error e → e = .valueError

/-- The timestamps all have an offset, or none has. -/
def Uniform {α : Type} (key : α → StampKey) (rows : List α) : Prop :=
  ∀ a ∈ rows, ∀ b ∈ rows, ((key a).1.Aware ↔ (key b).1.Aware)

/-- Reading the cursor exhausts the stack: its payload nests too deep, or the value that the
payload has for the id does, whose text is asked for once the timestamp is read. -/
inductive Exhausts (py : StampReaders) (cursor : String) : Prop
  | payload (text : List Char) (hascii : (cursor.toList.all fun c => c.toNat < 128) = true)
      (htext : (Base64.decode (Base64.fill cursor.toList)).bind readUtf8 = some text)
      (hdeep : JsonScan.loads py.limits text = .error .tooDeep)
  | id (payload before lastId : JsonScan.Value) (at_ : PyStamp)
      (hpayload : py.payloadOf cursor = .ok payload)
      (hbefore : StampReaders.item beforeKey payload = .ok before)
      (hat : py.timeOf before = .ok at_)
      (hlastId : StampReaders.item lastIdKey payload = .ok lastId)
      (hdeep : py.textOf lastId = .error .recursionError)

/-- The condition on a list of sessions. -/
def SessionsComparable (py : StampReaders) (limit : ℤ) (before : Option String)
    (summaries : List SessionRow) : Prop :=
  0 < limit → Uniform SessionRow.key summaries ∧ ∀ cursor ∈ before, ¬ Exhausts py cursor ∧
    ∀ anchor, py.decodeCursor cursor = .ok anchor →
      ∀ s ∈ summaries, (s.startedAt.Aware ↔ anchor.1.Aware)

/-- The condition on a list of segments. -/
def SegmentsComparable (py : StampReaders) (limit : ℤ) (before sessionId : Option String)
    (segments : List SegmentRow) : Prop :=
  0 < limit → Uniform SegmentRow.key (segmentCandidates sessionId segments) ∧
    ∀ cursor ∈ before, ¬ Exhausts py cursor

/-! ## Comparisons -/

section

variable {α : Type}

theorem lt_of_aware_iff {a b : StampKey} (h : a.1.Aware ↔ b.1.Aware) :
    ∃ later, a.lt b = .ok later := by
  unfold StampKey.lt PyStamp.lt
  split_ifs <;> exact ⟨_, rfl⟩

theorem lt_of_not_aware_iff {a b : StampKey} (h : ¬ (a.1.Aware ↔ b.1.Aware)) :
    a.lt b = .error .typeError := by
  have heq : PyStamp.eq a.1 b.1 = false := by simp [PyStamp.eq, h]
  rw [StampKey.lt, heq, if_neg Bool.false_ne_true, PyStamp.lt, if_neg h]

theorem insertRow_of_uniform (key : α → StampKey) {row : α} {rows : List α}
    (h : ∀ r ∈ rows, ((key row).1.Aware ↔ (key r).1.Aware)) :
    ∃ sorted, insertRow key row rows = .ok sorted ∧ sorted.Perm (row :: rows) := by
  induction rows with
  | nil => exact ⟨[row], rfl, .refl _⟩
  | cons r rows ih =>
    obtain ⟨later, hlater⟩ := lt_of_aware_iff (h r List.mem_cons_self)
    obtain ⟨sorted, hsorted, hperm⟩ := ih fun s hs => h s (List.mem_cons_of_mem r hs)
    rw [insertRow, hlater]
    cases later with
    | false => exact ⟨row :: r :: rows, rfl, .refl _⟩
    | true =>
      refine ⟨r :: sorted, ?_, (hperm.cons r).trans (.swap row r rows)⟩
      simp [hsorted, bind, Except.bind, pure, Except.pure]

/-- **A sort returns the rows in some order if they are of one kind, and raises otherwise.** -/
theorem sortedRows_cases (key : α → StampKey) (rows : List α) :
    (Uniform key rows ∧ ∃ sorted, sortedRows key rows = .ok sorted ∧ sorted.Perm rows) ∨
      (¬ Uniform key rows ∧ sortedRows key rows = .error .typeError) := by
  induction rows with
  | nil => exact .inl ⟨by simp [Uniform], [], rfl, .refl _⟩
  | cons row rows ih =>
    rcases ih with ⟨huniform, sorted, hsorted, hperm⟩ | ⟨hmixed, hraised⟩
    · rw [sortedRows, hsorted]
      by_cases hrow : ∀ r ∈ rows, ((key row).1.Aware ↔ (key r).1.Aware)
      · obtain ⟨sorted', hsorted', hperm'⟩ := insertRow_of_uniform key
          fun r hr => hrow r (hperm.mem_iff.mp hr)
        refine .inl ⟨fun a ha b hb => ?_, sorted', hsorted', hperm'.trans (hperm.cons row)⟩
        rcases List.mem_cons.mp ha with rfl | ha' <;> rcases List.mem_cons.mp hb with rfl | hb'
        · exact Iff.rfl
        · exact hrow b hb'
        · exact (hrow a ha').symm
        · exact huniform a ha' b hb'
      · refine .inr ⟨fun h => hrow fun r hr => ?_, ?_⟩
        · exact h row List.mem_cons_self r (List.mem_cons_of_mem row hr)
        · push Not at hrow
          obtain ⟨r, hr, hne⟩ := hrow
          cases sorted with
          | nil => exact absurd (hperm.symm.subset hr) (List.not_mem_nil)
          | cons s sorted =>
            have hs : s ∈ rows := hperm.subset List.mem_cons_self
            have hne' : ¬ ((key row).1.Aware ↔ (key s).1.Aware) := by
              have hsame := huniform r hr s hs
              tauto
            show insertRow key row (s :: sorted) = _
            rw [insertRow, lt_of_not_aware_iff hne']
            rfl
    · refine .inr ⟨fun h => hmixed fun a ha b hb => ?_, ?_⟩
      · exact h a (List.mem_cons_of_mem row ha) b (List.mem_cons_of_mem row hb)
      · rw [sortedRows, hraised]
        rfl

end

/-! ## Cursors -/

section

variable {py : StampReaders} {cursor : String}

/-- SOURCE: paging.py:39-43 -/
theorem payloadOf_error {e : Raised} (h : py.payloadOf cursor = .error e) :
    e = .valueError ∨ e = .recursionError ∧ Exhausts py cursor := by
  unfold StampReaders.payloadOf at h
  split_ifs at h with hascii
  · cases htext : (Base64.decode (Base64.fill cursor.toList)).bind readUtf8 with
    | none =>
      rw [htext] at h
      exact .inl (Except.error.inj h).symm
    | some text =>
      rw [htext] at h
      dsimp only at h
      cases hloads : JsonScan.loads py.limits text with
      | ok payload =>
        rw [hloads] at h
        cases h
      | error failure =>
        rw [hloads] at h
        cases failure with
        | malformed => exact .inl (Except.error.inj h).symm
        | tooDeep => exact .inr ⟨(Except.error.inj h).symm, .payload text hascii htext hloads⟩
  · exact .inl (Except.error.inj h).symm

theorem item_error {name : List Char} {value : JsonScan.Value} {e : Raised}
    (h : StampReaders.item name value = .error e) : e = .keyError ∨ e = .typeError := by
  unfold StampReaders.item at h
  split at h
  · split at h
    · cases h
    · exact .inl (Except.error.inj h).symm
  · exact .inr (Except.error.inj h).symm

theorem timeOf_error {value : JsonScan.Value} {e : Raised} (h : py.timeOf value = .error e) :
    e = .valueError ∨ e = .typeError := by
  unfold StampReaders.timeOf at h
  split at h
  · split at h
    · cases h
    · exact .inl (Except.error.inj h).symm
  · exact .inr (Except.error.inj h).symm

theorem textOf_error {value : JsonScan.Value} {e : Raised} (h : py.textOf value = .error e) :
    e = .recursionError := by
  unfold StampReaders.textOf at h
  split at h
  · cases h
  · split at h
    · cases h
    · exact (Except.error.inj h).symm

/-- Inside the `try`, only an exhausted stack raises what is not caught.
SOURCE: paging.py:38-45 -/
theorem anchorOf_error {e : Raised} (h : py.anchorOf cursor = .error e) :
    e ≠ .recursionError ∨ Exhausts py cursor := by
  unfold StampReaders.anchorOf at h
  cases hpayload : py.payloadOf cursor with
  | error e' =>
    simp only [hpayload, bind, Except.bind, Except.error.injEq] at h
    rcases payloadOf_error hpayload with hvalue | hdeep
    · left
      rw [← h, hvalue]
      decide
    · exact .inr hdeep.2
  | ok payload =>
    cases hbefore : StampReaders.item beforeKey payload with
    | error e' =>
      simp only [hpayload, hbefore, bind, Except.bind, Except.error.injEq] at h
      left
      rcases item_error hbefore with he | he <;> simp [← h, he]
    | ok before =>
      cases hat : py.timeOf before with
      | error e' =>
        simp only [hpayload, hbefore, hat, bind, Except.bind, Except.error.injEq] at h
        left
        rcases timeOf_error hat with he | he <;> simp [← h, he]
      | ok at_ =>
        cases hlastId : StampReaders.item lastIdKey payload with
        | error e' =>
          simp only [hpayload, hbefore, hat, hlastId, bind, Except.bind, Except.error.injEq] at h
          left
          rcases item_error hlastId with he | he <;> simp [← h, he]
        | ok lastId =>
          cases htext : py.textOf lastId with
          | error e' =>
            rw [textOf_error htext] at htext
            exact .inr (.id payload before lastId at_ hpayload hbefore hat hlastId htext)
          | ok id =>
            simp [hpayload, hbefore, hat, hlastId, htext, bind, Except.bind, pure,
              Except.pure] at h

theorem anchorOf_of_exhausts (h : Exhausts py cursor) :
    py.anchorOf cursor = .error .recursionError := by
  unfold StampReaders.anchorOf
  cases h with
  | payload text hascii htext hdeep =>
    have hpayload : py.payloadOf cursor = .error .recursionError := by
      rw [StampReaders.payloadOf, if_pos hascii, htext]
      dsimp only
      rw [hdeep]
    rw [hpayload]
    rfl
  | id payload before lastId at_ hpayload hbefore hat hlastId hdeep =>
    simp [hpayload, hbefore, hat, hlastId, hdeep, bind, Except.bind]

/-- **A cursor decodes, or is refused, or exhausts the stack.**
SOURCE: paging.py:31-48 -/
theorem decodeCursor_cases (py : StampReaders) (cursor : String) :
    (¬ Exhausts py cursor ∧ ((∃ anchor, py.decodeCursor cursor = .ok anchor) ∨
      py.decodeCursor cursor = .error .valueError)) ∨
    (Exhausts py cursor ∧ py.decodeCursor cursor = .error .recursionError) := by
  unfold StampReaders.decodeCursor
  by_cases hexhausts : Exhausts py cursor
  · rw [anchorOf_of_exhausts hexhausts]
    exact .inr ⟨hexhausts, rfl⟩
  · refine .inl ⟨hexhausts, ?_⟩
    cases hanchor : py.anchorOf cursor with
    | ok anchor => exact .inl ⟨anchor, rfl⟩
    | error e =>
      have hcaught := (anchorOf_error hanchor).resolve_right hexhausts
      cases e with
      | recursionError => exact absurd rfl hcaught
      | valueError | keyError | typeError => exact .inr rfl

end

/-! ## The lists -/

/-- The sessions after an anchor, when they are of one kind.
SOURCE: sessions/index.py:284-296 -/
theorem clean_resumeSessions_iff {anchor : StampKey} {rows : List SessionRow}
    (h : Uniform SessionRow.key rows) :
    Clean (resumeSessions anchor rows) ↔
      ∀ s ∈ rows, (s.startedAt.Aware ↔ anchor.1.Aware) := by
  induction rows with
  | nil => simp [Clean, resumeSessions]
  | cons s rows ih =>
    by_cases hsame : s.startedAt.Aware ↔ anchor.1.Aware
    · have hall : ∀ r ∈ s :: rows, (r.startedAt.Aware ↔ anchor.1.Aware) := by
        intro r hr
        exact (h r hr s List.mem_cons_self).trans hsame
      refine iff_of_true ?_ hall
      have hrest := (ih fun a ha b hb => h a (List.mem_cons_of_mem s ha) b
        (List.mem_cons_of_mem s hb)).mpr fun r hr => hall r (List.mem_cons_of_mem s hr)
      rw [resumeSessions, PyStamp.lt, if_pos hsame]
      show Clean (if _ then _ else _)
      split_ifs
      · intro e he
        cases he
      · exact hrest
    · refine iff_of_false (fun hclean => ?_) fun hall => hsame (hall s List.mem_cons_self)
      have hraised : resumeSessions anchor (s :: rows) = .error .typeError := by
        rw [resumeSessions, PyStamp.lt, if_neg hsame]
        rfl
      exact absurd (hclean _ hraised) (by decide)

/-- The segments after an anchor: the comparison of aware datetimes does not raise.
SOURCE: sessions/segments.py:327-330 -/
theorem clean_resumeSegments (anchor : StampKey) (rows : List SegmentRow) :
    Clean (resumeSegments anchor rows) := by
  induction rows with
  | nil =>
    intro e he
    cases he
  | cons s rows ih =>
    obtain ⟨after, hafter⟩ : ∃ after, StampKey.lt (s.startedAt.asAware, s.id)
        (anchor.1.asAware, anchor.2) = .ok after := by
      apply lt_of_aware_iff
      simp [PyStamp.Aware, PyStamp.asAware]
    rw [resumeSegments, hafter]
    cases hrest : resumeSegments anchor rows with
    | ok rest =>
      intro e he
      cases he
    | error e' =>
      intro e he
      cases he
      exact ih _ hrest

theorem clean_ok {α : Type} (a : α) : Clean (.ok a : Except Raised α) := by
  intro e he
  cases he

theorem clean_error_iff {α : Type} {e : Raised} :
    Clean (.error e : Except Raised α) ↔ e = .valueError := by
  constructor
  · intro h
    exact h e rfl
  · rintro rfl e he
    exact (Except.error.inj he).symm

/-- **The rule for both lists**, which differ in what they do after the cursor is read. -/
theorem clean_list_iff {α : Type} (key : α → StampKey) (py : StampReaders) (limit : ℤ)
    (before : Option String) (rows : List α)
    (resume : StampKey → List α → Except Raised (List α)) :
    Clean (do
      if limit ≤ 0 then throw .valueError
      let ordered ← sortedRows key rows
      match before with
      | none => return pageOf limit ordered
      | some cursor =>
        let anchor ← py.decodeCursor cursor
        let ordered ← resume anchor ordered
        return pageOf limit ordered) ↔
      (0 < limit → Uniform key rows ∧ ∀ cursor ∈ before, ¬ Exhausts py cursor ∧
        ∀ anchor, py.decodeCursor cursor = .ok anchor →
          ∀ sorted, sortedRows key rows = .ok sorted → Clean (resume anchor sorted)) := by
  by_cases hlimit : limit ≤ 0
  · rw [if_pos hlimit]
    exact iff_of_true (clean_error_iff.mpr rfl) fun hpos => absurd hlimit (not_le.mpr hpos)
  · rw [if_neg hlimit]
    simp only [not_le.mp hlimit, true_implies]
    rcases sortedRows_cases key rows with ⟨huniform, sorted, hsorted, -⟩ | ⟨hmixed, hraised⟩
    · rw [hsorted]
      simp only [huniform, true_and, Except.ok.injEq, forall_eq']
      cases before with
      | none => exact iff_of_true (clean_ok _) (by simp)
      | some cursor =>
        simp only [Option.mem_some_iff, forall_eq']
        rcases decodeCursor_cases py cursor with
          ⟨hreads, ⟨anchor, hanchor⟩ | hrefused⟩ | ⟨hexhausts, hraised⟩
        · simp only [hreads, hanchor, not_false_eq_true, true_and, Except.ok.injEq, forall_eq']
          cases hresume : resume anchor sorted with
          | ok rest =>
            refine iff_of_true ?_ (clean_ok rest)
            show Clean (do
              let ordered ← resume anchor sorted
              return pageOf limit ordered)
            rw [hresume]
            exact clean_ok _
          | error e =>
            rw [clean_error_iff]
            show Clean (do
              let ordered ← resume anchor sorted
              return pageOf limit ordered) ↔ _
            rw [hresume]
            exact clean_error_iff
        · simp only [hreads, hrefused, not_false_eq_true, true_and, reduceCtorEq, false_implies,
            implies_true, iff_true]
          exact clean_error_iff.mpr rfl
        · simp only [hexhausts, hraised, not_true_eq_false, false_and, iff_false]
          exact fun hclean => absurd (clean_error_iff.mp hclean) (by decide)
    · rw [hraised]
      simp only [hmixed, false_and, iff_false]
      exact fun hclean => absurd (clean_error_iff.mp hclean) (by decide)

/-- **Every string is refused cleanly as a cursor, or gets its page, if and only if the limit is
not positive, or the rows are of one kind and the cursor does not exhaust the stack and, for
sessions, has a timestamp of the kind of the rows.**
SOURCE: paging.py:31-48, sessions/index.py:265-305, sessions/segments.py:302-335 -/
theorem clean_iff (py : StampReaders) (limit : ℤ) (before sessionId : Option String)
    (summaries : List SessionRow) (segments : List SegmentRow) :
    (Clean (listSessions py limit before summaries) ↔
        SessionsComparable py limit before summaries) ∧
      (Clean (listSegments py limit before sessionId segments) ↔
        SegmentsComparable py limit before sessionId segments) := by
  constructor
  · refine (clean_list_iff SessionRow.key py limit before summaries resumeSessions).trans ?_
    unfold SessionsComparable
    refine imp_congr_right fun _ => and_congr_right fun huniform => forall₂_congr fun cursor _ =>
      and_congr_right fun _ => forall₂_congr fun anchor _ => ?_
    rcases sortedRows_cases SessionRow.key summaries with
      ⟨-, sorted, hsorted, hperm⟩ | ⟨hmixed, -⟩
    · have huniform' : Uniform SessionRow.key sorted := fun a ha b hb =>
        huniform a (hperm.subset ha) b (hperm.subset hb)
      simp only [hsorted, Except.ok.injEq, forall_eq', clean_resumeSessions_iff huniform',
        hperm.mem_iff]
    · exact absurd huniform hmixed
  · refine (clean_list_iff SegmentRow.key py limit before (segmentCandidates sessionId segments)
      resumeSegments).trans ?_
    unfold SegmentsComparable
    refine imp_congr_right fun _ => and_congr_right fun _ => forall₂_congr fun cursor _ => ?_
    exact and_iff_left fun anchor _ sorted _ => clean_resumeSegments anchor sorted

/-! ## A cursor without an offset -/

/-- Readers with the limits of an interpreter, and no other forms of timestamps. -/
def plainReaders : StampReaders where
  limits := ⟨1000, 4300⟩
  str _ := none
  isoTime _ := none

/-- The payload of a cursor whose timestamp has no offset. -/
def naiveText : List Char :=
  JsonText.objectText [(beforeKey, "2026-01-01T00:00:00".toList), (lastIdKey, ['s'])]

theorem decodeCursor_naiveText : plainReaders.decodeCursor (cursorOfText naiveText) =
    .ok (⟨63902822400000000, none⟩, [115]) := by
  obtain ⟨hascii, htext⟩ := read_cursorOfText naiveText
  have hpayload : plainReaders.payloadOf (cursorOfText naiveText) =
      .ok (.object [(beforeKey.map Char.toNat, .string ("2026-01-01T00:00:00".toList.map Char.toNat)),
        (lastIdKey.map Char.toNat, .string [115])]) := by
    rw [StampReaders.payloadOf, if_pos hascii, htext]
    rfl
  rw [StampReaders.decodeCursor, StampReaders.anchorOf, hpayload]
  rfl

/-- A session with an offset, and a cursor without one. -/
theorem not_always_clean :
    ¬ ∀ (py : StampReaders) (limit : ℤ) (before sessionId : Option String)
      (summaries : List SessionRow) (segments : List SegmentRow),
      Clean (listSessions py limit before summaries) ∧
        Clean (listSegments py limit before sessionId segments) := by
  intro h
  have hclean := (h plainReaders 10 (some (cursorOfText naiveText)) none
    [⟨⟨63902822400000000, some 0⟩, [97]⟩] []).1
  have hraised : listSessions plainReaders 10 (some (cursorOfText naiveText))
      [⟨⟨63902822400000000, some 0⟩, [97]⟩] = .error .typeError := by
    unfold listSessions
    dsimp only
    rw [decodeCursor_naiveText]
    rfl
  exact absurd (hclean _ hraised) (by decide)

end OpenRecall.Analysis.CursorErrors
