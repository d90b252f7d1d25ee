import Mathlib

/-!
# The words of a text

`words` cuts a list at the elements that count as space and leaves out what is empty. It turns a
join into a concatenation (`words_append_space`, `words_intercalate`), and joining the words of a
text and cutting again gives the same words.

`trim` drops the elements of a kind from both ends. Trimming space leaves the words (`words_trim`),
and when what is trimmed is no space, a word of a trimmed text is a word of the text up to trimming
(`exists_mem_words_of_trim`).
-/

set_option autoImplicit false

namespace Foundation.SpacedWords

universe u

variable {α : Type u} (p : α → Bool)

/-- The longest runs without space, in their order. -/
def words (l : List α) : List (List α) := (l.splitOnP p).filter fun w => !w.isEmpty

variable {p}

@[simp] theorem words_nil : words p [] = [] := by simp [words, List.splitOnP_nil]

/-- A space separates the words before it from those after it. -/
theorem words_append_space {s : α} (hs : p s = true) (xs ys : List α) :
    words p (xs ++ s :: ys) = words p xs ++ words p ys := by
  rw [words, List.splitOnP_append_cons xs ys hs, List.filter_append]
  rfl

/-- A list without space is one word, or none when it is empty. -/
theorem words_of_forall {l : List α} (h : ∀ c ∈ l, p c = false) :
    words p l = if l = [] then [] else [l] := by
  rw [words, List.splitOnP_eq_singleton h]
  cases l <;> simp

theorem words_singleton {w : List α} (hne : w ≠ []) (h : ∀ c ∈ w, p c = false) :
    words p w = [w] := by
  rw [words_of_forall h, if_neg hne]

/-- A list has no space, or is cut at its first one. -/
theorem first_space (l : List α) : (∀ c ∈ l, p c = false) ∨
    ∃ xs s ys, l = xs ++ s :: ys ∧ p s = true ∧ ∀ c ∈ xs, p c = false := by
  induction l with
  | nil => simp
  | cons c l ih =>
    cases hc : p c with
    | true => exact Or.inr ⟨[], c, l, rfl, hc, by simp⟩
    | false =>
      rcases ih with h | ⟨xs, s, ys, rfl, hs, hxs⟩
      · exact Or.inl fun d hd => by
          rcases List.mem_cons.mp hd with rfl | hd
          · exact hc
          · exact h d hd
      · refine Or.inr ⟨c :: xs, s, ys, rfl, hs, fun d hd => ?_⟩
        rcases List.mem_cons.mp hd with rfl | hd
        · exact hc
        · exact hxs d hd

/-- A list has no space, or is cut at its last one. -/
theorem last_space (l : List α) : (∀ c ∈ l, p c = false) ∨
    ∃ xs s ys, l = xs ++ s :: ys ∧ p s = true ∧ ∀ c ∈ ys, p c = false := by
  rcases first_space (p := p) l.reverse with h | ⟨xs, s, ys, hl, hs, hxs⟩
  · exact Or.inl fun c hc => h c (List.mem_reverse.mpr hc)
  · refine Or.inr ⟨ys.reverse, s, xs.reverse, ?_, hs, fun c hc => hxs c (List.mem_reverse.mp hc)⟩
    rw [← List.reverse_reverse l, hl]
    simp

/-- Induction on a text, word by word. -/
@[elab_as_elim] theorem induction_on_words {motive : List α → Prop} (l : List α)
    (single : ∀ l, (∀ c ∈ l, p c = false) → motive l)
    (space : ∀ xs s ys, p s = true → (∀ c ∈ xs, p c = false) → motive ys →
      motive (xs ++ s :: ys)) : motive l := by
  induction hn : l.length using Nat.strong_induction_on generalizing l with
  | _ n ih =>
    rcases first_space (p := p) l with hl | ⟨xs, s, ys, rfl, hs, hxs⟩
    · exact single l hl
    · exact space xs s ys hs hxs (ih ys.length (by rw [← hn]; simp; omega) ys rfl)

/-- A word is not empty and has no space. -/
theorem of_mem_words {l w : List α} (h : w ∈ words p l) : w ≠ [] ∧ ∀ c ∈ w, p c = false := by
  induction l using induction_on_words (p := p) with
  | single l hl =>
    rw [words_of_forall hl] at h
    split_ifs at h with hnil
    · simp at h
    · obtain rfl := List.mem_singleton.mp h
      exact ⟨hnil, hl⟩
  | space xs s ys hs hxs ih =>
    rw [words_append_space hs, words_of_forall hxs, List.mem_append] at h
    rcases h with h | h
    · split_ifs at h with hnil
      · simp at h
      · obtain rfl := List.mem_singleton.mp h
        exact ⟨hnil, hxs⟩
    · exact ih h

/-- Only space has no word. -/
theorem forall_of_words_eq_nil {l : List α} (h : words p l = []) : ∀ c ∈ l, p c = true := by
  induction l using induction_on_words (p := p) with
  | single l hl =>
    rw [words_of_forall hl] at h
    split_ifs at h with hnil
    simp [hnil]
  | space xs s ys hs hxs ih =>
    rw [words_append_space hs, words_of_forall hxs, List.append_eq_nil_iff] at h
    split_ifs at h with hnil
    · simpa [hnil, hs] using ih h.2
    · simp at h

/-- A text of one word is that word among space. -/
theorem exists_of_words_eq_singleton {l w : List α} (h : words p l = [w]) :
    ∃ xs ys, l = xs ++ (w ++ ys) ∧ (∀ c ∈ xs, p c = true) ∧ ∀ c ∈ ys, p c = true := by
  induction l using induction_on_words (p := p) with
  | single l hl =>
    rw [words_of_forall hl] at h
    split_ifs at h with hnil
    exact ⟨[], [], by simpa using h, by simp, by simp⟩
  | space xs s ys hs hxs ih =>
    rw [words_append_space hs, words_of_forall hxs] at h
    split_ifs at h with hnil
    · obtain ⟨as, bs, rfl, has, hbs⟩ := ih h
      exact ⟨s :: as, bs, by simp [hnil], by simpa [hs] using has, hbs⟩
    · obtain ⟨rfl, hys⟩ := List.cons.inj h
      exact ⟨[], s :: ys, by simp, by simp, by simpa [hs] using forall_of_words_eq_nil hys⟩

/-- The words of a join are those of its parts. -/
theorem words_intercalate {s : α} (hs : p s = true) (ls : List (List α)) :
    words p ([s].intercalate ls) = ls.flatMap (words p) := by
  induction ls with
  | nil => simp [List.intercalate]
  | cons l ls ih =>
    cases ls with
    | nil => simp [List.intercalate]
    | cons l' ls =>
      have hjoin : [s].intercalate (l :: l' :: ls) = l ++ s :: [s].intercalate (l' :: ls) := by
        simp [List.intercalate]
      rw [hjoin, words_append_space hs, ih]
      simp

/-- What is in a join is the separator or in a part. -/
theorem mem_intercalate {ls : List (List α)} {c s : α} (h : c ∈ [s].intercalate ls) :
    c = s ∨ ∃ l ∈ ls, c ∈ l := by
  induction ls with
  | nil => simp [List.intercalate] at h
  | cons l ls ih =>
    cases ls with
    | nil => exact .inr ⟨l, by simp, by simpa [List.intercalate] using h⟩
    | cons l' ls =>
      have hjoin : [s].intercalate (l :: l' :: ls) = l ++ s :: [s].intercalate (l' :: ls) := by
        simp [List.intercalate]
      rw [hjoin, List.mem_append, List.mem_cons] at h
      rcases h with h | h | h
      · exact .inr ⟨l, by simp, h⟩
      · exact .inl h
      · exact (ih h).imp id fun ⟨k, hk, hc⟩ => ⟨k, List.mem_cons_of_mem l hk, hc⟩

/-- Joining words and cutting again gives the words. -/
theorem words_intercalate_of_words {s : α} (hs : p s = true) {ws : List (List α)}
    (h : ∀ w ∈ ws, w ≠ [] ∧ ∀ c ∈ w, p c = false) : words p ([s].intercalate ws) = ws := by
  rw [words_intercalate hs]
  induction ws with
  | nil => rfl
  | cons w ws ih =>
    obtain ⟨hne, hw⟩ := h w (by simp)
    rw [List.flatMap_cons, words_singleton hne hw, ih fun v hv => h v (by simp [hv])]
    rfl

/-- Words that each end with a space are found again. -/
theorem words_flatMap_append_space {s : α} (hs : p s = true) {ws : List (List α)}
    (h : ∀ w ∈ ws, w ≠ [] ∧ ∀ c ∈ w, p c = false) : words p (ws.flatMap (· ++ [s])) = ws := by
  induction ws with
  | nil => simp
  | cons w ws ih =>
    obtain ⟨⟨hne, hw⟩, hws⟩ := List.forall_mem_cons.mp h
    rw [List.flatMap_cons, List.append_assoc, List.singleton_append, words_append_space hs,
      words_singleton hne hw, ih hws, List.singleton_append]

/-! ## Trimming -/

/-- Drop what is of a kind from both ends. -/
def trim (q : α → Bool) (l : List α) : List α := (l.dropWhile q).rdropWhile q

variable {q : α → Bool}

theorem rdropWhile_cons (x : α) (xs : List α) :
    (x :: xs).rdropWhile q =
      if xs.rdropWhile q = [] then (if q x then [] else [x]) else x :: xs.rdropWhile q := by
  unfold List.rdropWhile
  rw [List.reverse_cons, List.dropWhile_append]
  by_cases hnil : xs.reverse.dropWhile q = []
  · simp only [hnil, List.isEmpty_nil, if_true, List.reverse_nil]
    cases hx : q x <;> simp [hx]
  · simp [hnil]

/-- The order of the two ends does not matter. -/
theorem trim_eq (l : List α) : trim q l = (l.rdropWhile q).dropWhile q := by
  unfold trim
  induction l with
  | nil => rfl
  | cons x xs ih =>
    rw [rdropWhile_cons]
    cases hx : q x with
    | true =>
      rw [List.dropWhile_cons_of_pos hx, ih]
      by_cases hnil : xs.rdropWhile q = []
      · simp [hnil]
      · rw [if_neg hnil, List.dropWhile_cons_of_pos hx]
    | false =>
      rw [List.dropWhile_cons_of_neg (by simp [hx]), rdropWhile_cons, hx]
      split_ifs <;> simp_all

theorem trim_append_left {d : List α} (hd : ∀ c ∈ d, q c = true) (l : List α) :
    trim q (d ++ l) = trim q l := by
  have hnil : d.dropWhile q = [] := by simpa using hd
  rw [trim, List.dropWhile_append, hnil]
  rfl

theorem trim_append_right {d : List α} (hd : ∀ c ∈ d, q c = true) (l : List α) :
    trim q (l ++ d) = trim q l := by
  have hnil : d.reverse.dropWhile q = [] := by simpa using hd
  rw [trim_eq, trim_eq, List.rdropWhile, List.rdropWhile, List.reverse_append,
    List.dropWhile_append, hnil]
  rfl

/-- Space at the start is in no word. -/
theorem words_dropWhile (l : List α) : words p (l.dropWhile p) = words p l := by
  induction l with
  | nil => rfl
  | cons c l ih =>
    cases hc : p c with
    | false => rw [List.dropWhile_cons_of_neg (by simp [hc])]
    | true =>
      rw [List.dropWhile_cons_of_pos hc, ih]
      exact (words_append_space hc [] l).symm.trans (by simp)

/-- Nor is space at the end. -/
theorem words_rdropWhile (l : List α) : words p (l.rdropWhile p) = words p l := by
  induction l using List.reverseRecOn with
  | nil => rfl
  | append_singleton l c ih =>
    rw [List.rdropWhile_concat]
    split_ifs with hc
    · rw [ih, words_append_space hc, words_nil, List.append_nil]
    · rfl

/-- Trimming the space of a text leaves its words. -/
theorem words_trim (l : List α) : words p (trim p l) = words p l := by
  rw [trim, words_rdropWhile, words_dropWhile]

/-- A text of one word is that word when its space is trimmed. -/
theorem trim_eq_of_words_eq_singleton {l w : List α} (h : words p l = [w]) : trim p l = w := by
  have hw : ∀ c ∈ w, p c = false := (of_mem_words (l := l) (by simp [h])).2
  obtain ⟨xs, ys, rfl, hxs, hys⟩ := exists_of_words_eq_singleton h
  have hleft : w.dropWhile p = w :=
    List.dropWhile_eq_self_iff.mpr fun hlen => by simp [hw _ (List.getElem_mem hlen)]
  have hright : w.rdropWhile p = w :=
    List.rdropWhile_eq_self_iff.mpr fun hne => by simp [hw _ (List.getLast_mem hne)]
  rw [trim_append_left hxs, trim_append_right hys, trim, hleft, hright]

/-- A word of a text without some trimmed end is a word of the text, up to trimming. -/
theorem exists_mem_words_of_append_left (hq : ∀ c, q c = true → p c = false) {d l w : List α}
    (hd : ∀ c ∈ d, q c = true) (h : w ∈ words p l) :
    ∃ v ∈ words p (d ++ l), trim q w = trim q v := by
  have hdp : ∀ c ∈ d, p c = false := fun c hc => hq c (hd c hc)
  rcases first_space (p := p) l with hl | ⟨xs, s, ys, rfl, hs, hxs⟩
  · have hdl : ∀ c ∈ d ++ l, p c = false := fun c hc => (List.mem_append.mp hc).elim (hdp c) (hl c)
    rw [words_of_forall hl] at h
    split_ifs at h with hnil
    · simp at h
    · obtain rfl := List.mem_singleton.mp h
      refine ⟨d ++ w, ?_, (trim_append_left hd w).symm⟩
      rw [words_singleton (by simp [hnil]) hdl]
      simp
  · have hdxs : ∀ c ∈ d ++ xs, p c = false :=
      fun c hc => (List.mem_append.mp hc).elim (hdp c) (hxs c)
    rw [words_append_space hs, words_of_forall hxs, List.mem_append] at h
    rw [← List.append_assoc, words_append_space hs]
    rcases h with h | h
    · split_ifs at h with hnil
      · simp at h
      · obtain rfl := List.mem_singleton.mp h
        refine ⟨d ++ w, ?_, (trim_append_left hd w).symm⟩
        rw [words_singleton (by simp [hnil]) hdxs]
        simp
    · exact ⟨w, List.mem_append_right _ h, rfl⟩

theorem exists_mem_words_of_append_right (hq : ∀ c, q c = true → p c = false) {d l w : List α}
    (hd : ∀ c ∈ d, q c = true) (h : w ∈ words p l) :
    ∃ v ∈ words p (l ++ d), trim q w = trim q v := by
  have hdp : ∀ c ∈ d, p c = false := fun c hc => hq c (hd c hc)
  rcases last_space (p := p) l with hl | ⟨xs, s, ys, rfl, hs, hys⟩
  · have hld : ∀ c ∈ l ++ d, p c = false := fun c hc => (List.mem_append.mp hc).elim (hl c) (hdp c)
    rw [words_of_forall hl] at h
    split_ifs at h with hnil
    · simp at h
    · obtain rfl := List.mem_singleton.mp h
      refine ⟨w ++ d, ?_, (trim_append_right hd w).symm⟩
      rw [words_singleton (by simp [hnil]) hld]
      simp
  · have hysd : ∀ c ∈ ys ++ d, p c = false :=
      fun c hc => (List.mem_append.mp hc).elim (hys c) (hdp c)
    rw [words_append_space hs, words_of_forall hys, List.mem_append] at h
    rw [List.append_assoc, List.cons_append, words_append_space hs]
    rcases h with h | h
    · exact ⟨w, List.mem_append_left _ h, rfl⟩
    · split_ifs at h with hnil
      · simp at h
      · obtain rfl := List.mem_singleton.mp h
        refine ⟨w ++ d, ?_, (trim_append_right hd w).symm⟩
        rw [words_singleton (by simp [hnil]) hysd]
        simp

/-- **A word of a trimmed text** is a word of the text up to trimming, when nothing that is trimmed
is space. -/
theorem exists_mem_words_of_trim (hq : ∀ c, q c = true → p c = false) {l w : List α}
    (h : w ∈ words p (trim q l)) : ∃ v ∈ words p l, trim q w = trim q v := by
  obtain ⟨v, hv, hwv⟩ : ∃ v ∈ words p (l.dropWhile q), trim q w = trim q v := by
    have hsplit := exists_mem_words_of_append_right hq
      (d := (l.dropWhile q).rtakeWhile q) (l := (l.dropWhile q).rdropWhile q)
      (fun c hc => List.mem_rtakeWhile_imp hc) h
    rwa [List.rdropWhile_append_rtakeWhile] at hsplit
  obtain ⟨u, hu, hvu⟩ := exists_mem_words_of_append_left hq (d := l.takeWhile q)
    (fun c hc => List.mem_takeWhile_imp hc) hv
  rw [List.takeWhile_append_dropWhile] at hu
  exact ⟨u, hu, hwv.trans hvu⟩

end Foundation.SpacedWords
