import OpenRecall.Model.Manifest

/-!
# What trimming leaves of the manifest

A request is refused, and nothing is touched, when its body cannot be parsed. Otherwise a manifest
that is read whole and stored whole keeps exactly the lines that were not consumed. One that was cut
off inside a line by the buffer is left alone, and so is one that cannot be opened again.
-/

set_option autoImplicit false

namespace OpenRecall.Analysis.ManifestTrim

open Foundation OpenRecall.Model OpenRecall.Model.Manifest

/-! ## What is asked -/

/-- The line is an entry whose path is among the names. -/
def Lists (names : List Bytes) (line : Bytes) : Prop :=
  ∃ entry ∈ manifestParse line, entry.path ∈ names

instance (names : List Bytes) (line : Bytes) : Decidable (Lists names line) :=
  inferInstanceAs (Decidable (∃ entry ∈ manifestParse line, entry.path ∈ names))

def ReadFails (env : CardEnv) : Prop := env.readOpens = false ∨ env.readError.isSome

def RewriteFails (env : CardEnv) : Prop := env.rewriteOpens = false ∨ env.writeError.isSome

/-- The names of a request, when it can be parsed. -/
def namesOf (body : Bytes) : Option (List Bytes) :=
  consumedParse (body.take (consumedBodyCap - 1)) consumedMaxNames

/-- What the handler sees to: what it refuses leaves the manifest, and so does what it cannot read
to the end of a line or open again; what it reads and stores whole has the lines that are short
enough to be looked at and were consumed taken out. -/
structure Trims (env : CardEnv) (body manifest : Bytes) : Prop where
  refused : env.bodyBuffer = false ∨ namesOf body = none →
    (consumedHandler env body manifest).manifest = manifest
  left : ∀ names, namesOf body = some names → names.any env.unlinksManifest = false →
    env.trimBuffers = false ∨ truncated (readManifest env manifest) = true ∨
      env.rewriteOpens = false →
    (consumedHandler env body manifest).manifest = manifest
  trimmed : ∀ names, namesOf body = some names → names.any env.unlinksManifest = false →
    env.bodyBuffer = true → env.trimBuffers = true → readManifest env manifest = manifest →
    truncated manifest = false → ¬ RewriteFails env →
    linesOf (consumedHandler env body manifest).manifest =
      (linesOf manifest).filter fun line => ¬ (line.length < lineBufCap ∧ Lists names line)

/-! ## Lines -/

theorem keeps_eq (names : List Bytes) (line : Bytes) :
    keeps names line = decide (¬ (line.length < lineBufCap ∧ Lists names line)) := by
  rw [Bool.eq_iff_iff, decide_eq_true_iff]
  unfold keeps Lists
  by_cases hshort : line.length < lineBufCap
  · cases manifestParse line with
    | none => simp [hshort]
    | some entry => simp [hshort]
  · simp [hshort]

/-- The lines of what is written are the lines that stay. -/
theorem linesOf_trimmed (names : List Bytes) (manifest : Bytes) :
    linesOf (trimmed names manifest) =
      (linesOf manifest).filter fun line => ¬ (line.length < lineBufCap ∧ Lists names line) := by
  have hkept : linesOf (trimmed names manifest) = (linesOf manifest).filter (keeps names) := by
    apply SpacedWords.words_flatMap_append_space (by simp)
    intro line hline
    exact SpacedWords.of_mem_words (List.mem_filter.mp hline).1
  rw [hkept]
  apply List.filter_congr
  intro line _
  exact keeps_eq names line

/-! ## The handler -/

variable {env : CardEnv} {body manifest : Bytes} {names : List Bytes}

theorem consumedHandler_of_names (hbuffer : env.bodyBuffer = true)
    (hnames : namesOf body = some names) (hother : names.any env.unlinksManifest = false) :
    consumedHandler env body manifest = trimManifest env names manifest := by
  unfold namesOf at hnames
  simp [consumedHandler, hbuffer, hnames, hother]

/-- **A request takes out of the manifest what was consumed and nothing else**, or leaves it.
SOURCE: transfer.c:170-291, sd_store.c:91-104, sd_store.c:135-146, media_index.c:17-50 -/
theorem trims (env : CardEnv) (body manifest : Bytes) : Trims env body manifest where
  refused := by
    rintro (hbuffer | hnames)
    · simp [consumedHandler, hbuffer]
    · unfold namesOf at hnames
      unfold consumedHandler
      rw [hnames]
      split_ifs <;> simp
  left := by
    intro names hnames hother hleft
    cases hbuffer : env.bodyBuffer with
    | false => simp [consumedHandler, hbuffer]
    | true =>
      rw [consumedHandler_of_names hbuffer hnames hother]
      unfold trimManifest
      rcases hleft with htrim | hcut | hopen
      · simp [htrim]
      · dsimp only
        rw [if_pos hcut]
        split_ifs <;> simp
      · dsimp only
        split_ifs
        · simp
        · simp [rewrite, hopen]
        · simp
  trimmed := by
    intro names hnames hother hbuffer htrim hread hcut hrewrite
    have hopens : env.rewriteOpens = true := by
      by_contra hopen
      exact hrewrite (Or.inl (by simpa using hopen))
    have hwrite : env.writeError = none := by
      by_contra herror
      exact hrewrite (Or.inr (Option.isSome_iff_ne_none.mpr herror))
    rw [consumedHandler_of_names hbuffer hnames hother]
    have hmanifest : (trimManifest env names manifest).manifest =
        Manifest.trimmed names manifest := by
      simp [trimManifest, htrim, hread, hcut, rewrite, hopens, hwrite, upTo]
    rw [hmanifest, linesOf_trimmed]

/-! ## A request that is refused -/

/-- A card on which everything goes well. -/
def soundCard : CardEnv where
  unlinksManifest := fun _ => false

/-- The line `a|1|2|s`. -/
def oneLine : Bytes := [97, 124, 49, 124, 50, 124, 115, 10]

/-- The one line is taken out. -/
example : (consumedHandler soundCard [97, 10] oneLine).manifest = [] := by
  decide +kernel

/-- One name more than there may be, each the name `a`. -/
def tooMany : Bytes := (List.replicate (consumedMaxNames + 1) [97, 10]).flatten

/-- A request with too many names is refused, and no line is taken out. -/
theorem not_always_trimmed : ¬ ∀ (env : CardEnv) (body manifest : Bytes),
    env.bodyBuffer = true → env.trimBuffers = true →
    linesOf (consumedHandler env body manifest).manifest =
        (linesOf manifest).filter (fun line => ¬ Lists (linesOf body) line) ∨
      (ReadFails env ∨ RewriteFails env) ∧
        (consumedHandler env body manifest).manifest = manifest := by
  intro h
  rcases h soundCard tooMany oneLine (by simp [soundCard]) (by simp [soundCard]) with h | ⟨h, -⟩
  · revert h
    decide +kernel
  · simp [ReadFails, RewriteFails, soundCard] at h

end OpenRecall.Analysis.ManifestTrim
