import OpenRecall.Model.VisionRetention

/-!
# Which images the retention sweep keeps

An image is stored once, under its hash, and every scene of it refers to that hash. The sweep
deletes the image as soon as it meets one scene that is too old. `retained_iff` says exactly
when no scene that is recent enough loses its image: no image has scenes on both sides of the
cutoff.
-/

set_option autoImplicit false

namespace OpenRecall.Analysis.ImageRetention

open Foundation OpenRecall.Model

/-- The atom is a scene of the image with this digest. -/
def RefersTo (digest : String) (atom : MemoryAtom) : Prop :=
  atom.kind = "scene" ∧ atom.sourceEventId = "blob:" ++ digest

/-- A blob is gone after the sweep only if every scene of it is older than the cutoff, and every
blob that has scenes, all of them older, is gone. -/
structure Retained (cutoff : Time) (atoms : List MemoryAtom) (before after : InMemoryBlobStore) :
    Prop where
  kept : ∀ digest, before.has digest → ¬ after.has digest →
    ∀ atom ∈ atoms, RefersTo digest atom → atom.OlderThan cutoff
  swept : ∀ digest, (∃ atom ∈ atoms, RefersTo digest atom) →
    (∀ atom ∈ atoms, RefersTo digest atom → atom.OlderThan cutoff) → ¬ after.has digest

/-- The condition: the scenes of a stored image are all older than the cutoff if one of them
is. -/
def OnOneSide (cutoff : Time) (atoms : List MemoryAtom) (blobs : InMemoryBlobStore) : Prop :=
  ∀ digest, blobs.has digest → ∀ atom ∈ atoms, RefersTo digest atom → atom.OlderThan cutoff →
    ∀ atom' ∈ atoms, RefersTo digest atom' → atom'.OlderThan cutoff

/-- One turn of the sweep deletes the image of a scene that is too old.
SOURCE: vision/retention.py:27-36 -/
theorem has_sweepAtom (cutoff : Time) (turn : ℕ × InMemoryBlobStore) (atom : MemoryAtom)
    (digest : String) :
    (sweepAtom cutoff turn atom).2.has digest ↔
      turn.2.has digest ∧ ¬ (RefersTo digest atom ∧ atom.OlderThan cutoff) := by
  unfold sweepAtom RefersTo
  by_cases hkind : atom.kind = "scene"
  · by_cases hold : atom.OlderThan cutoff
    · rw [if_neg (not_not_intro hkind), if_neg (not_not_intro hold), ← blobDigest_eq_some_iff]
      cases hdigest : blobDigest atom.sourceEventId with
      | none => simp
      | some swept =>
        dsimp only
        split_ifs with hhas
        · rw [InMemoryBlobStore.has_delete]
          simp [hkind, hold, and_comm, eq_comm]
        · simp only [hkind, hold, Option.some.injEq, true_and, and_true]
          refine (and_iff_left_of_imp fun hother heq => hhas ?_).symm
          rwa [heq]
    · simp [hold]
  · simp [hkind]

/-- **A sweep deletes the images of the scenes that are too old**, whatever else refers to them.
SOURCE: vision/retention.py:18-37 -/
theorem has_foldl_sweepAtom (cutoff : Time) (atoms : List MemoryAtom)
    (turn : ℕ × InMemoryBlobStore) (digest : String) :
    (atoms.foldl (sweepAtom cutoff) turn).2.has digest ↔
      turn.2.has digest ∧ ∀ atom ∈ atoms, RefersTo digest atom → ¬ atom.OlderThan cutoff := by
  induction atoms generalizing turn with
  | nil => simp
  | cons atom atoms ih =>
    rw [List.foldl_cons, ih, has_sweepAtom, List.forall_mem_cons, not_and, and_assoc]

/-- **After a sweep the images are those that the policy keeps, if and only if no stored image has
both a scene that is older than the cutoff and one that is not.**
SOURCE: vision/retention.py:18-37 -/
theorem retained_iff {snapshotDays : ℤ} (hdays : 0 < snapshotDays) (now : Time)
    (atoms : List MemoryAtom) (blobs : InMemoryBlobStore) :
    Retained (visionCutoff snapshotDays now) atoms blobs
        (sweepVisionRetention atoms blobs snapshotDays now).2 ↔
      OnOneSide (visionCutoff snapshotDays now) atoms blobs := by
  rw [sweepVisionRetention, if_neg (not_le.mpr hdays)]
  constructor
  · intro h digest hhas atom hatom hrefers hold
    apply h.kept digest hhas
    rw [has_foldl_sweepAtom]
    exact fun hkept => hkept.2 atom hatom hrefers hold
  · intro h
    refine ⟨fun digest hhas hgone => ?_, fun digest hscene hold hkept => ?_⟩
    · rw [has_foldl_sweepAtom] at hgone
      push Not at hgone
      obtain ⟨atom, hatom, hrefers, hold⟩ := hgone hhas
      exact h digest hhas atom hatom hrefers hold
    · obtain ⟨atom, hatom, hrefers⟩ := hscene
      rw [has_foldl_sweepAtom] at hkept
      exact hkept.2 atom hatom hrefers (hold atom hatom hrefers)

/-! ## A picture that is taken twice -/

/-- A vision pipeline under which every image has the digest `d`. -/
def plainPipeline : VisionPipeline where
  sha256Hex _ := "d"
  caption _ _ := some "a desk"

/-- The blobs and the atoms after the image is captured in one session, and later in another. -/
def capturedTwice (first second : Time) : InMemoryBlobStore × InMemoryAtomStore :=
  let once := (plainPipeline.capture ⟨some "s1", [1], 0, "image/jpeg", none⟩ first {} {}).2
  (plainPipeline.capture ⟨some "s2", [1], 0, "image/jpeg", none⟩ second once.1 once.2).2

/-- Two scenes of one image that are both old: the image goes. -/
theorem retained_capturedTwice :
    Retained (visionCutoff 30 (10 ^ 13)) (capturedTwice 0 1).2.iterAtoms (capturedTwice 0 1).1
      (sweepVisionRetention (capturedTwice 0 1).2.iterAtoms (capturedTwice 0 1).1 30
        (10 ^ 13)).2 := by
  have hold : ∀ atom ∈ (capturedTwice 0 1).2.iterAtoms,
      atom.OlderThan (visionCutoff 30 (10 ^ 13)) := by decide +kernel
  apply (retained_iff (by decide) _ _ _).mpr
  intro digest _ _ _ _ _ atom hatom _
  exact hold atom hatom

/-- The scene of the second session is recent, and its image is gone with the old one. -/
theorem not_always_retained :
    ¬ ∀ (snapshotDays : ℤ) (now : Time) (atoms : List MemoryAtom) (blobs : InMemoryBlobStore),
      0 < snapshotDays → Retained (visionCutoff snapshotDays now) atoms blobs
        (sweepVisionRetention atoms blobs snapshotDays now).2 := by
  intro h
  have hretained := h 30 (10 ^ 13) (capturedTwice 0 (10 ^ 13)).2.iterAtoms
    (capturedTwice 0 (10 ^ 13)).1 (by decide)
  have hold := hretained.kept "d" (by decide +kernel) (by decide +kernel)
    (plainPipeline.sceneAtom ⟨some "s2", [1], 0, "image/jpeg", none⟩ (10 ^ 13) "a desk")
    (by decide +kernel) ⟨rfl, rfl⟩
  revert hold
  decide +kernel

end OpenRecall.Analysis.ImageRetention
