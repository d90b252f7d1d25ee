import OpenRecall.Model.DirectWriters

/-!
# The retention sweep over snapshot images

The sweeper walks the atoms of the store. For each scene that is too old it deletes the image
the scene came from, which is stored under the hash that the scene refers to.
-/

set_option autoImplicit false

namespace OpenRecall.Model

open Foundation

namespace InMemoryBlobStore

/-- SOURCE: media/blob.py:52-53 -/
def has (digest : String) (store : InMemoryBlobStore) : Prop := digest ∈ store.blobs.keys

instance (digest : String) (store : InMemoryBlobStore) : Decidable (store.has digest) :=
  inferInstanceAs (Decidable (digest ∈ store.blobs.keys))

/-- SOURCE: media/blob.py:55-56 -/
def delete (digest : String) (store : InMemoryBlobStore) : InMemoryBlobStore :=
  ⟨store.blobs.erase digest⟩

theorem has_delete (digest other : String) (store : InMemoryBlobStore) :
    (store.delete digest).has other ↔ other ≠ digest ∧ store.has other :=
  Dict.mem_keys_erase _ _ _

end InMemoryBlobStore

/-- All atoms, session after session.
SOURCE: memory/store.py:239-240, memory/store.py:273-275 -/
def InMemoryAtomStore.iterAtoms (st : InMemoryAtomStore) : List MemoryAtom :=
  st.bySession.values.flatten

/-- How a reference to a blob begins. -/
def blobScheme : List Char := "blob:".toList

/-- The digest of a reference to a blob.
SOURCE: vision/retention.py:31-33 -/
def blobDigest (src : String) : Option String :=
  if blobScheme.isPrefixOf src.toList then some (String.ofList (src.toList.drop blobScheme.length))
  else none

theorem blobDigest_eq_some_iff (src digest : String) :
    blobDigest src = some digest ↔ src = "blob:" ++ digest := by
  rw [← String.toList_inj, String.toList_append, blobDigest]
  by_cases hprefix : blobScheme.isPrefixOf src.toList
  · obtain ⟨rest, hrest⟩ := List.isPrefixOf_iff_prefix.mp hprefix
    rw [if_pos hprefix, ← hrest, List.drop_left, Option.some.injEq]
    constructor
    · rintro rfl
      simp [blobScheme]
    · intro h
      rw [List.append_cancel_left h, String.ofList_toList]
  · rw [if_neg hprefix]
    refine iff_of_false nofun fun h => hprefix (List.isPrefixOf_iff_prefix.mpr ?_)
    exact ⟨digest.toList, h.symm⟩

/-- An atom without a time is not older than any cutoff.
SOURCE: vision/retention.py:29 -/
def MemoryAtom.OlderThan (cutoff : Time) (atom : MemoryAtom) : Prop :=
  ∃ at_ ∈ atom.occurredAt, at_ < cutoff

instance (cutoff : Time) (atom : MemoryAtom) : Decidable (atom.OlderThan cutoff) :=
  inferInstanceAs (Decidable (∃ at_ ∈ atom.occurredAt, at_ < cutoff))

/-- One turn of the sweep, with the number of blobs deleted so far.
SOURCE: vision/retention.py:26-36 -/
def sweepAtom (cutoff : Time) (turn : ℕ × InMemoryBlobStore) (atom : MemoryAtom) :
    ℕ × InMemoryBlobStore :=
  if atom.kind ≠ "scene" then turn
  else if ¬ atom.OlderThan cutoff then turn
  else
    match blobDigest atom.sourceEventId with
    | none => turn
    | some digest =>
      if turn.2.has digest then (turn.1 + 1, turn.2.delete digest) else turn

/-- SOURCE: vision/retention.py:24 -/
def visionCutoff (snapshotDays : ℤ) (now : Time) : Time := now - snapshotDays * 86400 * 1000000

/-- How many blobs were deleted, and the blobs that are left, after a sweep over the atoms that
the store yields.
SOURCE: vision/retention.py:18-37 -/
def sweepVisionRetention (atoms : List MemoryAtom) (blobs : InMemoryBlobStore) (snapshotDays : ℤ)
    (now : Time) : ℕ × InMemoryBlobStore :=
  if snapshotDays ≤ 0 then (0, blobs)
  else atoms.foldl (sweepAtom (visionCutoff snapshotDays now)) (0, blobs)

end OpenRecall.Model
