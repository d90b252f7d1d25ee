import OpenRecall.Model.Listings

/-!
# Retrieval

A query is embedded, the index gives the atoms that are most similar to it, four times as many as
are asked for, and these are scored again with their age and put in order.

The numbers are of any ordered field, with the functions that it does not have by itself, so that a
score can be taken as a real number.
-/

set_option autoImplicit false

namespace OpenRecall.Model

open Foundation

universe u

/-- The functions of the `math` library. -/
structure MathLib (R : Type u) where
  sqrt : R → R
  exp : R → R
  log : R → R

/-- A Python slice up to an index; one below zero counts from the end. -/
def sliceTo {α : Type u} (k : ℤ) (xs : List α) : List α :=
  if 0 ≤ k then xs.take k.toNat else xs.take (xs.length - (-k).toNat)

@[simp] theorem sliceTo_natCast {α : Type u} (n : ℕ) (xs : List α) :
    sliceTo (n : ℤ) xs = xs.take n := by
  simp [sliceTo]

/-- What an index holds: the atoms with their vectors, in the order in which they were added.
SOURCE: memory/index.py:90-103 -/
structure IndexedAtoms (R : Type u) where
  rows : List (MemoryAtom × List R) := []
  nodup : (rows.map fun r => r.1.atomId).Nodup := by simp

/-- Add an atom unless its id is there.
SOURCE: memory/index.py:94-99 -/
def IndexedAtoms.add {R : Type u} (atom : MemoryAtom) (vector : List R) (index : IndexedAtoms R) :
    IndexedAtoms R :=
  if h : atom.atomId ∈ index.rows.map fun r => r.1.atomId then index
  else ⟨index.rows ++ [(atom, vector)], by
    rw [List.map_append, List.map_singleton]
    exact index.nodup.append (List.nodup_singleton _) (by simpa using h)⟩

/-- SOURCE: memory/index.py:27-31 -/
structure SearchResult (R : Type u) where
  atom : MemoryAtom
  score : R
  vector : List R

/-- SOURCE: contracts/types.py:211-217 -/
structure RetrieverContext where
  queryText : String
  limit : ℤ := 10
  sessionId : Option String := none

namespace Retriever

/-- An atom of the results, with a score of `R`.
SOURCE: contracts/types.py:220-238 -/
structure ScoredAtom (R : Type u) where
  atomId : String
  sessionId : Option String
  kind : String
  text : String
  createdAt : Time
  startMs : ℤ
  score : R
  sourceEventId : String

/-- SOURCE: contracts/types.py:241-260 -/
structure RetrievedContext (R : Type u) where
  atoms : List (ScoredAtom R)
  retrievalStrategy : String
  scorerVersion : String
  topScore : Option R
  lowestScore : Option R
  returnedCount : ℕ
  candidateCount : ℕ
  sessionFilter : Option String
  retrievalTraceId : String

variable {R : Type u} [Field R] [LinearOrder R]

section

variable (math : MathLib R)

/-- SOURCE: memory/index.py:34-41, memory/scoring.py:35-42 -/
def cosine (a b : List R) : R :=
  let dot := (List.zipWith (· * ·) a b).sum
  let na := math.sqrt (a.map fun x => x * x).sum
  let nb := math.sqrt (b.map fun y => y * y).sum
  if na = 0 ∨ nb = 0 then 0 else dot / (na * nb)

/-- The most similar first; of two that are as similar the one that was added first.
SOURCE: memory/index.py:73-76 -/
def rank (rows : List (MemoryAtom × List R)) (query : List R) (k : ℤ) : List (SearchResult R) :=
  let scored := rows.map fun (a, v) => ⟨a, cosine math query v, v⟩
  sliceTo k (scored.insertionSort fun r s => s.score ≤ r.score)

/-- The rows of the session, or all.
SOURCE: memory/index.py:111-120 -/
def matching (sessionId : Option String) (index : IndexedAtoms R) : List (MemoryAtom × List R) :=
  match sessionId with
  | none => index.rows
  | some sid => index.rows.filter fun r => r.1.sessionId = some sid

/-- SOURCE: memory/index.py:111-121 -/
def search (sessionId : Option String) (query : List R) (k : ℤ) (index : IndexedAtoms R) :
    List (SearchResult R) :=
  rank math (matching sessionId index) query k

/-- The similarity, halved with each half-life of age.
SOURCE: memory/scoring.py:62-68 -/
def score (halfLifeS : R) (queryVec atomVec : List R) (ageS : R) : R :=
  let cos := cosine math queryVec atomVec
  if cos ≤ 0 then 0
  else
    let ageS := if ageS < 0 then 0 else ageS
    cos * math.exp (-math.log 2 * ageS / halfLifeS)

/-- The age of an atom, in seconds.
SOURCE: memory/retrieval.py:101 -/
def age (now : Time) (a : MemoryAtom) : R := max 0 ((now - a.timelineAt : ℤ) / 1000000)

/-- An atom with its score and its time, unless the score is not positive.
SOURCE: memory/retrieval.py:100-120 -/
def scoreAtom (halfLifeS : R) (queryVec : List R) (now : Time) (a : MemoryAtom) (v : List R) :
    Option (ScoredAtom R × Time) :=
  let score := score math halfLifeS queryVec v (age now a)
  if score ≤ 0 then none
  else some
    ({ atomId := a.atomId, sessionId := a.sessionId, kind := a.kind, text := a.text
       createdAt := a.createdAt, startMs := a.startMs, score, sourceEventId := a.sourceEventId },
      a.timelineAt)

/-- What the scored atoms are sorted by.
SOURCE: memory/retrieval.py:125-131 -/
def sortKey (p : ScoredAtom R × Time) : R ×ₗ ℤ ×ₗ String :=
  toLex (-p.1.score, toLex (-p.2, p.1.atomId))

/-- The half-life of seven days that the scorer has by default.
SOURCE: memory/scoring.py:57 -/
def defaultHalfLifeS : R := 7 * 24 * 3600

/-- The first atoms of those that the index finds.
SOURCE: memory/retrieval.py:86-146 -/
def retrieve (halfLifeS : R) (embed : String → List R) (now : Time) (traceId : String)
    (index : IndexedAtoms R) (ctx : RetrieverContext) : RetrievedContext R :=
  let queryVec := embed ctx.queryText
  let candidates := search math ctx.sessionId queryVec (ctx.limit * 4) index
  let scored := candidates.filterMap fun sr =>
    scoreAtom math halfLifeS queryVec now sr.atom sr.vector
  let sorted := scored.insertionSort fun p q => sortKey p ≤ sortKey q
  let atoms := sliceTo ctx.limit (sorted.map Prod.fst)
  { atoms
    retrievalStrategy := "sim_recency"
    scorerVersion := "v1"
    topScore := atoms.head?.map ScoredAtom.score
    lowestScore := atoms.getLast?.map ScoredAtom.score
    returnedCount := atoms.length
    candidateCount := candidates.length
    sessionFilter := ctx.sessionId
    retrievalTraceId := traceId }

end

end Retriever

end OpenRecall.Model
