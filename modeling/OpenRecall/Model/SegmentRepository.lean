import Mathlib

/-!
# The app's list of recordings

The repository pages through the server's segments and keeps what it has loaded. Its calls take
turns by a mutex, which is held while a page is awaited; a delete does not take it, so what it
removes may go while a page is on its way. A page is what the server answers at some time between
the call and its end.

Segments are kept as they come; what the list reads of one is its id.
-/

set_option autoImplicit false

namespace OpenRecall.Model

universe u v w x

/-- What the UI observes.
SOURCE: core/model/PagedResult.kt:9-30 -/
inductive PagedResult (α : Type u) (χ : Type v) (ε : Type w) where
  | loading
  | page (items : List α) (nextCursor : Option χ)
  | exhausted
  | error (cause : ε)

/-- The list endpoint: the segments after a cursor, or those that match a query.
SOURCE: data/SegmentApi.kt:19-25 -/
structure SegmentApi (σ : Type x) (α : Type u) (χ : Type v) (ε : Type w) where
  listSegments : ℕ → Option χ → Option String → σ → Except ε (List α × Option χ)

/-- SOURCE: data/SegmentRepository.kt:114-120 -/
structure SegmentRepository (α : Type u) (χ : Type v) (ε : Type w) where
  pages : PagedResult α χ ε := .loading
  loadErrors : Option ε := none
  accumulated : List α := []
  cursor : Option χ := none
  started : Bool := false
  exhausted : Bool := false
  query : String := ""

variable {σ : Type x} {α : Type u} {χ : Type v} {ε : Type w}

namespace SegmentRepository

/-- Segments per page.
SOURCE: data/SegmentRepository.kt:20 -/
def pageSize : ℕ := 20

/-- Kotlin's `Char.isWhitespace`. -/
def isWhitespace (c : Char) : Bool :=
  (0x09 ≤ c.toNat ∧ c.toNat ≤ 0x0D) ∨ (0x1C ≤ c.toNat ∧ c.toNat ≤ 0x20) ∨
    c.toNat ∈ [0xA0, 0x1680, 0x2028, 0x2029, 0x202F, 0x205F, 0x3000] ∨
    (0x2000 ≤ c.toNat ∧ c.toNat ≤ 0x200A)

/-- Kotlin's `String.trim`. -/
def trim (text : String) : String :=
  String.ofList ((text.toList.dropWhile isWhitespace).rdropWhile isWhitespace)

/-- The query of a request, `query.ifBlank { null }`. -/
def requestQuery (r : SegmentRepository α χ ε) : Option String :=
  if r.query.toList.all isWhitespace then none else some r.query

/-- The cursor of a page that is fetched.
SOURCE: data/SegmentRepository.kt:212 -/
def requestCursor (r : SegmentRepository α χ ε) : Option χ := if r.started then r.cursor else none

/-- Paging from the start.
SOURCE: data/SegmentRepository.kt:145-153 -/
def reset (r : SegmentRepository α χ ε) : SegmentRepository α χ ε where
  query := r.query

/-- A fetched page is appended.
SOURCE: data/SegmentRepository.kt:216-238 -/
def onFetched (page : List α × Option χ) (r : SegmentRepository α χ ε) :
    SegmentRepository α χ ε :=
  if page.1.isEmpty ∧ page.2.isNone then
    if r.accumulated.isEmpty then
      { r with
        started := true
        loadErrors := none
        pages := .exhausted
        exhausted := true }
    else
      { r with
        started := true
        loadErrors := none
        cursor := none
        pages := .page r.accumulated none
        exhausted := true }
  else
    { r with
      started := true
      loadErrors := none
      accumulated := r.accumulated ++ page.1
      cursor := page.2
      pages := .page (r.accumulated ++ page.1) page.2
      exhausted := r.exhausted || page.2.isNone || r.query ≠ "" }

/-- A page that cannot be fetched leaves the list.
SOURCE: data/SegmentRepository.kt:241-250 -/
def onFetchFailed (cause : ε) (r : SegmentRepository α χ ε) : SegmentRepository α χ ε :=
  if r.accumulated.isEmpty then { r with pages := .error cause }
  else
    { r with
      loadErrors := some cause
      pages := .page r.accumulated r.cursor }

/-- The fresh copy of a segment, `byId[it.id] ?: it`. -/
def freshCopy (id : α → String) (fresh : List α) (it : α) : α :=
  (fresh.reverse.find? fun s => id s = id it).getD it

/-- The fresh segments that are not known, and the known ones with their fresh copies.
SOURCE: data/SegmentRepository.kt:199-202 -/
def merged (id : α → String) (fresh accumulated : List α) : List α :=
  (fresh.filter fun s => id s ∉ accumulated.map id) ++ accumulated.map (freshCopy id fresh)

/-- The first page is folded into the list.
SOURCE: data/SegmentRepository.kt:182-205 -/
def onMerged (id : α → String) (page : List α × Option χ) (r : SegmentRepository α χ ε) :
    SegmentRepository α χ ε :=
  if r.accumulated.isEmpty then
    if page.1.isEmpty ∧ page.2.isNone then
      { r with
        started := true
        cursor := none
        exhausted := true
        pages := .exhausted }
    else
      { r with
        started := true
        accumulated := page.1
        cursor := page.2
        exhausted := page.2.isNone || r.query ≠ ""
        pages := .page page.1 page.2 }
  else
    { r with
      accumulated := merged id page.1 r.accumulated
      pages := .page (merged id page.1 r.accumulated) r.cursor }

/-- SOURCE: data/SegmentRepository.kt:308-312 -/
def republish (r : SegmentRepository α χ ε) : SegmentRepository α χ ε :=
  match r.pages with
  | .page _ _ => { r with pages := .page r.accumulated r.cursor }
  | _ => r

/-- SOURCE: data/SegmentRepository.kt:303-306 -/
def removeFromPage (id : α → String) (segmentId : String) (r : SegmentRepository α χ ε) :
    SegmentRepository α χ ε :=
  if r.accumulated.any fun s => id s = segmentId then
    republish { r with accumulated := r.accumulated.filter fun s => id s ≠ segmentId }
  else r

end SegmentRepository

/-! ## Calls -/

/-- A call that awaits a page: whether it folds the first page in, what it asked for, and the
response once the server has answered. -/
structure ListCall (α : Type u) (χ : Type v) (ε : Type w) where
  merges : Bool
  cursor : Option χ
  query : Option String
  response : Option (Except ε (List α × Option χ)) := none

/-- The server's state, the repository, and the call that holds the mutex. -/
structure RecordingsWorld (σ : Type x) (α : Type u) (χ : Type v) (ε : Type w) where
  server : σ
  repo : SegmentRepository α χ ε := {}
  call : Option (ListCall α χ ε) := none

/-- What happens: a call gets the mutex, its request is answered or fails on the way, the call goes
on with the response or is cancelled; a delete that succeeded removes its segment; the server's
state becomes another. -/
inductive RecordingsEvent (σ : Type x) (ε : Type w) where
  | loadMore
  | refresh (silent : Bool)
  | setQuery (query : String)
  | answer
  | fail (cause : ε)
  | resume
  | cancel
  | deleted (segmentId : String)
  | server (s : σ)

namespace RecordingsWorld

/-- SOURCE: data/SegmentRepository.kt:208-215 -/
def fetchPage (w : RecordingsWorld σ α χ ε) : RecordingsWorld σ α χ ε :=
  { w with call := some ⟨false, w.repo.requestCursor, w.repo.requestQuery, none⟩ }

/-- SOURCE: data/SegmentRepository.kt:169-181 -/
def mergeFirstPage (w : RecordingsWorld σ α χ ε) : RecordingsWorld σ α χ ε :=
  { w with call := some ⟨true, none, w.repo.requestQuery, none⟩ }

/-- SOURCE: data/SegmentRepository.kt:145-153 -/
def reload (w : RecordingsWorld σ α χ ε) : RecordingsWorld σ α χ ε :=
  fetchPage { w with repo := w.repo.reset }

/-- What a call does with the mutex held.
SOURCE: data/SegmentRepository.kt:132-142 -/
def begin_ (w : RecordingsWorld σ α χ ε) : RecordingsEvent σ ε → RecordingsWorld σ α χ ε
  | .loadMore => if w.repo.exhausted then w else w.fetchPage
  | .refresh silent => if silent then w.mergeFirstPage else w.reload
  | .setQuery query =>
    if SegmentRepository.trim query = w.repo.query then w
    else reload { w with repo := { w.repo with query := SegmentRepository.trim query } }
  | _ => w

/-- The request reaches the server, or fails; a request is answered once. -/
def respond (response : ListCall α χ ε → Except ε (List α × Option χ))
    (w : RecordingsWorld σ α χ ε) : RecordingsWorld σ α χ ε :=
  match w.call with
  | some c =>
    if c.response.isNone then { w with call := some { c with response := some (response c) } }
    else w
  | none => w

/-- The call goes on with its response, and gives the mutex back.
SOURCE: data/SegmentRepository.kt:169-251 -/
def resume (id : α → String) (w : RecordingsWorld σ α χ ε) : RecordingsWorld σ α χ ε :=
  match w.call with
  | some ⟨false, _, _, some (.ok page)⟩ =>
    { w with
      repo := w.repo.onFetched page
      call := none }
  | some ⟨false, _, _, some (.error cause)⟩ =>
    { w with
      repo := w.repo.onFetchFailed cause
      call := none }
  | some ⟨true, _, _, some (.ok page)⟩ =>
    { w with
      repo := w.repo.onMerged id page
      call := none }
  | some ⟨true, _, _, some (.error _)⟩ => { w with call := none }
  | _ => w

/-- One event. While a call holds the mutex another one waits for it. -/
def step (api : SegmentApi σ α χ ε) (id : α → String) (w : RecordingsWorld σ α χ ε) :
    RecordingsEvent σ ε → RecordingsWorld σ α χ ε
  | .answer => w.respond fun c => api.listSegments SegmentRepository.pageSize c.cursor c.query w.server
  | .fail cause => w.respond fun _ => .error cause
  | .resume => w.resume id
  | .cancel => { w with call := none }
  | .deleted segmentId => { w with repo := w.repo.removeFromPage id segmentId }
  | .server s => { w with server := s }
  | e => if w.call.isSome then w else w.begin_ e

end RecordingsWorld

end OpenRecall.Model
