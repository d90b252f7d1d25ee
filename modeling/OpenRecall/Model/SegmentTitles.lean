import OpenRecall.Foundation.Run
import OpenRecall.Foundation.Dict
import OpenRecall.Model.AgentAction
import OpenRecall.Model.Datetimes
import OpenRecall.Model.Segments
import OpenRecall.Model.StreamingTranscriber

/-!
# The titles of segments

The titler names a segment that has no title: it gives the transcript to the chat model, cleans the
reply and stores what is left. In the time that the model takes, the wearer may name the segment or
delete it. The titles are in memory or in SQLite, and both stores refuse the titler's write over a
title of the wearer's.
-/

set_option autoImplicit false

namespace OpenRecall.Model.SegmentTitles

open Foundation Datetimes

/-! ## The stores -/

/-- SOURCE: sessions/segment_meta.py:21 -/
def titleMaxChars : ℕ := 120

inductive TitleSource where
  | llm
  | user
  deriving DecidableEq

/-- SOURCE: sessions/segment_meta.py:24-29 -/
structure SegmentMeta where
  segmentId : String
  title : Option Text := none
  titleSource : Option TitleSource := none
  updatedAt : Option AwareTime := none
  deriving DecidableEq

/-- What the two stores have in common; `get` has no result when the row cannot be read, which
raises.
SOURCE: sessions/segment_meta.py:32-52 -/
structure SegmentMetaStore (σ : Type) where
  get : String → σ → Option (Option SegmentMeta)
  titlesFor : List String → σ → Dict String Text
  setTitle : AwareTime → String → Text → TitleSource → σ → Bool × σ
  delete : String → σ → Bool × σ

/-- `dict` of pairs: the last value of a key stays. -/
def dictOf (pairs : List (String × Text)) : Dict String Text :=
  pairs.foldl (fun d p => d.set p.1 p.2) .empty

/-- SOURCE: sessions/segment_meta.py:55-58 -/
structure InMemorySegmentMetaStore where
  rows : Dict String SegmentMeta := .empty

namespace InMemorySegmentMetaStore

/-- SOURCE: sessions/segment_meta.py:60-62 -/
def get (segmentId : String) (st : InMemorySegmentMetaStore) : Option SegmentMeta :=
  st.rows.get? segmentId

/-- A title that is not empty. -/
def titleOf (st : InMemorySegmentMetaStore) (segmentId : String) : Option (String × Text) :=
  match (st.rows.get? segmentId).bind SegmentMeta.title with
  | none | some [] => none
  | some title => some (segmentId, title)

/-- SOURCE: sessions/segment_meta.py:64-70 -/
def titlesFor (segmentIds : List String) (st : InMemorySegmentMetaStore) : Dict String Text :=
  dictOf (segmentIds.filterMap st.titleOf)

/-- SOURCE: sessions/segment_meta.py:72-83 -/
def setTitle (now : AwareTime) (segmentId : String) (title : Text) (source : TitleSource)
    (st : InMemorySegmentMetaStore) : Bool × InMemorySegmentMetaStore :=
  if source = .llm ∧ (st.rows.get? segmentId).bind SegmentMeta.titleSource = some .user then
    (false, st)
  else
    (true, ⟨st.rows.set segmentId
      { segmentId, title := some title, titleSource := some source, updatedAt := some now }⟩)

/-- SOURCE: sessions/segment_meta.py:85-87 -/
def delete (segmentId : String) (st : InMemorySegmentMetaStore) : Bool × InMemorySegmentMetaStore :=
  ((st.rows.get? segmentId).isSome, ⟨st.rows.erase segmentId⟩)

end InMemorySegmentMetaStore

def inMemoryStore : SegmentMetaStore InMemorySegmentMetaStore where
  get segmentId st := some (st.get segmentId)
  titlesFor := InMemorySegmentMetaStore.titlesFor
  setTitle := InMemorySegmentMetaStore.setTitle
  delete := InMemorySegmentMetaStore.delete

/-- A row of `segment_meta`.
SOURCE: sessions/segment_meta.py:102-107 -/
structure MetaRow where
  segmentId : String
  title : Option Text
  titleSource : Option TitleSource
  updatedAt : Option (List Char)

namespace MetaRow

/-- SOURCE: sessions/segment_meta.py:121-126 -/
def toMeta (r : MetaRow) : Option SegmentMeta :=
  match r.updatedAt with
  | none | some [] =>
    some { segmentId := r.segmentId, title := r.title, titleSource := r.titleSource }
  | some text => (AwareTime.fromIsoformat text).map fun updatedAt =>
      { segmentId := r.segmentId, title := r.title, titleSource := r.titleSource,
        updatedAt := some updatedAt }

end MetaRow

structure SqliteSegmentMetaStore where
  rows : List MetaRow := []

namespace SqliteSegmentMetaStore

/-- The row of a segment, whose id is the primary key. -/
def row? (segmentId : String) (st : SqliteSegmentMetaStore) : Option MetaRow :=
  st.rows.find? fun r => r.segmentId = segmentId

/-- The rows of the other segments. -/
def others (segmentId : String) (st : SqliteSegmentMetaStore) : List MetaRow :=
  st.rows.filter fun r => r.segmentId ≠ segmentId

/-- SOURCE: sessions/segment_meta.py:112-126 -/
def get (segmentId : String) (st : SqliteSegmentMetaStore) : Option (Option SegmentMeta) :=
  match st.row? segmentId with
  | none => some none
  | some r => r.toMeta.map some

/-- SOURCE: sessions/segment_meta.py:128-138 -/
def titlesFor (segmentIds : List String) (st : SqliteSegmentMetaStore) : Dict String Text :=
  if segmentIds = [] then .empty
  else dictOf ((st.rows.filter fun r => r.segmentId ∈ segmentIds).filterMap fun r =>
    r.title.map (r.segmentId, ·))

/-- The write of the titler: an insert, on whose conflict the row that is there is updated unless
its title is the wearer's.
SOURCE: sessions/segment_meta.py:146-155 -/
def upsertLlm (written : MetaRow) (st : SqliteSegmentMetaStore) : Bool × SqliteSegmentMetaStore :=
  match st.row? written.segmentId with
  | none => (true, ⟨st.rows ++ [written]⟩)
  | some old =>
    if old.titleSource = some .user then (false, st)
    else (true, ⟨st.rows.map fun r => if r.segmentId = written.segmentId then
      { r with title := written.title, titleSource := some .llm, updatedAt := written.updatedAt }
      else r⟩)

/-- SOURCE: sessions/segment_meta.py:140-168 -/
def setTitle (now : AwareTime) (segmentId : String) (title : Text) (source : TitleSource)
    (st : SqliteSegmentMetaStore) : Bool × SqliteSegmentMetaStore :=
  match source with
  | .llm => st.upsertLlm ⟨segmentId, some title, some .llm, some now.isoformat⟩
  | .user => (true, ⟨st.others segmentId ++
      [⟨segmentId, some title, some .user, some now.isoformat⟩]⟩)

/-- SOURCE: sessions/segment_meta.py:170-176 -/
def delete (segmentId : String) (st : SqliteSegmentMetaStore) : Bool × SqliteSegmentMetaStore :=
  (st.rows.countP (fun r => r.segmentId = segmentId) = 1, ⟨st.others segmentId⟩)

end SqliteSegmentMetaStore

def sqliteStore : SegmentMetaStore SqliteSegmentMetaStore where
  get := SqliteSegmentMetaStore.get
  titlesFor := SqliteSegmentMetaStore.titlesFor
  setTitle := SqliteSegmentMetaStore.setTitle
  delete := SqliteSegmentMetaStore.delete

/-! ## Cleaning a reply -/

/-- Where `str.splitlines` cuts. -/
def isLineBreak (c : Char) : Bool :=
  c.toNat ∈ [0x0a, 0x0b, 0x0c, 0x0d, 0x1c, 0x1d, 0x1e, 0x85, 0x2028, 0x2029]

/-- The first of `str.splitlines`. -/
def firstLine (text : Text) : Text := text.takeWhile fun c => !isLineBreak c

/-- Blanks, quotes and the punctuation at the end are stripped once.
SOURCE: sessions/titler.py:56 -/
def stripOnce (title : Text) : Text :=
  stripText ((SpacedWords.trim (· = '\'') (SpacedWords.trim (· = '"') (stripText title))).rdropWhile
    (· ∈ ['.', '!', ',']))

/-- As often as it changes something, up to a number of times.
SOURCE: sessions/titler.py:55-59 -/
def stripAll : ℕ → Text → Text
  | 0, title => title
  | n + 1, title =>
    if stripOnce title = title then title else stripAll n (stripOnce title)

/-- SOURCE: sessions/titler.py:40-62 -/
def clean (raw : Option Text) : Option Text :=
  let body := stripText (raw.getD [])
  if body = [] then none
  else
    let line := stripText (firstLine body)
    let title := stripAll line.length line
    if title = [] ∨ title.length > titleMaxChars then none else some title

/-! ## The transcript of a segment -/

/-- SOURCE: sessions/titler.py:29 -/
def maxLines : ℕ := 30

/-- SOURCE: sessions/titler.py:30 -/
def maxChars : ℕ := 4000

/-- The lines after those there are.
SOURCE: sessions/titler.py:115-130 -/
def linesOf (segment : SessionSegment) : List CaptureEvent → List Text → ℕ → List Text
  | [], lines, _ => lines
  | event :: events, lines, total =>
    if event.seq < segment.firstSeq then linesOf segment events lines total
    else if segment.lastSeq < event.seq then lines
    else
      let text := stripText event.text.toList
      if text = [] then linesOf segment events lines total
      else if maxLines ≤ lines.length + 1 ∨ maxChars ≤ total + text.length then lines ++ [text]
      else linesOf segment events (lines ++ [text]) (total + text.length)

/-- SOURCE: sessions/titler.py:115-130 -/
def transcriptOf (segment : SessionSegment) (events : List CaptureEvent) : Text :=
  ['\n'].intercalate (linesOf segment events [] 0)

/-! ## Naming and deleting -/

/-- A title that the wearer may give, from the body of the request.
SOURCE: http/routes/segments.py:314-325 -/
def titleOfBody (body : Option Json) : Option Text :=
  match body with
  | some (.object _ entries) =>
    match entries.lookup "title" with
    | some (.str title) =>
      let title := stripText title.toList
      if 1 ≤ title.length ∧ title.length ≤ titleMaxChars then some title else none
    | _ => none
  | _ => none

/-- What a request comes to. -/
inductive Outcome where
  | titled (title : Option Text)
  | notFound
  | badRequest
  | conflict
  | renamed (title : Text)
  | deleted
  deriving DecidableEq

/-- The titles, the segments whose transcripts the chat model has, and what was answered. -/
structure Titling (σ : Type) where
  titles : σ
  asking : List (Option String) := []
  outcomes : List Outcome := []

/-- Titlings wait for the chat model while others start and requests come in. A segment is what the
index has under the id of a request; events are those that the event store returns for the session.
A reply is none for an exception, and may have no text. -/
inductive TitleStep where
  | sweep (segment : SessionSegment) (events : List CaptureEvent)
  | reply (call : ℕ) (reply : Option (Option Text)) (now : AwareTime)
  | rename (segment : Option SessionSegment) (body : Option Json) (now : AwareTime)
  | delete (segment : Option SessionSegment)

namespace SegmentMetaStore

variable {σ : Type} (store : SegmentMetaStore σ)

/-- A segment has a title, or its row cannot be read. -/
def titled (segmentId : String) (titles : σ) : Bool :=
  match store.get segmentId titles with
  | none => true
  | some existing =>
    match existing.bind SegmentMeta.title with
    | none | some [] => false
    | some (_ :: _) => true

/-- The titler up to its call of the chat model.
SOURCE: sessions/titler.py:85-100 -/
def sweep (segment : SessionSegment) (events : List CaptureEvent) (s : Titling σ) : Titling σ :=
  if store.titled segment.id s.titles ∨ transcriptOf segment events = [] then
    { s with outcomes := s.outcomes ++ [.titled none] }
  else { s with asking := s.asking ++ [some segment.id] }

/-- The titler after the reply of the chat model.
SOURCE: sessions/titler.py:95-113 -/
def titleSegment (segmentId : String) (reply : Option (Option Text)) (now : AwareTime)
    (titles : σ) : Option Text × σ :=
  match reply.bind clean with
  | none => (none, titles)
  | some title =>
    let written := store.setTitle now segmentId title .llm titles
    (if written.1 then some title else none, written.2)

/-- SOURCE: http/routes/segments.py:303-335 -/
def patchSegment (segment : Option SessionSegment) (body : Option Json) (now : AwareTime)
    (titles : σ) : Outcome × σ :=
  match segment, titleOfBody body with
  | none, _ => (.notFound, titles)
  | some _, none => (.badRequest, titles)
  | some segment, some title => (.renamed title, (store.setTitle now segment.id title .user titles).2)

/-- SOURCE: http/routes/segments.py:438-508 -/
def deleteSegment (segment : Option SessionSegment) (titles : σ) : Outcome × σ :=
  match segment with
  | none => (.notFound, titles)
  | some segment =>
    if segment.closed then (.deleted, (store.delete segment.id titles).2) else (.conflict, titles)

/-- A request that is answered. -/
def answer (answered : Outcome × σ) (s : Titling σ) : Titling σ :=
  { s with titles := answered.2, outcomes := s.outcomes ++ [answered.1] }

/-- The reply of a call, whose titling ends. -/
def finish (call : ℕ) (reply : Option (Option Text)) (now : AwareTime) (s : Titling σ) :
    Titling σ :=
  match s.asking[call]?.join with
  | none => s
  | some segmentId =>
    let named := store.titleSegment segmentId reply now s.titles
    answer (.titled named.1, named.2) { s with asking := s.asking.set call none }

def step (s : Titling σ) : TitleStep → Titling σ
  | .sweep segment events => store.sweep segment events s
  | .reply call reply now => store.finish call reply now s
  | .rename segment body now => answer (store.patchSegment segment body now s.titles) s
  | .delete segment => answer (store.deleteSegment segment s.titles) s

end SegmentMetaStore

end OpenRecall.Model.SegmentTitles
