import OpenRecall.Model.MemoryStores
import OpenRecall.Model.AgentAction

/-!
# The speaker registry

One row per speaker, with a centroid once there is one, and the last confirmed embeddings of each
speaker, from which the centroid is recomputed. There is an in-memory registry and a durable one.
Doubles round, so what the code computes with them takes the arithmetic as a parameter.
-/

set_option autoImplicit false

namespace OpenRecall.Model

open Foundation

/-- `x < y`, which no NaN satisfies. -/
def Double.less (x : Double) : Double → Bool
  | .finite q => x.lt q
  | .infinite negative => !negative && x != .nan && x != .infinite false
  | .nan => false

/-- The arithmetic of doubles; `trunc` is `int` of a number that is not negative. -/
structure FloatOps where
  add : Double → Double → Double
  sub : Double → Double → Double
  mul : Double → Double → Double
  div : Double → Double → Double
  sum : List Double → Double
  sqrt : Double → Double
  trunc : Double → ℕ

/-- The validated thresholds of speaker recognition.
SOURCE: ingest/speaker_config.py:38-89 -/
structure SpeakerConfig where
  confirmThreshold : ℚ := 78 / 100
  tentativeThreshold : ℚ := 70 / 100
  clusterThreshold : ℚ := 65 / 100
  ringBufferN : ℕ := 100
  outlierTrimPct : ℚ := 1 / 10
  emaAlpha : ℚ := 5 / 100
  confirm_le : confirmThreshold ≤ 1 := by norm_num
  tentative_lt : tentativeThreshold < confirmThreshold := by norm_num
  cluster_lt : clusterThreshold < tentativeThreshold := by norm_num
  cluster_nonneg : 0 ≤ clusterThreshold := by norm_num
  ringBufferN_pos : 0 < ringBufferN := by norm_num
  outlierTrimPct_mem : 0 ≤ outlierTrimPct ∧ outlierTrimPct ≤ 1 := by norm_num
  emaAlpha_mem : 0 ≤ emaAlpha ∧ emaAlpha ≤ 1 := by norm_num

/-! ## Vectors -/

/-- SOURCE: memory/speaker_registry.py:77-85, ingest/speaker_identifier.py:50-58 -/
def cosine (ops : FloatOps) (a b : Embedding) : Double :=
  if a = [] ∨ b = [] ∨ a.length ≠ b.length then .finite 0
  else
    let dot := ops.sum (List.zipWith ops.mul a b)
    let na := ops.sqrt (ops.sum (a.map fun x => ops.mul x x))
    let nb := ops.sqrt (ops.sum (b.map fun y => ops.mul y y))
    if na = .finite 0 ∨ nb = .finite 0 then .finite 0 else ops.div dot (ops.mul na nb)

/-- The mean of the rows, or none when a row is shorter than the first and the index fails.
SOURCE: memory/speaker_registry.py:88-92 -/
def mean (ops : FloatOps) : List Embedding → Option Embedding
  | [] => some []
  | row :: rows => (List.range row.length).mapM fun i =>
      ((row :: rows).mapM fun r => r[i]?).map fun xs =>
        ops.div (ops.sum xs) (.finite (row :: rows).length)

/-- Drop the rows farthest from the mean.
SOURCE: memory/speaker_registry.py:101-115 -/
def trim (cfg : SpeakerConfig) (ops : FloatOps) (rows : List Embedding) :
    Option (List Embedding) :=
  if rows.length ≤ 2 then some rows
  else
    let k := ops.trunc (ops.mul (.finite rows.length) (.finite cfg.outlierTrimPct))
    if k = 0 then some rows
    else (mean ops rows).map fun m =>
      (rows.insertionSort fun a b => !(cosine ops b m).less (cosine ops a m)).drop k

/-- SOURCE: memory/speaker_registry.py:117-122 -/
def emaCentroid (cfg : SpeakerConfig) (ops : FloatOps) (old : Option Embedding)
    (target : Embedding) : Embedding :=
  match old with
  | none => target
  | some old =>
    List.zipWith (fun t o => ops.add (ops.mul (.finite cfg.emaAlpha) t)
      (ops.mul (ops.sub (.finite 1) (.finite cfg.emaAlpha)) o)) target old

/-- The new centroid of a speaker with a non-empty buffer; none stands for an IndexError. -/
def recomputed (cfg : SpeakerConfig) (ops : FloatOps) (old : Option Embedding)
    (buf : List Embedding) : Option Embedding := do
  let trimmed ← trim cfg ops buf
  let target ← mean ops trimmed
  return emaCentroid cfg ops old target

/-! ## Rows -/

/-- A speaker without its id, which is the key of its row.
SOURCE: memory/speaker_registry.py:27-41 -/
structure SpeakerRow where
  displayName : Option String
  isWearer : Bool
  enrollmentStatus : String
  centroid : Option Embedding
  embeddingModel : String
  dim : ℤ
  turnCount : ℤ
  firstSeen : String
  updatedAt : String
  deriving DecidableEq

structure Speaker extends SpeakerRow where
  speakerId : String
  deriving DecidableEq

/-- The speaker of an entry.
SOURCE: memory/speaker_registry.py:148-155, 280-286 -/
def Speaker.ofEntry (e : String × SpeakerRow) : Speaker := { e.2 with speakerId := e.1 }

/-- The speakers that have a centroid.
SOURCE: memory/speaker_registry.py:162-165, 310-315 -/
def matchableOf (speakers : Dict String SpeakerRow) : List Speaker :=
  (speakers.entries.filter fun e => e.2.centroid.isSome).map Speaker.ofEntry

/-- A speaker's row after a change; nothing happens without the row. -/
def modifyRow (speakerId : String) (f : SpeakerRow → SpeakerRow)
    (speakers : Dict String SpeakerRow) : Dict String SpeakerRow :=
  match speakers.get? speakerId with
  | none => speakers
  | some row => speakers.set speakerId (f row)

theorem get?_modifyRow (speakerId id : String) (f : SpeakerRow → SpeakerRow)
    (speakers : Dict String SpeakerRow) :
    (modifyRow speakerId f speakers).get? id =
      if id = speakerId then (speakers.get? id).map f else speakers.get? id := by
  unfold modifyRow
  cases hrow : speakers.get? speakerId with
  | none =>
    split_ifs with hid
    · simp [hid, hrow]
    · rfl
  | some row =>
    simp only [Dict.get?_set]
    split_ifs with hid
    · simp [hid, hrow]
    · rfl

theorem mem_matchableOf (speakers : Dict String SpeakerRow) (s : Speaker) :
    s ∈ matchableOf speakers ↔
      speakers.get? s.speakerId = some s.toSpeakerRow ∧ s.centroid.isSome := by
  simp only [matchableOf, List.mem_map, List.mem_filter, Dict.get?_eq_some_iff]
  constructor
  · rintro ⟨e, ⟨hmem, hsome⟩, rfl⟩
    exact ⟨hmem, hsome⟩
  · rintro ⟨hmem, hsome⟩
    exact ⟨(s.speakerId, s.toSpeakerRow), ⟨hmem, hsome⟩, rfl⟩

/-! ## The two registries -/

/-- SOURCE: memory/speaker_registry.py:125-130 -/
structure InMemorySpeakerRegistry where
  speakers : Dict String SpeakerRow := .empty
  bufs : Dict String (List (Embedding × Double)) := .empty
  deriving DecidableEq

/-- A row of `speaker_embeddings`. -/
structure EmbeddingRow where
  speakerId : String
  embedding : Embedding
  confidence : Double
  createdAt : String
  deriving DecidableEq

/-- The two tables; the embeddings in the order of their insertion.
SOURCE: memory/speaker_registry.py:250-283 -/
structure SqliteSpeakerRegistry where
  speakers : Dict String SpeakerRow := .empty
  embeddings : List EmbeddingRow := []
  deriving DecidableEq

namespace InMemorySpeakerRegistry

/-- SOURCE: memory/speaker_registry.py:132-146 -/
def addSpeaker (s : Speaker) (reg : InMemorySpeakerRegistry) : InMemorySpeakerRegistry where
  speakers := reg.speakers.set s.speakerId s.toSpeakerRow
  bufs := match reg.bufs.get? s.speakerId with
    | none => reg.bufs.set s.speakerId []
    | some _ => reg.bufs

/-- The confirmed embeddings of a speaker, oldest first, with their confidences. -/
def buf (speakerId : String) (reg : InMemorySpeakerRegistry) : List (Embedding × Double) :=
  (reg.bufs.get? speakerId).getD []

/-- SOURCE: memory/speaker_registry.py:171-176 -/
def addConfirmedEmbedding (cfg : SpeakerConfig) (speakerId : String) (embedding : Embedding)
    (confidence : Double) (reg : InMemorySpeakerRegistry) : InMemorySpeakerRegistry :=
  { reg with
    bufs := reg.bufs.set speakerId
      ((reg.buf speakerId ++ [(embedding, confidence)]).rtake cfg.ringBufferN) }

/-- SOURCE: memory/speaker_registry.py:178-180 -/
def ringBuffer (speakerId : String) (reg : InMemorySpeakerRegistry) : List Embedding :=
  (reg.buf speakerId).map Prod.fst

/-- Fold the buffer into the centroid; nothing happens when the buffer is empty or there is no row.
SOURCE: memory/speaker_registry.py:187-197 -/
def recomputeCentroid (cfg : SpeakerConfig) (ops : FloatOps) (now speakerId : String)
    (reg : InMemorySpeakerRegistry) : Option InMemorySpeakerRegistry :=
  if reg.ringBuffer speakerId = [] then some reg
  else
    match reg.speakers.get? speakerId with
    | none => some reg
    | some row => (recomputed cfg ops row.centroid (reg.ringBuffer speakerId)).map fun c =>
        { reg with
          speakers := modifyRow speakerId
            (fun row => { row with centroid := some c, updatedAt := now }) reg.speakers }

/-- SOURCE: memory/speaker_registry.py:236-242 -/
def moveEmbeddings (cfg : SpeakerConfig) (fromId toId : String)
    (reg : InMemorySpeakerRegistry) : InMemorySpeakerRegistry :=
  let moved := reg.buf fromId
  let popped := reg.bufs.erase fromId
  { reg with
    bufs := popped.set toId
      (((popped.get? toId).getD [] ++ moved).rtake cfg.ringBufferN) }

/-- SOURCE: memory/speaker_registry.py:244-247 -/
def deleteSpeaker (speakerId : String) (reg : InMemorySpeakerRegistry) :
    InMemorySpeakerRegistry where
  speakers := reg.speakers.erase speakerId
  bufs := reg.bufs.erase speakerId

end InMemorySpeakerRegistry

namespace SqliteSpeakerRegistry

/-- A replaced row is a new one, last in the table; an empty centroid is stored as none.
SOURCE: memory/speaker_registry.py:288-301 -/
def addSpeaker (s : Speaker) (reg : SqliteSpeakerRegistry) : SqliteSpeakerRegistry :=
  { reg with
    speakers := (reg.speakers.erase s.speakerId).set s.speakerId
      { s.toSpeakerRow with centroid := s.centroid.filter (· ≠ []) } }

/-- The embeddings of a speaker by their time; the sort is stable. -/
def embeddingsOf (speakerId : String) (reg : SqliteSpeakerRegistry) : List EmbeddingRow :=
  (reg.embeddings.filter (·.speakerId = speakerId)).insertionSort
    fun a b => a.createdAt ≤ b.createdAt

/-- Delete a speaker's embeddings beyond the `n` newest.
SOURCE: memory/speaker_registry.py:329-336, 427-434 -/
def cap (n : ℕ) (speakerId : String) (embeddings : List EmbeddingRow) : List EmbeddingRow :=
  let indexed := embeddings.zipIdx
  let newestFirst := (indexed.filter (·.1.speakerId = speakerId)).insertionSort
    fun a b => b.1.createdAt ≤ a.1.createdAt
  let doomed := (newestFirst.drop n).map Prod.snd
  (indexed.filter fun e => e.2 ∉ doomed).map Prod.fst

/-- SOURCE: memory/speaker_registry.py:322-337 -/
def addConfirmedEmbedding (cfg : SpeakerConfig) (now speakerId : String) (embedding : Embedding)
    (confidence : Double) (reg : SqliteSpeakerRegistry) : SqliteSpeakerRegistry :=
  { reg with
    embeddings := cap cfg.ringBufferN speakerId
      (reg.embeddings ++ [⟨speakerId, embedding, confidence, now⟩]) }

/-- SOURCE: memory/speaker_registry.py:339-345 -/
def ringBuffer (speakerId : String) (reg : SqliteSpeakerRegistry) : List Embedding :=
  (reg.embeddingsOf speakerId).map EmbeddingRow.embedding

/-- SOURCE: memory/speaker_registry.py:355-376 -/
def recomputeCentroid (cfg : SpeakerConfig) (ops : FloatOps) (now speakerId : String)
    (reg : SqliteSpeakerRegistry) : Option SqliteSpeakerRegistry :=
  if reg.ringBuffer speakerId = [] then some reg
  else
    match reg.speakers.get? speakerId with
    | none => some reg
    | some row => (recomputed cfg ops row.centroid (reg.ringBuffer speakerId)).map fun c =>
        { reg with
          speakers := modifyRow speakerId
            (fun row => { row with centroid := some c, updatedAt := now }) reg.speakers }

/-- SOURCE: memory/speaker_registry.py:425-438 -/
def moveEmbeddings (cfg : SpeakerConfig) (fromId toId : String)
    (reg : SqliteSpeakerRegistry) : SqliteSpeakerRegistry :=
  { reg with
    embeddings := cap cfg.ringBufferN toId (reg.embeddings.map fun e =>
      if e.speakerId = fromId then { e with speakerId := toId } else e) }

/-- SOURCE: memory/speaker_registry.py:414-419 -/
def deleteSpeaker (speakerId : String) (reg : SqliteSpeakerRegistry) : SqliteSpeakerRegistry where
  speakers := reg.speakers.erase speakerId
  embeddings := reg.embeddings.filter (·.speakerId ≠ speakerId)

end SqliteSpeakerRegistry

/-! ## The protocol -/

/-- A registry behind the protocol: one of the two.
SOURCE: memory/speaker_registry.py:44-60 -/
inductive SpeakerRegistry where
  | inMemory (reg : InMemorySpeakerRegistry)
  | sqlite (reg : SqliteSpeakerRegistry)

namespace SpeakerRegistry

/-- The rows of the speakers. -/
def speakers : SpeakerRegistry → Dict String SpeakerRow
  | .inMemory reg => reg.speakers
  | .sqlite reg => reg.speakers

def mapSpeakers (f : Dict String SpeakerRow → Dict String SpeakerRow) :
    SpeakerRegistry → SpeakerRegistry
  | .inMemory reg => .inMemory { reg with speakers := f reg.speakers }
  | .sqlite reg => .sqlite { reg with speakers := f reg.speakers }

def get (speakerId : String) (reg : SpeakerRegistry) : Option Speaker :=
  (reg.speakers.get? speakerId).map fun row => Speaker.ofEntry (speakerId, row)

def matchable (reg : SpeakerRegistry) : List Speaker := matchableOf reg.speakers

def ringBuffer (speakerId : String) : SpeakerRegistry → List Embedding
  | .inMemory reg => reg.ringBuffer speakerId
  | .sqlite reg => reg.ringBuffer speakerId

def addSpeaker (s : Speaker) : SpeakerRegistry → SpeakerRegistry
  | .inMemory reg => .inMemory (reg.addSpeaker s)
  | .sqlite reg => .sqlite (reg.addSpeaker s)

def addConfirmedEmbedding (cfg : SpeakerConfig) (now speakerId : String) (embedding : Embedding)
    (confidence : Double) : SpeakerRegistry → SpeakerRegistry
  | .inMemory reg => .inMemory (reg.addConfirmedEmbedding cfg speakerId embedding confidence)
  | .sqlite reg => .sqlite (reg.addConfirmedEmbedding cfg now speakerId embedding confidence)

/-- None stands for the IndexError of embeddings of several lengths. -/
def recomputeCentroid (cfg : SpeakerConfig) (ops : FloatOps) (now speakerId : String) :
    SpeakerRegistry → Option SpeakerRegistry
  | .inMemory reg => (reg.recomputeCentroid cfg ops now speakerId).map .inMemory
  | .sqlite reg => (reg.recomputeCentroid cfg ops now speakerId).map .sqlite

def moveEmbeddings (cfg : SpeakerConfig) (fromId toId : String) :
    SpeakerRegistry → SpeakerRegistry
  | .inMemory reg => .inMemory (reg.moveEmbeddings cfg fromId toId)
  | .sqlite reg => .sqlite (reg.moveEmbeddings cfg fromId toId)

def deleteSpeaker (speakerId : String) : SpeakerRegistry → SpeakerRegistry
  | .inMemory reg => .inMemory (reg.deleteSpeaker speakerId)
  | .sqlite reg => .sqlite (reg.deleteSpeaker speakerId)

/-- SOURCE: memory/speaker_registry.py:199-206, 378-387 -/
def incrementTurn (now speakerId : String) : SpeakerRegistry → SpeakerRegistry :=
  mapSpeakers (modifyRow speakerId fun row =>
    { row with turnCount := row.turnCount + 1, updatedAt := now })

/-- SOURCE: memory/speaker_registry.py:208-214, 390-396 -/
def setDisplayName (now speakerId name : String) : SpeakerRegistry → SpeakerRegistry :=
  mapSpeakers (modifyRow speakerId fun row => { row with displayName := name, updatedAt := now })

/-- SOURCE: memory/speaker_registry.py:216-222, 398-404 -/
def updateEnrollment (now speakerId status : String) : SpeakerRegistry → SpeakerRegistry :=
  mapSpeakers (modifyRow speakerId fun row =>
    { row with enrollmentStatus := status, updatedAt := now })

/-- SOURCE: memory/speaker_registry.py:224-230, 406-412 -/
def setIsWearer (now speakerId : String) (isWearer : Bool) : SpeakerRegistry → SpeakerRegistry :=
  mapSpeakers (modifyRow speakerId fun row =>
    { row with isWearer := isWearer, updatedAt := now })

theorem mem_matchable (reg : SpeakerRegistry) (s : Speaker) :
    s ∈ reg.matchable ↔
      reg.speakers.get? s.speakerId = some s.toSpeakerRow ∧ s.centroid.isSome :=
  mem_matchableOf reg.speakers s

@[simp] theorem speakers_mapSpeakers (f : Dict String SpeakerRow → Dict String SpeakerRow)
    (reg : SpeakerRegistry) : (reg.mapSpeakers f).speakers = f reg.speakers := by
  cases reg <;> rfl

@[simp] theorem speakers_addConfirmedEmbedding (cfg : SpeakerConfig) (now speakerId : String)
    (embedding : Embedding) (confidence : Double) (reg : SpeakerRegistry) :
    (reg.addConfirmedEmbedding cfg now speakerId embedding confidence).speakers =
      reg.speakers := by
  cases reg <;> rfl

@[simp] theorem speakers_moveEmbeddings (cfg : SpeakerConfig) (fromId toId : String)
    (reg : SpeakerRegistry) : (reg.moveEmbeddings cfg fromId toId).speakers = reg.speakers := by
  cases reg <;> rfl

@[simp] theorem speakers_deleteSpeaker (speakerId : String) (reg : SpeakerRegistry) :
    (reg.deleteSpeaker speakerId).speakers = reg.speakers.erase speakerId := by
  cases reg <;> rfl

/-- Adding a speaker leaves the rows of the others. -/
theorem get?_addSpeaker_of_ne {s : Speaker} {id : String} (h : id ≠ s.speakerId)
    (reg : SpeakerRegistry) : (reg.addSpeaker s).speakers.get? id = reg.speakers.get? id := by
  cases reg with
  | inMemory reg => exact Dict.get?_set_of_ne _ _ h
  | sqlite reg =>
    simp only [addSpeaker, SqliteSpeakerRegistry.addSpeaker, speakers]
    rw [Dict.get?_set_of_ne _ _ h, Dict.get?_erase, if_neg h]

/-- Recomputing a centroid changes nothing or one row. -/
theorem recomputeCentroid_cases {cfg : SpeakerConfig} {ops : FloatOps} {now speakerId : String}
    {reg reg' : SpeakerRegistry} (h : reg.recomputeCentroid cfg ops now speakerId = some reg') :
    reg' = reg ∨ ∃ c, reg' = reg.mapSpeakers (modifyRow speakerId fun row =>
      { row with centroid := some c, updatedAt := now }) := by
  cases reg with
  | inMemory reg =>
    simp only [recomputeCentroid, InMemorySpeakerRegistry.recomputeCentroid] at h
    split_ifs at h with hbuf
    · exact .inl (by simpa [eq_comm] using h)
    · cases hrow : reg.speakers.get? speakerId with
      | none => exact .inl (by simpa [hrow, eq_comm] using h)
      | some row =>
        simp only [hrow, Option.map_map, Option.map_eq_some_iff] at h
        obtain ⟨c, -, rfl⟩ := h
        exact .inr ⟨c, rfl⟩
  | sqlite reg =>
    simp only [recomputeCentroid, SqliteSpeakerRegistry.recomputeCentroid] at h
    split_ifs at h with hbuf
    · exact .inl (by simpa [eq_comm] using h)
    · cases hrow : reg.speakers.get? speakerId with
      | none => exact .inl (by simpa [hrow, eq_comm] using h)
      | some row =>
        simp only [hrow, Option.map_map, Option.map_eq_some_iff] at h
        obtain ⟨c, -, rfl⟩ := h
        exact .inr ⟨c, rfl⟩

/-- **What recomputing a centroid leaves**: the embeddings, and the rows of the other speakers;
without embeddings it leaves the registry as it is. -/
theorem recomputeCentroid_spec {cfg : SpeakerConfig} {ops : FloatOps} {now speakerId : String}
    {reg reg' : SpeakerRegistry} (h : reg.recomputeCentroid cfg ops now speakerId = some reg') :
    (∀ id, reg'.ringBuffer id = reg.ringBuffer id) ∧
    (∀ id, id ≠ speakerId → reg'.speakers.get? id = reg.speakers.get? id) := by
  rcases recomputeCentroid_cases h with rfl | ⟨c, rfl⟩
  · exact ⟨fun _ => rfl, fun _ _ => rfl⟩
  · refine ⟨fun id => ?_, fun id hid => ?_⟩
    · cases reg <;> rfl
    · simp [get?_modifyRow, hid]

/-- The early return: with an empty buffer the stored centroid stays. -/
theorem recomputeCentroid_of_nil {reg : SpeakerRegistry} {speakerId : String}
    (h : reg.ringBuffer speakerId = []) (cfg : SpeakerConfig) (ops : FloatOps) (now : String) :
    reg.recomputeCentroid cfg ops now speakerId = some reg := by
  cases reg with
  | inMemory reg =>
    have hnil : reg.ringBuffer speakerId = [] := h
    simp [recomputeCentroid, InMemorySpeakerRegistry.recomputeCentroid, hnil]
  | sqlite reg =>
    have hnil : reg.ringBuffer speakerId = [] := h
    simp [recomputeCentroid, SqliteSpeakerRegistry.recomputeCentroid, hnil]

end SpeakerRegistry

/-- An operation of the registry. -/
inductive RegistryOp where
  | addSpeaker (s : Speaker)
  | addConfirmedEmbedding (speakerId : String) (embedding : Embedding) (confidence : Double)
  | recomputeCentroid (speakerId : String)
  | incrementTurn (speakerId : String)
  | setDisplayName (speakerId name : String)
  | updateEnrollment (speakerId status : String)
  | setIsWearer (speakerId : String) (isWearer : Bool)
  | moveEmbeddings (fromId toId : String)
  | deleteSpeaker (speakerId : String)

namespace RegistryOp

/-- The speakers an operation is about. -/
def ids : RegistryOp → List String
  | addSpeaker s => [s.speakerId]
  | addConfirmedEmbedding id _ _ => [id]
  | recomputeCentroid id => [id]
  | incrementTurn id => [id]
  | setDisplayName id _ => [id]
  | updateEnrollment id _ => [id]
  | setIsWearer id _ => [id]
  | moveEmbeddings fromId toId => [fromId, toId]
  | deleteSpeaker id => [id]

/-- The registry after an operation at a time; one that raises changes nothing. -/
def apply (cfg : SpeakerConfig) (ops : FloatOps) (now : String) (op : RegistryOp)
    (reg : SpeakerRegistry) : SpeakerRegistry :=
  match op with
  | addSpeaker s => reg.addSpeaker s
  | addConfirmedEmbedding id e confidence => reg.addConfirmedEmbedding cfg now id e confidence
  | recomputeCentroid id => (reg.recomputeCentroid cfg ops now id).getD reg
  | incrementTurn id => reg.incrementTurn now id
  | setDisplayName id name => reg.setDisplayName now id name
  | updateEnrollment id status => reg.updateEnrollment now id status
  | setIsWearer id isWearer => reg.setIsWearer now id isWearer
  | moveEmbeddings fromId toId => reg.moveEmbeddings cfg fromId toId
  | deleteSpeaker id => reg.deleteSpeaker id

/-- An operation leaves the rows of the speakers it is not about. -/
theorem get?_apply {op : RegistryOp} {id : String} (h : id ∉ op.ids) (cfg : SpeakerConfig)
    (ops : FloatOps) (now : String) (reg : SpeakerRegistry) :
    (op.apply cfg ops now reg).speakers.get? id = reg.speakers.get? id := by
  cases op with
  | addSpeaker s => exact SpeakerRegistry.get?_addSpeaker_of_ne (by simpa [ids] using h) reg
  | addConfirmedEmbedding id' e confidence => simp [apply]
  | recomputeCentroid id' =>
    have hne : id ≠ id' := by simpa [ids] using h
    simp only [apply]
    cases hrec : reg.recomputeCentroid cfg ops now id' with
    | none => rfl
    | some reg' => exact (SpeakerRegistry.recomputeCentroid_spec hrec).2 id hne
  | incrementTurn id' =>
    have hne : id ≠ id' := by simpa [ids] using h
    simp [apply, SpeakerRegistry.incrementTurn, get?_modifyRow, hne]
  | setDisplayName id' name =>
    have hne : id ≠ id' := by simpa [ids] using h
    simp [apply, SpeakerRegistry.setDisplayName, get?_modifyRow, hne]
  | updateEnrollment id' status =>
    have hne : id ≠ id' := by simpa [ids] using h
    simp [apply, SpeakerRegistry.updateEnrollment, get?_modifyRow, hne]
  | setIsWearer id' isWearer =>
    have hne : id ≠ id' := by simpa [ids] using h
    simp [apply, SpeakerRegistry.setIsWearer, get?_modifyRow, hne]
  | moveEmbeddings fromId toId => simp [apply]
  | deleteSpeaker id' =>
    have hne : id ≠ id' := by simpa [ids] using h
    simp [apply, Dict.get?_erase, hne]

end RegistryOp

end OpenRecall.Model
