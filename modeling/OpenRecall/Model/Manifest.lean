import OpenRecall.Model.AudioPacket
import OpenRecall.Foundation.SpacedWords

/-!
# The sensor's manifest

The manifest lists the media on the card, a line for each. The phone posts the paths of what it has
taken; the sensor deletes these files and rewrites the manifest without their lines. It reads the
manifest into a buffer of fixed size.

Bytes are as they are in the file; a missing manifest is an empty one.
-/

set_option autoImplicit false

namespace OpenRecall.Model

open Foundation

namespace Manifest

def newline : UInt8 := 10

def bar : UInt8 := 124

/-- The lines of a text that are not empty. -/
def linesOf (text : Bytes) : List Bytes := SpacedWords.words (· = newline) text

/-- A buffer as C reads it, up to the first null byte. -/
def cString (bytes : Bytes) : Bytes := bytes.takeWhile (· ≠ 0)

/-! ## Lines -/

/-- SOURCE: media_index.h:10 -/
def nameMaxLen : ℕ := 80

/-- A line of the manifest.
SOURCE: media_index.c:14-16 -/
structure Entry where
  path : Bytes
  relTsMs : ℕ
  bootId : ℕ
  kind : UInt8
  deriving DecidableEq

def isSpace (c : UInt8) : Bool := c = 32 ∨ (9 ≤ c ∧ c ≤ 13)

def isDigit (c : UInt8) : Bool := 48 ≤ c ∧ c ≤ 57

/-- `%79[^|]`: a field that is too long leaves the next character unmatched. -/
def scanPath (text : Bytes) : Option (Bytes × Bytes) :=
  let path := text.takeWhile (· ≠ bar)
  if path = [] ∨ nameMaxLen - 1 < path.length then none
  else some (path, text.drop path.length)

/-- A literal bar. -/
def scanBar (text : Bytes) : Option Bytes := if text.head? = some bar then some text.tail else none

/-- `%u` of 32 bits: space and a sign may come first, and what is too large is the largest. -/
def scanU32 (text : Bytes) : Option (ℕ × Bytes) :=
  let text := text.dropWhile isSpace
  let signed := text.head? = some 43 ∨ text.head? = some 45
  let rest := if signed then text.tail else text
  let digits := rest.takeWhile isDigit
  let n := digits.foldl (fun n c => 10 * n + (c.toNat - 48)) (0 : ℕ)
  let value := if 2 ^ 32 ≤ n then 2 ^ 32 - 1
    else if text.head? = some 45 then (2 ^ 32 - n) % 2 ^ 32 else n
  if digits = [] then none else some (value, rest.drop digits.length)

/-- SOURCE: media_index.c:17-32 -/
def manifestParse (line : Bytes) : Option Entry := do
  let (path, rest) ← scanPath (cString line)
  let (relTsMs, rest) ← scanU32 (← scanBar rest)
  let (bootId, rest) ← scanU32 (← scanBar rest)
  let kind ← (← scanBar rest).head?
  if kind = 115 ∨ kind = 118 then return ⟨path, relTsMs, bootId, kind⟩ else none

/-! ## What was consumed -/

/-- The names in a body; there may not be too many, nor may one be too long.
SOURCE: media_index.c:33-50 -/
def consumedParse (body : Bytes) (max : ℕ) : Option (List Bytes) :=
  let names := linesOf (cString body)
  if (names.all fun name => name.length < nameMaxLen) ∧ names.length ≤ max then some names else none

/-- SOURCE: transfer.c:52-56 -/
def manifestBufCap : ℕ := 8192

def consumedBodyCap : ℕ := 4096

def consumedMaxNames : ℕ := 32

def lineBufCap : ℕ := 128

/-- Whether a line stays: one that is too long for the buffer, one that cannot be parsed, and one
whose path was not consumed.
SOURCE: transfer.c:229-259 -/
def keeps (names : List Bytes) (line : Bytes) : Bool :=
  if line.length < lineBufCap then
    match manifestParse line with
    | some entry => entry.path ∉ names
    | none => true
  else true

/-- The lines that stay, each with its newline.
SOURCE: transfer.c:225-262 -/
def trimmed (names : List Bytes) (manifest : Bytes) : Bytes :=
  ((linesOf manifest).filter (keeps names)).flatMap (· ++ [newline])

/-- What is read was likely cut off: it fills the buffer and does not end a line.
SOURCE: transfer.c:217-220 -/
def truncated (read : Bytes) : Bool :=
  read.length = manifestBufCap ∧ read.getLast? ≠ some newline

/-! ## The handler -/

/-- What the system does: which buffers are allocated, which names stand for the manifest itself,
and how reading and rewriting it go. An error comes after some bytes; `fwrite` may not see one, when
the file is only closed after it. -/
structure CardEnv where
  bodyBuffer : Bool := true
  trimBuffers : Bool := true
  unlinksManifest : Bytes → Bool
  readOpens : Bool := true
  readError : Option ℕ := none
  rewriteOpens : Bool := true
  writeError : Option ℕ := none
  writeErrorSeen : Bool := true

inductive HttpResponse where
  | ok
  | badRequest (message : String)
  | serverError (message : String)
  deriving DecidableEq

/-- What a request leaves: the response, the manifest, the names that were deleted, and whether the
transfer task was told that there is nothing left. -/
structure ConsumedRun where
  response : HttpResponse
  manifest : Bytes
  deleted : List Bytes := []
  notified : Bool := false

/-- The bytes before an error, or all of them. -/
def upTo (error : Option ℕ) (bytes : Bytes) : Bytes :=
  match error with
  | none => bytes
  | some n => bytes.take n

/-- What is read of the manifest into the buffer.
SOURCE: sd_store.c:135-146 -/
def readManifest (env : CardEnv) (manifest : Bytes) : Bytes :=
  if env.readOpens then upTo env.readError (manifest.take manifestBufCap) else []

/-- Rewrite the manifest, which is emptied when it is opened.
SOURCE: sd_store.c:91-104, transfer.c:263-269 -/
def rewrite (env : CardEnv) (names : List Bytes) (new manifest : Bytes) : ConsumedRun :=
  if env.rewriteOpens then
    if env.writeError.isSome ∧ env.writeErrorSeen then
      { response := .serverError "manifest rewrite failed"
        manifest := upTo env.writeError new
        deleted := names }
    else
      { response := .ok
        manifest := upTo env.writeError new
        deleted := names
        notified := new.isEmpty }
  else
    { response := .serverError "manifest rewrite failed"
      manifest := manifest
      deleted := names }

/-- Trim the manifest that the deletes have left.
SOURCE: transfer.c:204-290 -/
def trimManifest (env : CardEnv) (names : List Bytes) (manifest : Bytes) : ConsumedRun :=
  if env.trimBuffers then
    let read := readManifest env manifest
    if truncated read then
      { response := .ok
        manifest := manifest
        deleted := names }
    else rewrite env names (trimmed names read) manifest
  else
    { response := .serverError "oom"
      manifest := manifest
      deleted := names }

/-- `POST /consumed`.
SOURCE: transfer.c:170-291 -/
def consumedHandler (env : CardEnv) (body manifest : Bytes) : ConsumedRun :=
  if env.bodyBuffer then
    match consumedParse (body.take (consumedBodyCap - 1)) consumedMaxNames with
    | none =>
      { response := .badRequest "parse failed"
        manifest := manifest }
    | some names =>
      trimManifest env names (if names.any env.unlinksManifest then [] else manifest)
  else
    { response := .serverError "oom"
      manifest := manifest }

end Manifest

end OpenRecall.Model
