import OpenRecall.Model.VideoCapture
import OpenRecall.Foundation.DecimalBytes

/-!
# The texts of the media index

Paths, lines of the manifest and the list of what was consumed are texts in buffers of fixed size.
Bytes are those of a C text, without the null byte that ends it.
-/

set_option autoImplicit false

namespace OpenRecall.Model

open Foundation

namespace MediaIndex

open Manifest (newline bar nameMaxLen)

/-- `snprintf` into so many bytes, the last of which ends the text. -/
def snprintf (cap : ℕ) (text : Bytes) : Bytes := text.take (cap - 1)

/-- A text of the source. -/
def ascii (text : String) : Bytes := text.toList.map fun c => c.toNat.toUInt8

/-- `%u` of 32 bits. -/
def u32 (n : UInt32) : Bytes := DecimalBytes.decimal n.toNat

/-- `%010u` of 32 bits. -/
def u32Padded (n : UInt32) : Bytes := List.replicate (10 - (u32 n).length) 48 ++ u32 n

/-- The path of a file: where it is, its boot, its time, its number and what it is. -/
def mediaPath (dir ext : String) (bootId relTsMs seq : UInt32) : Bytes :=
  ascii dir ++ u32 bootId ++ 47 :: u32Padded relTsMs ++ 95 :: u32 seq ++ ascii ext

/-- SOURCE: media_index.c:6-9 -/
def snapshotPath (cap : ℕ) (bootId relTsMs seq : UInt32) : Bytes :=
  snprintf cap (mediaPath "/sdcard/snapshots/" ".jpg" bootId relTsMs seq)

/-- SOURCE: media_index.c:10-13 -/
def videoPath (cap : ℕ) (bootId relTsMs seq : UInt32) : Bytes :=
  snprintf cap (mediaPath "/sdcard/video/" ".mjpeg" bootId relTsMs seq)

/-- SOURCE: media_index.c:14-16 -/
def manifestLine (cap : ℕ) (path : Bytes) (relTsMs bootId : UInt32) (kind : UInt8) : Bytes :=
  snprintf cap (path ++ bar :: u32 relTsMs ++ bar :: u32 bootId ++ [bar, kind, newline])

/-- What is left of the body, and the names so far.
SOURCE: media_index.c:36-47 -/
def consumedScan (max : ℕ) (p : Bytes) (names : List Bytes) : Option (List Bytes) :=
  if p = [] then some names
  else
    let name := p.takeWhile (· ≠ newline)
    -- after the newline, or at the end when there is none
    let rest := p.drop (name.length + 1)
    if name = [] then consumedScan max rest names
    else if nameMaxLen ≤ name.length then none
    else if max ≤ names.length then none
    else consumedScan max rest (names ++ [name])
termination_by p.length
decreasing_by
  all_goals
    rw [List.length_drop]
    have := List.length_pos_iff.mpr ‹¬p = []›
    omega

/-- SOURCE: media_index.c:33-50 -/
def consumedParse (body : Bytes) (max : ℕ) : Option (List Bytes) :=
  consumedScan max (Manifest.cString body) []

end MediaIndex

end OpenRecall.Model
