/-
# Cutting files into chunks

`crates/protocol-native-v1/src/chunk.rs`: the plan a sender follows, the hash both
sides compare, and the plan of what is missing.  The last one has range arithmetic
of its own beside that of `manifest.rs`; additions are checked here, and fail.
-/

import NightBridge.Native.Dto
import NightBridge.Data.Span

namespace NightBridge.Native

open Data

/-- `DEFAULT_CHUNK_SIZE`: 1 MiB. -/
def defaultChunkSize : ℕ := 1024 * 1024

abbrev ChunkRange := Span

def validateChunkSize (chunkSize : ℕ) : Except NativeError Unit :=
  if chunkSize = 0 then .error (.protocol "chunk size must be greater than zero") else .ok ()

def planChunks (fileSize chunkSize : ℕ) : Except NativeError (List ChunkRange) := do
  validateChunkSize chunkSize
  pure (chunksFrom fileSize chunkSize 0)

/-- `ChunkRange::end`. -/
def chunkEnd (range : ChunkRange) : Except NativeError ℕ :=
  if range.offset + range.length < 2 ^ 64 then .ok (range.offset + range.length)
  else .error (.protocol "chunk range overflows u64")

def validateVerifiedRanges (fileSize : ℕ) : List ChunkRange → Except NativeError Unit
  | [] => .ok ()
  | range :: ranges =>
    if range.length = 0 then .error (.protocol "verified range length must be greater than zero")
    else do
      if (← chunkEnd range) > fileSize then
        .error (.protocol "verified range extends past file size")
      else validateVerifiedRanges fileSize ranges

namespace Chunk

/-- The body of the loop of `merge_ranges`, on the ranges kept so far, the last
one first. -/
def mergeRange (merged : List ChunkRange) (range : ChunkRange) :
    Except NativeError (List ChunkRange) :=
  match merged with
  | [] => .ok [range]
  | last :: rest => do
    let lastEnd ← chunkEnd last
    let rangeEnd ← chunkEnd range
    if range.offset ≤ lastEnd then .ok (⟨last.offset, max rangeEnd lastEnd - last.offset⟩ :: rest)
    else .ok (range :: last :: rest)

def mergeRanges (ranges : List ChunkRange) : Except NativeError (List ChunkRange) := do
  let merged ← (Span.sortByOffset ranges).foldlM mergeRange []
  pure merged.reverse

def rangeFullyCovered (range : ChunkRange) (verified : List ChunkRange) : Bool :=
  match chunkEnd range with
  | .error _ => false
  | .ok rangeEnd => verified.any fun v => v.offset ≤ range.offset &&
      match chunkEnd v with
      | .ok verifiedEnd => rangeEnd ≤ verifiedEnd
      | .error _ => false

end Chunk

def planMissingChunks (fileSize chunkSize : ℕ) (verified : List ChunkRange) :
    Except NativeError (List ChunkRange) := do
  validateVerifiedRanges fileSize verified
  let merged ← Chunk.mergeRanges verified
  let chunks ← planChunks fileSize chunkSize
  pure (chunks.filter fun chunk => !Chunk.rangeFullyCovered chunk merged)

def rangesCoverFile (fileSize : ℕ) (verified : List ChunkRange) : Except NativeError Bool := do
  validateVerifiedRanges fileSize verified
  if fileSize = 0 then .ok true
  else do
    let merged ← Chunk.mergeRanges verified
    pure (merged = [⟨0, fileSize⟩])

def blake3Hex [Primitives] (bytes : Bytes) : String := hex (Primitives.blake3 bytes).1

theorem planChunks_of_pos {fileSize chunkSize : ℕ} (h : 0 < chunkSize) :
    planChunks fileSize chunkSize = .ok (chunksFrom fileSize chunkSize 0) := by
  rw [planChunks, validateChunkSize, if_neg (by omega)]
  rfl

/-- Ten bytes in chunks of four. -/
example : planChunks 10 4 = .ok [⟨0, 4⟩, ⟨4, 4⟩, ⟨8, 2⟩] := by decide +kernel

/-- A chunk that is verified in part is planned again. -/
example : planMissingChunks 8 4 [⟨0, 3⟩] = .ok [⟨0, 4⟩, ⟨4, 4⟩] := by decide +kernel

end NightBridge.Native
