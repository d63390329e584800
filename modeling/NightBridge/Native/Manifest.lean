/-
# The manifest store

`crates/protocol-native-v1/src/manifest.rs`: what the receiver persists about a
transfer, and the range arithmetic that decides what is missing of a file.

The arithmetic is on `u64` with unchecked additions, so `addU64` and `subU64`
wrap.  The loop of `missing_ranges_for` is `missingFrom`; its caller has refused
the chunk size zero, for which it would not advance.
-/

import NightBridge.Native.Machine

namespace NightBridge.Native

open Data Effect

def manifestError {α : Type} (message : String) : Io NativeError α := .fail (.manifest message)

abbrev ResumeRange := Span

/-- `a + b` on `u64`. -/
def addU64 (a b : ℕ) : ℕ := (a + b) % 2 ^ 64

/-- `a - b` on `u64`. -/
def subU64 (a b : ℕ) : ℕ := (a + 2 ^ 64 - b) % 2 ^ 64

/-- The body of the loop of `merge_ranges`, on the ranges kept so far, the last
one first. -/
def mergeRange (merged : List ResumeRange) (range : ResumeRange) : List ResumeRange :=
  if range.length = 0 then merged
  else match merged with
    | [] => [range]
    | last :: rest =>
      let lastEnd := addU64 last.offset last.length
      let rangeEnd := addU64 range.offset range.length
      if range.offset ≤ lastEnd then
        ⟨last.offset, subU64 (max rangeEnd lastEnd) last.offset⟩ :: rest
      else range :: last :: rest

def mergeRanges (ranges : List ResumeRange) : List ResumeRange :=
  ((Span.sortByOffset ranges).foldl mergeRange []).reverse

def rangeFullyCovered (range : ResumeRange) (verified : List ResumeRange) : Bool :=
  verified.any fun v =>
    v.offset ≤ range.offset && addU64 range.offset range.length ≤ addU64 v.offset v.length

/-- The loop of `missing_ranges_for`, from `offset`. -/
def missingFrom (fileSize chunkSize : ℕ) (verified : List ResumeRange) (offset : ℕ) :
    List ResumeRange :=
  if offset < fileSize ∧ 0 < chunkSize then
    let length := min chunkSize (fileSize - offset)
    let rest := missingFrom fileSize chunkSize verified (offset + length)
    if rangeFullyCovered ⟨offset, length⟩ verified then rest else ⟨offset, length⟩ :: rest
  else []
termination_by fileSize - offset
decreasing_by omega

def missingRangesFor (fileSize chunkSize : ℕ) (verified : List ResumeRange) : List ResumeRange :=
  missingFrom fileSize chunkSize (mergeRanges verified) 0

def rangesCover (size : ℕ) (ranges : List ResumeRange) : Bool :=
  size = 0 ∨ mergeRanges ranges = [⟨0, size⟩]

namespace ManifestStore

def createTransfer (transferId peerFingerprint : String) (direction : TransferDirection)
    (files : List FileOffer) : Io NativeError Unit :=
  if isBlank transferId then manifestError "transfer id is required"
  else if isBlank peerFingerprint then manifestError "peer fingerprint is required"
  else if files = [] then manifestError "at least one file is required"
  else do
    let now ← nowUnix
    insertTransfer ⟨transferId, peerFingerprint, direction, .pending, now, now⟩
      (files.map fun file =>
        ⟨transferId, file.fileId, file.fileName, asI64 file.size, file.blake3⟩)

def fileSize (transferId fileId : String) : Io NativeError ℕ := do
  match ← selectSize transferId fileId with
  | some size => pure (asU64 size)
  | none => manifestError "unknown transfer file"

def recordVerifiedChunk (transferId fileId : String) (offset length : ℕ) (blake3 : String) :
    Io NativeError Unit :=
  if length = 0 then manifestError "chunk length must be greater than zero"
  else do
    let size ← fileSize transferId fileId
    if 2 ^ 64 ≤ offset + length then manifestError "chunk overflow"
    else if size < offset + length then manifestError "chunk extends past file size"
    else do
      replaceChunk ⟨transferId, fileId, asI64 offset, asI64 length, blake3⟩
      let now ← nowUnix
      touchTransfer transferId now

/-- `verified_ranges_locked`. -/
def verifiedRanges (transferId fileId : String) : Io NativeError (List ResumeRange) := do
  let rows ← selectRanges transferId fileId
  pure (mergeRanges (rows.map fun (offset, length) => ⟨asU64 offset, asU64 length⟩))

def missingRanges (transferId fileId : String) (chunkSize : ℕ) :
    Io NativeError (List ResumeRange) :=
  if chunkSize = 0 then manifestError "chunk size must be greater than zero"
  else do
    let size ← fileSize transferId fileId
    let verified ← verifiedRanges transferId fileId
    pure (missingRangesFor size chunkSize verified)

/-- The loop of `transfer_complete` over the rows of the transfer. -/
def allCovered (transferId : String) : List FileRow → Io NativeError Bool
  | [] => pure true
  | row :: rows => do
    let ranges ← verifiedRanges transferId row.fileId
    if rangesCover (asU64 row.size) ranges then allCovered transferId rows else pure false

def transferComplete (transferId : String) : Io NativeError Bool := do
  let rows ← selectFiles transferId
  let covered ← allCovered transferId rows
  pure (covered && !rows.isEmpty)

def setState (transferId : String) (state : TransferState) : Io NativeError Unit := do
  let allowed ← if state = .completed then transferComplete transferId else pure true
  if !allowed then manifestError "cannot complete transfer with missing bytes"
  else do
    let now ← nowUnix
    let updated ← updateState transferId state now
    if updated = 0 then manifestError "unknown transfer" else pure ()

def state (transferId : String) : Io NativeError (Option TransferState) := selectState transferId

structure ManifestFile where
  fileId : String
  fileName : String
  size : ℕ
  blake3 : Option String
  deriving DecidableEq

/-- A row of `transfer_files` as `files` returns it. -/
def ManifestFile.ofRow (row : FileRow) : ManifestFile :=
  ⟨row.fileId, row.fileName, asU64 row.size, row.blake3⟩

def files (transferId : String) : Io NativeError (List ManifestFile) := do
  let rows ← selectFilesOrdered transferId
  pure (rows.map ManifestFile.ofRow)

end ManifestStore
end NightBridge.Native
