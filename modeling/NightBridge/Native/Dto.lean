/-
# The messages of the native protocol

`crates/protocol-native-v1/src/dto.rs` and `error.rs`: the records that travel on
a control stream, the extension negotiation, and `validate_transfer_request`,
the check a receiver makes before it allocates anything for a request.

A `u64` field carries its range as a field of the record, so a size that the
wire cannot hold cannot be built.
-/

import NightBridge.Core.Fingerprint
import NightBridge.Data.Posix

namespace NightBridge.Native

open Data

/-- `NativeError`, without the variant that only dialing returns. -/
inductive NativeError
  | io (e : IoError)
  | json (message : String)
  | crypto (message : String)
  | protocol (message : String)
  | transport (message : String)
  | manifest (message : String)
  deriving DecidableEq, Repr

def protocolVersion : ℕ := 1

def extResumeV1 : String := "resume@1"
def extBlake3V1 : String := "blake3@1"
def extZstdV1 : String := "zstd@1"

structure NativePeerInfo where
  nodeAlias : String
  fingerprint : String
  pubkey : Bytes32
  quicPort : ℕ
  nativeCertificateFingerprint : Option String
  extensions : List String
  deriving DecidableEq

structure Hello where
  protocolVersion : ℕ
  nodeAlias : String
  pubkey : Bytes32
  nonce : Bytes
  extensions : List String
  identityProof : Bytes
  deriving DecidableEq

structure HelloAck where
  protocolVersion : ℕ
  nodeAlias : String
  pubkey : Bytes32
  nonce : Bytes
  acceptedExtensions : List String
  deriving DecidableEq

structure FileOffer where
  fileId : String
  fileName : String
  size : ℕ
  blake3 : Option String
  size_lt : size < 2 ^ 64 := by decide

instance : DecidableEq FileOffer := fun a b =>
  decidable_of_iff
    (a.fileId = b.fileId ∧ a.fileName = b.fileName ∧ a.size = b.size ∧ a.blake3 = b.blake3)
    (by cases a; cases b; simp)

/-- A small file, to run the model with. -/
def FileOffer.small (fileId fileName : String) (size : UInt8) (blake3 : Option String) : FileOffer :=
  ⟨fileId, fileName, size.toNat, blake3, size.toNat_lt.trans (by decide)⟩

theorem lt_u64_of_lt_i64 {n : ℕ} (h : n < 2 ^ 63) : n < 2 ^ 64 := h.trans (by decide)

structure RequestTransfer where
  transferId : String
  files : List FileOffer
  deriving DecidableEq

structure AcceptTransfer where
  transferId : String
  chunkSize : ℕ
  deriving DecidableEq

structure ChunkAck where
  transferId : String
  fileId : String
  offset : ℕ
  length : ℕ
  blake3 : String
  deriving DecidableEq

structure CancelTransfer where
  transferId : String
  reason : String
  deriving DecidableEq

structure DoneTransfer where
  transferId : String
  deriving DecidableEq

structure ResumeRequest where
  transferId : String
  deriving DecidableEq

def defaultExtensions : List String := [extResumeV1, extBlake3V1]

def isKnownExtension (ext : String) : Bool :=
  ext = extResumeV1 ∨ ext = extBlake3V1 ∨ ext = extZstdV1

def negotiateExtensions (localExts remote : List String) : List String :=
  localExts.filter fun ext => isKnownExtension ext && remote.contains ext

/-- The loop of `validate_transfer_request`, with the file ids seen so far. -/
def validateFiles (fileIds : List String) : List FileOffer → Except NativeError Unit
  | [] => .ok ()
  | file :: files =>
    if isBlank file.fileId then .error (.protocol "file id is required")
    else if file.fileId ∈ fileIds then .error (.protocol "duplicate file id")
    else if isBlank file.fileName then .error (.protocol "file name is required")
    else validateFiles (file.fileId :: fileIds) files

def validateTransferRequest (request : RequestTransfer) : Except NativeError Unit :=
  if isBlank request.transferId then .error (.protocol "transfer id is required")
  else if request.files = [] then .error (.protocol "at least one file is required")
  else validateFiles [] request.files

/-- What a request has to be for `validate_transfer_request` to pass it. -/
structure RequestTransfer.Valid (request : RequestTransfer) : Prop where
  transferId : isBlank request.transferId = false
  files : request.files ≠ []
  fileIds : ∀ f ∈ request.files, isBlank f.fileId = false
  nodup : (request.files.map FileOffer.fileId).Nodup
  fileNames : ∀ f ∈ request.files, isBlank f.fileName = false

theorem validateFiles_eq_ok_iff (seen : List String) (files : List FileOffer) :
    validateFiles seen files = .ok () ↔
      (∀ f ∈ files, isBlank f.fileId = false) ∧ (files.map FileOffer.fileId).Nodup ∧
        (∀ f ∈ files, f.fileId ∉ seen) ∧ ∀ f ∈ files, isBlank f.fileName = false := by
  induction files generalizing seen with
  | nil => simp [validateFiles]
  | cons f files ih =>
    rw [validateFiles]
    split_ifs with h1 h2 h3
    · simp [h1]
    · simp [h2]
    · simp [h3]
    · rw [ih]
      simp only [List.mem_cons, forall_eq_or_imp, List.map_cons, List.nodup_cons, List.mem_map,
        not_exists, not_and, not_or]
      constructor
      · rintro ⟨ha, hb, hc, hd⟩
        exact ⟨⟨by simpa using h1, ha⟩, ⟨fun g hg he => (hc g hg).1 he, hb⟩,
          ⟨h2, fun g hg => (hc g hg).2⟩, by simpa using h3, hd⟩
      · rintro ⟨⟨-, ha⟩, ⟨hn, hb⟩, ⟨-, hc⟩, -, hd⟩
        exact ⟨ha, hb, fun g hg => ⟨hn g hg, hc g hg⟩, hd⟩

/-- **What validation passes**, exactly. -/
theorem validateTransferRequest_eq_ok_iff (request : RequestTransfer) :
    validateTransferRequest request = .ok () ↔ request.Valid := by
  unfold validateTransferRequest
  split_ifs with h1 h2
  · exact ⟨nofun, fun h => absurd h1 (by simp [h.transferId])⟩
  · exact ⟨nofun, fun h => absurd h2 h.files⟩
  · rw [validateFiles_eq_ok_iff]
    constructor
    · rintro ⟨ha, hb, -, hd⟩
      exact ⟨by simpa using h1, h2, ha, hb, hd⟩
    · rintro ⟨-, -, ha, hb, hd⟩
      exact ⟨ha, hb, by simp, hd⟩

/-- A request of two files is valid; the same request with one id twice is not. -/
example : validateTransferRequest ⟨"tx", [⟨"file-1", "a", 42, none, by decide⟩,
      ⟨"file-2", "b", 42, none, by decide⟩]⟩ = .ok () ∧
    validateTransferRequest ⟨"tx", [⟨"file-1", "a", 42, none, by decide⟩,
      ⟨"file-1", "b", 42, none, by decide⟩]⟩ = .error (.protocol "duplicate file id") := by
  decide

end NightBridge.Native
