/-
# The messages of the LocalSend protocol

`crates/protocol-localsend-v2/src/dto.rs` and `error.rs`: what a sender says of
itself and of the files it offers, and the failures of the crate.

Of a file's free-form metadata the server only keeps a copy, so it is the JSON
text here.
-/

import NightBridge.Data.BTreeMap
import NightBridge.Data.Posix
import Mathlib.Data.String.Basic

namespace NightBridge.LocalSend

open Data

/-- `std::io::Error`, as far as the crate can meet it. -/
inductive IoFailure
  | os (e : IoError)
  /-- Text that is not UTF-8. -/
  | invalidData
  /-- The request body broke off. -/
  | body
  deriving DecidableEq, Repr

/-- `LocalSendError`, and a panic, which also ends a request. -/
inductive LocalSendError
  | io (e : IoFailure)
  | json (message : String)
  | http (message : String)
  | session (message : String)
  | crypto (message : String)
  | panicked
  deriving DecidableEq, Repr

structure DeviceInfo where
  aliasName : String
  version : String
  deviceModel : Option String
  deviceType : Option String
  fingerprint : String
  port : UInt16
  protocol : String
  download : Bool
  deriving DecidableEq

structure FileMeta where
  id : String
  fileName : String
  size : ℕ
  fileType : Option String
  sha256 : Option String
  preview : Option String
  metadata : Option String
  size_lt : size < 2 ^ 64
  deriving DecidableEq

structure PrepareUploadRequest where
  info : DeviceInfo
  files : BTreeMap String FileMeta

def oneByteFile : FileMeta := ⟨"file-1", "a.txt", 1, none, none, none, none, by decide⟩

/-- A phone that offers it. -/
def oneFileOffer : PrepareUploadRequest where
  info := ⟨"Phone", "2.0", none, some "mobile", "AB:CD", 53317, "https", true⟩
  files := BTreeMap.empty.insert "file-1" oneByteFile

def normalizeLegacyFileType (fileType : String) : String :=
  if fileType = "image" then "image/*"
  else if fileType = "video" then "video/*"
  else if fileType = "pdf" then "application/pdf"
  else if fileType = "text" then "text/plain"
  else if fileType = "other" then "application/octet-stream"
  else fileType

/-- `normalize_legacy_prepare_request`: every file gets its key as its id. -/
def normalizeLegacyPrepareRequest (request : PrepareUploadRequest) : PrepareUploadRequest where
  info := request.info
  files :=
    { entries := request.files.entries.map fun e =>
        (e.1, { e.2 with id := e.1, fileType := e.2.fileType.map normalizeLegacyFileType })
      sorted := by
        rw [List.map_map]
        exact request.files.sorted }

end NightBridge.LocalSend
