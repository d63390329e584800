/-
# Receiving and sending a transfer

`crates/protocol-native-v1/src/transfer.rs`.  The receiver stages each file at
`<inbox>/.incoming/native/<transfer>/<file>.part`, where the two components are
the ids with everything but letters, digits, `-` and `_` removed, or a fresh
UUID when nothing is left; `finish_transfer` checks every staged file and then
renames them one by one into the inbox.  The sender reads the ranges the
receiver lacks from its own files.
-/

import NightBridge.Native.Manifest
import NightBridge.Native.Chunk

namespace NightBridge.Native

open Data Effect

def transferError {α : Type} (message : String) : Io NativeError α := .fail (.protocol message)

/-- The characters `safe_component` keeps. -/
def cleanComponent (value : String) : String :=
  String.ofList (value.toList.filter fun ch => ch.isAlphanum || ch = '-' || ch = '_')

def safeComponent (value : String) : Io NativeError String :=
  if cleanComponent value = "" then newUuid else pure (cleanComponent value)

def safeFileName (fileName : String) : Except NativeError String :=
  if fileName.toList.contains '/' ∨ fileName.toList.contains '\\' ∨ fileName = "." ∨
      fileName = ".." then .error (.protocol "unsafe file name")
  else if trim fileName = "" then .error (.protocol "file name is required")
  else .ok (trim fileName)

/-- `Path::file_stem` of a single component, or `"file"` when it has none. -/
def stemOrFile (name : String) : String :=
  if name = "." ∨ name = ".." then "file" else fileStem name

/-- The name `available_target_path` tries at `index`. -/
def numberedName (safeName : String) (index : ℕ) : String :=
  match fileExtension safeName with
  | some ext => stemOrFile safeName ++ " (" ++ toString index ++ ")." ++ ext
  | none => stemOrFile safeName ++ " (" ++ toString index ++ ")"

/-- The loop of `available_target_path`. -/
def firstFree (inboxDir : Path) (safeName : String) : List ℕ → Io NativeError Path
  | [] => transferError "could not allocate unique target filename"
  | index :: rest => do
    let candidate := inboxDir ++ [numberedName safeName index]
    if ← metadataIsOk candidate then firstFree inboxDir safeName rest else pure candidate

def availableTargetPath (inboxDir : Path) (fileName : String) : Io NativeError Path := do
  let safeName ← .ofExcept (safeFileName fileName)
  let candidate := inboxDir ++ [safeName]
  if ← metadataIsOk candidate then firstFree inboxDir safeName (List.range' 1 9999)
  else pure candidate

/-- `NativeTransferReceiver`, without its handle on the manifest. -/
structure NativeTransferReceiver where
  inboxDir : Path
  trustedPeerFingerprint : Option String
  blocked : Bool
  chunkSize : ℕ

namespace NativeTransferReceiver

def trusted (inboxDir : Path) (peerFingerprint : String) : NativeTransferReceiver :=
  ⟨inboxDir, some peerFingerprint, false, defaultChunkSize⟩

/-- The directory of all staged transfers. -/
def stagingRoot (inboxDir : Path) : Path := inboxDir ++ [".incoming", "native"]

/-- Where the file with these two components is staged. -/
def partPath (inboxDir : Path) (dir file : String) : Path :=
  stagingRoot inboxDir ++ [dir] ++ [file ++ ".part"]

variable (self : NativeTransferReceiver)

def incomingDir (transferId : String) : Io NativeError Path := do
  let dir ← safeComponent transferId
  pure (stagingRoot self.inboxDir ++ [dir])

def incomingFilePath (transferId fileId : String) : Io NativeError Path := do
  let dir ← safeComponent transferId
  let file ← safeComponent fileId
  pure (partPath self.inboxDir dir file)

def acceptTransfer (peer : NativePeerInfo) (request : RequestTransfer) :
    Io NativeError AcceptTransfer :=
  if self.blocked then transferError "peer is blocked"
  else if self.trustedPeerFingerprint ≠ some peer.fingerprint then
    transferError "peer is not trusted"
  else do
    .ofExcept (validateTransferRequest request)
    let dir ← self.incomingDir request.transferId
    createDirAll dir
    let state ← ManifestStore.state request.transferId
    if state.isNone then
      ManifestStore.createTransfer request.transferId peer.fingerprint .receive request.files
    ManifestStore.setState request.transferId .active
    pure ⟨request.transferId, self.chunkSize⟩

def receiveChunkWithHash [Primitives] (transferId fileId : String) (offset : ℕ) (bytes : Bytes)
    (expectedBlake3 : String) : Io NativeError Unit :=
  if bytes = [] then transferError "chunk bytes must not be empty"
  else if blake3Hex bytes ≠ expectedBlake3 then transferError "chunk hash mismatch"
  else do
    let path ← self.incomingFilePath transferId fileId
    createDirAll path.dropLast
    let file ← openWrite path
    writeAt file offset bytes
    ManifestStore.recordVerifiedChunk transferId fileId offset bytes.length (blake3Hex bytes)

def receiveChunk [Primitives] (transferId fileId : String) (offset : ℕ) (bytes : Bytes) :
    Io NativeError Unit :=
  self.receiveChunkWithHash transferId fileId offset bytes (blake3Hex bytes)

/-- The first loop of `finish_transfer`, on one file. -/
def verifyFile [Primitives] (transferId : String) (file : ManifestStore.ManifestFile) :
    Io NativeError Unit := do
  let incoming ← self.incomingFilePath transferId file.fileId
  let bytes ← readFile incoming
  if bytes.length ≠ file.size then do
    ManifestStore.setState transferId .failed
    transferError "file size mismatch"
  else match file.blake3 with
    | none => pure ()
    | some expected =>
      if blake3Hex bytes ≠ expected then do
        ManifestStore.setState transferId .failed
        transferError "file hash mismatch"
      else pure ()

/-- The second loop of `finish_transfer`, on one file. -/
def publishFile (transferId : String) (file : ManifestStore.ManifestFile) :
    Io NativeError Unit := do
  let incoming ← self.incomingFilePath transferId file.fileId
  let target ← availableTargetPath self.inboxDir file.fileName
  renameFile incoming target

def finishTransfer [Primitives] (transferId : String) : Io NativeError Unit := do
  let complete ← ManifestStore.transferComplete transferId
  if !complete then do
    ManifestStore.setState transferId .interrupted
    transferError "transfer has missing bytes"
  else do
    let files ← ManifestStore.files transferId
    .each files (self.verifyFile transferId)
    createDirAll self.inboxDir
    .each files (self.publishFile transferId)
    ManifestStore.setState transferId .completed

/-- The loop of `resume_plan`. -/
def planFiles (transferId : String) (chunkSize : ℕ) :
    List ManifestStore.ManifestFile → Io NativeError (List (String × List ResumeRange))
  | [] => pure []
  | file :: files => do
    let missing ← ManifestStore.missingRanges transferId file.fileId chunkSize
    let rest ← planFiles transferId chunkSize files
    pure ((file.fileId, missing) :: rest)

/-- `resume_plan`: the missing ranges of each file id. -/
def resumePlan (transferId : String) (chunkSize : ℕ) :
    Io NativeError (List (String × List ResumeRange)) := do
  let files ← ManifestStore.files transferId
  planFiles transferId chunkSize files

end NativeTransferReceiver

/-- `file_name`: the last component of a path, unless it is `..`. -/
def fileName (path : Path) : Except NativeError String :=
  match (path.filter (· ≠ ".")).getLast? with
  | none => .error (.protocol "path does not have a valid file name")
  | some c => if c = ".." then .error (.protocol "path does not have a valid file name") else .ok c

structure NativeTransferSender where
  chunkSize : ℕ

namespace NativeTransferSender

variable (self : NativeTransferSender)

/-- The offer of one file, from its bytes. -/
def offerOf [Primitives] (index : ℕ) (name : String) (bytes : Bytes) (h : bytes.length < 2 ^ 63) :
    FileOffer :=
  ⟨"file-" ++ toString index, name, bytes.length, some (blake3Hex bytes), lt_u64_of_lt_i64 h⟩

/-- The loop of `prepare_request`, from `index`.  No `Vec` holds a file of `2^63`
bytes or more. -/
def prepareFrom [Primitives] (index : ℕ) : List Path → Io NativeError (List FileOffer)
  | [] => pure []
  | path :: paths => do
    let bytes ← readFile path
    let name ← .ofExcept (fileName path)
    if h : bytes.length < 2 ^ 63 then do
      let rest ← prepareFrom (index + 1) paths
      pure (offerOf index name bytes h :: rest)
    else transferError "file is too large"

def prepareRequest [Primitives] (paths : List Path) : Io NativeError RequestTransfer := do
  let files ← prepareFrom 0 paths
  let transferId ← newUuid
  pure ⟨transferId, files⟩

/-- The inner loop of `send_ranges`, on one range. -/
def sendRange [Primitives] (receiver : NativeTransferReceiver) (transferId fileId : String)
    (input : ℕ) (range : ResumeRange) : Io NativeError Unit := do
  let bytes ← readExactAt input range.offset range.length
  receiver.receiveChunkWithHash transferId fileId range.offset bytes (blake3Hex bytes)

/-- The outer loop of `send_ranges`, on one file. -/
def sendFile [Primitives] (receiver : NativeTransferReceiver) (transferId : String)
    (chunkSize : ℕ) (resumePlan : Option (List (String × List ResumeRange)))
    (file : FileOffer) (path : Path) : Io NativeError Unit := do
  let ranges ← match resumePlan.bind fun plan => plan.lookup file.fileId with
    | some ranges => pure ranges
    | none => ManifestStore.missingRanges transferId file.fileId chunkSize
  let input ← openRead path
  .each ranges (sendRange receiver transferId file.fileId input)

def sendRanges [Primitives] (receiver : NativeTransferReceiver) (request : RequestTransfer)
    (paths : List Path) (chunkSize : ℕ)
    (resumePlan : Option (List (String × List ResumeRange))) : Io NativeError Unit :=
  .each (request.files.zip paths) fun (file, path) =>
    sendFile receiver request.transferId chunkSize resumePlan file path

def resumeFilesToReceiver [Primitives] (receiver : NativeTransferReceiver)
    (request : RequestTransfer) (paths : List Path) : Io NativeError Unit :=
  if paths.length ≠ request.files.length then transferError "resume paths must match request files"
  else do
    let plan ← NativeTransferReceiver.resumePlan request.transferId self.chunkSize
    sendRanges receiver request paths self.chunkSize (some plan)
    receiver.finishTransfer request.transferId

end NativeTransferSender
end NightBridge.Native
