/-
# The inbox writer

`crates/protocol-localsend-v2/src/inbox.rs`.  An authorized upload is streamed
into `.incoming` under a name made from the two ids, checked, and renamed into
the inbox under the first free name.

Two loops of the source have no bound of their own.  The loop that copies the
body reads at least one byte a round and stops past the declared size, so
`size + 1` rounds are enough (`copyBody_rounds`).  The loop over the suffixes
counts in a `u32`, and its iterator adds one before it returns a suffix: when
that overflows, at the last one, the call panics.
-/

import NightBridge.LocalSend.Machine

namespace NightBridge.LocalSend

open Data Effect

structure InboxWriter where
  inboxDir : Path

structure WrittenUpload where
  path : Path
  bytesWritten : ℕ
  sha256 : String
  deriving DecidableEq

def inboxError {α : Type} (message : String) : Io α := .fail (.http ("inbox: " ++ message))

/-- A name that is one normal path component, with no backslash either. -/
def PlainName (fileName : String) : Prop :=
  fileName ≠ "" ∧ '/' ∉ fileName.toList ∧ '\\' ∉ fileName.toList ∧ NormalName fileName

instance (fileName : String) : Decidable (PlainName fileName) := inferInstanceAs (Decidable (_ ∧ _))

def validateFileName (fileName : String) : Io String :=
  if PlainName fileName then pure fileName else inboxError "invalid upload filename"

/-- The characters of `safe_identifier`. -/
def sanitized (value : String) : String :=
  String.ofList (value.toList.map fun ch => if ch.isAlphanum || ch = '-' || ch = '_' then ch else '-')

def safeIdentifier (value : String) : Io String :=
  if sanitized value = "" then newUuid else pure (sanitized value)

def incomingFileName (upload : AuthorizedUpload) : Io String := do
  let session ← safeIdentifier upload.sessionId
  let file ← safeIdentifier upload.fileId
  pure (session ++ "-" ++ file ++ ".part")

/-- The loop that copies the body to the file, with the bytes it has copied so
far.  The source counts them in a `u64`, which no file is long enough to
overflow. -/
def copyBody (size file : ℕ) : ℕ → Bytes → Io Bytes
  | 0, _ => inboxError ("upload exceeds declared size " ++ toString size)
  | rounds + 1, copied => do
    let bytes ← readBody 8192
    if bytes = [] then pure copied
    else if size < copied.length + bytes.length then
      inboxError ("upload exceeds declared size " ++ toString size)
    else do
      writeAll file copied.length bytes
      copyBody size file rounds (copied ++ bytes)

/-- `hex_digest` of the SHA-256 of the bytes. -/
def sha256Hex [Primitives] (bytes : Bytes) : String := hex (Primitives.sha256 bytes).1

def eqIgnoreAsciiCase (a b : String) : Bool := a.toList.map Char.toLower = b.toList.map Char.toLower

/-- The name `next_available_target` tries at a suffix. -/
def suffixedName (fileName : String) (suffix : ℕ) : String :=
  let stem := match splitAtLastDot fileName with
    | none => fileName
    | some (before, _) => if before = "" then fileName else before
  match fileExtension fileName with
  | some extension => stem ++ " (" ++ toString suffix ++ ")." ++ extension
  | none => stem ++ " (" ++ toString suffix ++ ")"

/-- The loop of `next_available_target`. -/
def firstAvailable (inboxDir : Path) (fileName : String) : List ℕ → Io Path
  | [] => .fail .panicked
  | suffix :: rest => do
    let candidate := inboxDir ++ [suffixedName fileName suffix]
    if ← tryExists candidate then firstAvailable inboxDir fileName rest else pure candidate

def nextAvailableTarget (inboxDir : Path) (fileName : String) : Io Path := do
  let first := inboxDir ++ [fileName]
  if ← tryExists first then firstAvailable inboxDir fileName (List.range' 1 (2 ^ 32 - 2)) else pure first

/-- The directory of staged uploads. -/
def incomingDir (inboxDir : Path) : Path := inboxDir ++ [".incoming"]

/-- The checks after the body has been copied; they return its digest. -/
def checkBody [Primitives] (fileMeta : FileMeta) (bytes : Bytes) : Except LocalSendError String :=
  if bytes.length ≠ fileMeta.size then
    .error (.http ("inbox: upload size mismatch: expected " ++ toString fileMeta.size ++ ", got " ++
      toString bytes.length))
  else if fileMeta.sha256.any fun expected => !eqIgnoreAsciiCase expected (sha256Hex bytes) then
    .error (.crypto "upload sha256 mismatch")
  else .ok (sha256Hex bytes)

theorem checkBody_ok [Primitives] {fileMeta : FileMeta} {bytes : Bytes} {sha256 : String}
    (h : checkBody fileMeta bytes = .ok sha256) : sha256 = sha256Hex bytes := by
  unfold checkBody at h
  split_ifs at h
  exact (Except.ok.inj h).symm

/-- An upload that is ready to be published. -/
structure StagedUpload where
  incomingPath : Path
  targetPath : Path
  bytes : Bytes
  sha256 : String

/-- `InboxWriter::write_upload`, up to the rename. -/
def InboxWriter.stage [Primitives] (self : InboxWriter) (upload : AuthorizedUpload) :
    Io StagedUpload := do
  let fileName ← validateFileName upload.fileMeta.fileName
  createDirAll (incomingDir self.inboxDir)
  createDirAll self.inboxDir
  let name ← incomingFileName upload
  let incomingPath := incomingDir self.inboxDir ++ [name]
  let file ← create incomingPath
  let bytes ← copyBody upload.fileMeta.size file (upload.fileMeta.size + 1) []
  let sha256 ← .ofExcept (checkBody upload.fileMeta bytes)
  let targetPath ← nextAvailableTarget self.inboxDir fileName
  pure ⟨incomingPath, targetPath, bytes, sha256⟩

def InboxWriter.writeUpload [Primitives] (self : InboxWriter) (upload : AuthorizedUpload) :
    Io WrittenUpload := do
  let staged ← self.stage upload
  renameFile staged.incomingPath staged.targetPath
  pure ⟨staged.targetPath, staged.bytes.length, staged.sha256⟩

/-- **More rounds change nothing**: past the declared size the loop has stopped. -/
theorem copyBody_rounds {size file rounds : ℕ} {copied : Bytes} (hle : copied.length ≤ size)
    (h : size < copied.length + rounds) :
    copyBody size file (rounds + 1) copied = copyBody size file rounds copied := by
  induction rounds generalizing copied with
  | zero => omega
  | succ rounds ih =>
    rw [copyBody, copyBody]
    refine bind_congr fun bytes => ?_
    split_ifs with hend hlong
    · rfl
    · rfl
    · -- the round has copied at least one byte
      refine bind_congr fun _ => ?_
      have hpos : 0 < bytes.length := List.length_pos_iff.mpr hend
      exact ih (by rw [List.length_append]; omega) (by rw [List.length_append]; omega)

end NightBridge.LocalSend
