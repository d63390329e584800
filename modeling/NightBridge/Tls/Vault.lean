/-
# The vaults of TLS identities

`crates/protocol-native-v1/src/tls.rs` and
`crates/protocol-localsend-v2/src/tls.rs`: the certificate and the private key a
daemon shows to its peers, kept in two files so that the fingerprint of the
certificate stays the same when the daemon is restarted.  Each file is written
under a temporary name and then renamed.

The two vaults differ in the names of their files and in how they report a
failure, which are the fields of `Vault`.  That the four names they use are
different names is a field too.  `NativeTlsVault.new` and `TlsIdentityVault.new`
are the two vaults.

The modes of files are not in the model: `set_permissions` fails if the file is
missing and changes nothing otherwise.
-/

import NightBridge.Effect.Prog
import NightBridge.LocalSend.Dto
import NightBridge.Native.Dto

namespace NightBridge.Tls

open Data Effect

/-- `NativeTlsIdentity` and `TlsIdentity`. -/
structure TlsIdentity where
  certDer : Bytes
  keyDer : Bytes
  deriving DecidableEq

/-- One place where the vaults reach outside their memory. -/
inductive Op
  /-- `rcgen::generate_simple_self_signed`. -/
  | generate (aliasName : String)
  | pathExists (path : Path)
  | read (path : Path)
  | createDirAll (path : Path)
  | write (path : Path) (bytes : Bytes)
  | metadata (path : Path)
  | setPermissions (path : Path) (mode : ℕ)
  | rename (source target : Path)

@[reducible] def Resp : Op → Type
  | .generate _ => Except String TlsIdentity
  | .pathExists _ => Bool
  | .read _ => Except IoError Bytes
  | .createDirAll _ => Except IoError Unit
  | .write .. => Except IoError Unit
  | .metadata _ => Except IoError Unit
  | .setPermissions .. => Except IoError Unit
  | .rename .. => Except IoError Unit

/-- What survives a crash, and the identities that will be generated for an
alias. -/
structure Disk where
  fs : Fs
  identities : ℕ → String → Except String TlsIdentity

/-- An operation on the tree that may fail and answers with nothing. -/
def Disk.onFs (disk : Disk) : Except IoError Fs → Except IoError Unit × Disk
  | .ok fs => (.ok (), { disk with fs })
  | .error e => (.error e, disk)

/-- Whether a path can be asked for its metadata. -/
def Disk.found (disk : Disk) (path : Path) : Except IoError Unit :=
  if disk.fs.exists? path then .ok () else .error .notFound

def exec : Prog.Handler Op Resp Disk
  | .generate aliasName, disk =>
    (disk.identities 0 aliasName, { disk with identities := fun k => disk.identities (k + 1) })
  | .pathExists path, disk => (disk.fs.exists? path, disk)
  | .read path, disk => (disk.fs.read path, disk)
  | .createDirAll path, disk => disk.onFs (disk.fs.createDirAll path)
  | .write path bytes, disk => disk.onFs (disk.fs.write path bytes)
  | .metadata path, disk => (disk.found path, disk)
  | .setPermissions path _, disk => (disk.found path, disk)
  | .rename source target, disk => disk.onFs (disk.fs.rename source target)

/-- `impl Display for std::io::Error`. -/
def showIoError : IoError → String
  | .notFound => "No such file or directory (os error 2)"
  | .notADirectory => "Not a directory (os error 20)"
  | .isADirectory => "Is a directory (os error 21)"
  | .unexpectedEof => "failed to fill whole buffer"
  | .nulInName => "file name contained an unexpected NUL byte"
  | .nameTooLong => "File name too long (os error 36)"
  | .invalidArgument => "Invalid argument (os error 22)"

/-- The name `write_atomically` first writes to. -/
def tmpName (file : String) : String := fileStem file ++ "." ++ "tmp"

/-- A vault: its directory, its files, and its errors. -/
structure Vault (ε : Type) where
  configDir : Path
  certFile : String
  keyFile : String
  /-- What a failed operation on files is reported as. -/
  ofIo : IoError → ε
  /-- What a failed generation is reported as. -/
  ofRcgen : String → ε
  /-- What one file without the other is reported as. -/
  incomplete : ε
  normal : ∀ name ∈ [certFile, keyFile, tmpName certFile, tmpName keyFile], NormalName name
  nodup : [certFile, keyFile, tmpName certFile, tmpName keyFile].Nodup
  fits : nameFits certFile ∧ nameFits keyFile

def NativeTlsVault.new (configDir : Path) : Vault Native.NativeError where
  configDir := configDir
  certFile := "native-v1.cert.der"
  keyFile := "native-v1.key.der"
  ofIo e := .crypto (showIoError e)
  ofRcgen := .crypto
  incomplete := .crypto "incomplete native TLS identity on disk"
  normal := by decide
  nodup := by decide
  fits := by decide

def TlsIdentityVault.new (configDir : Path) : Vault LocalSend.LocalSendError where
  configDir := configDir
  certFile := "localsend-v2.cert.der"
  keyFile := "localsend-v2.key.der"
  ofIo e := .io (.os e)
  ofRcgen := .crypto
  incomplete := .crypto "incomplete LocalSend v2 TLS identity on disk"
  normal := by decide
  nodup := by decide
  fits := by decide

namespace Vault

variable {ε : Type} (self : Vault ε)

def certPath : Path := self.configDir ++ [self.certFile]

def keyPath : Path := self.configDir ++ [self.keyFile]

/-- `?` on an answer of the operating system. -/
def orIo {α : Type} (r : Except IoError α) : Prog Op Resp ε α := .ofExcept (r.mapError self.ofIo)

def readFile (path : Path) : Prog Op Resp ε Bytes := .call (.read path) self.orIo

def load : Prog Op Resp ε (Option TlsIdentity) :=
  .call (.pathExists self.certPath) fun certExists =>
  .call (.pathExists self.keyPath) fun keyExists =>
    match certExists, keyExists with
    | false, false => pure none
    | true, true => do
      let certDer ← self.readFile self.certPath
      let keyDer ← self.readFile self.keyPath
      pure (some ⟨certDer, keyDer⟩)
    | _, _ => .fail self.incomplete

def setOwnerOnlyPermissions (path : Path) : Prog Op Resp ε Unit := do
  .call (.metadata path) self.orIo
  .call (.setPermissions path 0o600) self.orIo

def writeAtomically (path : Path) (bytes : Bytes) (ownerOnly : Bool) : Prog Op Resp ε Unit := do
  let tmpPath := withExtension path "tmp"
  .call (.write tmpPath bytes) self.orIo
  if ownerOnly then self.setOwnerOnlyPermissions tmpPath
  .call (.rename tmpPath path) self.orIo

def save (identity : TlsIdentity) : Prog Op Resp ε Unit := do
  .call (.createDirAll self.configDir) self.orIo
  self.writeAtomically self.certPath identity.certDer false
  self.writeAtomically self.keyPath identity.keyDer true

/-- `NativeTlsIdentity::generate` and `TlsIdentity::generate`. -/
def generate (aliasName : String) : Prog Op Resp ε TlsIdentity :=
  .call (.generate aliasName) fun r => .ofExcept (r.mapError self.ofRcgen)

def loadOrGenerate (aliasName : String) : Prog Op Resp ε TlsIdentity := do
  match ← self.load with
  | some identity => pure identity
  | none => do
    let identity ← self.generate aliasName
    self.save identity
    pure identity

end Vault
end NightBridge.Tls
