/-
# The operations of the native daemon and its peers

The programs of this development call operations: system calls, SQL statements,
reads and writes on the QUIC stream of a connection, the clock and the random
number generator.  `Op` lists them, one constructor for each place where the
source reaches outside its own memory, and `Resp` says what each one answers.

`Store` is what all connections of a daemon share: the manifest database, the
trust database, the directory tree, and the randomness and clock still to come.
`Wire` is what one connection has to itself: the bytes the remote sends, the
bytes sent to it, and the channel binding of its TLS session.  `exec` runs one
operation.  A read past the end of what the remote sends fails with
`UnexpectedEof`; a program that must wait for its peer instead is run by
`NightBridge.Effect.Session`.

Opening a database creates its tables when they are missing, which changes no
row, so `openManifest` and `openTrust` do nothing here.
-/

import NightBridge.Effect.Prog
import NightBridge.Core.Trust
import NightBridge.Native.Schema

namespace NightBridge.Native

open Data Effect

/-- One place where the source reaches outside its memory. -/
inductive Op
  -- time and randomness
  | nowUnix
  | newUuid
  | randomNonce
  -- the QUIC connection, its stream and its TLS exporter
  | acceptIncoming
  | acceptBi
  | openBi
  | recvExact (n : ℕ)
  | sendAll (bytes : Bytes)
  | sendFinish
  | exportKeyingMaterial
  -- the directory tree
  | createDirAll (path : Path)
  | openWrite (path : Path)
  | writeAt (file offset : ℕ) (bytes : Bytes)
  | openRead (path : Path)
  | readExactAt (file offset length : ℕ)
  | read (path : Path)
  | metadata (path : Path)
  | rename (source target : Path)
  -- the manifest database
  | openManifest
  | selectState (transferId : String)
  | insertTransfer (row : TransferRow) (files : List FileRow)
  | selectSize (transferId fileId : String)
  | replaceChunk (row : ChunkRow)
  | touchTransfer (transferId : String) (now : ℤ)
  | updateState (transferId : String) (state : TransferState) (now : ℤ)
  | selectFiles (transferId : String)
  | selectFilesOrdered (transferId : String)
  | selectRanges (transferId fileId : String)
  -- the trust database
  | openTrust
  | selectPeer (fingerprint : Core.Fingerprint)
  deriving DecidableEq

@[reducible] def Resp : Op → Type
  | .nowUnix => ℤ
  | .newUuid => String
  | .randomNonce => Bytes
  | .acceptIncoming => Except String Unit
  | .acceptBi => Except String Unit
  | .openBi => Except String Unit
  | .recvExact _ => Except IoError Bytes
  | .sendAll _ => Except IoError Unit
  | .sendFinish => Except IoError Unit
  | .exportKeyingMaterial => Except Unit Bytes32
  | .createDirAll _ => Except IoError Unit
  | .openWrite _ => Except IoError ℕ
  | .writeAt .. => Except IoError Unit
  | .openRead _ => Except IoError ℕ
  | .readExactAt .. => Except IoError Bytes
  | .read _ => Except IoError Bytes
  | .metadata _ => Bool
  | .rename .. => Except IoError Unit
  | .openManifest => Except String Unit
  | .selectState _ => Except String (Option TransferState)
  | .insertTransfer .. => Except String Unit
  | .selectSize .. => Except String (Option ℤ)
  | .replaceChunk _ => Except String Unit
  | .touchTransfer .. => Except String Unit
  | .updateState .. => Except String ℕ
  | .selectFiles _ => Except String (List FileRow)
  | .selectFilesOrdered _ => Except String (List FileRow)
  | .selectRanges .. => Except String (List (ℤ × ℤ))
  | .openTrust => Except Core.Failure Unit
  | .selectPeer _ => Except Core.Failure (Option Core.Peer)

/-- A program that calls these operations and fails with `ε`. -/
abbrev Io (ε : Type) : Type → Type := Prog Op Resp ε

/-- What the connections of a daemon share. -/
@[ext]
structure Store where
  manifest : ManifestDb
  trust : Core.TrustDb
  fs : Fs
  /-- The UUIDs `Uuid::new_v4` will return. -/
  uuids : ℕ → String
  /-- The times the clock will show. -/
  clock : ℕ → ℤ
  /-- The nonces the operating system will return. -/
  nonces : ℕ → Bytes

/-- What one connection has to itself. -/
@[ext]
structure Wire where
  /-- What the remote has sent and the program has not read. -/
  inp : Bytes
  /-- What the program has sent. -/
  out : Bytes
  /-- The keying material the TLS session exports. -/
  binding : Bytes32
  deriving DecidableEq

/-- The store of a daemon that has never run. -/
def Store.fresh : Store where
  manifest := .empty
  trust := .empty
  fs := .empty
  uuids k := "uuid-" ++ toString k
  clock _ := 0
  nonces _ := []

/-- A connection on which nothing has been sent. -/
def Wire.fresh : Wire := ⟨[], [], .pad []⟩

/-- Drop the first value of a supply. -/
def advance {α : Type} (f : ℕ → α) : ℕ → α := fun n => f (n + 1)

/-- An operation on the tree that may fail and answers with nothing. -/
def onFs (s : Store) (w : Wire) : Except IoError Fs → Except IoError Unit × Store × Wire
  | .ok fs => (.ok (), { s with fs }, w)
  | .error e => (.error e, s, w)

/-- A statement on the manifest that may fail and answers with nothing. -/
def onManifest (s : Store) (w : Wire) : Except String ManifestDb → Except String Unit × Store × Wire
  | .ok manifest => (.ok (), { s with manifest }, w)
  | .error e => (.error e, s, w)

def exec : (o : Op) → Store → Wire → Resp o × Store × Wire
  | .nowUnix, s, w => (s.clock 0, { s with clock := advance s.clock }, w)
  | .newUuid, s, w => (s.uuids 0, { s with uuids := advance s.uuids }, w)
  | .randomNonce, s, w => (s.nonces 0, { s with nonces := advance s.nonces }, w)
  | .acceptIncoming, s, w => (.ok (), s, w)
  | .acceptBi, s, w => (.ok (), s, w)
  | .openBi, s, w => (.ok (), s, w)
  | .recvExact n, s, w =>
    if n ≤ w.inp.length then (.ok (w.inp.take n), s, { w with inp := w.inp.drop n })
    else (.error .unexpectedEof, s, { w with inp := [] })
  | .sendAll bytes, s, w => (.ok (), s, { w with out := w.out ++ bytes })
  | .sendFinish, s, w => (.ok (), s, w)
  | .exportKeyingMaterial, s, w => (.ok w.binding, s, w)
  | .createDirAll path, s, w => onFs s w (s.fs.createDirAll path)
  | .openWrite path, s, w =>
    match s.fs.openWrite path with
    | .ok (file, fs) => (.ok file, { s with fs }, w)
    | .error e => (.error e, s, w)
  | .writeAt file offset bytes, s, w =>
    -- the offset of a seek is an `i64`
    if offset < 2 ^ 63 then onFs s w (.ok (s.fs.writeAt file offset bytes))
    else (.error .invalidArgument, s, w)
  | .openRead path, s, w => (s.fs.openRead path, s, w)
  | .readExactAt file offset length, s, w => (s.fs.readExactAt file offset length, s, w)
  | .read path, s, w => (s.fs.read path, s, w)
  | .metadata path, s, w => (s.fs.exists? path, s, w)
  | .rename source target, s, w => onFs s w (s.fs.rename source target)
  | .openManifest, s, w => (.ok (), s, w)
  | .selectState transferId, s, w => (.ok (s.manifest.selectState transferId), s, w)
  | .insertTransfer row files, s, w => onManifest s w (s.manifest.insertTransfer row files)
  | .selectSize transferId fileId, s, w => (.ok (s.manifest.selectSize transferId fileId), s, w)
  | .replaceChunk row, s, w => onManifest s w (s.manifest.replaceChunk row)
  | .touchTransfer transferId now, s, w =>
    onManifest s w (.ok (s.manifest.touchTransfer transferId now))
  | .updateState transferId state now, s, w =>
    let r := s.manifest.updateState transferId state now
    (.ok r.1, { s with manifest := r.2 }, w)
  | .selectFiles transferId, s, w => (.ok (s.manifest.selectFiles transferId), s, w)
  | .selectFilesOrdered transferId, s, w => (.ok (s.manifest.selectFilesOrdered transferId), s, w)
  | .selectRanges transferId fileId, s, w =>
    (.ok (s.manifest.selectRanges transferId fileId), s, w)
  | .openTrust, s, w => (.ok (), s, w)
  | .selectPeer fingerprint, s, w => (Core.TrustDb.get s.trust fingerprint, s, w)

/-- The handler of a program that has the store and one wire to itself. -/
def handler : Prog.Handler Op Resp (Store × Wire) := fun o sw => exec o sw.1 sw.2

/-! ### Calls

One function for each operation, with `?` applied to its answer: a failure of
the operating system is `NativeError::Io`, a failure of SQLite is
`NativeError::Manifest`. -/

/-- `?` on an answer of the operating system. -/
def orIo {α : Type} (r : Except IoError α) : Io NativeError α := .ofExcept (r.mapError .io)

/-- `.map_err(sqlite_error)?` on an answer of SQLite. -/
def orManifest {α : Type} (r : Except String α) : Io NativeError α :=
  .ofExcept (r.mapError .manifest)

def nowUnix : Io NativeError ℤ := .call .nowUnix .ret
def newUuid : Io NativeError String := .call .newUuid .ret
def recvExact (n : ℕ) : Io NativeError Bytes := .call (.recvExact n) orIo
def sendAll (bytes : Bytes) : Io NativeError Unit := .call (.sendAll bytes) orIo
def createDirAll (path : Path) : Io NativeError Unit := .call (.createDirAll path) orIo
def openWrite (path : Path) : Io NativeError ℕ := .call (.openWrite path) orIo
def writeAt (file offset : ℕ) (bytes : Bytes) : Io NativeError Unit :=
  .call (.writeAt file offset bytes) orIo
def openRead (path : Path) : Io NativeError ℕ := .call (.openRead path) orIo
def readExactAt (file offset length : ℕ) : Io NativeError Bytes :=
  .call (.readExactAt file offset length) orIo
def readFile (path : Path) : Io NativeError Bytes := .call (.read path) orIo
def metadataIsOk (path : Path) : Io NativeError Bool := .call (.metadata path) .ret
def renameFile (source target : Path) : Io NativeError Unit := .call (.rename source target) orIo
def openManifest : Io NativeError Unit := .call .openManifest orManifest
def selectState (transferId : String) : Io NativeError (Option TransferState) :=
  .call (.selectState transferId) orManifest
def insertTransfer (row : TransferRow) (files : List FileRow) : Io NativeError Unit :=
  .call (.insertTransfer row files) orManifest
def selectSize (transferId fileId : String) : Io NativeError (Option ℤ) :=
  .call (.selectSize transferId fileId) orManifest
def replaceChunk (row : ChunkRow) : Io NativeError Unit := .call (.replaceChunk row) orManifest
def touchTransfer (transferId : String) (now : ℤ) : Io NativeError Unit :=
  .call (.touchTransfer transferId now) orManifest
def updateState (transferId : String) (state : TransferState) (now : ℤ) : Io NativeError ℕ :=
  .call (.updateState transferId state now) orManifest
def selectFiles (transferId : String) : Io NativeError (List FileRow) :=
  .call (.selectFiles transferId) orManifest
def selectFilesOrdered (transferId : String) : Io NativeError (List FileRow) :=
  .call (.selectFilesOrdered transferId) orManifest
def selectRanges (transferId fileId : String) : Io NativeError (List (ℤ × ℤ)) :=
  .call (.selectRanges transferId fileId) orManifest

end NightBridge.Native
