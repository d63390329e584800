/-
# The operations of the LocalSend server

As for the native daemon, `Op` lists the places where the source reaches outside
its own memory or takes a lock, and `exec` runs one of them.  `Store` is what
all requests share: the directory tree, the sessions, the tables of peers, the
randomness and the clocks.  `Body` is what one request has to itself, the body
it streams in.

Four things are simplified.  A method of the session manager is one operation,
since it holds the lock throughout, and so is a method of the trust store.
Opening the trust store changes no row and never fails.  `write_all` writes at
once; tokio writes in the background, but waits for it before the next operation
on the file.  The times of `Instant::now` never decrease, which is a field of
`Instants`.
-/

import NightBridge.Core.LocalSendPeers
import NightBridge.Effect.Prog
import NightBridge.LocalSend.Session

namespace NightBridge.LocalSend

open Data Effect NightBridge.Core

/-- One place where the source reaches outside its memory. -/
inductive Op
  | session (o : SessionOp)
  | newUuid
  -- the directory tree
  | createDirAll (path : Path)
  | create (path : Path)
  | writeAll (file offset : ℕ) (bytes : Bytes)
  | tryExists (path : Path)
  | rename (source target : Path)
  | readToString (path : Path)
  -- the body of the request
  | readBody (max : ℕ)
  -- the trust store
  | openTrust
  | trustedLocalsendFingerprints
  | isLocalsendPeerBlocked (fingerprint : String)
  | recordPendingLocalsendPeer (fingerprint aliasName : String) (sourceIp : Option String)
  | recordTrustedLocalsendPeer (fingerprint aliasName : String) (sourceIp : Option String)
  | recordLocalsendLanPeer (peer : LocalSendLanPeer)

@[reducible] def Resp : Op → Type
  | .session o => o.Resp
  | .newUuid => String
  | .createDirAll _ => Except IoFailure Unit
  | .create _ => Except IoFailure ℕ
  | .writeAll .. => Except IoFailure Unit
  | .tryExists _ => Except IoFailure Bool
  | .rename .. => Except IoFailure Unit
  | .readToString _ => Except IoFailure String
  | .readBody _ => Except IoFailure Bytes
  | .openTrust => Except CoreError Unit
  | .trustedLocalsendFingerprints => Except CoreError (List String)
  | .isLocalsendPeerBlocked _ => Except CoreError Bool
  | .recordPendingLocalsendPeer .. => Except CoreError LocalSendPeer
  | .recordTrustedLocalsendPeer .. => Except CoreError LocalSendPeer
  | .recordLocalsendLanPeer _ => Except CoreError LocalSendLanPeer

abbrev Io : Type → Type := Prog Op Resp LocalSendError

/-- The times `Instant::now` will return. -/
structure Instants where
  time : ℕ → ℕ
  mono : Monotone time

/-- The times after the next one. -/
def Instants.advance (instants : Instants) : Instants :=
  ⟨fun k => instants.time (k + 1), fun _ _ h => instants.mono (Nat.succ_le_succ h)⟩

/-- What the requests of a server share. -/
structure Store where
  fs : Fs
  sessions : SessionManager
  peers : LocalSendDb
  /-- The UUIDs `Uuid::new_v4` will return. -/
  uuids : ℕ → String
  instants : Instants
  /-- The times `now_unix` will show. -/
  clock : ℕ → ℤ

/-- The store of a server that has just started. -/
def Store.fresh (ttl : ℕ) : Store where
  fs := .empty
  sessions := .new ttl
  peers := .empty
  uuids := tally
  instants := ⟨fun _ => 0, monotone_const⟩
  clock _ := 0

/-- What is still to be read of a request body: frames, and whether it breaks
off after them. -/
structure Body where
  frames : List Bytes
  broken : Bool
  deriving DecidableEq

def Body.empty : Body := ⟨[], false⟩

def Body.bytes (body : Body) : Bytes := body.frames.flatten

/-- `reader.read(&mut buffer)` with a buffer of `max` bytes: empty frames are
skipped, and a read does not go on into the next frame. -/
def Body.read (max : ℕ) (broken : Bool) : List Bytes → Except IoFailure Bytes × Body
  | [] => (if broken then .error .body else .ok [], ⟨[], broken⟩)
  | [] :: rest => Body.read max broken rest
  | frame :: rest => (.ok (frame.take max), ⟨frame.drop max :: rest, broken⟩)

/-- An operation on the tree that may fail and answers with nothing. -/
def onFs (s : Store) (b : Body) : Except IoError Fs → Except IoFailure Unit × Store × Body
  | .ok fs => (.ok (), { s with fs }, b)
  | .error e => (.error (.os e), s, b)

/-- A statement on the tables of peers. -/
def onPeers {α : Type} (s : Store) (b : Body) (r : Except CoreError α × LocalSendDb) :
    Except CoreError α × Store × Body :=
  (r.1, { s with peers := r.2, clock := fun k => s.clock (k + 1) }, b)

/-- `fs::read_to_string`. -/
def readText (fs : Fs) (path : Path) : Except IoFailure String :=
  match fs.read path with
  | .error e => .error (.os e)
  | .ok bytes =>
    match fromUtf8 bytes with
    | some text => .ok text
    | none => .error .invalidData

/-- `fs::try_exists`, which fails on a name that no entry can have. -/
def foundAt (fs : Fs) (path : Path) : Except IoFailure Bool :=
  match nameError? (path.getLastD "") with
  | some e => .error (.os e)
  | none => .ok (fs.exists? path)

def exec : (o : Op) → Store → Body → Resp o × Store × Body
  | .session o, s, b =>
    let r := s.sessions.exec (s.instants.time 0) s.uuids o
    (r.1, { s with
      sessions := r.2
      uuids := fun k => s.uuids (k + o.draws)
      instants := s.instants.advance }, b)
  | .newUuid, s, b => (s.uuids 0, { s with uuids := fun k => s.uuids (k + 1) }, b)
  | .createDirAll path, s, b => onFs s b (s.fs.createDirAll path)
  | .create path, s, b =>
    match s.fs.create path with
    | .ok (file, fs) => (.ok file, { s with fs }, b)
    | .error e => (.error (.os e), s, b)
  | .writeAll file offset bytes, s, b => onFs s b (.ok (s.fs.writeAt file offset bytes))
  | .tryExists path, s, b => (foundAt s.fs path, s, b)
  | .rename source target, s, b => onFs s b (s.fs.rename source target)
  | .readToString path, s, b => (readText s.fs path, s, b)
  | .readBody max, s, b => ((Body.read max b.broken b.frames).1, s, (Body.read max b.broken b.frames).2)
  | .openTrust, s, b => (.ok (), s, b)
  | .trustedLocalsendFingerprints, s, b => (.ok s.peers.trustedLocalsendFingerprints, s, b)
  | .isLocalsendPeerBlocked fingerprint, s, b => (s.peers.isLocalsendPeerBlocked fingerprint, s, b)
  | .recordPendingLocalsendPeer fingerprint aliasName sourceIp, s, b =>
    onPeers s b (LocalSendDb.recordPendingLocalsendPeer s.peers fingerprint aliasName
      sourceIp (s.clock 0))
  | .recordTrustedLocalsendPeer fingerprint aliasName sourceIp, s, b =>
    onPeers s b (LocalSendDb.recordTrustedLocalsendPeer s.peers fingerprint aliasName
      sourceIp (s.clock 0))
  | .recordLocalsendLanPeer peer, s, b => onPeers s b (s.peers.recordLocalsendLanPeer peer (s.clock 0))

/-- The handler of a program that has the store and one body to itself. -/
def handler : Prog.Handler Op Resp (Store × Body) := fun o sb => exec o sb.1 sb.2

/-! ### Calls

One function for each operation, with `?` applied to its answer. -/

/-- `?` on an answer of the operating system. -/
def orIo {α : Type} (r : Except IoFailure α) : Io α := .ofExcept (r.mapError .io)

def newUuid : Io String := .call .newUuid .ret
def createDirAll (path : Path) : Io Unit := .call (.createDirAll path) orIo
def create (path : Path) : Io ℕ := .call (.create path) orIo
def writeAll (file offset : ℕ) (bytes : Bytes) : Io Unit := .call (.writeAll file offset bytes) orIo
def tryExists (path : Path) : Io Bool := .call (.tryExists path) orIo
def renameFile (source target : Path) : Io Unit := .call (.rename source target) orIo
def readToString (path : Path) : Io String := .call (.readToString path) orIo
def readBody (max : ℕ) : Io Bytes := .call (.readBody max) orIo
def authorizeUpload (sessionId fileId token : String) : Io AuthorizedUpload :=
  .call (.session (.authorizeUpload sessionId fileId token)) .ofExcept
def markUploaded (sessionId fileId : String) : Io Unit :=
  .call (.session (.markUploaded sessionId fileId)) .ofExcept

end NightBridge.LocalSend
