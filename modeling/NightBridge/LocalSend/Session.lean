/-
# Upload sessions

`crates/protocol-localsend-v2/src/session.rs`: the sessions a receiver has
issued, in memory, behind one lock.  Every method holds the lock from its first
look at the sessions to its end, so it is one step: a function of the sessions
and of the time `now` at which it looks at the clock.  `SessionOp` lists the
methods and `SessionManager.exec` runs one.

Expired sessions are dropped by whichever method runs next, `prepare` and
`cancel_all` apart, which do not look.

Times are counted in nanoseconds from some start; the source's `Instant` would
panic past its range, which is not in the model.
-/

import NightBridge.LocalSend.Dto

namespace NightBridge.LocalSend

open Data

structure PreparedSession where
  sessionId : String
  files : BTreeMap String String

structure AuthorizedUpload where
  sessionId : String
  fileId : String
  token : String
  fileMeta : FileMeta
  deriving DecidableEq

structure SessionFile where
  token : String
  fileMeta : FileMeta
  uploaded : Bool
  deriving DecidableEq

structure Session where
  expiresAt : ℕ
  files : BTreeMap String SessionFile

abbrev Sessions := BTreeMap String Session

structure SessionManager where
  ttl : ℕ
  sessions : Sessions

def sessionError {α : Type} (message : String) : Except LocalSendError α := .error (.session message)

/-- The loop of `validate_file_ids`. -/
def validateIds : List (String × FileMeta) → List String → Except LocalSendError Unit
  | [], _ => .ok ()
  | (fileId, fileMeta) :: rest, seen =>
    if fileId ≠ fileMeta.id then sessionError "file id does not match map key"
    else if fileMeta.id ∈ seen then sessionError "duplicate file id"
    else validateIds rest (fileMeta.id :: seen)

def validateFileIds (request : PrepareUploadRequest) : Except LocalSendError Unit :=
  validateIds request.files.entries []

/-- What `prune_expired_locked` keeps. -/
def live (now : ℕ) (sessions : Sessions) : Sessions :=
  sessions.retain fun _ session => decide (now < session.expiresAt)

def pruneExpiredLocked (now : ℕ) (sessions : Sessions) : ℕ × Sessions :=
  (sessions.len - (live now sessions).len, live now sessions)

/-- The files of a new session, with the tokens the generator returns for them. -/
def issue (uuids : ℕ → String) (files : BTreeMap String FileMeta) : BTreeMap String SessionFile :=
  files.mapIdx fun i fileMeta => ⟨uuids (i + 1), fileMeta, false⟩

/-- The lookups of `authorize_upload` and `mark_uploaded`. -/
def findFile (sessions : Sessions) (sessionId fileId : String) : Except LocalSendError SessionFile :=
  match sessions.get? sessionId with
  | none => sessionError "unknown session"
  | some session =>
    match session.files.get? fileId with
    | none => sessionError "unknown file"
    | some file => .ok file

namespace SessionManager

def new (ttl : ℕ) : SessionManager := ⟨ttl, .empty⟩

variable (self : SessionManager) (now : ℕ)

/-- `SessionManager::prepare`; the id of the session is drawn first, then its
tokens. -/
def prepare (uuids : ℕ → String) (request : PrepareUploadRequest) :
    Except LocalSendError PreparedSession × SessionManager :=
  match validateFileIds request with
  | .error e => (.error e, self)
  | .ok () =>
    let files := issue uuids request.files
    (.ok ⟨uuids 0, files.map SessionFile.token⟩,
      { self with sessions := self.sessions.insert (uuids 0) ⟨now + self.ttl, files⟩ })

def authorizeUpload (sessionId fileId token : String) :
    Except LocalSendError AuthorizedUpload × SessionManager :=
  let sessions := live now self.sessions
  (match findFile sessions sessionId fileId with
    | .error e => .error e
    | .ok file =>
      if file.uploaded then sessionError "file already uploaded"
      else if file.token ≠ token then sessionError "invalid upload token"
      else .ok ⟨sessionId, fileId, token, file.fileMeta⟩, { self with sessions })

def markUploaded (sessionId fileId : String) : Except LocalSendError Unit × SessionManager :=
  let sessions := live now self.sessions
  match findFile sessions sessionId fileId with
  | .error e => (.error e, { self with sessions })
  | .ok _ =>
    let marked := sessions.adjust sessionId fun session =>
      { session with files := session.files.adjust fileId fun file => { file with uploaded := true } }
    (.ok (), { self with sessions := marked })

def cancel (sessionId : String) : Except LocalSendError Bool × SessionManager :=
  let sessions := live now self.sessions
  (.ok (sessions.containsKey sessionId), { self with sessions := sessions.remove sessionId })

/-- `SessionManager::session_id_for_file`: the first session in the order of the
ids. -/
def sessionIdForFile (fileId : String) : Except LocalSendError (Option String) × SessionManager :=
  let sessions := live now self.sessions
  (.ok (sessions.entries.findSome? fun e => if e.2.files.containsKey fileId then some e.1 else none),
    { self with sessions })

def cancelAll : Except LocalSendError ℕ × SessionManager :=
  (.ok self.sessions.len, { self with sessions := .empty })

def pruneExpired : ℕ × SessionManager :=
  let (pruned, sessions) := pruneExpiredLocked now self.sessions
  (pruned, { self with sessions })

end SessionManager

inductive SessionOp
  | prepare (request : PrepareUploadRequest)
  | authorizeUpload (sessionId fileId token : String)
  | markUploaded (sessionId fileId : String)
  | cancel (sessionId : String)
  | cancelAll
  | sessionIdForFile (fileId : String)
  | pruneExpired

@[reducible] def SessionOp.Resp : SessionOp → Type
  | .prepare _ => Except LocalSendError PreparedSession
  | .authorizeUpload .. => Except LocalSendError AuthorizedUpload
  | .markUploaded .. => Except LocalSendError Unit
  | .cancel _ => Except LocalSendError Bool
  | .cancelAll => Except LocalSendError ℕ
  | .sessionIdForFile _ => Except LocalSendError (Option String)
  | .pruneExpired => ℕ

/-- Run a method at a time, with the UUIDs the generator will return. -/
def SessionManager.exec (self : SessionManager) (now : ℕ) (uuids : ℕ → String) :
    (o : SessionOp) → o.Resp × SessionManager
  | .prepare request => self.prepare now uuids request
  | .authorizeUpload sessionId fileId token => self.authorizeUpload now sessionId fileId token
  | .markUploaded sessionId fileId => self.markUploaded now sessionId fileId
  | .cancel sessionId => self.cancel now sessionId
  | .cancelAll => self.cancelAll
  | .sessionIdForFile fileId => self.sessionIdForFile now fileId
  | .pruneExpired => self.pruneExpired now

/-- The UUIDs a method draws. -/
def SessionOp.draws : SessionOp → ℕ
  | .prepare request => if validateFileIds request = .ok () then request.files.len + 1 else 0
  | _ => 0

/-- A supply of names that are all different. -/
def tally (k : ℕ) : String := String.ofList (List.replicate (k + 1) 'x')

theorem tally_injective : Function.Injective tally := by
  intro k k' h
  have hlen := congrArg (fun s => s.toList.length) h
  simpa [tally] using hlen

end NightBridge.LocalSend
