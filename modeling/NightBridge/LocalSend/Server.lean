/-
# The handlers of the LocalSend server

`crates/protocol-localsend-v2/src/server.rs`: who may open an upload session,
and the endpoints.  A handler is a program that returns its answer; what it
fails with is turned into a status by `api_error`.

`/info` and the log lines are left out, and the answer of `register`.
-/

import NightBridge.LocalSend.Inbox

namespace NightBridge.LocalSend

open Data Effect NightBridge.Core

inductive LocalSendReceivePolicy
  | prompt
  | trusted
  | auto
  deriving DecidableEq, Repr

/-- `LocalSendServerConfig`, as far as the handlers use it. -/
structure LocalSendServerConfig where
  inboxDir : Path
  sessionTtl : ℕ
  receivePolicy : LocalSendReceivePolicy
  trustedFingerprints : List String
  trustedFingerprintsFile : Option Path
  trustDbPath : Option Path

/-- `ServerState`; the sessions are in the store. -/
structure ServerState where
  inboxDir : Path
  receivePolicy : LocalSendReceivePolicy
  trustedFingerprints : List String
  trustedFingerprintsFile : Option Path
  trustDbPath : Option Path

def normalizeFingerprint (fingerprint : String) : Option String :=
  if normalized fingerprint = "" then none else some (normalized fingerprint)

def normalizeTrustedFingerprints (fingerprints : List String) : List String :=
  fingerprints.filterMap normalizeFingerprint

/-- The state `LocalSendServer::bind` sets up. -/
def LocalSendServerConfig.bind (config : LocalSendServerConfig) : ServerState where
  inboxDir := config.inboxDir
  receivePolicy := config.receivePolicy
  trustedFingerprints := normalizeTrustedFingerprints config.trustedFingerprints
  trustedFingerprintsFile := config.trustedFingerprintsFile
  trustDbPath := config.trustDbPath

/-- The fingerprints listed in a text: a line each, without comments. -/
def listedFingerprints (contents : String) : List String :=
  (((lines contents).map trim).filter fun line => line ≠ "" && line.toList.head? ≠ some '#').filterMap
    normalizeFingerprint

/-- `impl Display for CoreError`. -/
def showCoreError : CoreError → String
  | .crypto message => "crypto: " ++ message
  | .trustStore message => "trust store: " ++ message

/-- `.map_err(|error| LocalSendError::Session(format!("{what}: {error}")))?`. -/
def orSession {α : Type} (what : String) (r : Except CoreError α) : Io α :=
  .ofExcept (r.mapError fun e => .session (what ++ ": " ++ showCoreError e))

def openTrust : Io Unit := .call .openTrust (orSession "failed to open LocalSend trust store")

def readTrustedFingerprintsFile (path : Path) : Io (List String) := do
  let contents ← readToString path
  pure (listedFingerprints contents)

def trustedFingerprints (state : ServerState) : Io (List String) := do
  let listed ← match state.trustedFingerprintsFile with
    | some path => readTrustedFingerprintsFile path
    | none => pure []
  let approved ← match state.trustDbPath with
    | some _ => do
      openTrust
      .call .trustedLocalsendFingerprints (orSession "failed to read trusted LocalSend peers")
    | none => pure []
  pure (state.trustedFingerprints ++ listed ++ approved)

def recordPendingLocalsendPeer (state : ServerState) (peer : DeviceInfo) (fingerprint : String)
    (sourceIp : Option String) : Io Unit :=
  match state.trustDbPath with
  | none => pure ()
  | some _ => do
    openTrust
    let blocked ← .call (.isLocalsendPeerBlocked fingerprint)
      (orSession "failed to read LocalSend peer status")
    if blocked then pure ()
    else do
      let _ ← .call (.recordPendingLocalsendPeer fingerprint peer.aliasName sourceIp)
        (orSession "failed to record pending LocalSend peer")
      pure ()

def recordTrustedLocalsendPeer (state : ServerState) (peer : DeviceInfo) (fingerprint : String)
    (sourceIp : Option String) : Io Unit :=
  match state.trustDbPath with
  | none => pure ()
  | some _ => do
    openTrust
    let _ ← .call (.recordTrustedLocalsendPeer fingerprint peer.aliasName sourceIp)
      (orSession "failed to record trusted LocalSend peer")
    pure ()

def authorizePrepareUpload (state : ServerState) (peer : DeviceInfo)
    (sourceIp : Option String) : Io Unit :=
  match state.receivePolicy with
  | .auto => pure ()
  | .prompt => .fail (.session "incoming LocalSend upload requires operator approval")
  | .trusted =>
    match normalizeFingerprint peer.fingerprint with
    | none => .fail (.session "incoming LocalSend upload has no peer fingerprint")
    | some fingerprint => do
      let trusted ← trustedFingerprints state
      if fingerprint ∈ trusted then recordTrustedLocalsendPeer state peer fingerprint sourceIp
      else do
        recordPendingLocalsendPeer state peer fingerprint sourceIp
        .fail (.session ("incoming LocalSend peer is not trusted: " ++ peer.fingerprint))

def prepareUpload (state : ServerState) (request : PrepareUploadRequest) (sourceIp : Option String) :
    Io PreparedSession := do
  authorizePrepareUpload state request.info sourceIp
  .call (.session (.prepare request)) .ofExcept

def legacySendRequest (state : ServerState) (request : PrepareUploadRequest) (sourceIp : Option String) :
    Io (BTreeMap String String) := do
  let prepared ← prepareUpload state (normalizeLegacyPrepareRequest request) sourceIp
  pure prepared.files

def recordLocalsendLanPeer (state : ServerState) (peer : DeviceInfo)
    (sourceIp : Option String) : Io Unit :=
  match state.trustDbPath, sourceIp, normalizeFingerprint peer.fingerprint with
  | some _, some sourceIp, some fingerprint => do
    openTrust
    let _ ← .call (.recordLocalsendLanPeer
        { fingerprint, aliasName := peer.aliasName, sourceIp, port := peer.port,
          protocol := peer.protocol, deviceModel := peer.deviceModel, deviceType := peer.deviceType,
          download := peer.download, firstSeen := 0, lastSeen := 0 })
      (orSession "failed to record LocalSend LAN peer")
    pure ()
  | _, _, _ => pure ()

/-- `StatusCode`, those the handlers answer with. -/
inductive StatusCode
  | ok
  | badRequest
  | forbidden
  | conflict
  | internalServerError
  deriving DecidableEq, Repr

/-- `api_error`; a panic ends the connection without an answer. -/
def apiError : LocalSendError → Option StatusCode
  | .json _ => some .badRequest
  | .session _ => some .forbidden
  | .crypto _ => some .badRequest
  | .http _ => some .badRequest
  | .io _ => some .internalServerError
  | .panicked => none

structure UploadQuery where
  sessionId : String
  fileId : String
  token : String
  deriving DecidableEq

/-- `write_upload`; it answers 200 when it returns. -/
def writeUpload [Primitives] (state : ServerState) (query : UploadQuery) : Io StatusCode := do
  let authorized ← authorizeUpload query.sessionId query.fileId query.token
  let _ ← InboxWriter.writeUpload ⟨state.inboxDir⟩ authorized
  markUploaded query.sessionId query.fileId
  pure .ok

def legacySend [Primitives] (state : ServerState) (fileId token : String) : Io StatusCode := do
  let sessionId ← .call (.session (.sessionIdForFile fileId)) .ofExcept
  match sessionId with
  | some sessionId => writeUpload state ⟨sessionId, fileId, token⟩
  | none => pure .forbidden

def cancel (sessionId : String) : Io StatusCode := do
  let cancelled ← .call (.session (.cancel sessionId)) .ofExcept
  pure (if cancelled then .ok else .conflict)

def legacyCancel : Io StatusCode := do
  let _ ← .call (.session .cancelAll) .ofExcept
  pure .ok

inductive Request
  | upload (query : UploadQuery)
  | legacySend (fileId token : String)
  | cancel (sessionId : String)
  | legacyCancel
  | prepareUpload (offer : PrepareUploadRequest) (sourceIp : Option String)
  | legacySendRequest (offer : PrepareUploadRequest) (sourceIp : Option String)

/-- What the handler of a request does, up to the status of its answer. -/
def Request.handle [Primitives] (state : ServerState) : Request → Io StatusCode
  | .upload query => writeUpload state query
  | .legacySend fileId token => LocalSend.legacySend state fileId token
  | .cancel sessionId => LocalSend.cancel sessionId
  | .legacyCancel => LocalSend.legacyCancel
  | .prepareUpload offer sourceIp => do
    let _ ← LocalSend.prepareUpload state offer sourceIp
    pure .ok
  | .legacySendRequest offer sourceIp => do
    let _ ← LocalSend.legacySendRequest state offer sourceIp
    pure .ok

/-- The status of an answer, if there is one. -/
def answer : Except LocalSendError StatusCode → Option StatusCode
  | .ok status => some status
  | .error e => apiError e

end NightBridge.LocalSend
