/-
# Sending files and trusting peers

`crates/daemon/src/api/transfers.rs` and, of `api/peers.rs`, `trust_native_lan`.
`send_files` checks its paths, announces the transfer, hands it to one of five
ways of sending, and announces how it ended.

A panic ends the call without an answer: a WAN reference that is no fingerprint
can make the parser panic.
-/

import NightBridge.Api.Calls

namespace NightBridge.Api

open Data Effect NightBridge.Core NightBridge.Native

/-- `DaemonState`, as far as these calls use it; the identity is its secret key. -/
structure DaemonState where
  aliasName : String
  identity : Bytes32
  fingerprint : String
  trustDbPath : String
  wan : WanConfig

/-- A daemon without WAN, to run the model with. -/
def DaemonState.sample : DaemonState := ⟨"nas", .pad [], "0000-0000-0000-0000", "trust.db",
    ⟨false, none⟩⟩

inductive Target
  | localsendUrl (url : String)
  | nativeUrl (url : String)
  | peerFingerprint (peer : String)
  | wanPeer (fingerprint : String)
  deriving DecidableEq

structure SendRequest where
  paths : List String
  target : Option Target
  native : Bool

/-- `Err(Status::…)`. -/
def failStatus {α : Type} (code : Code) (message : String) : Handler α := .fail (.error ⟨code, message⟩)

def validatedPaths (paths : List String) : Handler (List String) :=
  if paths = [] then failStatus .invalidArgument "at least one file path is required"
  else do
    .each paths fun path => .call (.metadata path) fun
      | .error e => failStatus .invalidArgument ("file does not exist: " ++ path ++ " (" ++ e ++ ")")
      | .ok false => failStatus .invalidArgument ("not a file: " ++ path)
      | .ok true => pure ()
    pure paths

def senderInfo (state : DaemonState) : LocalSend.DeviceInfo where
  aliasName := state.aliasName
  version := "2.0"
  deviceModel := none
  deviceType := some "desktop"
  fingerprint := state.fingerprint
  port := 0
  protocol := "https"
  download := false

/-! ### Trust -/

def nativeWanCertificateFingerprint (peer : Peer) : Except Status String :=
  match peer.policy with
  | .block => .error ⟨.permissionDenied, "trusted peer is blocked: " ++ peer.fingerprint.display⟩
  | .prompt => .error ⟨.permissionDenied,
      "trusted peer requires prompt before native WAN send: " ++ peer.fingerprint.display⟩
  | .autoAccept =>
    match peer.nativeCertificateFingerprint with
    | some cert => .ok cert
    | none => .error ⟨.failedPrecondition, "trusted peer is missing native certificate metadata: " ++
        peer.fingerprint.display ++ "; re-pair or refresh trust"⟩

/-- `parse::<Fingerprint>()`, with a status for a text that is none. -/
def parseFingerprint (what text : String) : Handler Fingerprint :=
  match Fingerprint.fromStr text with
  | .ok fingerprint => pure fingerprint
  | .error (.error e) => failStatus .invalidArgument (what ++ ": " ++ LocalSend.showCoreError e)
  | .error .panic => .fail .panic

/-- Open the trust store and get a peer that has to be there. -/
def getTrusted (fingerprint : Fingerprint) (missing : Status) : Handler Peer :=
  .call .openTrust fun opened => do
    .ofExcept (opened.mapError fun e =>
      .error ⟨.internal, "failed to open trust store: " ++ LocalSend.showCoreError e⟩)
    .call (.trustGet fingerprint) fun
      | .error (.error e) => failStatus .internal
          ("failed to read trusted peer: " ++ LocalSend.showCoreError e)
      | .error .panic => .fail .panic
      | .ok none => .fail (.error missing)
      | .ok (some peer) => pure peer

section handlers

variable [Primitives] [DebugText] [Rendezvous.SocketAddrs] (state : DaemonState)

/-! ### The ways of sending -/

def sendFilesToNativeLanPeer (peerRef : String) (paths : List String) : Handler Unit := do
  let peers ← internalStatus (discover 1500 state.fingerprint)
  let peer ← notFoundStatus (resolvePeerRef peers peerRef)
  let fingerprint ← parseFingerprint "invalid native peer fingerprint" peer.fingerprint
  let trusted ← getTrusted fingerprint ⟨.permissionDenied, "native peer is not trusted: " ++ peerRef⟩
  let expected ← .ofExcept ((nativeWanCertificateFingerprint trusted).mapError .error)
  match peer.nativeCertificateFingerprint with
  | none => failStatus .failedPrecondition ("native peer " ++ DebugText.debug peerRef ++
      " did not advertise certificate metadata")
  | some advertised =>
    if advertised ≠ expected then
      failStatus .permissionDenied ("native peer certificate fingerprint mismatch for " ++
        DebugText.debug peerRef)
    else
      internalStatus (.call (.nativeSendToUrl
        ("quic://" ++ peer.address ++ ":" ++ toString peer.port) paths
        state.identity expected) .ofExcept)

def resolveLocalsendLanPeer (peerRef : String) : Handler LocalSendLanPeer :=
  if normalizeLocalsendPeerRef peerRef = "" then failStatus .invalidArgument "LocalSend peer is required"
  else do
    let peers ← internalStatus scanAndCache
    .ofExcept ((matchLocalsendLanPeer peers peerRef).mapError .error)

def sendFilesToLocalsendLanPeer (peerRef : String) (paths : List String) : Handler Unit := do
  let peer ← resolveLocalsendLanPeer peerRef
  internalStatus (.call (.localSendClientPinned peer.fingerprint) .ofExcept)
  internalStatus (.call (.localSendSend (some peer.fingerprint)
    (peer.protocol ++ "://" ++ peer.sourceIp ++ ":" ++ toString peer.port.toNat) paths
      (senderInfo state))
    .ofExcept)

def sendFilesToWanPeer (text : String) (paths : List String) : Handler Unit :=
  if !state.wan.enabled || state.wan.rendezvousUrl.isNone then
    failStatus .failedPrecondition "WAN rendezvous is not configured"
  else do
    let fingerprint ← parseFingerprint "invalid WAN peer fingerprint" text
    let peer ← getTrusted fingerprint ⟨.notFound, "trusted peer not found: " ++ fingerprint.display⟩
    let expected ← .ofExcept ((nativeWanCertificateFingerprint peer).mapError .error)
    let candidates ← internalStatus (lookupPeerCandidates state.wan
      (Primitives.verifyingKey state.identity)
      peer.pubkey)
    internalStatus (.call (.nativeSendToCandidates candidates paths state.identity expected) .ofExcept)

/-! ### The calls -/

/-- The match of `send_files` over the target; its result is the outcome of the
send. -/
def dispatch (request : SendRequest) (paths : List String) :
    Target → Handler (Except (Raised Status) Unit)
  | .localsendUrl url => do
    -- this `?` leaves `send_files`, not the match
    internalStatus (.call .localSendClientNew .ofExcept)
    (internalStatus (.call (.localSendSend none url paths (senderInfo state)) .ofExcept)).attempt
  | .nativeUrl _ => (failStatus .failedPrecondition
      ("native URL sends require pinned certificate metadata; use CLI --direct --native " ++
        "--native-cert-fingerprint or trusted WAN peer metadata")).attempt
  | .peerFingerprint peer =>
    if request.native then (sendFilesToNativeLanPeer state peer paths).attempt
    else (sendFilesToLocalsendLanPeer state peer paths).attempt
  | .wanPeer fingerprint => (sendFilesToWanPeer state fingerprint paths).attempt

/-- The end of `send_files`. -/
def conclude (transferId : String) : Except (Raised Status) Unit → Handler String
  | .ok () => .call (.emit (.transferCompleted transferId)) fun _ => pure transferId
  | .error (.error status) =>
    .call (.emit (.transferFailed transferId status.code.debug status.message)) fun _ =>
      .fail (.error status)
  | .error .panic => .fail .panic

def sendFiles (request : SendRequest) : Handler String := do
  let paths ← validatedPaths request.paths
  match request.target with
  | none => failStatus .invalidArgument "send target is required"
  | some target =>
    .call .newUuid fun transferId =>
    .call (.emit (.transferStarted transferId)) fun _ => do
      let result ← dispatch state request paths target
      conclude transferId result

structure TrustNativeLanPeerRequest where
  peer : String
  label : Option String
  policy : ℤ
  timeoutMs : ℕ

/-- The policy a request asks for; what is no policy means `AutoAccept`. -/
def TrustNativeLanPeerRequest.corePolicy (request : TrustNativeLanPeerRequest) : PeerPolicy :=
  if request.policy = 2 then .prompt else if request.policy = 3 then .block else .autoAccept

def discoveryTimeout (timeoutMs : ℕ) : ℕ := if timeoutMs = 0 then 1500 else timeoutMs

def trustNativeLan (request : TrustNativeLanPeerRequest) : Handler Peer := do
  let peers ← internalStatus (discover (discoveryTimeout request.timeoutMs) state.fingerprint)
  let peer ← notFoundStatus (resolvePeerRef peers request.peer)
  (trustDiscoveredPeer state.trustDbPath peer request.label request.corePolicy).mapError fun
    | .error e => .error ⟨.internal, e⟩
    | .panic => .panic

end handlers

end NightBridge.Api
