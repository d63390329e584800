/-
# The daemon's side of a native connection

`handle_native_connection` of `crates/daemon/src/main.rs` and what it calls.  A
connection is a `Hello`, checked against the trust store; a `RequestTransfer`;
as many chunk frames as the declared sizes come to; and a `Done`.

The paths of the two databases occur in error messages only, so they are texts
here.  The wait of a quarter of a second for the peer to close is left out.
-/

import NightBridge.Native.Auth

namespace NightBridge.Daemon

open Data Effect Native

/-- `MAX_NATIVE_TRANSFER_BYTES`: 64 GiB. -/
def maxNativeTransferBytes : ℕ := 64 * 1024 * 1024 * 1024

/-- The sum of the declared sizes, unless it overflows `u64`. -/
def declaredBytes (files : List FileOffer) : Option ℕ :=
  files.foldlM (fun acc file => if acc + file.size < 2 ^ 64 then some (acc + file.size) else none) 0

def checkedDeclaredTransferBytes (request : RequestTransfer) : Except AnyError ℕ :=
  match declaredBytes request.files with
  | none => .error (.message "native transfer declared size overflows u64")
  | some total =>
    if total > maxNativeTransferBytes then
      .error (.message ("native transfer declared size " ++ toString total ++ " exceeds maximum " ++
        toString maxNativeTransferBytes))
    else .ok total

def divCeil (a b : ℕ) : ℕ := if a % b > 0 then a / b + 1 else a / b

/-- `expected_chunk_count`.  The sum is bounded by the declared bytes, so it does
not overflow. -/
def expectedChunkCount (request : RequestTransfer) (chunkSize : ℕ) : ℕ :=
  (request.files.map fun file => if file.size = 0 then 0 else divCeil file.size chunkSize).sum

def ensureNativePeerTrusted (trustDbPath : String) (peer : NativePeerInfo) : Io AnyError Unit :=
  match Core.Fingerprint.fromStr peer.fingerprint with
  | .error e =>
    .fail (.context ("invalid native peer fingerprint " ++ peer.fingerprint) (.core e))
  | .ok fingerprint =>
    .call .openTrust fun
      | .error e => .fail (.context ("failed to open trust store " ++ trustDbPath) (.core e))
      | .ok () => .call (.selectPeer fingerprint) fun
        | .error e => .fail (.core e)
        | .ok none => bail ("native peer is not trusted: " ++ peer.fingerprint)
        | .ok (some trusted) =>
          match trusted.policy with
          | .autoAccept => pure ()
          | .prompt => bail ("native peer requires prompt before receive: " ++ peer.fingerprint)
          | .block => bail ("native peer is blocked: " ++ peer.fingerprint)

/-- The match on the message that ends a transfer. -/
def expectCompletion (transferId : String) : ControlMessage → Io AnyError DoneTransfer
  | .done done =>
    if done.transferId = transferId then pure done
    else bail "native transfer did not finish with Done"
  | _ => bail "native transfer did not finish with Done"

def acceptConnection : Io AnyError Unit :=
  .call .acceptIncoming fun
    | .ok () => .ret ()
    | .error e => .fail (.context "failed to accept native QUIC connection" (.quic e))

/-- `NativeControlStream::accept`. -/
def acceptControlStream : Io AnyError Unit :=
  .call .acceptBi fun
    | .ok () => .ret ()
    | .error e => .fail (.context "failed to accept native control stream" (.native (.transport e)))

def finishStream : Io AnyError Unit :=
  .call .sendFinish fun
    | .ok () => .ret ()
    | .error e => .fail (.context "failed to finish native stream" (.io e))

/-- The settings of a daemon that its native connections use. -/
structure Endpoint where
  nodeAlias : String
  pubkey : Bytes32
  inboxDir : Path
  trustDbPath : String
  manifestPath : String

/-- A daemon to run the model with. -/
def sampleEndpoint : Endpoint := ⟨"daemon", .pad [], ["inbox"], "trust", "manifest"⟩

section daemon

variable [Primitives]

/-- The body of the chunk loop. -/
def receiveOneChunk (receiver : NativeTransferReceiver) (transferId : String) : Io AnyError Unit := do
  let chunk ← withContext "failed to read native chunk" readChunkFrame
  withContext "failed to receive native chunk"
    (receiver.receiveChunkWithHash transferId chunk.fileId chunk.offset chunk.bytes chunk.blake3)

/-- The peer `handle_native_connection` takes a `Hello` to come from. -/
def peerOf (hello : Hello) : NativePeerInfo where
  nodeAlias := hello.nodeAlias
  fingerprint := (Core.Fingerprint.fromPubkey hello.pubkey).display
  pubkey := hello.pubkey
  quicPort := 0
  nativeCertificateFingerprint := none
  extensions := hello.extensions

variable [Serde]

def receiveNativeTransfer (inboxDir : Path) (manifestPath : String) (peer : NativePeerInfo)
    (request : RequestTransfer) : Io AnyError Unit := do
  withContext ("failed to open native manifest " ++ manifestPath) openManifest
  let _ ← .ofExcept (checkedDeclaredTransferBytes request)
  let receiver := NativeTransferReceiver.trusted inboxDir peer.fingerprint
  let accepted ← withContext "failed to accept native transfer" (receiver.acceptTransfer peer request)
  withContext "failed to write native transfer acceptance" (writeControl (.accept accepted))
  .each (List.range (expectedChunkCount request accepted.chunkSize)) fun _ =>
    receiveOneChunk receiver request.transferId
  let message ← withContext "failed to read native transfer completion" readControl
  let done ← expectCompletion request.transferId message
  withContext "failed to publish native files" (receiver.finishTransfer request.transferId)
  withContext "failed to write native completion ack" (writeControl (.done done))

/-- What `handle_native_connection` does with a `Hello`: it checks the proof and the
trust store and answers. -/
def greet (nodeAlias : String) (pubkey : Bytes32) (trustDbPath : String) (hello : Hello) :
    Io AnyError Unit := do
  let channelBinding ← withContext "failed to derive native channel binding" connectionChannelBinding
  withContext "native peer failed identity proof of possession"
    (.ofExcept (authenticateHello hello channelBinding.1))
  ensureNativePeerTrusted trustDbPath (peerOf hello)
  let nonce ← randomSessionNonce
  withContext "failed to write native hello ack" (writeControl (.helloAck
    { protocolVersion, nodeAlias, pubkey, nonce,
      acceptedExtensions := negotiateExtensions defaultExtensions hello.extensions }))

def handleNativeConnection (nodeAlias : String) (pubkey : Bytes32) (inboxDir : Path)
    (trustDbPath manifestPath : String) : Io AnyError Unit := do
  acceptConnection
  acceptControlStream
  match ← withContext "failed to read native control message" readControl with
  | .hello hello =>
    greet nodeAlias pubkey trustDbPath hello
    match ← withContext "failed to read native transfer request" readControl with
    | .requestTransfer request =>
      receiveNativeTransfer inboxDir manifestPath (peerOf hello) request
      finishStream
    | _ => pure ()
  | _ => pure ()

end daemon

end NightBridge.Daemon
