/-
# Sending files over a connection

`crates/protocol-native-v1/src/client.rs`, from an open QUIC connection on: the
handshake, the request, the chunk frames of every file in the order of the
request, and the closing `Done`.  The client sends every chunk of the plan,
whatever the receiver has from earlier runs.
-/

import NightBridge.Native.Auth

namespace NightBridge.Native

open Data Effect

variable [Primitives]

def sendFileChunks (path : Path) (fileId : String) (fileSize chunkSize : ℕ) : Io AnyError Unit := do
  let file ← .call (.openRead path) orAnyIo
  let ranges ← orAny (.ofExcept (planChunks fileSize chunkSize))
  .each ranges fun range => do
    let bytes ← .call (.readExactAt file range.offset range.length) orAnyIo
    orAny (writeChunkFrame ⟨fileId, range.offset, blake3Hex bytes, bytes⟩)

omit [Primitives] in
/-- The match on the answer to `Hello`. -/
def expectHelloAck : ControlMessage → Io AnyError Unit
  | .helloAck _ => pure ()
  | other => .fail (.unexpected "native peer returned unexpected hello response: " other)

omit [Primitives] in
/-- The match on the answer to `RequestTransfer`. -/
def expectAccept (transferId : String) : ControlMessage → Io AnyError AcceptTransfer
  | .accept accepted =>
    if accepted.transferId = transferId then pure accepted
    else .fail (.unexpected "native peer returned unexpected transfer response: " (.accept accepted))
  | other => .fail (.unexpected "native peer returned unexpected transfer response: " other)

omit [Primitives] in
/-- The match on the answer to `Done`. -/
def expectDone (transferId : String) : ControlMessage → Io AnyError Unit
  | .done ack =>
    if ack.transferId = transferId then pure ()
    else .fail (.unexpected "native peer returned unexpected completion response: " (.done ack))
  | other => .fail (.unexpected "native peer returned unexpected completion response: " other)

/-- The alias every client sends. -/
def clientAlias : String := "night-bridge"

/-- The `Hello` of `send_prepared_native_files`. -/
def clientHello (keypair : Keypair) (transferId : String) (channelBinding : Bytes32) : Hello :=
  buildAuthenticatedHello keypair clientAlias (utf8 transferId) defaultExtensions channelBinding.1

/-- `connection.open_bi()`. -/
def openBi : Io AnyError Unit :=
  .call .openBi fun
    | .ok () => .ret ()
    | .error e => .fail (.quic e)

variable [Serde]

def sendPreparedNativeFiles (request : RequestTransfer) (paths : List Path) (keypair : Keypair) :
    Io AnyError Unit := do
  openBi
  let channelBinding ← orAny connectionChannelBinding
  orAny (writeControl (.hello (clientHello keypair request.transferId channelBinding)))
  expectHelloAck (← orAny readControl)
  orAny (writeControl (.requestTransfer request))
  let accepted ← expectAccept request.transferId (← orAny readControl)
  .each (request.files.zip paths) fun (file, path) =>
    sendFileChunks path file.fileId file.size accepted.chunkSize
  orAny (writeControl (.done ⟨request.transferId⟩))
  expectDone request.transferId (← orAny readControl)
  .call .sendFinish orAnyIo

end NightBridge.Native
