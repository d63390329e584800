/-
# Frames on the control stream

`crates/protocol-native-v1/src/framing.rs`, and the chunk frames of
`transfer.rs`.  Both kinds travel on one QUIC stream with nothing that tells
them apart:

| frame | layout |
| --- | --- |
| control | `u32` length, one type byte, JSON |
| chunk | `u32` length, `u16` id length, id, `u64` offset, 64 hex digits, `u32` length, bytes |

`serde_json` is the class `Serde`, an arbitrary choice of an encoder and a
decoder for each record; what is assumed of it is said where it is used.
-/

import NightBridge.Data.Json
import NightBridge.Native.Transfer

namespace NightBridge.Native

open Data Effect

inductive ControlMessage
  | hello (message : Hello)
  | helloAck (message : HelloAck)
  | requestTransfer (message : RequestTransfer)
  | accept (message : AcceptTransfer)
  | chunkAck (message : ChunkAck)
  | cancel (message : CancelTransfer)
  | done (message : DoneTransfer)
  | resumeRequest (message : ResumeRequest)
  deriving DecidableEq

/-- `serde_json` on one type. -/
structure Json (α : Type) where
  toVec : α → Except String Bytes
  fromSlice : Bytes → Except String α

/-- `serde_json` on the records of the protocol. -/
class Serde where
  hello : Json Hello
  helloAck : Json HelloAck
  requestTransfer : Json RequestTransfer
  accept : Json AcceptTransfer
  chunkAck : Json ChunkAck
  cancel : Json CancelTransfer
  done : Json DoneTransfer
  resumeRequest : Json ResumeRequest

/-- Whatever the encoder writes, the decoder reads back. -/
def Json.RoundTrips {α : Type} (json : Json α) : Prop :=
  ∀ a bytes, json.toVec a = .ok bytes → json.fromSlice bytes = .ok a

def maxControlFrameBytes : ℕ := 1024 * 1024

def maxChunkFrameBytes : ℕ := 8 * 1024 * 1024

def messageType : ControlMessage → UInt8
  | .hello _ => 1
  | .helloAck _ => 2
  | .requestTransfer _ => 3
  | .accept _ => 4
  | .chunkAck _ => 5
  | .cancel _ => 6
  | .done _ => 7
  | .resumeRequest _ => 8

section control

variable [Serde]

def messagePayload : ControlMessage → Except String Bytes
  | .hello m => Serde.hello.toVec m
  | .helloAck m => Serde.helloAck.toVec m
  | .requestTransfer m => Serde.requestTransfer.toVec m
  | .accept m => Serde.accept.toVec m
  | .chunkAck m => Serde.chunkAck.toVec m
  | .cancel m => Serde.cancel.toVec m
  | .done m => Serde.done.toVec m
  | .resumeRequest m => Serde.resumeRequest.toVec m

/-- `serde_json::from_slice(payload)?` under a constructor of `ControlMessage`. -/
def decodeAs {α : Type} (json : Json α) (wrap : α → ControlMessage) (payload : Bytes) :
    Except NativeError ControlMessage :=
  ((json.fromSlice payload).map wrap).mapError .json

def decodeFrame : Bytes → Except NativeError ControlMessage
  | [] => .error (.protocol "empty control frame")
  | messageType :: payload =>
    match messageType.toNat with
    | 1 => decodeAs Serde.hello .hello payload
    | 2 => decodeAs Serde.helloAck .helloAck payload
    | 3 => decodeAs Serde.requestTransfer .requestTransfer payload
    | 4 => decodeAs Serde.accept .accept payload
    | 5 => decodeAs Serde.chunkAck .chunkAck payload
    | 6 => decodeAs Serde.cancel .cancel payload
    | 7 => decodeAs Serde.done .done payload
    | 8 => decodeAs Serde.resumeRequest .resumeRequest payload
    | other => .error (.protocol ("unknown control message type " ++ toString other))

def writeControl (message : ControlMessage) : Io NativeError Unit := do
  let payload ← .ofExcept ((messagePayload message).mapError .json)
  let frame := messageType message :: payload
  if frame.length > maxControlFrameBytes then .fail (.protocol "control frame too large")
  else
    sendAll (toBeBytes 4 frame.length)
    sendAll frame

def readControl : Io NativeError ControlMessage := do
  let length := ofBeBytes (← recvExact 4)
  if length = 0 then .fail (.protocol "empty control frame")
  else if length > maxControlFrameBytes then .fail (.protocol "control frame too large")
  else
    let frame ← recvExact length
    .ofExcept (decodeFrame frame)

end control

structure TransferChunk where
  fileId : String
  offset : ℕ
  blake3 : String
  bytes : Bytes
  deriving DecidableEq

def TransferChunk.frameLen (chunk : TransferChunk) : ℕ :=
  2 + (utf8 chunk.fileId).length + 8 + 64 + 4 + chunk.bytes.length

/-- The blocks a chunk frame is made of. -/
def chunkBlocks (chunk : TransferChunk) : List Bytes :=
  [toBeBytes 4 chunk.frameLen,
    toBeBytes 2 (utf8 chunk.fileId).length, utf8 chunk.fileId, toBeBytes 8 chunk.offset,
    utf8 chunk.blake3, toBeBytes 4 chunk.bytes.length, chunk.bytes]

section chunk

variable [Primitives]

def writeChunkFrame (chunk : TransferChunk) : Io NativeError Unit :=
  if isBlank chunk.fileId then transferError "file id is required"
  else if (utf8 chunk.blake3).length ≠ 64 ∨ ¬ chunk.blake3.toList.all isAsciiHexdigit then
    transferError "chunk blake3 must be 64 hex characters"
  else if chunk.bytes = [] then transferError "chunk bytes must not be empty"
  else if blake3Hex chunk.bytes ≠ chunk.blake3 then transferError "chunk hash mismatch"
  else
    let fileId := utf8 chunk.fileId
    if fileId.length ≥ 2 ^ 16 then transferError "file id is too long"
    else if chunk.bytes.length ≥ 2 ^ 32 then transferError "chunk is too large"
    else if chunk.frameLen ≥ 2 ^ 32 then transferError "chunk frame is too large"
    else do
      sendAll (toBeBytes 4 chunk.frameLen)
      sendAll (toBeBytes 2 fileId.length)
      sendAll fileId
      sendAll (toBeBytes 8 chunk.offset)
      sendAll (utf8 chunk.blake3)
      sendAll (toBeBytes 4 chunk.bytes.length)
      sendAll chunk.bytes

/-- `String::from_utf8(..).map_err(|_| transfer_error(message))?`. -/
def fromUtf8Or (message : String) (bs : Bytes) : Io NativeError String :=
  match fromUtf8 bs with
  | some s => pure s
  | none => transferError message

def readChunkFrame : Io NativeError TransferChunk := do
  let frameLen := ofBeBytes (← recvExact 4)
  if frameLen < 2 + 8 + 64 + 4 then transferError "chunk frame is too small"
  else if frameLen > maxChunkFrameBytes then transferError "chunk frame exceeds maximum size"
  else
    let fileIdLen := ofBeBytes (← recvExact 2)
    if fileIdLen = 0 ∨ fileIdLen > frameLen then transferError "invalid file id length"
    else
      let fileId ← fromUtf8Or "file id must be valid UTF-8" (← recvExact fileIdLen)
      let offset := ofBeBytes (← recvExact 8)
      let blake3 ← fromUtf8Or "chunk blake3 must be valid UTF-8" (← recvExact 64)
      let bytesLen := ofBeBytes (← recvExact 4)
      if 2 + fileIdLen + 8 + 64 + 4 + bytesLen ≠ frameLen then
        transferError "chunk frame length mismatch"
      else
        let bytes ← recvExact bytesLen
        if blake3Hex bytes ≠ blake3 then transferError "chunk hash mismatch"
        else pure ⟨fileId, offset, blake3, bytes⟩

end chunk

/-! ### A codec to run the model with -/

/-- A codec for a few values, with the JSON of each. -/
def Json.table {α : Type} [DecidableEq α] (entries : List (α × JsonValue)) : Json α where
  toVec a := ((entries.find? (·.1 = a)).map (·.2.bytes)).elim (.error "not in the table") .ok
  fromSlice bytes :=
    ((entries.find? (·.2.bytes = bytes)).map Prod.fst).elim (.error "not in the table") .ok

theorem Json.roundTrips_table {α : Type} [DecidableEq α] {entries : List (α × JsonValue)}
    (h : (entries.map (·.2.bytes)).Nodup) : (Json.table entries).RoundTrips := by
  intro a bytes hbytes
  cases hentry : entries.find? (·.1 = a) with
  | none => simp [table, hentry] at hbytes
  | some entry =>
    obtain rfl : entry.2.bytes = bytes := by simpa [table, hentry] using hbytes
    obtain rfl : entry.1 = a := by simpa using List.find?_some hentry
    have hmem := List.mem_of_find?_eq_some hentry
    obtain ⟨entry', hfound⟩ := Option.isSome_iff_exists.mp
      (List.find?_isSome (p := (·.2.bytes = entry.2.bytes)) |>.mpr ⟨entry, hmem, decide_eq_true rfl⟩)
    have hsame : entry' = entry :=
      List.inj_on_of_nodup_map h (List.mem_of_find?_eq_some hfound) hmem (by simpa using List.find?_some hfound)
    simp [table, hfound, hsame]

/-- The JSON of a message, with the fields in the order of the source. -/
def ControlMessage.json : ControlMessage → JsonValue
  | .hello m => .object [("protocol_version", .number m.protocolVersion), ("alias", .string m.nodeAlias),
      ("pubkey", .ofBytes m.pubkey), ("nonce", .ofBytes m.nonce),
      ("extensions", .array (m.extensions.map .string)), ("identity_proof", .ofBytes m.identityProof)]
  | .helloAck m => .object [("protocol_version", .number m.protocolVersion), ("alias", .string m.nodeAlias),
      ("pubkey", .ofBytes m.pubkey), ("nonce", .ofBytes m.nonce),
      ("accepted_extensions", .array (m.acceptedExtensions.map .string))]
  | .requestTransfer m => .object [("transfer_id", .string m.transferId),
      ("files", .array (m.files.map fun file => .object [("file_id", .string file.fileId),
        ("file_name", .string file.fileName), ("size", .number file.size),
        ("blake3", .ofOption .string file.blake3)]))]
  | .accept m => .object [("transfer_id", .string m.transferId), ("chunk_size", .number m.chunkSize)]
  | .chunkAck m => .object [("transfer_id", .string m.transferId), ("file_id", .string m.fileId),
      ("offset", .number m.offset), ("length", .number m.length), ("blake3", .string m.blake3)]
  | .cancel m => .object [("transfer_id", .string m.transferId), ("reason", .string m.reason)]
  | .done m => .object [("transfer_id", .string m.transferId)]
  | .resumeRequest m => .object [("transfer_id", .string m.transferId)]

/-- The messages of one kind, with their JSON. -/
def entriesOf {α : Type} (kind : ControlMessage → Option α) (messages : List ControlMessage) :
    List (α × JsonValue) :=
  messages.filterMap fun message => (kind message).map (·, message.json)

/-- A codec for a few messages. -/
@[reducible] def Serde.table (messages : List ControlMessage) : Serde where
  hello := .table (entriesOf (fun | .hello m => some m | _ => none) messages)
  helloAck := .table (entriesOf (fun | .helloAck m => some m | _ => none) messages)
  requestTransfer := .table (entriesOf (fun | .requestTransfer m => some m | _ => none) messages)
  accept := .table (entriesOf (fun | .accept m => some m | _ => none) messages)
  chunkAck := .table (entriesOf (fun | .chunkAck m => some m | _ => none) messages)
  cancel := .table (entriesOf (fun | .cancel m => some m | _ => none) messages)
  done := .table (entriesOf (fun | .done m => some m | _ => none) messages)
  resumeRequest := .table (entriesOf (fun | .resumeRequest m => some m | _ => none) messages)

/-! ### `anyhow::Error` -/

/-- What the functions that return `anyhow::Result` fail with. -/
inductive AnyError
  | native (e : NativeError)
  | core (e : Core.Failure)
  | io (e : IoError)
  /-- An error of `quinn`. -/
  | quic (message : String)
  | message (text : String)
  /-- A text that ends with the debug form of a message. -/
  | unexpected (text : String) (message : ControlMessage)
  /-- `.context(text)`. -/
  | context (text : String) (cause : AnyError)
  deriving DecidableEq

def bail {α : Type} (text : String) : Io AnyError α := .fail (.message text)

/-- `?` on an answer of the operating system. -/
def orAnyIo {α : Type} (r : Except IoError α) : Io AnyError α := .ofExcept (r.mapError .io)

/-- `p?`, where the error of `p` is a `NativeError`. -/
def orAny {α : Type} (p : Io NativeError α) : Io AnyError α := p.mapError .native

def withContext {α : Type} (text : String) (p : Io NativeError α) : Io AnyError α :=
  p.mapError fun e => .context text (.native e)

end NightBridge.Native
