/-
# The rendezvous server and its clients

`crates/rendezvous/src/server.rs` and `client.rs`.  A connection carries
requests, each on a stream of its own: a frame with a message, answered by a
frame with a message.  The server spawns a task for every stream, and a task
that prunes the registry from time to time.  They all share the registry behind
a lock and a clock that only goes forward.

`handle_message` reads the clock before it waits for the lock.  So the registry
may see times that go back: between a request's `now` and its turn, other calls
with later times may have been served.  `prune_expired` of the pruning task
reads the clock under the lock.

The bytes a stream carries to the server are arbitrary (`Wire.inp`), and its
peer may stop reading at any point (`Wire.room`).  `serde_json` is the class
`Serde`.  A panic of `register` ends the task of its stream; the lock is
tokio's, which is not poisoned by it.
-/

import NightBridge.Effect.Pool
import NightBridge.Native.Framing
import NightBridge.Rendezvous.Registry

namespace NightBridge.Rendezvous

open Data Effect

/-! ### Messages -/

structure ErrorResponse where
  code : String
  message : String
  deriving DecidableEq

deriving instance DecidableEq for LookupRequest

inductive ClientMessage
  | register (request : RegisterRequest)
  | lookup (request : LookupRequest)
  | notify (request : NotifyRequest)
  | ping
  deriving DecidableEq

inductive ServerMessage
  | registered (response : RegisteredResponse)
  | lookupResult (response : LookupResponse)
  | notifyQueued (response : NotifyQueuedResponse)
  | peerNotification (notification : PeerNotification)
  | pong
  | error (response : ErrorResponse)
  deriving DecidableEq

/-- `serde_json` on the messages. -/
class Serde where
  client : Native.Json ClientMessage
  server : Native.Json ServerMessage

def ProtocolError.text : ProtocolError → String
  | .required name => name ++ " is required"
  | .emptyCandidates => "register request must include at least one candidate"
  | .invalidTtl => "ttl_seconds must be greater than zero"
  | .invalidCandidateAddress => "candidate address must be host:port"
  | .invalidCandidatePort => "candidate port must be greater than zero"

def RegistryError.text : RegistryError → String
  | .protocol e => e.text
  | .targetNotRegistered => "target peer is not registered"

def maxFrameBytes : ℕ := 1024 * 1024

/-! ### What the tasks of the server call -/

inductive Op
  /-- `RecvStream::read_exact`. -/
  | recvExact (n : ℕ)
  /-- `SendStream::write_all`. -/
  | sendAll (bytes : Bytes)
  | finish
  /-- `Instant::now()`. -/
  | now
  /-- `registry.lock().await`, and a method of the registry at a time. -/
  | call (c : TimedCall)
  /-- `registry.lock().await.prune_expired(Instant::now())`. -/
  | prune
  /-- Not a call of the server: time passes. -/
  | elapse (nanos : ℕ)

/-- What it answers.  A read or a write that fails answers `none` or `false`. -/
@[reducible] def Resp : Op → Type
  | .recvExact _ => Option Bytes
  | .sendAll _ => Bool
  | .finish => Unit
  | .now => ℕ
  | .call c => c.2.Resp
  | .prune => ℕ
  | .elapse _ => Unit

/-- What the tasks share.  `log` is not in the source: the calls of the registry
in the order in which the lock was taken, each with the time at which it was. -/
structure Shared where
  registry : Registry
  clock : ℕ
  log : List (ℕ × CallEvent)

/-- The calls of the registry so far. -/
def Shared.calls (s : Shared) : List CallEvent := s.log.map Prod.snd

/-- A stream, as its task sees it. -/
structure Wire where
  /-- What the peer sends and the task has not read. -/
  inp : Bytes
  /-- What the task has written. -/
  out : Bytes
  /-- How many more bytes the peer takes. -/
  room : ℕ
  finished : Bool
  deriving DecidableEq

/-- A stream that brings some bytes. -/
def Wire.incoming (inp : Bytes) (room : ℕ) : Wire := ⟨inp, [], room, false⟩

section server

variable [SocketAddrs]

/-- A method of the registry is called. -/
def Shared.locked (c : TimedCall) (s : Shared) : c.2.Resp × Shared :=
  let r := Registry.handle c s.registry
  (r.1, { s with registry := r.2, log := s.log ++ [(s.clock, ⟨c, r.1⟩)] })

def exec : (o : Op) → Shared → Wire → Resp o × Shared × Wire
  | .recvExact n, s, w =>
    if n ≤ w.inp.length then (some (w.inp.take n), s, { w with inp := w.inp.drop n })
    else (none, s, { w with inp := [] })
  | .sendAll bytes, s, w =>
    (decide (bytes.length ≤ w.room), s,
      { w with out := w.out ++ bytes.take w.room, room := w.room - bytes.length })
  | .finish, s, w => ((), s, { w with finished := true })
  | .now, s, w => (s.clock, s, w)
  | .call c, s, w => ((s.locked c).1, (s.locked c).2, w)
  | .prune, s, w => let r := s.locked (s.clock, .pruneExpired); (r.1, r.2, w)
  | .elapse nanos, s, w => ((), { s with clock := s.clock + nanos }, w)

end server

/-! ### Frames -/

/-- A panic, which ends a task. -/
inductive Panic
  | panicked
  deriving DecidableEq

abbrev Io (ε α : Type) := Prog Op Resp ε α

/-- `recv.read_exact(..).await.context(text)?`, with the text that `to_string`
shows. -/
def recvExact (n : ℕ) (text : String) : Io String Bytes :=
  .call (.recvExact n) fun
    | some bytes => .ret bytes
    | none => .fail text

/-- `send.write_all(..).await.context(text)?`. -/
def sendAll (bytes : Bytes) (text : String) : Io String Unit :=
  .call (.sendAll bytes) fun
    | true => .ret ()
    | false => .fail text

/-- `rendezvous frame exceeds {MAX_FRAME_BYTES} bytes`. -/
def frameTooLarge : String := "rendezvous frame exceeds 1048576 bytes"

def readFrame : Io String Bytes := do
  let len := ofBeBytes (← recvExact 4 "read rendezvous frame length")
  if len > maxFrameBytes then .fail frameTooLarge
  else recvExact len "read rendezvous frame body"

def writeFrame (bytes : Bytes) : Io String Unit :=
  if bytes.length > maxFrameBytes then .fail frameTooLarge
  else do
    sendAll (toBeBytes 4 bytes.length) "write rendezvous frame length"
    sendAll bytes "write rendezvous frame body"

section messages

variable [Serde]

def readClientMessage : Io String ClientMessage := do
  let bytes ← readFrame
  match Serde.client.fromSlice bytes with
  | .ok message => pure message
  | .error _ => .fail "decode rendezvous client message"

def writeServerMessage (message : ServerMessage) : Io String Unit :=
  match Serde.server.toVec message with
  | .ok bytes => writeFrame bytes
  | .error _ => .fail "encode rendezvous server message"

end messages

/-! ### The tasks -/

def instantNow : Io Panic ℕ := Prog.perform Op.now

/-- `registry.lock().await`, and a method of the registry. -/
def locked (c : TimedCall) : Io Panic c.2.Resp := Prog.perform (Op.call c)

def registryErrorResponse (e : RegistryError) : ServerMessage := .error ⟨"registry_error", e.text⟩

/-- `match result { Ok(response) => .., Err(error) =>
registry_error_response(error) }`. -/
def respond {α : Type} (wrap : α → ServerMessage) : Except Failure α → Io Panic ServerMessage
  | .ok response => pure (wrap response)
  | .error (.error e) => pure (registryErrorResponse e)
  | .error .panic => .fail .panicked

def handleMessage (message : ClientMessage) : Io Panic ServerMessage := do
  let now ← instantNow
  match message with
  | .register request => respond .registered (← locked (now, .register request))
  | .lookup request => pure (.lookupResult ⟨← locked (now, .lookup request.targetPubkey)⟩)
  | .notify request => respond .notifyQueued (← locked (now, .queueNotify request))
  | .ping => pure .pong

/-- The response to what was read. -/
def responseTo : Except String ClientMessage → Io Panic ServerMessage
  | .ok message => handleMessage message
  | .error text => pure (.error ⟨"bad_request", text⟩)

/-- The task `handle_connection` spawns for a stream. -/
def serveStream [Serde] : Io Panic Unit := do
  let response ← responseTo (← readClientMessage.attempt)
  let _ : Except String Unit ← (writeServerMessage response).attempt
  Prog.perform Op.finish

/-- The pruning of `run_server`, for a number of ticks. -/
def pruneTicks (ticks : ℕ) : Io Panic Unit :=
  Prog.each (List.replicate ticks ()) fun _ => .call .prune fun _ => .ret ()

/-- Time passes, some nanoseconds after others. -/
def passTime (delays : List ℕ) : Io Panic Unit :=
  Prog.each delays fun nanos => .call (.elapse nanos) fun _ => .ret ()

inductive Task
  | stream (i : ℕ)
  | pruner
  | time
  deriving DecidableEq

/-- What the peers, the timer and the clock do. -/
structure Environment where
  /-- The bytes that arrive on each stream. -/
  requests : ℕ → Bytes
  /-- How many bytes each peer takes. -/
  room : ℕ → ℕ
  ticks : ℕ
  delays : List ℕ

/-- The server when it starts. -/
def Environment.server [Serde] (env : Environment) (maxTtl : ℕ) :
    Pool Op Resp Panic Unit Shared Wire Task :=
  .start ⟨.new maxTtl, 0, []⟩
    (fun
      | .stream _ => serveStream
      | .pruner => pruneTicks env.ticks
      | .time => passTime env.delays)
    fun
      | .stream i => .incoming (env.requests i) (env.room i)
      | _ => .incoming [] 0

/-! ### The client -/

/-- What a client's call fails with. -/
inductive ClientError
  /-- `server_error`. -/
  | server (e : ErrorResponse)
  /-- `unexpected rendezvous .. response`. -/
  | unexpected (message : ServerMessage)
  /-- Reading the answer failed. -/
  | read (text : String)
  deriving DecidableEq

/-- What `write_frame` writes of the outcome of an encoder, if the peer takes it. -/
def frame? : Except String Bytes → Option Bytes
  | .ok bytes => if bytes.length > maxFrameBytes then none else some (toBeBytes 4 bytes.length ++ bytes)
  | .error _ => none

/-- `read_frame`, of all the bytes that a stream carries. -/
def parseFrame (inp : Bytes) : Except String Bytes :=
  if inp.length < 4 then .error "read rendezvous frame length"
  else
    let len := ofBeBytes (inp.take 4)
    if len > maxFrameBytes then .error frameTooLarge
    else if (inp.drop 4).length < len then .error "read rendezvous frame body"
    else .ok ((inp.drop 4).take len)

section client

variable [Serde]

/-- `read_client_message`, of all the bytes of a request. -/
def parseRequest (inp : Bytes) : Except String ClientMessage := do
  let bytes ← parseFrame inp
  (Serde.client.fromSlice bytes).mapError fun _ => "decode rendezvous client message"

/-- What `write_client_message` writes, if it does. -/
def requestBytes (message : ClientMessage) : Option Bytes := frame? (Serde.client.toVec message)

/-- `read_server_message`, of all the bytes of an answer. -/
def readServerMessage (answer : Bytes) : Except String ServerMessage := do
  let bytes ← parseFrame answer
  (Serde.server.fromSlice bytes).mapError fun _ => "decode rendezvous server message"

/-- `RendezvousClient::register`, `lookup` and `notify`: the response they
expect, or an error. -/
def expect {α : Type} (response? : ServerMessage → Option α) (answer : Bytes) : Except ClientError α :=
  match readServerMessage answer with
  | .error text => .error (.read text)
  | .ok message =>
    match response? message, message with
    | some response, _ => .ok response
    | none, .error e => .error (.server e)
    | none, other => .error (.unexpected other)

/-- `RendezvousClient::register`, of the bytes of the answer. -/
def clientRegister : Bytes → Except ClientError RegisteredResponse :=
  expect fun | .registered response => some response | _ => none

/-- `RendezvousClient::lookup`. -/
def clientLookup : Bytes → Except ClientError LookupResponse :=
  expect fun | .lookupResult response => some response | _ => none

/-- `RendezvousClient::notify`. -/
def clientNotify : Bytes → Except ClientError NotifyQueuedResponse :=
  expect fun | .notifyQueued response => some response | _ => none

end client

/-! ### A run to look at -/

/-- A message, tagged with its type. -/
def tagged (type : String) (payload : List (String × JsonValue)) : JsonValue :=
  .object [("type", .string type), ("payload", .object payload)]

/-- The JSON of the one candidate. -/
def sampleCandidates : JsonValue := .array [.object [("kind", .string "local"),
  ("address", .string "192.0.2.20:53400"), ("priority", .number 100)]]

/-- Two requests and the responses to them. -/
@[reducible] def Serde.sample : Serde where
  client := .table
    [(.register (.sample (.pad [1]) 60), tagged "register" [("alias", .string "nas"),
      ("pubkey", .ofBytes (Bytes32.pad [1])), ("candidates", sampleCandidates), ("ttl_seconds", .number 60)]),
    (.lookup ⟨.pad [2], .pad [1]⟩, tagged "lookup" [("requester_pubkey", .ofBytes (Bytes32.pad [2])),
      ("target_pubkey", .ofBytes (Bytes32.pad [1]))])]
  server := .table
    [(.registered ⟨60, 60⟩, tagged "registered" [("ttl_seconds", .number 60),
      ("expires_at_unix_seconds", .number 60)]),
    (.lookupResult ⟨some ⟨"nas", .pad [1], [⟨.local, "192.0.2.20:53400", 100⟩], 0⟩⟩,
      tagged "lookup_result" [("peer", .object [("alias", .string "nas"),
        ("pubkey", .ofBytes (Bytes32.pad [1])),
        ("candidates", sampleCandidates), ("last_seen_unix_seconds", .number 0)])])]

/-- A stream that registers a peer for a minute, and one that looks it up.  Some
time the clock goes on by more than that, and the registry is pruned. -/
def Environment.sample : Environment where
  requests
    | 0 => (@requestBytes .sample (.register (.sample (.pad [1]) 60))).getD []
    | 1 => (@requestBytes .sample (.lookup ⟨.pad [2], .pad [1]⟩)).getD []
    | _ => []
  room _ := 4 + maxFrameBytes
  ticks := 1
  delays := [61 * nanosPerSec]

end NightBridge.Rendezvous
