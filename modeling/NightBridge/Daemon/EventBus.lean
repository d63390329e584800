/-
# The event bus and who listens to it

`EventBus` of `crates/daemon/src/events.rs`, and its subscribers: `watch` of
`api/grpc.rs`, `events` of `api/http.rs`, and the hook dispatcher of
`crates/daemon/src/hooks`, which starts a task for every event and every sink.

All of them run side by side.  `emit` is three steps: it draws an id, reads the
clock and sends, and another task may come in between, so that the ids on the
bus are distinct and need not increase.  The channel is a parameter of the
environment.  A `recv` is polled; a poll that finds nothing is a round that does
nothing.  The loops of the source go on for ever, here for any number of rounds.
`tokio::select!` polls its branches in an order of its own, which is a coin of
the round.

A delivery is cut off after a while (`HOOK_DELIVERY_TIMEOUT`), which is a task
that is not run to its end.  What a failed delivery writes to the log is left
out.
-/

import NightBridge.Data.Channels
import NightBridge.Daemon.EventStream
import NightBridge.Effect.Pool

namespace NightBridge.Daemon

open Data Effect JsonValue

def eventChannelCapacity : ℕ := 256

/-! ### Hook events -/

inductive HookEventType
  | daemonStarted
  | transferStarted
  | transferProgress
  | transferCompleted
  | transferFailed
  | inboxChanged
  | peerSeen
  deriving DecidableEq

/-- `HookEventType::as_str`, which serde writes as well. -/
def HookEventType.asStr : HookEventType → String
  | .daemonStarted => "daemon_started"
  | .transferStarted => "transfer_started"
  | .transferProgress => "transfer_progress"
  | .transferCompleted => "transfer_completed"
  | .transferFailed => "transfer_failed"
  | .inboxChanged => "inbox_changed"
  | .peerSeen => "peer_seen"

structure HookEvent where
  eventId : String
  eventType : HookEventType
  occurredAtUnixSeconds : ℤ
  payload : JsonValue

def hookEventType : DaemonEvent → HookEventType
  | .transferStarted _ => .transferStarted
  | .transferProgress .. => .transferProgress
  | .transferCompleted _ => .transferCompleted
  | .transferFailed .. => .transferFailed
  | .inboxChanged => .inboxChanged
  | .peerSeen .. => .peerSeen

def hookPayload : DaemonEvent → JsonValue
  | .transferStarted transferId => json [("transfer_id", .string transferId)]
  | .transferProgress transferId bytesDone bytesTotal =>
    json [("transfer_id", .string transferId), ("bytes_done", .number bytesDone),
      ("bytes_total", .number bytesTotal)]
  | .transferCompleted transferId => json [("transfer_id", .string transferId)]
  | .transferFailed transferId code message =>
    json [("transfer_id", .string transferId), ("code", .string code), ("message", .string message)]
  | .inboxChanged => json []
  | .peerSeen aliasName address port =>
    json [("alias", .string aliasName), ("address", .string address), ("port", .number port)]

def hookEventFromEnvelope (envelope : DaemonEventEnvelope) : HookEvent where
  eventId := envelope.eventId
  eventType := hookEventType envelope.event
  occurredAtUnixSeconds := envelope.occurredAtUnixSeconds
  payload := hookPayload envelope.event

/-- `serde_json::to_string(event)`. -/
def HookEvent.text (event : HookEvent) : String :=
  String.ofList (render (.object [("event_id", .string event.eventId),
    ("event_type", .string event.eventType.asStr),
    ("occurred_at_unix_seconds", .number event.occurredAtUnixSeconds), ("payload", event.payload)]))

/-! ### Sinks -/

structure WebhookSink where
  url : String
  secret : String
  maxAttempts : ℕ
  deriving DecidableEq

def WebhookSink.new (url secret : String) (maxAttempts : ℕ) : WebhookSink := ⟨url, secret, max maxAttempts 1⟩

structure ExecSink where
  command : String
  timeoutSeconds : ℕ
  deriving DecidableEq

inductive HookSink
  | webhook (sink : WebhookSink)
  | exec (sink : ExecSink)
  deriving DecidableEq

inductive HookConfig
  | webhook (url secret : String) (maxAttempts : ℕ)
  | exec (command : String) (timeoutSeconds : ℕ)

/-- `HookSinks::from_config`. -/
def hookSinks (hooks : List HookConfig) : List HookSink :=
  hooks.map fun
    | .webhook url secret maxAttempts => .webhook (.new url secret maxAttempts)
    | .exec command timeoutSeconds => .exec ⟨command, timeoutSeconds⟩

/-- A POST of a webhook: its URL, the headers `Content-Type`, `X-NBRG-Event` and
`X-NBRG-Signature`, and its body. -/
structure Post where
  url : String
  contentType : String
  event : String
  signature : String
  body : Bytes
  deriving DecidableEq

/-- How a POST ends: `reqwest` fails, or there is a status. -/
inductive PostReply
  | network (error : String)
  | status (code : ℕ)

/-- A command of an exec hook, with what is added to its environment. -/
structure Command where
  program : String
  args : List String
  env : List (String × String)
  timeoutSeconds : ℕ

inductive CommandReply
  | timedOut
  | notSpawned (error : String)
  | exited (success : Bool) (status : String) (stdout stderr : Bytes)

/-! ### The world -/

/-- What a client of an event stream gets. -/
inductive Item
  | grpc (event : Proto.DaemonEvent)
  | sse (frame : SseFrame)

/-- One place where a task reaches outside its memory. -/
inductive BusOp
  /-- `next_id.fetch_add(1)`. -/
  | fetchAdd
  /-- The clock, in seconds since the epoch, and zero before it. -/
  | now
  | send (envelope : DaemonEventEnvelope)
  | subscribe
  /-- The receiver is dropped. -/
  | unsubscribe
  | recv
  /-- `tokio::select!` of the shutdown signal and `recv`; the coin says which is
  polled first. -/
  | select (shutdownFirst : Bool)
  | yield (item : Item)
  /-- `tokio::spawn` of a delivery. -/
  | spawn (sink : HookSink) (event : HookEvent)
  /-- The delivery that was spawned as the `k`-th. -/
  | started (k : ℕ)
  | post (post : Post)
  | run (command : Command)
  /-- `shutdown_tx.send(true)`. -/
  | shutDown
  /-- The last sender is dropped. -/
  | close

/-- What the branches of the dispatcher's `select!` give. -/
inductive Selected
  | shutdown
  | received (received : Polled DaemonEventEnvelope)

@[reducible] def BusOp.Resp : BusOp → Type
  | .fetchAdd => ℕ
  | .now => ℤ
  | .send _ => Unit
  | .subscribe => ℕ
  | .unsubscribe => Unit
  | .recv => Polled DaemonEventEnvelope
  | .select _ => Selected
  | .yield _ => Unit
  | .spawn .. => Unit
  | .started _ => Option (HookSink × HookEvent)
  | .post _ => PostReply
  | .run _ => CommandReply
  | .shutDown => Unit
  | .close => Unit

variable {tokio : Broadcast DaemonEventEnvelope}

structure BusState (tokio : Broadcast DaemonEventEnvelope) where
  /-- The `AtomicU64`, as if it did not wrap around. -/
  nextId : ℕ
  channel : tokio.Channel eventChannelCapacity
  /-- The deliveries that were spawned. -/
  spawned : List (HookSink × HookEvent)
  shutdown : Bool

def BusState.sent (s : BusState tokio) : List DaemonEventEnvelope := tokio.sent s.channel

/-- What a task has to itself: the time its clock shows, its receiver, what its
client got, and the replies that its POSTs and commands will get. -/
structure TaskState (tokio : Broadcast DaemonEventEnvelope) where
  time : ℤ
  receiver : Option tokio.Receiver
  out : List Item
  replies : List PostReply
  exits : List CommandReply

/-- How far on the bus the receiver of a task is. -/
def TaskState.next (t : TaskState tokio) : ℕ := t.receiver.elim 0 tokio.position

def TaskState.poll (t : TaskState tokio) (s : BusState tokio) : Polled DaemonEventEnvelope × TaskState tokio :=
  match t.receiver with
  | none => (.empty, t)
  | some receiver =>
    ((tokio.recv s.channel receiver).1, { t with receiver := some (tokio.recv s.channel receiver).2 })

def busExec : (o : BusOp) → BusState tokio → TaskState tokio → o.Resp × BusState tokio × TaskState tokio
  | .fetchAdd, s, t => (s.nextId % 2 ^ 64, { s with nextId := s.nextId + 1 }, t)
  | .now, s, t => (t.time, s, t)
  | .send envelope, s, t => ((), { s with channel := tokio.send s.channel envelope }, t)
  | .subscribe, s, t =>
    (tokio.position (tokio.subscribe s.channel).1, { s with channel := (tokio.subscribe s.channel).2 },
      { t with receiver := some (tokio.subscribe s.channel).1 })
  | .unsubscribe, s, t =>
    ((), { s with channel := t.receiver.elim s.channel (tokio.dropReceiver s.channel) }, t)
  | .recv, s, t => ((t.poll s).1, s, (t.poll s).2)
  | .select shutdownFirst, s, t =>
    if s.shutdown && (shutdownFirst || (t.poll s).1 = .empty) then (.shutdown, s, t)
    else (.received (t.poll s).1, s, (t.poll s).2)
  | .yield item, s, t => ((), s, { t with out := t.out ++ [item] })
  | .spawn sink event, s, t => ((), { s with spawned := s.spawned ++ [(sink, event)] }, t)
  | .started k, s, t => (s.spawned[k]?, s, t)
  | .post _, s, t => (t.replies.headD (.network "connection refused"), s, { t with replies := t.replies.tail })
  | .run _, s, t => (t.exits.headD .timedOut, s, { t with exits := t.exits.tail })
  | .shutDown, s, t => ((), { s with shutdown := true }, t)
  | .close, s, t => ((), { s with channel := tokio.close s.channel }, t)

abbrev BusIo (ε α : Type) := Prog BusOp BusOp.Resp ε α

/-! ### The bus -/

def emit (event : DaemonEvent) : BusIo Empty Unit :=
  .call .fetchAdd fun id => .call .now fun time => .call (.send ⟨toString id, time, event⟩) fun _ => .ret ()

inductive Client
  | grpc
  | http

def Client.item : Client → DaemonEventEnvelope → Item
  | .grpc, envelope => .grpc envelope.toProto
  | .http, envelope => .sse (.event envelope)

/-- The end of a task that has a receiver. -/
def dropReceiver : BusIo Empty Unit := .call .unsubscribe fun _ => .ret ()

/-- The loop of `watch` and of `events`, until the client goes away after a
number of polls. -/
def watchLoop (client : Client) : ℕ → BusIo Empty Unit
  | 0 => dropReceiver
  | polls + 1 => .call .recv fun
    | .value envelope => .call (.yield (client.item envelope)) fun _ => watchLoop client polls
    | .lagged _ => watchLoop client polls
    | .closed => dropReceiver
    | .empty => watchLoop client polls

/-- `watch` and `events`. -/
def watch (client : Client) (polls : ℕ) : BusIo Empty Unit := .call .subscribe fun _ => watchLoop client polls

/-! ### Deliveries -/

/-- HMAC-SHA-256 of a key and a message. -/
class Hmac where
  hmacSha256 : Bytes → Bytes → Bytes

inductive WebhookDeliveryError
  | header
  | network (error : String)
  | retryableStatus (code : ℕ)
  | status (code : ℕ)

def WebhookDeliveryError.isRetryable : WebhookDeliveryError → Bool
  | .network _ | .retryableStatus _ => true
  | .header | .status _ => false

inductive HookError
  | webhook (error : WebhookDeliveryError)
  | blankCommand
  | timedOut (timeoutSeconds : ℕ)
  | spawn (program error : String)
  | exited (status : String) (stdout stderr : Bytes)

def signPayload [Hmac] (secret : String) (payload : Bytes) : String :=
  hex (Hmac.hmacSha256 (utf8 secret) payload)

/-- `HeaderValue::from_str`: visible ASCII, blanks and tabs. -/
def headerValue (value : String) : Option String :=
  if value.toList.all fun c => (32 ≤ c.toNat && c.toNat < 127) || c = '\t' then some value else none

/-- `WebhookSink::send_once`, with `webhook_headers`. -/
def WebhookSink.sendOnce (self : WebhookSink) (event : HookEvent) (body : Bytes) (signature : String) :
    BusIo WebhookDeliveryError Unit :=
  match headerValue signature with
  | none => .fail .header
  | some signature =>
    .call (.post ⟨self.url, "application/json", event.eventType.asStr, signature, body⟩) fun
      | .network error => .fail (.network error)
      | .status code =>
        if 200 ≤ code ∧ code < 300 then .ret ()
        else if 500 ≤ code ∧ code < 600 then .fail (.retryableStatus code)
        else .fail (.status code)

/-- The loop of `WebhookSink::deliver`, over the attempts that are left. -/
def WebhookSink.attempts (self : WebhookSink) (event : HookEvent) (body : Bytes) (signature : String) :
    List ℕ → Option WebhookDeliveryError → BusIo WebhookDeliveryError Unit
  | [], last => .fail (last.getD (.retryableStatus 500))
  | attempt :: rest, _ => do
    match ← (self.sendOnce event body signature).attempt with
    | .ok () => pure ()
    | .error error =>
      if error.isRetryable ∧ attempt < self.maxAttempts then
        self.attempts event body signature rest (some error)
      else .fail error

def WebhookSink.deliver [Hmac] (self : WebhookSink) (event : HookEvent) : BusIo HookError Unit :=
  let body := utf8 event.text
  (self.attempts event body ("sha256=" ++ signPayload self.secret body) (List.range' 1 self.maxAttempts)
    none).mapError .webhook

def splitWhitespace (s : String) : List String :=
  ((s.toList.splitOnP isWhitespace).filter (· ≠ [])).map String.ofList

def ExecSink.deliver (self : ExecSink) (event : HookEvent) : BusIo HookError Unit :=
  match splitWhitespace self.command with
  | [] => .fail .blankCommand
  | program :: args =>
    .call (.run ⟨program, args, [("NBRG_EVENT_ID", event.eventId),
        ("NBRG_EVENT_TYPE", event.eventType.asStr), ("NBRG_EVENT_JSON", event.text)], self.timeoutSeconds⟩) fun
      | .timedOut => .fail (.timedOut self.timeoutSeconds)
      | .notSpawned error => .fail (.spawn program error)
      | .exited success status stdout stderr =>
        if success then .ret () else .fail (.exited status stdout stderr)

def HookSink.deliver [Hmac] (event : HookEvent) : HookSink → BusIo HookError Unit
  | .webhook sink => sink.deliver event
  | .exec sink => sink.deliver event

/-! ### The dispatcher -/

def dispatch (sinks : List HookSink) (event : HookEvent) : BusIo Empty Unit :=
  Prog.each sinks fun sink => .call (.spawn sink event) fun _ => .ret ()

/-- The loop of `run_dispatcher`, with a coin for each round. -/
def dispatchLoop (sinks : List HookSink) : List Bool → BusIo Empty Unit
  | [] => dropReceiver
  | coin :: coins => .call (.select coin) fun
    | .shutdown => dropReceiver
    | .received (.value envelope) => do
      dispatch sinks (hookEventFromEnvelope envelope)
      dispatchLoop sinks coins
    | .received (.lagged _) => dispatchLoop sinks coins
    | .received .closed => dropReceiver
    | .received .empty => dispatchLoop sinks coins

/-- `start_hook_dispatcher`, and the task it starts. -/
def runDispatcher (sinks : List HookSink) (coins : List Bool) : BusIo Empty Unit :=
  .call .subscribe fun _ => dispatchLoop sinks coins

/-- A spawned delivery; it has not begun as long as it is not spawned. -/
def delivery [Hmac] (k : ℕ) : BusIo Empty Unit :=
  .call (.started k) fun
    | none => .ret ()
    | some (sink, event) => do
      let _ ← (sink.deliver event).attempt
      pure ()

/-! ### All of them -/

inductive BusTask
  | emit (i : ℕ)
  | watch (j : ℕ)
  | dispatcher
  | delivery (k : ℕ)
  | stop
  | drop
  deriving DecidableEq

/-- What the daemon is asked to do, and what it meets. -/
structure BusEnvironment where
  tokio : Broadcast DaemonEventEnvelope
  event : ℕ → DaemonEvent
  time : ℕ → ℤ
  client : ℕ → Client
  polls : ℕ → ℕ
  hooks : List HookConfig
  coins : List Bool
  replies : ℕ → List PostReply
  exits : ℕ → List CommandReply

def BusEnvironment.program [Hmac] (env : BusEnvironment) : BusTask → BusIo Empty Unit
  | .emit i => Daemon.emit (env.event i)
  | .watch j => Daemon.watch (env.client j) (env.polls j)
  | .dispatcher => runDispatcher (hookSinks env.hooks) env.coins
  | .delivery k => Daemon.delivery k
  | .stop => .call .shutDown fun _ => .ret ()
  | .drop => .call .close fun _ => .ret ()

def BusEnvironment.own (env : BusEnvironment) : BusTask → TaskState env.tokio
  | .emit i => ⟨env.time i, none, [], [], []⟩
  | .delivery k => ⟨0, none, [], env.replies k, env.exits k⟩
  | _ => ⟨0, none, [], [], []⟩

abbrev Bus (tokio : Broadcast DaemonEventEnvelope) :=
  Pool BusOp BusOp.Resp Empty Unit (BusState tokio) (TaskState tokio) BusTask

/-- `EventBus::new`, and every task before its first step. -/
def BusEnvironment.bus [Hmac] (env : BusEnvironment) : Bus env.tokio :=
  .start ⟨1, env.tokio.new eventChannelCapacity, [], false⟩ env.program env.own

end NightBridge.Daemon
