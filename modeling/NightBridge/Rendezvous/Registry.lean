/-
# The rendezvous registry

`crates/rendezvous/src/protocol.rs` and `registry.rs`: peers register their
addresses for a while, look each other up, and leave notifications for each
other.  The registry is two hash maps, the entries and the queued notifications,
both keyed by public key.

Entries are dropped by `prune_expired`, which drops their notifications with
them.  The server calls it from time to time, and every `lookup`, `queue_notify`
and `drain_notifications` begins with it; `register` does not, so it may replace
an entry that has run out and is still there.

Times are nanoseconds from some start.  `Instant + Duration` panics past the
range of an `Instant`, which a large `max_ttl` allows; `Failure.panic` is that
outcome.  The parser of socket addresses is a parameter.
-/

import NightBridge.Core.Fingerprint
import NightBridge.Data.SocketAddr
import NightBridge.Data.Table
import NightBridge.Effect.Log

namespace NightBridge.Rendezvous

open Data Effect

/-! ### Messages -/

/-- `SocketAddr::from_str`. -/
class SocketAddrs where
  parse : String → Option SocketAddr

/-- A parser to run the model with: every text but the empty one is an address
with a port. -/
@[reducible] def SocketAddrs.sample : SocketAddrs :=
  ⟨fun text => if text = "" then none else some (.v4 .localhost 53400)⟩

inductive ProtocolError
  | required (name : String)
  | emptyCandidates
  | invalidTtl
  | invalidCandidateAddress
  | invalidCandidatePort
  deriving DecidableEq, Repr

inductive CandidateKind
  | local
  | serverReflexive
  deriving DecidableEq, Repr

structure Candidate where
  kind : CandidateKind
  address : String
  priority : UInt32
  deriving DecidableEq

def Candidate.validate [SocketAddrs] (self : Candidate) : Except ProtocolError Unit :=
  match (SocketAddrs.parse self.address).map fun address => address.port.toNat with
  | none => .error .invalidCandidateAddress
  | some 0 => .error .invalidCandidatePort
  | some _ => .ok ()

structure RegisterRequest where
  aliasName : String
  pubkey : Bytes32
  candidates : List Candidate
  ttlSeconds : ℕ
  deriving DecidableEq

/-- A request to run the model with, for a key and some seconds. -/
def RegisterRequest.sample (pubkey : Bytes32) (ttlSeconds : ℕ) : RegisterRequest :=
  ⟨"nas", pubkey, [⟨.local, "192.0.2.20:53400", 100⟩], ttlSeconds⟩

def requireNonblank (name value : String) : Except ProtocolError Unit :=
  if isBlank value then .error (.required name) else .ok ()

def RegisterRequest.validate [SocketAddrs] (self : RegisterRequest) : Except ProtocolError Unit := do
  requireNonblank "alias" self.aliasName
  if self.candidates = [] then throw .emptyCandidates
  if self.ttlSeconds = 0 then throw .invalidTtl
  self.candidates.forM Candidate.validate

structure LookupRequest where
  requesterPubkey : Bytes32
  targetPubkey : Bytes32

structure NotifyRequest where
  requesterPubkey : Bytes32
  targetPubkey : Bytes32
  deriving DecidableEq

structure RegisteredResponse where
  ttlSeconds : ℕ
  expiresAtUnixSeconds : ℕ
  deriving DecidableEq

structure LookupPeer where
  aliasName : String
  pubkey : Bytes32
  candidates : List Candidate
  lastSeenUnixSeconds : ℕ
  deriving DecidableEq

structure LookupResponse where
  peer : Option LookupPeer
  deriving DecidableEq

structure NotifyQueuedResponse where
  targetPubkey : Bytes32
  deriving DecidableEq

structure PeerNotification where
  requesterPubkey : Bytes32
  deriving DecidableEq

/-! ### The registry -/

inductive RegistryError
  | protocol (e : ProtocolError)
  | targetNotRegistered
  deriving DecidableEq, Repr

/-- How a call can fail: with an error, or with a panic of `now + ttl`. -/
inductive Failure
  | error (e : RegistryError)
  | panic
  deriving DecidableEq, Repr

structure RegistryEntry where
  aliasName : String
  pubkey : Bytes32
  candidates : List Candidate
  registeredAt : ℕ
  expiresAt : ℕ
  lastSeen : ℕ
  deriving DecidableEq

def nanosPerSec : ℕ := 1000000000

def RegistryEntry.toLookupPeer (self : RegistryEntry) : LookupPeer where
  aliasName := self.aliasName
  pubkey := self.pubkey
  candidates := self.candidates
  lastSeenUnixSeconds := (self.lastSeen - self.registeredAt) / nanosPerSec

/-- The notifications queued for one key. -/
structure Queue where
  pubkey : Bytes32
  notifications : List PeerNotification
  deriving DecidableEq

structure Registry where
  maxTtl : ℕ
  entries : Table RegistryEntry RegistryEntry.pubkey
  notifications : Table Queue Queue.pubkey

/-- `Instant::checked_add`: the seconds of an `Instant` are an `i64`. -/
def checkedAdd (now ttl : ℕ) : Option ℕ :=
  if now + ttl < 2 ^ 63 * nanosPerSec then some (now + ttl) else none

namespace Registry

def new (maxTtl : ℕ) : Registry := ⟨maxTtl, .empty, .empty⟩

variable (self : Registry) (now : ℕ)

def cappedTtl (requestedSeconds : ℕ) : ℕ := min (nanosPerSec * requestedSeconds) self.maxTtl

def register [SocketAddrs] (request : RegisterRequest) : Except Failure RegisteredResponse × Registry :=
  match request.validate with
  | .error e => (.error (.error (.protocol e)), self)
  | .ok () =>
    match checkedAdd now (self.cappedTtl request.ttlSeconds) with
    | none => (.error .panic, self)
    | some expiresAt =>
      let ttlSeconds := self.cappedTtl request.ttlSeconds / nanosPerSec
      (.ok ⟨ttlSeconds, ttlSeconds⟩, { self with
        entries := self.entries.replace
          ⟨request.aliasName, request.pubkey, request.candidates, now, expiresAt, now⟩ })

def pruneExpired : ℕ × Registry :=
  let entries := self.entries.retain fun entry => decide (now < entry.expiresAt)
  let notifications := self.entries.rows.foldl
    (fun queues entry => if now < entry.expiresAt then queues else queues.delete entry.pubkey)
    self.notifications
  (self.entries.rows.length - entries.rows.length, { self with entries, notifications })

def lookup (pubkey : Bytes32) : Option LookupPeer × Registry :=
  let self := (self.pruneExpired now).2
  match self.entries.find? pubkey with
  | none => (none, self)
  | some entry =>
    (some { entry with lastSeen := now }.toLookupPeer, { self with
      entries := self.entries.modify pubkey ({ · with lastSeen := now }) fun _ => rfl })

def lookupRequest (request : LookupRequest) : Except Failure LookupResponse × Registry :=
  let (peer, self) := self.lookup now request.targetPubkey
  (.ok ⟨peer⟩, self)

def queueNotify (request : NotifyRequest) : Except Failure NotifyQueuedResponse × Registry :=
  match self.lookup now request.targetPubkey with
  | (none, self) => (.error (.error .targetNotRegistered), self)
  | (some _, self) =>
    (.ok ⟨request.targetPubkey⟩, { self with
      notifications := self.notifications.upsert ⟨request.targetPubkey, [⟨request.requesterPubkey⟩]⟩
        (fun queue => { queue with
          notifications := queue.notifications ++ [⟨request.requesterPubkey⟩] }) fun _ => rfl })

def drainNotifications (targetPubkey : Bytes32) : List PeerNotification × Registry :=
  match self.lookup now targetPubkey with
  | (none, self) => ([], self)
  | (some _, self) =>
    (((self.notifications.find? targetPubkey).map Queue.notifications).getD [], { self with
      notifications := self.notifications.delete targetPubkey })

end Registry

/-! ### Calls -/

inductive Call
  | register (request : RegisterRequest)
  | lookup (pubkey : Bytes32)
  | queueNotify (request : NotifyRequest)
  | drainNotifications (targetPubkey : Bytes32)
  | pruneExpired
  deriving DecidableEq

@[reducible] def Call.Resp : Call → Type
  | .register _ => Except Failure RegisteredResponse
  | .lookup _ => Option LookupPeer
  | .queueNotify _ => Except Failure NotifyQueuedResponse
  | .drainNotifications _ => List PeerNotification
  | .pruneExpired => ℕ

abbrev TimedCall := ℕ × Call

abbrev CallEvent := Event TimedCall fun c => c.2.Resp

def Registry.handle [SocketAddrs] : Prog.Handler TimedCall (fun c => c.2.Resp) Registry
  | (now, .register request), self => self.register now request
  | (now, .lookup pubkey), self => self.lookup now pubkey
  | (now, .queueNotify request), self => self.queueNotify now request
  | (now, .drainNotifications targetPubkey), self => self.drainNotifications now targetPubkey
  | (now, .pruneExpired), self => self.pruneExpired now

/-- The times of the calls do not decrease. -/
def InOrder (calls : List TimedCall) : Prop := (calls.map Prod.fst).Pairwise (· ≤ ·)

instance (calls : List TimedCall) : Decidable (InOrder calls) :=
  inferInstanceAs (Decidable ((calls.map Prod.fst).Pairwise (· ≤ ·)))

theorem InOrder.tail {c : TimedCall} {calls : List TimedCall} (h : InOrder (c :: calls)) :
    InOrder calls :=
  List.Pairwise.of_cons h

theorem InOrder.le {c : TimedCall} {calls : List TimedCall} (h : InOrder (c :: calls)) :
    ∀ c' ∈ calls, c.1 ≤ c'.1 :=
  fun _ hc' => List.rel_of_pairwise_cons h (List.mem_map_of_mem hc')

end NightBridge.Rendezvous
