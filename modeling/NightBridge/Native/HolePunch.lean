/-
# Dialing candidates

`crates/protocol-native-v1/src/hole_punch.rs`: `dial_candidates` pairs the local
with the remote candidates, spawns an attempt for each pair, one later than the
other, and takes the first connection that an attempt reports.

Attempts and dialer are programs that share a clock and an `mpsc` channel
(`PunchState`), which is a parameter of the environment.  An operation that
waits is answered when what it waits for has come: `PunchOp.ready` says when
that is, for those that wait for another task, and `sleepUntil` and `handshake`
move the clock on to where they are due.  Before any operation time may pass, so
that a task can be late by as much as one likes (`Route.lates`).

What the network does with an attempt is its `Route`.  Of the handshake, what
the verifier of the source decides is modelled, and the rest is what the peer
answers.  How an address is printed is a parameter.
-/

import NightBridge.Native.Candidates
import NightBridge.Data.Channels
import NightBridge.Effect.Bounded

namespace NightBridge.Native

open Data Effect

/-! ### The pairs -/

structure CandidatePair where
  localCandidate : NativeCandidate
  remoteCandidate : NativeCandidate
  priority : UInt64
  deriving DecidableEq

def combinedPriority (localPriority remotePriority : UInt32) : UInt64 :=
  localPriority.toUInt64 <<< 32 ||| remotePriority.toUInt64

/-- The key pairs are sorted by, compared lexicographically; the order of the
priorities is turned around. -/
def CandidatePair.key (pair : CandidatePair) : List ℕ :=
  (UInt64.size - 1 - pair.priority.toNat) :: pair.remoteCandidate.address.key

/-- `candidate_pairs`; the sort is stable. -/
def candidatePairs (localCandidates remoteCandidates : List NativeCandidate) : List CandidatePair :=
  (localCandidates.flatMap fun localCandidate => remoteCandidates.map fun remoteCandidate =>
    ⟨localCandidate, remoteCandidate,
      combinedPriority localCandidate.priority remoteCandidate.priority⟩).insertionSort
    fun a b => a.key ≤ b.key

/-- `CandidateKind`, as `{:?}` prints it. -/
def CandidateKind.debug : CandidateKind → String
  | .local => "Local"
  | .serverReflexive => "ServerReflexive"

/-- `describe_pair`, with the text of an address. -/
def describePair (display : SocketAddr → String) (pair : CandidatePair) : String :=
  pair.localCandidate.kind.debug ++ " " ++ display pair.localCandidate.address ++ " -> " ++
    pair.remoteCandidate.kind.debug ++ " " ++ display pair.remoteCandidate.address

def onlyServerReflexiveRemoteCandidates (pairs : List CandidatePair) : Bool :=
  !pairs.isEmpty && pairs.all fun pair => pair.remoteCandidate.kind = .serverReflexive

/-! ### What is dialed -/

/-- The variants of `NativeError` that dialing a pair returns. -/
inductive DialError
  | io (message : String)
  | transport (message : String)
  deriving DecidableEq

/-- The `Display` of the error. -/
def DialError.text : DialError → String
  | .io message => "io: " ++ message
  | .transport message => "transport: " ++ message

/-- A client endpoint of `native_client_endpoint`: where it is bound, and the
certificate its verifier expects. -/
structure Endpoint where
  address : SocketAddr
  expectedCertificateFingerprint : String
  deriving DecidableEq

/-- An established connection: the other side and the certificate it has shown. -/
structure Connection where
  remote : SocketAddr
  certificate : Bytes
  deriving DecidableEq

structure PunchDiagnostics where
  attemptedPairs : List String
  lastError : Option String
  deriving DecidableEq

structure DialedCandidateConnection where
  endpoint : Endpoint
  connection : Connection
  diagnostics : PunchDiagnostics
  deriving DecidableEq

/-- What an attempt sends to the dialer. -/
abbrev Report := String × Except DialError (Endpoint × Connection)

/-- `NativeError::NoDirectPath`; the second is no error of the source, whose
loop has no bound. -/
inductive PunchError
  | noDirectPath (attemptedPairs : List String) (hint : String) (lastError : Option String)
  | outOfFuel
  deriving DecidableEq

def noDirectPathError (attemptedPairs : List String) (onlyServerReflexiveFailed : Bool)
    (lastError : Option String) : PunchError :=
  let hint := if onlyServerReflexiveFailed then
      "symmetric NAT or firewall likely. Relay is not available in the open-base v1 build."
    else "firewall or routing policy likely. Relay is not available in the open-base v1 build."
  .noDirectPath attemptedPairs hint lastError

abbrev PunchOutcome := Except PunchError DialedCandidateConnection

def verifyCertificateFingerprint [Primitives] (expected : String) (certDer : Bytes) : Except String Unit :=
  let actual := hex (Primitives.sha256 certDer).1
  if actual = expected then .ok ()
  else .error ("native peer certificate fingerprint mismatch: expected " ++ expected ++ ", got " ++ actual)

/-! ### What is called -/

/-- What dialer and attempts ask of the runtime and of the network. -/
inductive PunchOp
  /-- `tokio::spawn` of the next attempt, with a clone of the sender. -/
  | spawn
  /-- An attempt is polled for the first time. -/
  | started (index : ℕ)
  | now
  | sleepUntil (deadline : ℕ)
  /-- `Endpoint::client`, with the configuration before it. -/
  | bind (endpoint : Endpoint)
  | connect (endpoint : Endpoint) (remote : SocketAddr)
  /-- To await the handshake, but not beyond a deadline. -/
  | handshake (endpoint : Endpoint) (remote : SocketAddr) (since deadline : ℕ)
  | send (report : Report)
  | dropSender
  | recv
  | dropReceiver

abbrev PunchOp.Resp : PunchOp → Type
  | .now => ℕ
  | .bind _ => Except DialError Unit
  | .connect _ _ => Except String Unit
  | .handshake _ _ _ _ => Option (Except String Bytes)
  | .recv => Option Report
  | _ => Unit

abbrev PunchIo (ε α : Type) := Prog PunchOp PunchOp.Resp ε α

variable {mpsc : Mpsc Report}

structure PunchState (mpsc : Mpsc Report) where
  /-- In nanoseconds, since the call of the dialer. -/
  clock : ℕ
  spawned : ℕ
  channel : mpsc.Channel

/-- What can be observed of the channel. -/
abbrev PunchState.view (s : PunchState mpsc) : Mpsc.View Report := mpsc.view s.channel

/-- What the network does with an attempt. -/
structure Route where
  bound : Except DialError Unit
  connected : Except String Unit
  /-- How long the handshake takes, if it comes to an end. -/
  takes : Option ℕ
  certificate : Bytes
  /-- What the peer and the network make of the handshake. -/
  outcome : Except String Unit
  /-- The error of a connection whose certificate is refused. -/
  refused : String → String
  /-- What passes before each operation. -/
  lates : List ℕ

def Route.answer [Primitives] (route : Route) (expected : String) : Except String Bytes :=
  match verifyCertificateFingerprint expected route.certificate with
  | .error error => .error (route.refused error)
  | .ok () =>
    match route.outcome with
    | .error error => .error error
    | .ok () => .ok route.certificate

/-- The operation can be answered now. -/
def PunchOp.ready : PunchOp → PunchState mpsc → Bool
  | .started index, s => index < s.spawned
  | .send _, s => mpsc.canSend s.channel
  | .recv, s => mpsc.canRecv s.channel
  | _, _ => true

/-- When the wait for a handshake is over. -/
def due (takes : Option ℕ) (since deadline : ℕ) : ℕ :=
  match takes with
  | none => deadline
  | some d => min (since + d) deadline

def punchAt [Primitives] (o : PunchOp) (s : PunchState mpsc) (route : Route) :
    PunchOp.Resp o × PunchState mpsc :=
  match o with
  | .spawn => ((), { s with spawned := s.spawned + 1, channel := mpsc.cloneSender s.channel })
  | .started _ => ((), s)
  | .now => (s.clock, s)
  | .sleepUntil deadline => ((), { s with clock := max s.clock deadline })
  | .bind _ => (route.bound, s)
  | .connect _ _ => (route.connected, s)
  | .handshake endpoint _ since deadline =>
    let clock := max s.clock (due route.takes since deadline)
    -- `timeout` polls the handshake before it looks at the deadline.
    (if route.takes.any fun d => since + d ≤ clock then
        some (route.answer endpoint.expectedCertificateFingerprint)
      else none, { s with clock := clock })
  | .send report => ((), { s with channel := mpsc.send s.channel report })
  | .dropSender => ((), { s with channel := mpsc.dropSender s.channel })
  | .recv => ((mpsc.recv s.channel).1, { s with channel := (mpsc.recv s.channel).2 })
  | .dropReceiver => ((), { s with channel := mpsc.dropReceiver s.channel })

/-- An operation, after what passes before it. -/
def punchExec [Primitives] (o : PunchOp) (s : PunchState mpsc) (route : Route) :
    PunchOp.Resp o × PunchState mpsc × Route :=
  let r := punchAt o { s with clock := s.clock + route.lates.headD 0 } route
  (r.1, r.2, { route with lates := route.lates.tail })

/-! ### Attempts and dialer -/

/-- `Duration::MAX`, in nanoseconds. -/
def durationMax : ℕ := (2 ^ 64 - 1) * 1000000000 + 999999999

/-- The arguments of `dial_candidates_with_timing`; durations are in nanoseconds. -/
structure Dial where
  localCandidates : List NativeCandidate
  remoteCandidates : List NativeCandidate
  trust : String
  attemptTimeout : ℕ
  stagger : ℕ
  /-- The `Display` of addresses. -/
  display : SocketAddr → String

def dialCandidates (localCandidates remoteCandidates : List NativeCandidate) (trust : String)
    (display : SocketAddr → String) : Dial :=
  ⟨localCandidates, remoteCandidates, trust, 2000000000, 25000000, display⟩

def nativeClientEndpoint (bindAddr : SocketAddr) (trust : String) : PunchIo DialError Endpoint :=
  .call (.bind ⟨bindAddr, trust⟩) fun
    | .ok () => .ret ⟨bindAddr, trust⟩
    | .error error => .fail error

/-- `Endpoint::connect`, with its error. -/
def connect (endpoint : Endpoint) (remote : SocketAddr) : PunchIo DialError Unit :=
  .call (.connect endpoint remote) fun
    | .ok () => .ret ()
    | .error error => .fail (.transport error)

namespace Dial

variable (dial : Dial)

def pairs : List CandidatePair := candidatePairs dial.localCandidates dial.remoteCandidates

/-- `stagger.saturating_mul(index as u32)`. -/
def delay (index : ℕ) : ℕ := min (dial.stagger * (index % 2 ^ 32)) durationMax

def dialPair (pair : CandidatePair) : PunchIo DialError (Endpoint × Connection) := do
  let endpoint ← nativeClientEndpoint pair.localCandidate.address dial.trust
  connect endpoint pair.remoteCandidate.address
  .call .now fun since =>
    .call (.handshake endpoint pair.remoteCandidate.address since (since + dial.attemptTimeout)) fun
      | none => .fail (.transport "candidate dial timed out")
      | some (.error error) => .fail (.transport error)
      | some (.ok certificate) => .ret (endpoint, ⟨pair.remoteCandidate.address, certificate⟩)

/-- The task that is spawned for a pair. -/
def attempt (index : ℕ) (pair : CandidatePair) : PunchIo Empty Unit :=
  .call (.started index) fun _ =>
    .call .now fun now =>
      .call (.sleepUntil (now + dial.delay index)) fun _ => do
        let result ← (dial.dialPair pair).attempt
        .call (.send (describePair dial.display pair, result)) fun _ => .call .dropSender fun _ => .ret ()

/-- The loop of `dial_candidates_with_timing`. -/
def recvLoop : ℕ → PunchDiagnostics → PunchIo PunchError DialedCandidateConnection
  | 0, _ => .fail .outOfFuel
  | fuel + 1, diagnostics => .call .recv fun
    | some (_, .ok (endpoint, connection)) =>
      .call .dropReceiver fun _ => .ret ⟨endpoint, connection, diagnostics⟩
    | some (_, .error error) => recvLoop fuel { diagnostics with lastError := some error.text }
    | none => .call .dropReceiver fun _ => .fail (noDirectPathError diagnostics.attemptedPairs
        (onlyServerReflexiveRemoteCandidates dial.pairs) diagnostics.lastError)

/-- `dial_candidates_with_timing`.  Each attempt sends one report, and then
there are no more. -/
def dialCandidatesWithTiming : PunchIo PunchError DialedCandidateConnection :=
  if dial.pairs.isEmpty then .fail (noDirectPathError [] false none)
  else do
    let diagnostics : PunchDiagnostics := ⟨dial.pairs.map (describePair dial.display), none⟩
    Prog.each dial.pairs fun _ => .call .spawn fun _ => .ret ()
    .call .dropSender fun _ => dial.recvLoop (dial.pairs.length + 1) diagnostics

end Dial

inductive PunchTask
  | dialer
  | attempt (index : ℕ)
  deriving DecidableEq

abbrev Punch (mpsc : Mpsc Report) :=
  Pool PunchOp PunchOp.Resp Empty (Option PunchOutcome) (PunchState mpsc) Route PunchTask

/-- A call of the dialer, and what the network and the scheduler do. -/
structure PunchEnvironment where
  mpsc : Mpsc Report
  dial : Dial
  route : PunchTask → Route

namespace PunchEnvironment

variable (env : PunchEnvironment)

def program : PunchTask → PunchIo Empty (Option PunchOutcome)
  | .dialer => do
    let outcome ← env.dial.dialCandidatesWithTiming.attempt
    .ret (some outcome)
  | .attempt index => env.dial.pairs[index]?.elim (.ret none) fun pair => do
    env.dial.attempt index pair
    .ret none

/-- The tasks, before the first step. -/
def pool : Punch env.mpsc := .start ⟨0, 0, env.mpsc.new env.dial.pairs.length⟩ env.program env.route

/-- The tasks after the steps of a schedule. -/
abbrev after [Primitives] (schedule : List PunchTask) : Punch env.mpsc := env.pool.run punchExec schedule

/-- The steps of a schedule are all possible: what a task waits for has come. -/
def Runs [Primitives] (schedule : List PunchTask) : Prop :=
  env.pool.Orderly punchExec (fun pool i => pool.can PunchOp.ready i = true) schedule

end PunchEnvironment

end NightBridge.Native
