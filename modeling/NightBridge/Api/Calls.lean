/-
# What the calls of the daemon's API do outside

`Op` lists the places where a send or a trust decision reaches outside the
daemon's memory.  The two transfer clients are one operation each; what the
native one does is `NightBridge.Native.Client`.

`discover` runs in a task of its own, so that a panic in it (the parser of
fingerprints may panic on an advertisement) comes back as an error.  It lists
the peers in the order of a hash map: the answer of `intoValues` is any
permutation of them.
-/

import NightBridge.Api.Lan
import NightBridge.Daemon.EventStream
import NightBridge.Daemon.Wan

namespace NightBridge.Api

open Data Effect NightBridge.Core NightBridge.Native
open NightBridge.Daemon (DaemonEvent)

/-- One place where a call reaches outside. -/
inductive Op
  /-- `tokio::fs::metadata`, of which `is_file` is looked at. -/
  | metadata (path : String)
  | newUuid
  | emit (event : DaemonEvent)
  -- discovery of native peers
  | browse
  | recvResolvedAll (timeoutMs : ℕ)
  | shutdownBrowser
  | intoValues (peers : NativeLanPeers)
  -- the scan for LocalSend peers
  | localIpv4
  | buildProbeClient
  | spawnProbe (candidate : Ipv4Addr)
  | joinProbe
  -- the trust store
  | openTrust
  | trustGet (fingerprint : Fingerprint)
  | trustWithNativeCertificate (pubkey : Bytes32) (label : String) (policy : PeerPolicy)
      (nativeCertificateFingerprint : String)
  | recordLocalsendLanPeer (peer : LocalSendLanPeer)
  | listLocalsendLanPeers
  -- the rendezvous server
  | rendezvousConnect (url : String)
  | rendezvousLookup (request : Rendezvous.LookupRequest)
  | rendezvousClose
  -- the clients
  | localSendClientNew
  | localSendClientPinned (fingerprint : String)
  | localSendSend (pin : Option String) (url : String) (paths : List String)
      (sender : LocalSend.DeviceInfo)
  | nativeSendToUrl (url : String) (paths : List String) (identity : Bytes32) (pin : String)
  | nativeSendToCandidates (candidates : List NativeCandidate) (paths : List String) (identity : Bytes32)
      (pin : String)

/-- What an operation answers; the error of a library is its text. -/
@[reducible] def Resp : Op → Type
  | .metadata _ => Except String Bool
  | .newUuid => String
  | .emit _ => Unit
  | .browse => Except String Unit
  | .recvResolvedAll _ => Except String (List ResolvedNativePeer)
  | .shutdownBrowser => Except String Unit
  | .intoValues peers => { values : List NativeLanPeer // values.Perm peers.rows }
  | .localIpv4 => Except String Ipv4Addr
  | .buildProbeClient => Except String Unit
  | .spawnProbe _ => Unit
  | .joinProbe => Option Probe
  | .openTrust => Except CoreError Unit
  | .trustGet _ => Except Failure (Option Peer)
  | .trustWithNativeCertificate .. => Except Failure Peer
  | .recordLocalsendLanPeer _ => Except CoreError LocalSendLanPeer
  | .listLocalsendLanPeers => Except CoreError (List LocalSendLanPeer)
  | .rendezvousConnect _ => Except String Unit
  | .rendezvousLookup _ => Except String (Option Rendezvous.LookupPeer)
  | .rendezvousClose => Unit
  | .localSendClientNew => Except String Unit
  | .localSendClientPinned _ => Except String Unit
  | .localSendSend .. => Except String Unit
  | .nativeSendToUrl .. => Except String Unit
  | .nativeSendToCandidates .. => Except String Unit

abbrev Calls := History Op Resp

/-- A function of the daemon that fails with an `anyhow::Error`, of which the
outermost text is used. -/
abbrev Anyhow : Type → Type := Prog Op Resp String

/-- A function of the daemon that fails with a status, or panics. -/
abbrev Handler : Type → Type := Prog Op Resp (Raised Status)

def context {α : Type} (text : String) (r : Except String α) : Anyhow α :=
  .ofExcept (r.mapError fun _ => text)

def internalStatus {α : Type} (p : Anyhow α) : Handler α := p.mapError fun e => .error ⟨.internal, e⟩

def notFoundStatus {α : Type} (r : Except String α) : Handler α :=
  .ofExcept (r.mapError fun e => .error ⟨.notFound, e⟩)

/-! ### Discovery -/

/-- The task of `discover`, with a panic as an error. -/
def discover [Primitives] [DebugText] (timeoutMs : ℕ) (localFingerprint : String) :
    Anyhow (List NativeLanPeer) :=
  .call .browse fun browser => do
    context "starting native LAN discovery" browser
    let resolved ← .call (.recvResolvedAll timeoutMs) (context "discovering native LAN peers")
    .call .shutdownBrowser fun _ =>
      match collectPeers (normalizePeerRef localFingerprint) resolved .empty with
      | .error _ => .fail "native LAN discovery task panicked"
      | .ok peers => .call (.intoValues peers) fun values => pure values.1

/-- `trust_discovered_peer`; the parser of the trust store may panic. -/
def trustDiscoveredPeer (trustDbPath : String) (peer : NativeLanPeer) (label : Option String)
    (policy : PeerPolicy) : Prog Op Resp (Raised String) Peer :=
  match peer.nativeCertificateFingerprint with
  | none => .fail (.error ("native peer " ++ peer.aliasName ++
      " did not advertise certificate metadata; restart it with alpha native discovery"))
  | some cert =>
    .call .openTrust fun opened => do
      .ofExcept (opened.mapError fun _ => .error ("failed to open trust store " ++ trustDbPath))
      .call (.trustWithNativeCertificate peer.pubkey (label.getD peer.aliasName) policy cert) fun r =>
        .ofExcept (r.mapError fun
          | .error _ => .error "trusting native LAN peer"
          | .panic => .panic)

/-! ### The scan for LocalSend peers -/

/-- The loop over the probes that are out: what was found, recorded or not. -/
def joinProbes : ℕ → List LocalSendLanPeer → Anyhow (List LocalSendLanPeer)
  | 0, discovered => pure discovered
  | n + 1, discovered =>
    .call .joinProbe fun
      | none => joinProbes n discovered
      | some probe =>
        .call (.recordLocalsendLanPeer probe.peer) fun
          | .ok recorded => joinProbes n (discovered ++ [recorded])
          | .error _ => joinProbes n (discovered ++ [probe.peer])

/-- `?` on an answer of the trust store. -/
def orCoreText {α : Type} (r : Except CoreError α) : Anyhow α :=
  .ofExcept (r.mapError LocalSend.showCoreError)

def scanAndCache : Anyhow (List LocalSendLanPeer) := do
  let localIp ← .call .localIpv4 (context "failed to determine local IPv4 address")
  .call .buildProbeClient (context "creating LocalSend discovery client")
  let candidates := probeCandidates localIp
  .each candidates fun candidate => .call (.spawnProbe candidate) fun _ => pure ()
  .call .openTrust orCoreText
  let discovered ← joinProbes candidates.length []
  let peers ← .call .listLocalsendLanPeers orCoreText
  pure (discovered.foldl (fun peers peer => mergePeer peer peers) peers)

/-! ### Rendezvous -/

/-- `WanConfig`, as far as a send uses it. -/
structure WanConfig where
  enabled : Bool
  rendezvousUrl : Option String

def lookupPeerCandidates [Rendezvous.SocketAddrs] (config : WanConfig) (requester target : Bytes32) :
    Anyhow (List NativeCandidate) :=
  match config.rendezvousUrl with
  | none => .fail "rendezvous_url is required for WAN lookup"
  | some url => do
    .call (.rendezvousConnect url) .ofExcept
    .call (.rendezvousLookup ⟨requester, target⟩) fun response =>
    .call .rendezvousClose fun _ => do
      let peer ← .ofExcept response
      .ofExcept (Daemon.lookupPeerCandidates ⟨peer⟩)

end NightBridge.Api
