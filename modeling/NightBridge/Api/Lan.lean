/-
# Peers on the local network

`crates/daemon/src/native_lan.rs`, and of `localsend_lan.rs` and
`api/transfers.rs` what they compute: which advertisements become peers, and
which peer a reference of the operator names.

A reference is compared with the fingerprints of the peers, both normalized, and
with their aliases, ignoring ASCII case; `pick` wants exactly one peer that is
named.  An address is its text.  How a string is quoted in an error text
(`{:?}`) depends on Unicode tables and is a parameter.
-/

import NightBridge.Data.SocketAddr
import NightBridge.LocalSend.Server
import NightBridge.Native.Dto

namespace NightBridge.Api

open Data NightBridge.Core NightBridge.Native

/-- `impl Debug for str`. -/
class DebugText where
  debug : String → String

/-- A way of quoting to run the model with: none. -/
@[reducible] def DebugText.sample : DebugText := ⟨id⟩

/-- How a function can fail: with an error, or with a panic. -/
inductive Raised (ε : Type)
  | error (e : ε)
  | panic
  deriving DecidableEq

/-! ### Advertisements -/

structure NativeLanPeer where
  aliasName : String
  address : String
  port : ℕ
  fingerprint : String
  pubkey : Bytes32
  nativeCertificateFingerprint : Option String
  extensions : List String
  deriving DecidableEq

structure ResolvedNativePeer where
  info : NativePeerInfo
  address : String
  deriving DecidableEq

def normalizePeerRef (value : String) : String := normalized value

/-- `validate_peer_info_fingerprint`; the parser of fingerprints may panic. -/
def validatePeerInfoFingerprint [Primitives] [DebugText] (peer : NativePeerInfo) :
    Except (Raised NativeError) Fingerprint :=
  match Fingerprint.fromStr peer.fingerprint with
  | .error .panic => .error .panic
  | .error (.error e) => .error (.error (.protocol (LocalSend.showCoreError e)))
  | .ok advertised =>
    let derived := Fingerprint.fromPubkey peer.pubkey
    if advertised ≠ derived then
      .error (.error (.protocol ("fingerprint mismatch for peer " ++ DebugText.debug peer.nodeAlias ++
        ": advertised " ++ advertised.display ++ ", derived " ++ derived.display)))
    else .ok derived

/-- `map_resolved_peer`, or a panic. -/
def mapResolvedPeer [Primitives] [DebugText] (peer : ResolvedNativePeer) :
    Except (Raised Empty) (Option NativeLanPeer) :=
  if peer.info.quicPort = 0 then .ok none
  else match validatePeerInfoFingerprint peer.info with
    | .error .panic => .error .panic
    | .error (.error _) => .ok none
    | .ok _ => .ok (some
      { aliasName := peer.info.nodeAlias
        address := peer.address
        port := peer.info.quicPort
        fingerprint := peer.info.fingerprint
        pubkey := peer.info.pubkey
        nativeCertificateFingerprint := peer.info.nativeCertificateFingerprint
        extensions := peer.info.extensions })

/-- The map that `discover` fills, keyed by the advertised text of the
fingerprint. -/
abbrev NativeLanPeers := Table NativeLanPeer NativeLanPeer.fingerprint

/-- The loop of `discover`. -/
def collectPeers [Primitives] [DebugText] (localFingerprint : String) :
    List ResolvedNativePeer → NativeLanPeers → Except (Raised Empty) NativeLanPeers
  | [], peers => .ok peers
  | resolved :: rest, peers =>
    match mapResolvedPeer resolved with
    | .error e => .error e
    | .ok none => collectPeers localFingerprint rest peers
    | .ok (some peer) =>
      if normalizePeerRef peer.fingerprint = localFingerprint then
        collectPeers localFingerprint rest peers
      else collectPeers localFingerprint rest (peers.replace peer)

/-! ### References -/

def toAsciiLowercase (c : Char) : Char :=
  if 65 ≤ c.toNat ∧ c.toNat ≤ 90 then Char.ofNat (c.toNat + 32) else c

def eqIgnoreAsciiCase (s t : String) : Bool :=
  s.toList.map toAsciiLowercase = t.toList.map toAsciiLowercase

section references

variable {ρ ε : Type} (fingerprint aliasName : ρ → String)

/-- The filter of both lookups. -/
def isNamed (peerRef : String) (peer : ρ) : Bool :=
  normalized (fingerprint peer) = normalized peerRef || eqIgnoreAsciiCase (aliasName peer) peerRef

/-- The one peer that is named. -/
def pick (missing ambiguous : ε) (peers : List ρ) (peerRef : String) : Except ε ρ :=
  match peers.filter (isNamed fingerprint aliasName peerRef) with
  | [] => .error missing
  | [peer] => .ok peer
  | _ => .error ambiguous

end references

def resolvePeerRef [DebugText] (peers : List NativeLanPeer) (peerRef : String) :
    Except String NativeLanPeer :=
  if normalizePeerRef peerRef = "" then .error "native peer is required"
  else pick NativeLanPeer.fingerprint NativeLanPeer.aliasName
    ("native LAN peer " ++ DebugText.debug peerRef ++
      " was not discovered; keep the daemon running and run `night-bridge peers list-native`")
    ("native LAN peer " ++ DebugText.debug peerRef ++ " is ambiguous; use its fingerprint") peers peerRef

/-- `tonic::Code`, those the modelled calls answer with. -/
inductive Code
  | invalidArgument
  | notFound
  | permissionDenied
  | failedPrecondition
  | internal
  deriving DecidableEq, Repr

/-- `format!("{:?}", code)`. -/
def Code.debug : Code → String
  | .invalidArgument => "InvalidArgument"
  | .notFound => "NotFound"
  | .permissionDenied => "PermissionDenied"
  | .failedPrecondition => "FailedPrecondition"
  | .internal => "Internal"

structure Status where
  code : Code
  message : String
  deriving DecidableEq

def normalizeLocalsendPeerRef (value : String) : String := normalized value

/-- The end of `resolve_localsend_lan_peer`, on the peers of the scan. -/
def matchLocalsendLanPeer [DebugText] (peers : List LocalSendLanPeer) (peerRef : String) :
    Except Status LocalSendLanPeer :=
  pick LocalSendLanPeer.fingerprint LocalSendLanPeer.aliasName
    ⟨.notFound, "LocalSend LAN peer " ++ DebugText.debug peerRef ++
      " was not discovered; keep the app open and run `night-bridge peers list-lan`"⟩
    ⟨.failedPrecondition, "LocalSend LAN peer " ++ DebugText.debug peerRef ++
      " is ambiguous; use its fingerprint"⟩ peers peerRef

/-! ### The scan -/

def localsendPort : UInt16 := 53317

structure InfoResponse where
  aliasName : String
  deviceModel : Option String
  deviceType : Option String
  fingerprint : String
  port : Option UInt16
  protocol : Option String
  download : Option Bool
  deriving DecidableEq

/-- An answered probe: who answered, whether over `https` or `http`, and what. -/
structure Probe where
  ip : Ipv4Addr
  secure : Bool
  info : InfoResponse
  deriving DecidableEq

/-- What `probe_candidate` makes of an answer. -/
def Probe.peer (probe : Probe) : LocalSendLanPeer where
  fingerprint := probe.info.fingerprint
  aliasName := probe.info.aliasName
  sourceIp := probe.ip.display
  port := probe.info.port.getD localsendPort
  protocol := probe.info.protocol.getD (if probe.secure then "https" else "http")
  deviceModel := probe.info.deviceModel
  deviceType := probe.info.deviceType
  download := probe.info.download.getD true
  firstSeen := 0
  lastSeen := 0

/-- The addresses a scan probes: those of the same `/24`, without one's own. -/
def probeCandidates (localIp : Ipv4Addr) : List Ipv4Addr :=
  ((List.range 254).map fun host => { localIp with d := UInt8.ofNat (host + 1) }).filter (· ≠ localIp)

/-- One round of the loop that merges what was discovered into what is stored. -/
def mergePeer (peer : LocalSendLanPeer) : List LocalSendLanPeer → List LocalSendLanPeer
  | [] => [peer]
  | existing :: rest =>
    if existing.fingerprint = peer.fingerprint then peer :: rest else existing :: mergePeer peer rest

end NightBridge.Api
