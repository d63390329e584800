/-
# Why a send is made

`Op.role` says what a call is for; everything before a send only looks.
`Justified` lists the sends a request may lead to, each with what was found
before: the peers that discovery or the scan returned, the one that was resolved
among them, and the row of the trust store.  `wp_sendFiles` is that no other
send is made, whatever discovery, the network and the store answer;
`wp_trustNativeLan` says the same of a trust decision.
-/

import NightBridge.Api.Send
import NightBridge.Effect.Outcomes

namespace NightBridge.Api

open Data Effect NightBridge.Core NightBridge.Native

inductive Role
  | look
  | trust
  | build
  | send
  | announce
  deriving DecidableEq

def Op.role : Op → Role
  | .emit _ => .announce
  | .trustWithNativeCertificate .. => .trust
  | .localSendClientNew => .build
  | .localSendSend .. | .nativeSendToUrl .. | .nativeSendToCandidates .. => .send
  | _ => .look

abbrev Looks {ε α : Type} (p : Prog Op Resp ε α) : Prop := p.Only fun o => o.role = .look

theorem only_internalStatus {P : Op → Prop} {α : Type} {p : Anyhow α} (h : p.Only P) :
    (internalStatus p).Only P :=
  Prog.Only.mapError h

theorem looks_call {ε α : Type} {o : Op} {k : Resp o → Prog Op Resp ε α} (ho : o.role = .look)
    (hk : ∀ x, Looks (k x)) : Looks (.call o k) := .call ho hk

theorem looks_validatedPaths (paths : List String) : Looks (validatedPaths paths) := by
  unfold validatedPaths
  split_ifs with h
  · exact .fail _
  · refine Prog.Only.bind (Prog.only_each (fun path => looks_call rfl fun x => ?_) paths) fun _ => .ret _
    rcases x with e | (_ | _)
    · exact .fail _
    · exact .fail _
    · exact .ret _

theorem looks_discover [Primitives] [DebugText] (timeoutMs : ℕ) (localFingerprint : String) :
    Looks (discover timeoutMs localFingerprint) := by
  unfold discover
  refine looks_call rfl fun browser => Prog.Only.bind (Prog.only_ofExcept _) fun _ => ?_
  refine Prog.Only.bind (looks_call rfl fun _ => Prog.only_ofExcept _) fun resolved => ?_
  refine looks_call rfl fun _ => ?_
  cases collectPeers (normalizePeerRef localFingerprint) resolved .empty with
  | error e => exact .fail _
  | ok peers => exact looks_call rfl fun _ => .ret _

theorem looks_joinProbes (n : ℕ) (discovered : List LocalSendLanPeer) :
    Looks (joinProbes n discovered) := by
  induction n generalizing discovered with
  | zero => exact .ret _
  | succ n ih =>
    refine looks_call rfl fun probe => ?_
    cases probe with
    | none => exact ih discovered
    | some probe =>
      refine looks_call rfl fun recorded => ?_
      cases recorded with
      | ok recorded => exact ih _
      | error e => exact ih _

theorem looks_scanAndCache : Looks scanAndCache := by
  unfold scanAndCache
  refine Prog.Only.bind (looks_call rfl fun _ => Prog.only_ofExcept _) fun localIp => ?_
  refine Prog.Only.bind (looks_call rfl fun _ => Prog.only_ofExcept _) fun _ => ?_
  refine Prog.Only.bind (Prog.only_each (fun _ => looks_call rfl fun _ => .ret _) _) fun _ => ?_
  refine Prog.Only.bind (looks_call rfl fun _ => Prog.only_ofExcept _) fun _ => ?_
  refine Prog.Only.bind (looks_joinProbes _ _) fun discovered => ?_
  exact Prog.Only.bind (looks_call rfl fun _ => Prog.only_ofExcept _) fun peers => .ret _

theorem looks_lookupPeerCandidates [Rendezvous.SocketAddrs] (config : WanConfig)
    (requester target : Bytes32) :
    Looks (lookupPeerCandidates config requester target) := by
  unfold lookupPeerCandidates
  cases config.rendezvousUrl with
  | none => exact .fail _
  | some url =>
    refine Prog.Only.bind (looks_call rfl fun _ => Prog.only_ofExcept _) fun _ => ?_
    refine looks_call rfl fun response => looks_call rfl fun _ => ?_
    refine Prog.Only.bind (Prog.only_ofExcept _) fun peer => ?_
    cases peer with
    | none => exact .fail _
    | some peer => exact Prog.only_ofExcept _

theorem looks_parseFingerprint (what text : String) : Looks (parseFingerprint what text) := by
  unfold parseFingerprint
  rcases Fingerprint.fromStr text with (e | _) | fingerprint
  · exact .fail _
  · exact .fail _
  · exact .ret _

theorem looks_getTrusted (fingerprint : Fingerprint) (missing : Status) :
    Looks (getTrusted fingerprint missing) := by
  unfold getTrusted
  refine looks_call rfl fun opened => Prog.Only.bind (Prog.only_ofExcept _) fun _ =>
    looks_call rfl fun r => ?_
  rcases r with (e | _) | (_ | peer)
  · exact .fail _
  · exact .fail _
  · exact .fail _
  · exact .ret _

theorem looks_resolveLocalsendLanPeer [DebugText] (peerRef : String) :
    Looks (resolveLocalsendLanPeer peerRef) := by
  unfold resolveLocalsendLanPeer
  exact Prog.only_ite (.fail _)
    (Prog.Only.bind (only_internalStatus looks_scanAndCache) fun _ => Prog.only_ofExcept _)

/-! ### What a send rests on -/

theorem pin_of_nativeWanCertificateFingerprint {trusted : Peer} {pin : String}
    (h : nativeWanCertificateFingerprint trusted = .ok pin) :
    trusted.policy = .autoAccept ∧ trusted.nativeCertificateFingerprint = some pin := by
  unfold nativeWanCertificateFingerprint at h
  rcases hpolicy : trusted.policy with _ | _ | _
  · rcases hcert : trusted.nativeCertificateFingerprint with _ | cert
    · simp [hpolicy, hcert] at h
    · simp only [hpolicy, hcert] at h
      cases h
      exact ⟨rfl, rfl⟩
  · simp [hpolicy] at h
  · simp [hpolicy] at h

section justified

variable [Primitives] [DebugText] (state : DaemonState) (request : SendRequest)

/-- What a send of a request rests on, among the calls answered before it. -/
inductive Justified (hist : Calls) : Op → Prop
  | other {o : Op} (ho : o.role = .look ∨ o.role = .build ∨ o.role = .announce) : Justified hist o
  | localsendUrl {url : String} (target : request.target = some (.localsendUrl url)) :
    Justified hist (.localSendSend none url request.paths (senderInfo state))
  | nativeLan {peerRef : String} {peers : List NativeLanPeer} {peer : NativeLanPeer}
      {fingerprint : Fingerprint} {trusted : Peer} {pin : String}
      (target : request.target = some (.peerFingerprint peerRef))
      (discovered : (discover 1500 state.fingerprint).Returned hist peers)
      (resolved : resolvePeerRef peers peerRef = .ok peer)
      (parsed : Fingerprint.fromStr peer.fingerprint = .ok fingerprint)
      (row : ⟨.trustGet fingerprint, .ok (some trusted)⟩ ∈ hist)
      (pinned : nativeWanCertificateFingerprint trusted = .ok pin)
      (advertised : peer.nativeCertificateFingerprint = some pin) :
    Justified hist (.nativeSendToUrl ("quic://" ++ peer.address ++ ":" ++ toString peer.port)
      request.paths state.identity pin)
  | localsendLan {peerRef : String} {peers : List LocalSendLanPeer} {peer : LocalSendLanPeer}
      (target : request.target = some (.peerFingerprint peerRef)) (required : normalized peerRef ≠ "")
      (scanned : scanAndCache.Returned hist peers)
      (resolved : matchLocalsendLanPeer peers peerRef = .ok peer) :
    Justified hist (.localSendSend (some peer.fingerprint)
      (peer.protocol ++ "://" ++ peer.sourceIp ++ ":" ++ toString peer.port.toNat) request.paths
        (senderInfo state))
  | wan {text : String} {fingerprint : Fingerprint} {trusted : Peer} {pin : String}
      {candidates : List NativeCandidate}
      (target : request.target = some (.wanPeer text))
      (parsed : Fingerprint.fromStr text = .ok fingerprint)
      (row : ⟨.trustGet fingerprint, .ok (some trusted)⟩ ∈ hist)
      (pinned : nativeWanCertificateFingerprint trusted = .ok pin) :
    Justified hist (.nativeSendToCandidates candidates request.paths state.identity pin)

variable {state request}

theorem Justified.of_look {hist : Calls} {o : Op} (ho : o.role = .look) :
    Justified state request hist o :=
  .other (.inl ho)

/-! The parts before a send, and what they establish. -/

theorem wp_validatedPaths (paths : List String) (hist : Calls) :
    (validatedPaths paths).wp (Justified state request) (fun _ a => a = paths) hist := by
  refine Prog.wp_mono ((looks_validatedPaths paths).wp_returned (fun _ _ => Justified.of_look) hist)
    (fun _ _ _ h => h) ?_
  rintro _ a - ⟨_, during, _, -, hends⟩
  unfold validatedPaths at hends
  split_ifs at hends
  · cases hends.2
  · rcases Prog.ends_bind.mp hends with ⟨_, _, _, -, -, -, hr⟩ | ⟨_, -, hr⟩
    · exact Except.ok.inj hr
    · cases hr

theorem wp_internalStatus {α : Type} {p : Anyhow α} {hist : Calls} (h : Looks p) :
    (internalStatus p).wp (Justified state request) p.Returned hist :=
  Prog.wp_mapError.mpr (h.wp_returned (fun _ _ => Justified.of_look) hist)

theorem wp_parseFingerprint (what text : String) (hist : Calls) :
    (parseFingerprint what text).wp (Justified state request)
      (fun _ f => Fingerprint.fromStr text = .ok f) hist := by
  unfold parseFingerprint
  rcases h : Fingerprint.fromStr text with (e | _) | fingerprint
  · trivial
  · trivial
  · rfl

theorem wp_getTrusted (fingerprint : Fingerprint) (missing : Status) (hist : Calls) :
    (getTrusted fingerprint missing).wp (Justified state request)
      (fun h trusted => ⟨.trustGet fingerprint, .ok (some trusted)⟩ ∈ h) hist := by
  unfold getTrusted
  refine ⟨.of_look rfl, fun opened => Prog.wp_bind.mpr
    (Prog.wp_ofExcept.mpr fun _ _ => ⟨.of_look rfl, ?_⟩)⟩
  rintro ((e | _) | (_ | peer))
  · trivial
  · trivial
  · trivial
  · exact List.mem_append_right _ (List.mem_singleton.mpr rfl)

theorem wp_sendFilesToNativeLanPeer {peerRef : String}
    (target : request.target = some (.peerFingerprint peerRef)) (hist : Calls) :
    (sendFilesToNativeLanPeer state peerRef request.paths).wp (Justified state request)
      (fun _ _ => True) hist := by
  unfold sendFilesToNativeLanPeer notFoundStatus
  refine Prog.wp_bind_of (wp_internalStatus (looks_discover _ _)) fun h₁ peers _ discovered => ?_
  refine Prog.wp_bind.mpr (Prog.wp_ofExcept_mapError.mpr fun peer resolved => ?_)
  refine Prog.wp_bind_of (wp_parseFingerprint _ _ _) fun h₂ fingerprint hh₂ parsed => ?_
  refine Prog.wp_bind_of (wp_getTrusted _ _ _) fun h₃ trusted hh₃ row => ?_
  refine Prog.wp_bind.mpr (Prog.wp_ofExcept_mapError.mpr fun pin pinned => ?_)
  cases hcert : peer.nativeCertificateFingerprint with
  | none => trivial
  | some advertised =>
    refine Prog.wp_ite (fun _ => trivial) fun hsame => ?_
    obtain rfl := not_ne_iff.mp hsame
    refine Prog.wp_mapError.mpr ⟨?_, fun x => Prog.wp_ofExcept.mpr fun _ _ => trivial⟩
    exact .nativeLan target (discovered.mono (hh₂.trans hh₃)) resolved parsed row pinned hcert

theorem wp_sendFilesToLocalsendLanPeer {peerRef : String}
    (target : request.target = some (.peerFingerprint peerRef)) (hist : Calls) :
    (sendFilesToLocalsendLanPeer state peerRef request.paths).wp (Justified state request)
      (fun _ _ => True) hist := by
  have hresolve : (resolveLocalsendLanPeer peerRef).wp (Justified state request) (fun h peer =>
      normalized peerRef ≠ "" ∧ ∃ peers, scanAndCache.Returned h peers ∧
        matchLocalsendLanPeer peers peerRef = .ok peer) hist := by
    unfold resolveLocalsendLanPeer
    refine Prog.wp_ite (fun _ => trivial) fun required => ?_
    refine Prog.wp_bind_of (wp_internalStatus looks_scanAndCache) fun h peers _ scanned => ?_
    exact Prog.wp_ofExcept_mapError.mpr fun peer resolved => ⟨required, peers, scanned, resolved⟩
  unfold sendFilesToLocalsendLanPeer
  refine Prog.wp_bind_of hresolve fun h₁ peer _ ⟨required, peers, scanned, resolved⟩ => ?_
  refine Prog.wp_bind_of (Q := fun _ _ => True) ?_ fun h₂ _ hh₂ _ => ?_
  · exact Prog.wp_mapError.mpr ⟨.of_look rfl, fun x => Prog.wp_ofExcept.mpr fun _ _ => trivial⟩
  · refine Prog.wp_mapError.mpr ⟨?_, fun x => Prog.wp_ofExcept.mpr fun _ _ => trivial⟩
    exact .localsendLan target required (scanned.mono hh₂) resolved

section wan

variable [Rendezvous.SocketAddrs]

theorem wp_sendFilesToWanPeer {text : String} (target : request.target = some (.wanPeer text))
    (hist : Calls) :
    (sendFilesToWanPeer state text request.paths).wp (Justified state request)
      (fun _ _ => True) hist := by
  unfold sendFilesToWanPeer
  refine Prog.wp_ite (fun _ => trivial) fun _ => ?_
  refine Prog.wp_bind_of (wp_parseFingerprint _ _ _) fun h₁ fingerprint _ parsed => ?_
  refine Prog.wp_bind_of (wp_getTrusted _ _ _) fun h₂ trusted _ row => ?_
  refine Prog.wp_bind.mpr (Prog.wp_ofExcept_mapError.mpr fun pin pinned => ?_)
  refine Prog.wp_bind_of (wp_internalStatus (looks_lookupPeerCandidates _ _ _))
    fun h₃ candidates hh₃ _ => ?_
  refine Prog.wp_mapError.mpr ⟨?_, fun x => Prog.wp_ofExcept.mpr fun _ _ => trivial⟩
  exact .wan target parsed (hh₃.subset row) pinned

theorem wp_dispatch {target : Target} (htarget : request.target = some target) (hist : Calls) :
    (dispatch state request request.paths target).wp (Justified state request)
      (fun _ _ => True) hist := by
  have hattempt {p : Handler Unit} (h : ∀ hist, p.wp (Justified state request) (fun _ _ => True) hist)
      (hist : Calls) : (p.attempt : Handler _).wp (Justified state request) (fun _ _ => True) hist :=
    Prog.wp_mono (Prog.wp_attempt (h hist)) (fun _ _ _ hj => hj) fun _ _ _ _ => trivial
  cases target with
  | localsendUrl url =>
    unfold dispatch
    refine Prog.wp_bind_of (Q := fun _ _ => True) ?_ fun h _ _ _ => hattempt (fun hist => ?_) h
    · exact Prog.wp_mapError.mpr ⟨.other (.inr (.inl rfl)),
        fun x => Prog.wp_ofExcept.mpr fun _ _ => trivial⟩
    · exact Prog.wp_mapError.mpr ⟨.localsendUrl htarget,
        fun x => Prog.wp_ofExcept.mpr fun _ _ => trivial⟩
  | nativeUrl url => exact trivial
  | peerFingerprint peerRef =>
    exact Prog.wp_ite (fun _ => hattempt (wp_sendFilesToNativeLanPeer htarget) hist)
      fun _ => hattempt (wp_sendFilesToLocalsendLanPeer htarget) hist
  | wanPeer text => exact hattempt (wp_sendFilesToWanPeer htarget) hist

/-- **No send without its reasons**, whatever the calls of a request are
answered. -/
theorem wp_sendFiles (state : DaemonState) (request : SendRequest) :
    (sendFiles state request).wp (Justified state request) (fun _ _ => True) [] := by
  unfold sendFiles
  refine Prog.wp_bind_of (wp_validatedPaths _ _) ?_
  rintro h₁ _ - rfl
  cases htarget : request.target with
  | none => trivial
  | some target =>
    refine ⟨.of_look rfl, fun transferId => ⟨.other (.inr (.inr rfl)), fun _ => ?_⟩⟩
    refine Prog.wp_bind_of (wp_dispatch htarget _) fun h₂ result _ _ => ?_
    rcases result with (status | _) | _
    · exact ⟨.other (.inr (.inr rfl)), fun _ => trivial⟩
    · trivial
    · exact ⟨.other (.inr (.inr rfl)), fun _ => trivial⟩

end wan

end justified

/-! ### What a trust decision rests on -/

section trust

variable [Primitives] [DebugText] (state : DaemonState) (request : TrustNativeLanPeerRequest)

/-- What the trust decision of a request rests on. -/
inductive Decided (hist : Calls) : Op → Prop
  | look {o : Op} (ho : o.role = .look) : Decided hist o
  | trust {peers : List NativeLanPeer} {peer : NativeLanPeer} {cert : String}
      (discovered : (discover (discoveryTimeout request.timeoutMs)
        state.fingerprint).Returned hist peers)
      (resolved : resolvePeerRef peers request.peer = .ok peer)
      (advertised : peer.nativeCertificateFingerprint = some cert) :
    Decided hist (.trustWithNativeCertificate peer.pubkey (request.label.getD peer.aliasName)
      request.corePolicy cert)

/-- **No trust without its reasons**, whatever the calls of a request are
answered. -/
theorem wp_trustNativeLan :
    (trustNativeLan state request).wp (Decided state request) (fun _ _ => True) [] := by
  unfold trustNativeLan notFoundStatus trustDiscoveredPeer
  have hdiscover := (looks_discover (discoveryTimeout request.timeoutMs) state.fingerprint).wp_returned
    (G := Decided state request) (fun _ _ ho => .look ho) []
  refine Prog.wp_bind_of (Prog.wp_mapError.mpr hdiscover) fun h₁ peers _ discovered => ?_
  refine Prog.wp_bind.mpr (Prog.wp_ofExcept_mapError.mpr fun peer resolved => Prog.wp_mapError.mpr ?_)
  cases advertised : peer.nativeCertificateFingerprint with
  | none => trivial
  | some cert =>
    refine ⟨.look rfl, fun opened => Prog.wp_bind.mpr (Prog.wp_ofExcept.mpr fun _ _ => ?_)⟩
    refine ⟨?_, fun r => Prog.wp_ofExcept.mpr fun _ _ => trivial⟩
    exact .trust (discovered.mono (List.prefix_append _ _)) resolved advertised

end trust

end NightBridge.Api
