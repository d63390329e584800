/-
# References to peers

An operator names a peer by its fingerprint or by its alias, and
`resolve_peer_ref` and `resolve_localsend_lan_peer` look for both at once.
Aliases are what the peers say about themselves, so a peer may take the
fingerprint of another one for its alias.

`Clear` says when this does no harm: no other peer does so, or the named peer is
not on the list and not just one does.  Otherwise the reference is ambiguous, or
another peer is found in the place of the named one (`fingerprint_hijacked`).
-/

import NightBridge.Api.Sends

namespace NightBridge.Api

open Data Effect NightBridge.Core NightBridge.Native

/-! ### One reference, one list -/

section references

variable {ρ ε : Type} (fingerprint aliasName : ρ → String) (peers : List ρ) (peerRef : String)

/-- Only a peer with the fingerprint of the reference has the reference for an
alias. -/
def Unaliased : Prop :=
  ∀ q ∈ peers, eqIgnoreAsciiCase (aliasName q) peerRef = true → normalized (fingerprint q) =
    normalized peerRef

/-- A peer has the fingerprint of the reference. -/
def Listed : Prop := ∃ p ∈ peers, normalized (fingerprint p) = normalized peerRef

/-- No alias leads the reference astray. -/
def Clear : Prop :=
  (Listed fingerprint peers peerRef →
    normalized peerRef ≠ "" ∧ Unaliased fingerprint aliasName peers peerRef) ∧
  (¬ Listed fingerprint peers peerRef → normalized peerRef = "" ∨
    (peers.filter fun q => eqIgnoreAsciiCase (aliasName q) peerRef).length ≠ 1)

/-- What a lookup by fingerprint should return: the peer that has it, or an
error. -/
def Exact (r : Except ε ρ) : Prop :=
  (∀ p ∈ peers, normalized (fingerprint p) = normalized peerRef → r = .ok p) ∧
    ((∀ p ∈ peers, normalized (fingerprint p) ≠ normalized peerRef) → ∃ e, r = .error e)

variable {fingerprint aliasName peers peerRef} {missing ambiguous : ε} {p : ρ}

theorem pick_eq_ok_iff : pick fingerprint aliasName missing ambiguous peers peerRef = .ok p ↔
    peers.filter (isNamed fingerprint aliasName peerRef) = [p] := by
  unfold pick
  rcases peers.filter (isNamed fingerprint aliasName peerRef) with _ | ⟨q, _ | ⟨q', rest⟩⟩
  · simp
  · simp
  · simp

theorem pick_eq_error (h : (peers.filter (isNamed fingerprint aliasName peerRef)).length ≠ 1) :
    ∃ e, pick fingerprint aliasName missing ambiguous peers peerRef = .error e := by
  cases hpick : pick fingerprint aliasName missing ambiguous peers peerRef with
  | error e => exact ⟨e, rfl⟩
  | ok p =>
    rw [pick_eq_ok_iff.mp hpick] at h
    exact absurd rfl h

theorem isNamed_of_fingerprint (h : normalized (fingerprint p) = normalized peerRef) :
    isNamed fingerprint aliasName peerRef p = true := by
  rw [isNamed, decide_eq_true h, Bool.true_or]

theorem isNamed_of_aliasName (h : aliasName p = peerRef) :
    isNamed fingerprint aliasName peerRef p = true := by
  rw [isNamed, h, show eqIgnoreAsciiCase peerRef peerRef = true from decide_eq_true rfl, Bool.or_true]

theorem pick_of_aliasName (h : aliasName p = peerRef) :
    pick fingerprint aliasName missing ambiguous [p] peerRef = .ok p :=
  pick_eq_ok_iff.mpr (List.filter_cons_of_pos (isNamed_of_aliasName h))

/-- Next to the peer with the fingerprint it is one too many. -/
theorem pick_ambiguous {q : ρ} (hp : normalized (fingerprint p) = normalized peerRef)
    (hq : aliasName q = peerRef) :
    pick fingerprint aliasName missing ambiguous [p, q] peerRef = .error ambiguous := by
  have hfilter : [p, q].filter (isNamed fingerprint aliasName peerRef) = [p, q] := by
    rw [List.filter_eq_self]
    rintro r hr
    rcases List.mem_pair.mp hr with rfl | rfl
    · exact isNamed_of_fingerprint hp
    · exact isNamed_of_aliasName hq
  rw [pick, hfilter]

theorem Unaliased.isNamed_eq (h : Unaliased fingerprint aliasName peers peerRef) {q : ρ}
    (hq : q ∈ peers) :
    isNamed fingerprint aliasName peerRef q =
      decide (normalized (fingerprint q) = normalized peerRef) := by
  unfold isNamed
  by_cases halias : eqIgnoreAsciiCase (aliasName q) peerRef = true
  · rw [halias, Bool.or_true, decide_eq_true (h q hq halias)]
  · rw [Bool.eq_false_iff.mpr halias, Bool.or_false]

theorem filter_of_unaliased (h : Unaliased fingerprint aliasName peers peerRef) :
    peers.filter (isNamed fingerprint aliasName peerRef) =
      peers.filter fun q => decide (normalized (fingerprint q) = normalized peerRef) :=
  List.filter_congr fun _ hq => h.isNamed_eq hq

theorem filter_of_not_listed (h : ¬ Listed fingerprint peers peerRef) :
    peers.filter (isNamed fingerprint aliasName peerRef) =
      peers.filter fun q => eqIgnoreAsciiCase (aliasName q) peerRef :=
  List.filter_congr fun q hq => by
    rw [isNamed, decide_eq_false fun he => h ⟨q, hq, he⟩, Bool.false_or]

/-- **What is found has the fingerprint.** -/
theorem Clear.named_of_pick (h : Clear fingerprint aliasName peers peerRef) (hne : normalized peerRef ≠ "")
    (hpick : pick fingerprint aliasName missing ambiguous peers peerRef = .ok p) :
    p ∈ peers ∧ normalized (fingerprint p) = normalized peerRef := by
  have hfilter := pick_eq_ok_iff.mp hpick
  by_cases hlisted : Listed fingerprint peers peerRef
  · have hmem : p ∈ peers.filter (isNamed fingerprint aliasName peerRef) :=
      hfilter ▸ List.mem_singleton_self p
    obtain ⟨hp, hnamed⟩ := List.mem_filter.mp hmem
    exact ⟨hp, of_decide_eq_true ((h.1 hlisted).2.isNamed_eq hp ▸ hnamed)⟩
  · rw [filter_of_not_listed hlisted] at hfilter
    exact absurd (congrArg List.length hfilter) ((h.2 hlisted).resolve_left hne)

theorem Unaliased.filter_eq (h : Unaliased fingerprint aliasName peers peerRef)
    (hdistinct : (peers.map fun p => normalized (fingerprint p)).Nodup) (hp : p ∈ peers)
    (href : normalized (fingerprint p) = normalized peerRef) :
    peers.filter (isNamed fingerprint aliasName peerRef) = [p] := by
  rw [filter_of_unaliased h, ← List.perm_singleton]
  refine (List.perm_ext_iff_of_nodup (hdistinct.of_map.filter _)
    (List.nodup_singleton p)).mpr fun q => ?_
  rw [List.mem_filter, decide_eq_true_eq, List.mem_singleton]
  constructor
  · rintro ⟨hq, hqref⟩
    exact List.inj_on_of_nodup_map hdistinct hq hp (hqref.trans href.symm)
  · rintro rfl
    exact ⟨hp, href⟩

/-- **A fingerprint finds the peer that has it**, and no other, exactly if no
alias leads it astray. -/
theorem exact_iff (hdistinct : (peers.map fun p => normalized (fingerprint p)).Nodup) {required : ε}
    {r : Except ε ρ} (hr : r = if normalized peerRef = "" then .error required
      else pick fingerprint aliasName missing ambiguous peers peerRef) :
    Exact fingerprint peers peerRef r ↔ Clear fingerprint aliasName peers peerRef := by
  by_cases hne : normalized peerRef = ""
  · rw [if_pos hne] at hr
    subst hr
    refine ⟨fun h => ⟨?_, fun _ => .inl hne⟩, fun h => ⟨fun p hp href => ?_, fun _ => ⟨required, rfl⟩⟩⟩
    · rintro ⟨p, hp, href⟩
      cases h.1 p hp href
    · exact absurd hne (h.1 ⟨p, hp, href⟩).1
  rw [if_neg hne] at hr
  subst hr
  constructor
  · intro h
    refine ⟨fun ⟨p, hp, href⟩ => ⟨hne, fun q hq halias => ?_⟩, fun hnot => .inr fun hone => ?_⟩
    · -- a peer with the alias is named too, and only `p` is
      have hmem : q ∈ peers.filter (isNamed fingerprint aliasName peerRef) :=
        List.mem_filter.mpr ⟨hq, by rw [isNamed, halias, Bool.or_true]⟩
      rw [pick_eq_ok_iff.mp (h.1 p hp href), List.mem_singleton] at hmem
      exact hmem ▸ href
    · obtain ⟨q, hq⟩ := List.length_eq_one_iff.mp hone
      obtain ⟨e, he⟩ := h.2 fun p hp href => hnot ⟨p, hp, href⟩
      rw [← filter_of_not_listed hnot] at hq
      cases (pick_eq_ok_iff.mpr hq).symm.trans he
  · intro h
    refine ⟨fun p hp href => ?_, fun hnone => ?_⟩
    · exact pick_eq_ok_iff.mpr ((h.1 ⟨p, hp, href⟩).2.filter_eq hdistinct hp href)
    · have hnot : ¬ Listed fingerprint peers peerRef := fun ⟨p, hp, href⟩ => hnone p hp href
      refine pick_eq_error ?_
      rw [filter_of_not_listed hnot]
      exact (h.2 hnot).resolve_left hne

theorem exact_mapError_iff {ε' : Type} {r : Except ε ρ} {f : ε → ε'} :
    Exact fingerprint peers peerRef (r.mapError f) ↔ Exact fingerprint peers peerRef r := by
  cases r with
  | error e => simp [Exact, Except.mapError]
  | ok p => simp [Exact, Except.mapError]

end references

/-! ### The two lookups -/

section lookups

variable [DebugText] {peerRef : String}

theorem resolvePeerRef_eq (hne : normalized peerRef ≠ "") (peers : List NativeLanPeer) :
    resolvePeerRef peers peerRef = pick NativeLanPeer.fingerprint NativeLanPeer.aliasName
      ("native LAN peer " ++ DebugText.debug peerRef ++
        " was not discovered; keep the daemon running and run `night-bridge peers list-native`")
      ("native LAN peer " ++ DebugText.debug peerRef ++ " is ambiguous; use its fingerprint")
        peers peerRef :=
  if_neg hne

/-- Native peers go by their fingerprints and their aliases. -/
abbrev NativeClear (peers : List NativeLanPeer) (peerRef : String) : Prop :=
  Clear NativeLanPeer.fingerprint NativeLanPeer.aliasName peers peerRef

/-- So do LocalSend peers. -/
abbrev LocalSendClear (peers : List LocalSendLanPeer) (peerRef : String) : Prop :=
  Clear LocalSendLanPeer.fingerprint LocalSendLanPeer.aliasName peers peerRef

theorem NativeClear.named {peers : List NativeLanPeer} {peer : NativeLanPeer}
    (h : NativeClear peers peerRef) (hresolved : resolvePeerRef peers peerRef = .ok peer) :
    peer ∈ peers ∧ normalized peer.fingerprint = normalized peerRef := by
  by_cases hne : normalized peerRef = ""
  · rw [resolvePeerRef, if_pos (show normalizePeerRef peerRef = "" from hne)] at hresolved
    cases hresolved
  · rw [resolvePeerRef_eq hne] at hresolved
    exact h.named_of_pick hne hresolved

/-- A lookup of a LocalSend peer is a scan and a match among what it found,
unless the reference is blank. -/
theorem ends_resolveLocalsendLanPeer {hist : Calls} {peers : List LocalSendLanPeer}
    (hscan : scanAndCache.Ends hist (.ok peers)) :
    (resolveLocalsendLanPeer peerRef).Ends (if normalized peerRef = "" then [] else hist)
      ((if normalized peerRef = "" then .error ⟨.invalidArgument, "LocalSend peer is required"⟩
        else matchLocalsendLanPeer peers peerRef).mapError .error) := by
  unfold resolveLocalsendLanPeer
  by_cases hne : normalized peerRef = ""
  · rw [if_pos (show normalizeLocalsendPeerRef peerRef = "" from hne), if_pos hne, if_pos hne]
    exact ⟨rfl, rfl⟩
  · rw [if_neg (show normalizeLocalsendPeerRef peerRef ≠ "" from hne), if_neg hne, if_neg hne,
      ← List.append_nil hist]
    exact Prog.Ends.bind hscan.mapError (Prog.ends_ofExcept.mpr ⟨rfl, rfl⟩)

end lookups

/-! ### What discovery lists -/

section discovery

variable [Primitives] [DebugText]

/-- The fingerprint a peer advertises is that of its key. -/
def NativeLanPeer.Genuine (peer : NativeLanPeer) : Prop :=
  Fingerprint.fromStr peer.fingerprint = .ok (.fromPubkey peer.pubkey)

theorem genuine_of_mapResolvedPeer {resolved : ResolvedNativePeer} {peer : NativeLanPeer}
    (h : mapResolvedPeer resolved = .ok (some peer)) : peer.Genuine := by
  unfold mapResolvedPeer validatePeerInfoFingerprint at h
  split_ifs at h with hport
  · cases h
  · rcases hparse : Fingerprint.fromStr resolved.info.fingerprint with (e | _) | advertised
    · simp [hparse] at h
    · simp [hparse] at h
    · simp only [hparse] at h
      split_ifs at h with hsame
      · cases h
      · cases h
        exact hparse.trans (congrArg _ (not_ne_iff.mp hsame))

theorem genuine_of_collectPeers {localFingerprint : String} {resolved : List ResolvedNativePeer}
    {peers found : NativeLanPeers} (h : collectPeers localFingerprint resolved peers = .ok found)
    (hpeers : ∀ peer ∈ peers.rows, peer.Genuine) : ∀ peer ∈ found.rows, peer.Genuine := by
  induction resolved generalizing peers with
  | nil =>
    cases h
    exact hpeers
  | cons r rest ih =>
    rw [collectPeers] at h
    rcases hmap : mapResolvedPeer r with e | (_ | peer)
    · simp [hmap] at h
    · simp only [hmap] at h
      exact ih h hpeers
    · simp only [hmap] at h
      split_ifs at h
      · exact ih h hpeers
      · refine ih h fun q hq => ?_
        rcases Table.mem_replace.mp hq with ⟨hq, -⟩ | rfl
        · exact hpeers q hq
        · exact genuine_of_mapResolvedPeer hmap

/-- **Every peer that discovery returns is genuine.** -/
theorem genuine_of_discover {timeoutMs : ℕ} {localFingerprint : String} {hist : Calls}
    {peers : List NativeLanPeer} (h : (discover timeoutMs localFingerprint).Returned hist peers) :
    ∀ peer ∈ peers, peer.Genuine := by
  obtain ⟨_, during, _, -, browser, rest, rfl, hends⟩ := h
  rcases Prog.ends_bind.mp hends with ⟨_, _, _, -, -, hends⟩ | ⟨_, -, hr⟩
  · rcases Prog.ends_bind.mp hends with ⟨_, _, resolved, -, -, _, _, -, hends⟩ | ⟨_, -, hr⟩
    · cases hcollect : collectPeers (normalizePeerRef localFingerprint) resolved .empty with
      | error e =>
        simp only [hcollect] at hends
        cases hends.2
      | ok found =>
        simp only [hcollect] at hends
        obtain ⟨values, _, -, -, hvalues⟩ := hends
        cases hvalues
        exact fun peer hpeer => genuine_of_collectPeers hcollect (by simp) peer
          (values.2.mem_iff.mp hpeer)
    · cases hr
  · cases hr

end discovery

/-! ### Where a reference leads -/

section named

variable [Primitives] [DebugText]

/-- A call that trusts a key trusts that of the peer that was named. -/
def TrustsNamed (state : DaemonState) (request : TrustNativeLanPeerRequest) (hist : Calls)
    (o : Op) : Prop :=
  ∀ pubkey label policy cert, o = .trustWithNativeCertificate pubkey label policy cert →
    ∃ peers, (discover (discoveryTimeout request.timeoutMs) state.fingerprint).Returned hist peers ∧
      (NativeClear peers request.peer → ∃ peer ∈ peers, peer.pubkey = pubkey ∧ peer.Genuine ∧
        normalized peer.fingerprint = normalized request.peer)

/-- A call that sends sends to the peer that was named: a native one under the
pin of its row in the trust store, a LocalSend one under its fingerprint. -/
def SendsToNamed (state : DaemonState) (peerRef : String) (hist : Calls) (o : Op) : Prop :=
  o.role = .send →
    (∃ url paths pin peers, o = .nativeSendToUrl url paths state.identity pin ∧
      (discover 1500 state.fingerprint).Returned hist peers ∧
      (NativeClear peers peerRef → ∃ peer ∈ peers, ∃ trusted : Peer,
        url = "quic://" ++ peer.address ++ ":" ++ toString peer.port ∧ peer.Genuine ∧
        normalized peer.fingerprint = normalized peerRef ∧
        ⟨.trustGet (.fromPubkey peer.pubkey), .ok (some trusted)⟩ ∈ hist ∧
        trusted.nativeCertificateFingerprint = some pin)) ∨
    ∃ pin url paths peers, o = .localSendSend (some pin) url paths (senderInfo state) ∧
      scanAndCache.Returned hist peers ∧
      (LocalSendClear peers peerRef → ∃ peer ∈ peers, peer.fingerprint = pin ∧
        url = peer.protocol ++ "://" ++ peer.sourceIp ++ ":" ++ toString peer.port.toNat ∧
        normalized pin = normalized peerRef)

theorem Decided.trustsNamed {state : DaemonState} {request : TrustNativeLanPeerRequest}
    {hist : Calls} {o : Op}
    (h : Decided state request hist o) : TrustsNamed state request hist o := by
  rintro pubkey label policy cert rfl
  cases h with
  | look ho => cases ho
  | @trust peers peer _ discovered resolved advertised =>
    refine ⟨peers, discovered, fun hclear => ?_⟩
    obtain ⟨hpeer, hnamed⟩ := hclear.named resolved
    exact ⟨peer, hpeer, rfl, genuine_of_discover discovered peer hpeer, hnamed⟩

theorem Justified.sendsToNamed {state : DaemonState} {request : SendRequest} {peerRef : String}
    {hist : Calls} {o : Op} (htarget : request.target = some (.peerFingerprint peerRef))
    (h : Justified state request hist o) :
    SendsToNamed state peerRef hist o := by
  intro hsend
  cases h with
  | other ho => rcases ho with ho | ho | ho <;> exact absurd (hsend.symm.trans ho) (by decide)
  | localsendUrl target => cases htarget.symm.trans target
  | @nativeLan _ peers peer f trusted pin target discovered resolved parsed row pinned advertised =>
    cases htarget.symm.trans target
    refine .inl ⟨_, _, pin, peers, rfl, discovered, fun hclear => ?_⟩
    obtain ⟨hpeer, hnamed⟩ := hclear.named resolved
    have hgenuine := genuine_of_discover discovered peer hpeer
    obtain rfl := Except.ok.inj (parsed.symm.trans hgenuine)
    exact ⟨peer, hpeer, trusted, rfl, hgenuine, hnamed, row,
      (pin_of_nativeWanCertificateFingerprint pinned).2⟩
  | @localsendLan _ peers peer target required scanned resolved =>
    cases htarget.symm.trans target
    refine .inr ⟨_, _, _, peers, rfl, scanned, fun hclear => ?_⟩
    obtain ⟨hpeer, hnamed⟩ := hclear.named_of_pick required resolved
    exact ⟨peer, hpeer, rfl, rfl, hnamed⟩
  | wan target => cases htarget.symm.trans target

/-- **A fingerprint leads to the peer that has it**: both lookups return that
peer, or an error if none has it, exactly if no alias leads the reference
astray; and then the key that is trusted is the one that was named, and a send
goes nowhere else. -/
theorem fingerprint_exact [Rendezvous.SocketAddrs] :
    (∀ (peers : List NativeLanPeer) (peerRef : String),
      (peers.map fun p => normalized p.fingerprint).Nodup →
      (Exact NativeLanPeer.fingerprint peers peerRef (resolvePeerRef peers peerRef) ↔
        NativeClear peers peerRef)) ∧
    (∀ (peers : List LocalSendLanPeer) (peerRef : String) (hist : Calls),
      scanAndCache.Ends hist (.ok peers) →
      (peers.map fun p => normalized p.fingerprint).Nodup →
      ∃ r, (resolveLocalsendLanPeer peerRef).Ends (if normalized peerRef = "" then [] else hist) r ∧
        (Exact LocalSendLanPeer.fingerprint peers peerRef r ↔ LocalSendClear peers peerRef)) ∧
    (∀ state request, (trustNativeLan state request).wp (TrustsNamed state request)
      (fun _ _ => True) []) ∧
    ∀ state request peerRef, request.target = some (.peerFingerprint peerRef) →
      (sendFiles state request).wp (SendsToNamed state peerRef) (fun _ _ => True) [] := by
  refine ⟨fun peers peerRef hdistinct => exact_iff hdistinct rfl,
    fun peers peerRef hist hscan hdistinct => ⟨_, ends_resolveLocalsendLanPeer hscan, ?_⟩,
    fun state request => ?_, fun state request peerRef htarget => ?_⟩
  · rw [exact_mapError_iff]
    exact exact_iff hdistinct rfl
  · exact Prog.wp_mono (wp_trustNativeLan state request) (fun _ _ _ h => h.trustsNamed) fun _ _ _ h => h
  · exact Prog.wp_mono (wp_sendFiles state request) (fun _ _ _ h => h.sendsToNamed htarget)
      fun _ _ _ h => h

end named

/-- A native peer with the key `key` and the alias `aliasName`, under the sample
digests. -/
def samplePeer (key : Bytes) (aliasName fingerprint : String) : NativeLanPeer :=
  ⟨aliasName, "192.168.0.7", 53400, fingerprint, .pad key, some "cert", []⟩

theorem normalized_nas : normalized "0100-0000-0000-0000" = "0100000000000000" := by decide +kernel

theorem normalized_laptop : normalized "0200-0000-0000-0000" = "0200000000000000" := by decide +kernel

theorem fingerprint_exact_nas :
    letI := DebugText.sample
    let nas := samplePeer [1] "nas" "0100-0000-0000-0000"
    let laptop := samplePeer [2] "laptop" "0200-0000-0000-0000"
    resolvePeerRef [nas, laptop] "0100-0000-0000-0000" = .ok nas := by
  let _ := Primitives.sample
  let _ := DebugText.sample
  let _ := Rendezvous.SocketAddrs.sample
  intro nas laptop
  have hdistinct : ([nas, laptop].map fun p => normalized p.fingerprint).Nodup := by
    simp [nas, laptop, samplePeer, normalized_nas, normalized_laptop]
  have hne : normalized "0100-0000-0000-0000" ≠ "" := by simp [normalized_nas]
  have hlisted : Listed NativeLanPeer.fingerprint [nas, laptop] "0100-0000-0000-0000" :=
    ⟨nas, List.mem_cons_self .., rfl⟩
  have hclear : NativeClear [nas, laptop] "0100-0000-0000-0000" := by
    refine ⟨fun _ => ⟨hne, ?_⟩, absurd hlisted⟩
    simp [Unaliased, nas, laptop, samplePeer, eqIgnoreAsciiCase]
  exact ((fingerprint_exact.1 [nas, laptop] _ hdistinct).mpr hclear).1 nas (List.mem_cons_self ..) rfl

/-! ### Runs in which an alias interferes -/

section runs

variable [Primitives] [DebugText]

theorem exists_ends_discover {timeoutMs : ℕ} {localFingerprint : String}
    {resolved : List ResolvedNativePeer} {found : NativeLanPeers} {peers : List NativeLanPeer}
    (hcollect : collectPeers (normalizePeerRef localFingerprint) resolved .empty = .ok found)
    (hpeers : peers.Perm found.rows) : ∃ hist,
      (discover timeoutMs localFingerprint).Ends hist (.ok peers) := by
  refine ⟨[⟨.browse, .ok ()⟩, ⟨.recvResolvedAll timeoutMs, .ok resolved⟩, ⟨.shutdownBrowser, .ok ()⟩,
    ⟨.intoValues found, ⟨peers, hpeers⟩⟩], _, _, rfl, _, _, rfl, _, _, rfl, ?_⟩
  rw [hcollect]
  exact ⟨_, _, rfl, rfl, rfl⟩

/-- Whom the reference finds is trusted. -/
theorem ends_trustNativeLan {state : DaemonState} {request : TrustNativeLanPeerRequest} {hist : Calls}
    {peers : List NativeLanPeer} {peer : NativeLanPeer} {cert : String}
    (hdiscover : (discover (discoveryTimeout request.timeoutMs) state.fingerprint).Ends hist (.ok peers))
    (hresolved : resolvePeerRef peers request.peer = .ok peer)
    (hcert : peer.nativeCertificateFingerprint = some cert) (trusted : Peer) :
    (trustNativeLan state request).Ends (hist ++ [⟨.openTrust, .ok ()⟩,
      ⟨.trustWithNativeCertificate peer.pubkey (request.label.getD peer.aliasName)
        request.corePolicy cert,
        .ok trusted⟩]) (.ok trusted) := by
  unfold trustNativeLan notFoundStatus trustDiscoveredPeer
  refine Prog.Ends.bind hdiscover.mapError (Prog.ends_bind.mpr (.inl ⟨[], _, peer, rfl, ?_, ?_⟩))
  · rw [hresolved]
    exact ⟨rfl, rfl⟩
  · rw [hcert]
    exact ⟨_, _, rfl, _, _, rfl, rfl, rfl⟩

end runs

/-- A scan that nobody answers returns what is stored. -/
theorem exists_ends_scanAndCache (peers : List LocalSendLanPeer) :
    ∃ hist, scanAndCache.Ends hist (.ok peers) := by
  have hspawn (candidates : List Ipv4Addr) : ∃ hist, (Prog.each candidates fun candidate =>
      .call (.spawnProbe candidate) fun _ => pure () : Anyhow Unit).Ends hist (.ok ()) := by
    induction candidates with
    | nil => exact ⟨[], rfl, rfl⟩
    | cons candidate _ ih =>
      obtain ⟨hist, hhist⟩ := ih
      exact ⟨⟨.spawnProbe candidate, ()⟩ :: hist, _, _, rfl, hhist⟩
  have hjoin (n : ℕ) : ∃ hist, (joinProbes n []).Ends hist (.ok []) := by
    induction n with
    | zero => exact ⟨[], rfl, rfl⟩
    | succ n ih =>
      obtain ⟨hist, hhist⟩ := ih
      exact ⟨⟨.joinProbe, none⟩ :: hist, _, _, rfl, hhist⟩
  let localIp : Ipv4Addr := ⟨192, 168, 0, 2⟩
  obtain ⟨spawned, hspawned⟩ := hspawn (probeCandidates localIp)
  obtain ⟨joined, hjoined⟩ := hjoin (probeCandidates localIp).length
  refine ⟨⟨.localIpv4, .ok localIp⟩ :: ⟨.buildProbeClient, .ok ()⟩ :: (spawned ++
    ⟨.openTrust, .ok ()⟩ :: (joined ++ [⟨.listLocalsendLanPeers, .ok peers⟩])), _, _, rfl, _, _, rfl, ?_⟩
  exact hspawned.bind ⟨_, _, rfl, hjoined.bind ⟨_, _, rfl, rfl, rfl⟩⟩

/-- A peer that has the fingerprint of another one for its alias makes it
ambiguous, and is found, and trusted, in its place where the other one is not
there. -/
theorem fingerprint_hijacked :
    letI := Primitives.sample
    letI := DebugText.sample
    let peerRef := "0100-0000-0000-0000"
    let nas := samplePeer [1] "nas" peerRef
    let mallory := samplePeer [2] peerRef "0200-0000-0000-0000"
    let phone : LocalSendLanPeer := ⟨"0200", peerRef, "192.168.0.8", 53317, "https", none,
      none, true, 0, 0⟩
    (([nas, mallory].map fun p => normalized p.fingerprint).Nodup ∧
      resolvePeerRef [nas, mallory] peerRef =
        .error "native LAN peer 0100-0000-0000-0000 is ambiguous; use its fingerprint") ∧
    (normalized mallory.fingerprint ≠ normalized peerRef ∧ resolvePeerRef [mallory] peerRef =
      .ok mallory) ∧
    (∃ hist trusted, (trustNativeLan .sample ⟨peerRef, none, 0, 0⟩).Ends hist (.ok trusted) ∧
      ⟨.trustWithNativeCertificate mallory.pubkey peerRef .autoAccept "cert", .ok trusted⟩ ∈ hist) ∧
    normalized phone.fingerprint ≠ normalized peerRef ∧
      ∃ hist, (resolveLocalsendLanPeer peerRef).Ends hist (.ok phone) := by
  let _ := Primitives.sample
  let _ := DebugText.sample
  intro peerRef nas mallory phone
  have hne : normalized peerRef ≠ "" := by simp [peerRef, normalized_nas]
  have hself : normalized mallory.fingerprint ≠ normalized peerRef := by
    simp [mallory, samplePeer, peerRef, normalized_nas, normalized_laptop]
  have hresolved : resolvePeerRef [mallory] peerRef = .ok mallory := by
    rw [resolvePeerRef_eq hne]
    exact pick_of_aliasName rfl
  refine ⟨⟨?_, ?_⟩, ⟨hself, hresolved⟩, ?_, by decide +kernel, ?_⟩
  · simp [nas, mallory, samplePeer, peerRef, normalized_nas, normalized_laptop]
  · rw [resolvePeerRef_eq hne]
    exact pick_ambiguous rfl rfl
  · -- mallory is all that discovery lists
    let advert : ResolvedNativePeer :=
      ⟨⟨peerRef, "0200-0000-0000-0000", .pad [2], 53400, some "cert", []⟩, "192.168.0.7"⟩
    have hmap : mapResolvedPeer advert = .ok (some mallory) := by decide +kernel
    have hother : normalizePeerRef mallory.fingerprint ≠ normalizePeerRef
      DaemonState.sample.fingerprint := by
      decide +kernel
    have hcollect : collectPeers (normalizePeerRef DaemonState.sample.fingerprint) [advert] .empty =
        .ok (Table.empty.replace mallory) := by
      simp only [collectPeers, hmap, if_neg hother]
    have hdiscover : ∃ hist, (discover 1500 DaemonState.sample.fingerprint).Ends hist (.ok [mallory]) :=
      exists_ends_discover hcollect (List.Perm.refl [mallory])
    obtain ⟨hist, hhist⟩ := hdiscover
    let request : TrustNativeLanPeerRequest := ⟨peerRef, none, 0, 0⟩
    let trusted : Peer := ⟨.fromPubkey mallory.pubkey, mallory.pubkey, peerRef, 0, none,
      some "cert", .autoAccept⟩
    have hends := @ends_trustNativeLan _ _ .sample request hist [mallory] mallory "cert" hhist
      hresolved rfl trusted
    exact ⟨_, trusted, hends, by simp [request, mallory, samplePeer,
      TrustNativeLanPeerRequest.corePolicy]⟩
  · have hmatch : matchLocalsendLanPeer [phone] peerRef = .ok phone := pick_of_aliasName rfl
    obtain ⟨hist, hscan⟩ := exists_ends_scanAndCache [phone]
    have hends := @ends_resolveLocalsendLanPeer _ peerRef _ _ hscan
    rw [if_neg hne, if_neg hne, hmatch] at hends
    exact ⟨hist, hends⟩

end NightBridge.Api
