/-
# Discovery

`NativeDiscoveryBrowser::recv_resolved_all` of
`crates/protocol-native-v1/src/discovery.rs` collects the advertisements that
arrive before the deadline, and `discover` lists the peers in them.

Anybody on the network can advertise.  One advertisement of the native type
whose properties cannot be read makes the whole call an error (`unhidden_iff`),
and one identity is listed as often as its fingerprint is spelled
(`listsOnce_iff`).
-/

import NightBridge.Api.Advertisements
import NightBridge.Api.PeerRef
import NightBridge.Core.FingerprintText

namespace NightBridge.Api

open Data Effect NightBridge.Core NightBridge.Native

/-! ### The browser -/

def nativeMdnsServiceType : String := "_lsi-native._udp.local."

/-- `ResolvedService`: the keys and texts of its properties, and its addresses
in the order in which their set is iterated. -/
structure ResolvedService where
  tyDomain : String
  properties : List (String × String)
  addresses : List String

/-- `ServiceEvent`, with the hasher of the map that is made of the properties. -/
inductive ServiceEvent
  | serviceResolved (service : ResolvedService) (hasher : RandomState)
  | other

def txtPropertiesToMap (properties : List (String × String)) : Properties :=
  properties.foldl Table.replace .empty

def peerInfoFromMdnsTxt (hasher : RandomState) (properties : List (String × String)) :
    Except NativeError NativePeerInfo :=
  peerInfoFromTxtProperties (hasher.iter (txtPropertiesToMap properties))

def peerInfoFromResolvedService (service : ResolvedService) (hasher : RandomState) :
    Except NativeError (Option NativePeerInfo) :=
  if service.tyDomain ≠ nativeMdnsServiceType then .ok none
  else (peerInfoFromMdnsTxt hasher service.properties).map some

def resolvedPeerFromResolvedService (service : ResolvedService) (hasher : RandomState) :
    Except NativeError (Option ResolvedNativePeer) := do
  match ← peerInfoFromResolvedService service hasher with
  | none => return none
  | some info =>
    match service.addresses.head? with
    | none => return none
    | some address => return some { info, address }

/-- The loop of `recv_resolved_all`, over the events that arrive before the
deadline. -/
def recvResolvedFrom : List ServiceEvent → List ResolvedNativePeer →
    Except NativeError (List ResolvedNativePeer)
  | [], peers => .ok peers
  | .other :: events, peers => recvResolvedFrom events peers
  | .serviceResolved service hasher :: events, peers => do
    match ← resolvedPeerFromResolvedService service hasher with
    | some peer => recvResolvedFrom events (peers ++ [peer])
    | none => recvResolvedFrom events peers

def recvResolvedAll (events : List ServiceEvent) : Except NativeError (List ResolvedNativePeer) :=
  recvResolvedFrom events []

/-- An advertisement of the native type whose properties cannot be read. -/
def ServiceEvent.Malformed : ServiceEvent → Prop
  | .serviceResolved service hasher => service.tyDomain = nativeMdnsServiceType ∧
      ∃ e, peerInfoFromMdnsTxt hasher service.properties = .error e
  | .other => False

/-- The peer of a well-formed advertisement with an address. -/
def ServiceEvent.peer? : ServiceEvent → Option ResolvedNativePeer
  | .serviceResolved service hasher =>
    if service.tyDomain ≠ nativeMdnsServiceType then none
    else match peerInfoFromMdnsTxt hasher service.properties, service.addresses.head? with
      | .ok info, some address => some { info, address }
      | _, _ => none
  | .other => none

theorem resolvedPeer_of_malformed {service : ResolvedService} {hasher : RandomState}
    (h : (ServiceEvent.serviceResolved service hasher).Malformed) :
    ∃ e, resolvedPeerFromResolvedService service hasher = .error e := by
  obtain ⟨htype, e, he⟩ := h
  refine ⟨e, ?_⟩
  rw [resolvedPeerFromResolvedService, peerInfoFromResolvedService, if_neg (not_not_intro htype), he]
  rfl

theorem resolvedPeer_of_not_malformed {service : ResolvedService} {hasher : RandomState}
    (h : ¬ (ServiceEvent.serviceResolved service hasher).Malformed) :
    resolvedPeerFromResolvedService service hasher =
      .ok (ServiceEvent.serviceResolved service hasher).peer? := by
  unfold resolvedPeerFromResolvedService peerInfoFromResolvedService ServiceEvent.peer?
  dsimp only
  by_cases htype : service.tyDomain ≠ nativeMdnsServiceType
  · rw [if_pos htype, if_pos htype]
    rfl
  · rw [if_neg htype, if_neg htype]
    cases hinfo : peerInfoFromMdnsTxt hasher service.properties with
    | error e => exact absurd ⟨not_not.mp htype, e, hinfo⟩ h
    | ok info =>
      cases service.addresses.head? with
      | none => rfl
      | some address => rfl

/-- **The loop collects the peers of the well-formed advertisements** if there
are no others. -/
theorem recvResolvedFrom_eq_ok {events : List ServiceEvent} (h : ∀ event ∈ events, ¬ event.Malformed)
    (peers : List ResolvedNativePeer) :
    recvResolvedFrom events peers = .ok (peers ++ events.filterMap ServiceEvent.peer?) := by
  induction events generalizing peers with
  | nil => simp [recvResolvedFrom]
  | cons event events ih =>
    rw [List.forall_mem_cons] at h
    cases event with
    | other => exact ih h.2 peers
    | serviceResolved service hasher =>
      rw [recvResolvedFrom, resolvedPeer_of_not_malformed h.1, List.filterMap_cons]
      cases (ServiceEvent.serviceResolved service hasher).peer? with
      | none => exact ih h.2 peers
      | some peer =>
        refine (ih h.2 (peers ++ [peer])).trans ?_
        rw [List.append_assoc]
        rfl

/-- **One that is malformed makes it an error**, whatever else has arrived. -/
theorem recvResolvedFrom_eq_error {events : List ServiceEvent} (h : ∃ event ∈ events, event.Malformed)
    (peers : List ResolvedNativePeer) : ∃ e, recvResolvedFrom events peers = .error e := by
  induction events generalizing peers with
  | nil => simp at h
  | cons event events ih =>
    cases event with
    | other =>
      obtain ⟨event, hmem, hbad⟩ := h
      rcases List.mem_cons.mp hmem with rfl | hmem
      · exact hbad.elim
      · exact ih ⟨event, hmem, hbad⟩ peers
    | serviceResolved service hasher =>
      rw [recvResolvedFrom]
      by_cases hfirst : (ServiceEvent.serviceResolved service hasher).Malformed
      · obtain ⟨e, he⟩ := resolvedPeer_of_malformed hfirst
        rw [he]
        exact ⟨e, rfl⟩
      · obtain ⟨event, hmem, hbad⟩ := h
        have hrest : ∃ event ∈ events, event.Malformed := by
          rcases List.mem_cons.mp hmem with rfl | hmem
          · exact absurd hbad hfirst
          · exact ⟨event, hmem, hbad⟩
        rw [resolvedPeer_of_not_malformed hfirst]
        cases (ServiceEvent.serviceResolved service hasher).peer? with
        | none => exact ih hrest peers
        | some peer => exact ih hrest (peers ++ [peer])

/-! ### What is read is ASCII -/

theorem trim_of_mem_normalizedProperties {properties : Properties} {entry : String × String}
    (h : entry ∈ (normalizedProperties properties).rows) : trim entry.2 = entry.2 := by
  rcases Table.mem_foldl_replace h with hempty | ⟨e, -, rfl⟩
  · simp at hempty
  · exact trim_trim _

theorem trim_of_requiredProperty {properties : Properties} {key value : String}
    (h : requiredProperty (normalizedProperties properties) key = .ok value) : trim value = value := by
  unfold requiredProperty at h
  cases hfind : (normalizedProperties properties).find? key with
  | none => rw [hfind] at h; cases h
  | some entry =>
    rw [hfind] at h
    dsimp only at h
    split_ifs at h
    · cases h
    · cases h
      exact trim_of_mem_normalizedProperties (Table.find?_eq_some_iff.mp hfind).1

theorem isAscii_of_validateTxtValue {field value : String} (h : validateTxtValue field value = .ok ()) :
    isAscii (trim value) = true := by
  unfold validateTxtValue at h
  dsimp only at h
  split_ifs at h with hempty hascii hlong
  · cases h
  · cases h
  · cases h
  · simpa using hascii

/-- **The fingerprint of an advertisement is ASCII**, so parsing it does not
panic. -/
theorem fromStr_ne_panic_of_read {properties : Properties} {info : NativePeerInfo}
    (h : peerInfoFromTxtProperties properties = .ok info) :
    Fingerprint.fromStr info.fingerprint ≠ .error .panic := by
  have hread := readFrom_of_eq_ok h
  have hascii := isAscii_of_validateTxtValue hread.fingerprint_valid
  rw [trim_of_requiredProperty hread.fingerprint] at hascii
  refine Fingerprint.fromStr_ne_panic fun c hc => ?_
  simpa using List.all_eq_true.mp hascii c hc

/-! ### The list -/

section listing

variable [Primitives] [DebugText]

/-- An advertisement that passes validation and is not the local one's. -/
def ResolvedNativePeer.Valid (localFingerprint : String) (advertised : ResolvedNativePeer) : Prop :=
  advertised.info.quicPort ≠ 0 ∧
    Fingerprint.fromStr advertised.info.fingerprint = .ok (.fromPubkey advertised.info.pubkey) ∧
    normalizePeerRef advertised.info.fingerprint ≠ normalizePeerRef localFingerprint

/-- The peer that `discover` lists for an advertisement, if it lists one. -/
def listed? (localFingerprint : String) (resolved : ResolvedNativePeer) : Option NativeLanPeer :=
  match mapResolvedPeer resolved with
  | .ok (some peer) => if normalizePeerRef peer.fingerprint = localFingerprint then none else some peer
  | _ => none

theorem fingerprint_of_listed? {localFingerprint : String} {resolved : ResolvedNativePeer}
    {peer : NativeLanPeer} (h : listed? (normalizePeerRef localFingerprint) resolved = some peer) :
    peer.fingerprint = resolved.info.fingerprint ∧ resolved.Valid localFingerprint := by
  unfold listed? mapResolvedPeer validatePeerInfoFingerprint at h
  split_ifs at h with hport
  rcases hparse : Fingerprint.fromStr resolved.info.fingerprint with (e | _) | advertised
  · simp [hparse] at h
  · simp [hparse] at h
  · simp only [hparse] at h
    by_cases hsame : advertised = .fromPubkey resolved.info.pubkey
    · rw [if_neg (not_not_intro hsame)] at h
      dsimp only at h
      split_ifs at h with hlocal
      cases h
      exact ⟨rfl, hport, hsame ▸ hparse, hlocal⟩
    · rw [if_pos hsame] at h
      cases h

theorem exists_listed?_of_valid {localFingerprint : String} {resolved : ResolvedNativePeer}
    (h : resolved.Valid localFingerprint) :
    ∃ peer, listed? (normalizePeerRef localFingerprint) resolved = some peer := by
  obtain ⟨hport, hparse, hlocal⟩ := h
  unfold listed? mapResolvedPeer validatePeerInfoFingerprint
  simp [hport, hparse, hlocal]

/-- **The loop lists the peers of the advertisements**, a later one for an
earlier one with the same text. -/
theorem collectPeers_eq_ok (localFingerprint : String) {resolved : List ResolvedNativePeer}
    (h : ∀ r ∈ resolved, ∃ p, mapResolvedPeer r = .ok p) (peers : NativeLanPeers) :
    collectPeers localFingerprint resolved peers =
      .ok ((resolved.filterMap (listed? localFingerprint)).foldl (fun acc peer => acc.replace peer) peers) := by
  induction resolved generalizing peers with
  | nil => rfl
  | cons r resolved ih =>
    rw [List.forall_mem_cons] at h
    obtain ⟨⟨p, hp⟩, h⟩ := h
    rw [collectPeers, hp, List.filterMap_cons, listed?, hp]
    cases p with
    | none => exact ih h peers
    | some peer =>
      dsimp only
      split_ifs
      · exact ih h peers
      · exact ih h (peers.replace peer)

theorem collectPeers_eq_error (localFingerprint : String) {resolved : List ResolvedNativePeer}
    (h : ∃ r ∈ resolved, ∃ e, mapResolvedPeer r = .error e) (peers : NativeLanPeers) :
    ∃ e, collectPeers localFingerprint resolved peers = .error e := by
  induction resolved generalizing peers with
  | nil => simp at h
  | cons r resolved ih =>
    rw [collectPeers]
    cases hr : mapResolvedPeer r with
    | error e => exact ⟨e, rfl⟩
    | ok p =>
      have hrest : ∃ r ∈ resolved, ∃ e, mapResolvedPeer r = .error e := by
        obtain ⟨r', hmem, e, he⟩ := h
        rcases List.mem_cons.mp hmem with rfl | hmem
        · rw [hr] at he
          cases he
        · exact ⟨r', hmem, e, he⟩
      cases p with
      | none => exact ih hrest peers
      | some peer =>
        dsimp only
        split_ifs
        · exact ih hrest peers
        · exact ih hrest (peers.replace peer)

/-- **How `discover` ends** once the advertisements are there. -/
theorem ends_discover_iff {timeoutMs : ℕ} {localFingerprint : String} {resolved : List ResolvedNativePeer}
    {rest : Calls} {r : Except String (List NativeLanPeer)} :
    (discover timeoutMs localFingerprint).Ends
        (⟨.browse, .ok ()⟩ :: ⟨.recvResolvedAll timeoutMs, .ok resolved⟩ :: rest) r ↔
      ∃ closed more, rest = ⟨.shutdownBrowser, closed⟩ :: more ∧
        ((∃ e, collectPeers (normalizePeerRef localFingerprint) resolved .empty = .error e ∧ more = [] ∧
            r = .error "native LAN discovery task panicked") ∨
          ∃ found values, collectPeers (normalizePeerRef localFingerprint) resolved .empty = .ok found ∧
            more = [⟨.intoValues found, values⟩] ∧ r = .ok values.1) := by
  constructor
  · rintro ⟨browser, tail, hcalls, hends⟩
    cases hcalls
    obtain ⟨answer, tail, hcalls, hends⟩ := hends
    cases hcalls
    obtain ⟨closed, more, rfl, hends⟩ := hends
    refine ⟨closed, more, rfl, ?_⟩
    cases hcollect : collectPeers (normalizePeerRef localFingerprint) resolved .empty with
    | error e =>
      simp only [hcollect] at hends
      exact .inl ⟨e, rfl, hends.1, hends.2⟩
    | ok found =>
      simp only [hcollect] at hends
      obtain ⟨values, _, rfl, rfl, hr⟩ := hends
      exact .inr ⟨found, values, rfl, rfl, hr⟩
  · rintro ⟨closed, more, rfl, h⟩
    refine ⟨_, _, rfl, _, _, rfl, _, _, rfl, ?_⟩
    rcases h with ⟨e, hcollect, rfl, rfl⟩ | ⟨found, values, hcollect, rfl, rfl⟩
    · simp only [hcollect]
      exact ⟨rfl, rfl⟩
    · simp only [hcollect]
      exact ⟨_, _, rfl, rfl, rfl⟩

/-! ### Malformed advertisements -/

/-- Every call that gets its advertisements from these events lists every peer
in them that is valid and not local, and the browser collects exactly the
well-formed ones. -/
def Unhidden (events : List ServiceEvent) : Prop :=
  recvResolvedAll events = .ok (events.filterMap ServiceEvent.peer?) ∧
    ∀ timeoutMs localFingerprint (text : NativeError → String) rest r,
      (discover timeoutMs localFingerprint).Ends (⟨.browse, .ok ()⟩ ::
        ⟨.recvResolvedAll timeoutMs, (recvResolvedAll events).mapError text⟩ :: rest) r →
      ∃ peers, r = .ok peers ∧ ∀ resolved ∈ events.filterMap ServiceEvent.peer?,
        resolved.Valid localFingerprint → ∃ peer ∈ peers, peer.fingerprint = resolved.info.fingerprint

/-- An advertisement whose fingerprint is parsed without a panic is mapped
without one. -/
theorem mapResolvedPeer_eq_error_iff {resolved : ResolvedNativePeer} :
    (∃ e, mapResolvedPeer resolved = .error e) ↔ resolved.info.quicPort ≠ 0 ∧
      Fingerprint.fromStr resolved.info.fingerprint = .error .panic := by
  unfold mapResolvedPeer validatePeerInfoFingerprint
  by_cases hport : resolved.info.quicPort = 0
  · simp [hport]
  · rw [if_neg hport]
    rcases hparse : Fingerprint.fromStr resolved.info.fingerprint with (e | _) | advertised
    · simp
    · simp [hport]
    · dsimp only
      split_ifs <;> simp

theorem exists_mapResolvedPeer_of_peer? {event : ServiceEvent} {resolved : ResolvedNativePeer}
    (h : event.peer? = some resolved) : ∃ p, mapResolvedPeer resolved = .ok p := by
  cases hmap : mapResolvedPeer resolved with
  | ok p => exact ⟨p, rfl⟩
  | error e =>
    have hpanic := (mapResolvedPeer_eq_error_iff.mp ⟨e, hmap⟩).2
    cases event with
    | other => cases h
    | serviceResolved service hasher =>
      unfold ServiceEvent.peer? at h
      dsimp only at h
      split_ifs at h
      split at h
      · rename_i info address hinfo haddress
        cases h
        exact absurd hpanic (fromStr_ne_panic_of_read hinfo)
      · cases h

theorem exists_listed {localFingerprint : String} {resolved : List ResolvedNativePeer}
    {found : NativeLanPeers} (hmap : ∀ r ∈ resolved, ∃ p, mapResolvedPeer r = .ok p)
    (hcollect : collectPeers (normalizePeerRef localFingerprint) resolved .empty = .ok found)
    {advertised : ResolvedNativePeer} (hmem : advertised ∈ resolved)
    (hvalid : advertised.Valid localFingerprint) :
    ∃ peer ∈ found.rows, peer.fingerprint = advertised.info.fingerprint := by
  obtain ⟨peer, hpeer⟩ := exists_listed?_of_valid hvalid
  rw [collectPeers_eq_ok _ hmap] at hcollect
  cases hcollect
  exact Table.exists_mem_foldl_replace
    (.inr ⟨peer, List.mem_filterMap.mpr ⟨advertised, hmem, hpeer⟩, (fingerprint_of_listed? hpeer).1⟩)

theorem exists_valid_of_mem {localFingerprint : String} {resolved : List ResolvedNativePeer}
    {found : NativeLanPeers} (hmap : ∀ r ∈ resolved, ∃ p, mapResolvedPeer r = .ok p)
    (hcollect : collectPeers (normalizePeerRef localFingerprint) resolved .empty = .ok found)
    {peer : NativeLanPeer} (hpeer : peer ∈ found.rows) :
    ∃ advertised ∈ resolved, advertised.Valid localFingerprint ∧
      peer.fingerprint = advertised.info.fingerprint := by
  rw [collectPeers_eq_ok _ hmap] at hcollect
  cases hcollect
  rcases Table.mem_foldl_replace hpeer with hempty | ⟨_, hmem, rfl⟩
  · simp at hempty
  · obtain ⟨advertised, hadvertised, hlisted⟩ := List.mem_filterMap.mp hmem
    obtain ⟨hsame, hvalid⟩ := fingerprint_of_listed? hlisted
    exact ⟨advertised, hadvertised, hvalid, hsame⟩

/-- **Malformed advertisements hide peers**: exactly if there are none,
everything is listed. -/
theorem unhidden_iff (events : List ServiceEvent) :
    Unhidden events ↔ ∀ event ∈ events, ¬ event.Malformed := by
  constructor
  · intro h event hevent hbad
    obtain ⟨e, he⟩ := recvResolvedFrom_eq_error ⟨event, hevent, hbad⟩ []
    rw [Unhidden, recvResolvedAll, he] at h
    cases h.1
  · intro h
    have hrecv : recvResolvedAll events = .ok (events.filterMap ServiceEvent.peer?) :=
      recvResolvedFrom_eq_ok h []
    refine ⟨hrecv, fun timeoutMs localFingerprint text rest r hends => ?_⟩
    have hmap : ∀ r ∈ events.filterMap ServiceEvent.peer?, ∃ p, mapResolvedPeer r = .ok p := by
      intro r hr
      obtain ⟨event, -, hevent⟩ := List.mem_filterMap.mp hr
      exact exists_mapResolvedPeer_of_peer? hevent
    rw [hrecv] at hends
    obtain ⟨_, _, -, ⟨e, hcollect, -⟩ | ⟨found, values, hcollect, -, rfl⟩⟩ := ends_discover_iff.mp hends
    · rw [collectPeers_eq_ok _ hmap] at hcollect
      cases hcollect
    · refine ⟨_, rfl, fun resolved hresolved hvalid => ?_⟩
      obtain ⟨peer, hpeer, hsame⟩ := exists_listed hmap hcollect hresolved hvalid
      exact ⟨peer, values.2.mem_iff.mpr hpeer, hsame⟩

/-- A native service with these properties, at one address. -/
def ServiceEvent.sample (properties : List (String × String)) : ServiceEvent :=
  .serviceResolved ⟨nativeMdnsServiceType, properties, ["192.0.2.7"]⟩ .sample

omit [Primitives] [DebugText] in
/-- A service without properties hides the peer that was resolved before it. -/
theorem malformed_hides_peers :
    recvResolvedAll [.sample (txtEntries advertisedPeer)] = .ok [⟨trimmed advertisedPeer, "192.0.2.7"⟩] ∧
      recvResolvedAll [.sample (txtEntries advertisedPeer), .sample []] =
        .error (.protocol "alias is required") := by
  decide +kernel

/-! ### One identity, several spellings -/

/-- Every call that gets these advertisements lists no local peer, one for every
other identity that is valid, and at most one for every fingerprint, however it
is spelled. -/
def ListsOnce (localFingerprint : String) (resolved : List ResolvedNativePeer) : Prop :=
  ∀ timeoutMs rest r, (discover timeoutMs localFingerprint).Ends
      (⟨.browse, .ok ()⟩ :: ⟨.recvResolvedAll timeoutMs, .ok resolved⟩ :: rest) r →
    ∃ peers, r = .ok peers ∧
      (∀ peer ∈ peers, normalizePeerRef peer.fingerprint ≠ normalizePeerRef localFingerprint) ∧
      (∀ advertised ∈ resolved, advertised.Valid localFingerprint → ∃ peer ∈ peers,
        Fingerprint.fromStr peer.fingerprint = Fingerprint.fromStr advertised.info.fingerprint) ∧
      (peers.map fun peer => Fingerprint.fromStr peer.fingerprint).Nodup

/-- No advertisement makes the parser of fingerprints panic, and two that are
valid spell one fingerprint in one way. -/
def SpelledOnce (localFingerprint : String) (resolved : List ResolvedNativePeer) : Prop :=
  (∀ advertised ∈ resolved, advertised.info.quicPort ≠ 0 →
    Fingerprint.fromStr advertised.info.fingerprint ≠ .error .panic) ∧
  ∀ advertised ∈ resolved, ∀ other ∈ resolved, advertised.Valid localFingerprint →
    other.Valid localFingerprint →
    Fingerprint.fromStr advertised.info.fingerprint = Fingerprint.fromStr other.info.fingerprint →
    advertised.info.fingerprint = other.info.fingerprint

theorem exists_map_of_no_panic {resolved : List ResolvedNativePeer}
    (h : ∀ advertised ∈ resolved, advertised.info.quicPort ≠ 0 →
      Fingerprint.fromStr advertised.info.fingerprint ≠ .error .panic) :
    ∀ r ∈ resolved, ∃ p, mapResolvedPeer r = .ok p := by
  intro r hr
  cases hmap : mapResolvedPeer r with
  | ok p => exact ⟨p, rfl⟩
  | error e =>
    obtain ⟨hport, hpanic⟩ := mapResolvedPeer_eq_error_iff.mp ⟨e, hmap⟩
    exact absurd hpanic (h r hr hport)

theorem nodup_of_spelledOnce {localFingerprint : String} {resolved : List ResolvedNativePeer}
    (h : SpelledOnce localFingerprint resolved) {found : NativeLanPeers}
    (hcollect : collectPeers (normalizePeerRef localFingerprint) resolved .empty = .ok found) :
    (found.rows.map fun peer => Fingerprint.fromStr peer.fingerprint).Nodup := by
  have hmap := exists_map_of_no_panic h.1
  refine List.Nodup.map_on (fun peer hpeer other hother hparsed => ?_) (List.Nodup.of_map _ found.nodup)
  obtain ⟨advertised, hmem, hvalid, hsame⟩ := exists_valid_of_mem hmap hcollect hpeer
  obtain ⟨advertised', hmem', hvalid', hsame'⟩ := exists_valid_of_mem hmap hcollect hother
  rw [hsame, hsame'] at hparsed
  refine found.eq_of_key hpeer hother ?_
  rw [hsame, hsame']
  exact h.2 advertised hmem advertised' hmem' hvalid hvalid' hparsed

/-- **Discovery lists an identity as often as its fingerprint is spelled.** -/
theorem listsOnce_iff (localFingerprint : String) (resolved : List ResolvedNativePeer) :
    ListsOnce localFingerprint resolved ↔ SpelledOnce localFingerprint resolved := by
  constructor
  · intro h
    have hpanic : ∀ advertised ∈ resolved, advertised.info.quicPort ≠ 0 →
        Fingerprint.fromStr advertised.info.fingerprint ≠ .error .panic := by
      intro advertised hmem hport hpanic
      obtain ⟨e, he⟩ := collectPeers_eq_error (normalizePeerRef localFingerprint)
        ⟨advertised, hmem, mapResolvedPeer_eq_error_iff.mpr ⟨hport, hpanic⟩⟩ .empty
      obtain ⟨_, hr, -⟩ := h 0 _ _ (ends_discover_iff.mpr ⟨.ok (), [], rfl, .inl ⟨e, he, rfl, rfl⟩⟩)
      cases hr
    refine ⟨hpanic, fun advertised hmem other hother hvalid hvalid' hparsed => ?_⟩
    have hmap := exists_map_of_no_panic hpanic
    have hcollect := collectPeers_eq_ok (normalizePeerRef localFingerprint) hmap .empty
    obtain ⟨peers, hr, -, -, hnodup⟩ := h 0 _ _ (ends_discover_iff.mpr
      ⟨.ok (), _, rfl, .inr ⟨_, ⟨_, .refl _⟩, hcollect, rfl, rfl⟩⟩)
    cases hr
    obtain ⟨peer, hpeer, hsame⟩ := exists_listed hmap hcollect hmem hvalid
    obtain ⟨peer', hpeer', hsame'⟩ := exists_listed hmap hcollect hother hvalid'
    have heq : peer = peer' :=
      List.inj_on_of_nodup_map hnodup hpeer hpeer' (by rw [hsame, hsame', hparsed])
    rw [← hsame, ← hsame', heq]
  · intro h timeoutMs rest r hends
    have hmap := exists_map_of_no_panic h.1
    obtain ⟨_, _, -, ⟨e, hcollect, -⟩ | ⟨found, values, hcollect, -, rfl⟩⟩ := ends_discover_iff.mp hends
    · rw [collectPeers_eq_ok _ hmap] at hcollect
      cases hcollect
    · refine ⟨_, rfl, fun peer hpeer => ?_, fun advertised hmem hvalid => ?_, ?_⟩
      · obtain ⟨advertised, -, hvalid, hsame⟩ :=
          exists_valid_of_mem hmap hcollect (values.2.mem_iff.mp hpeer)
        rw [hsame]
        exact hvalid.2.2
      · obtain ⟨peer, hpeer, hsame⟩ := exists_listed hmap hcollect hmem hvalid
        exact ⟨peer, values.2.mem_iff.mpr hpeer, by rw [hsame]⟩
      · exact (values.2.map _).nodup_iff.mpr (nodup_of_spelledOnce h hcollect)

end listing

/-- A peer whose fingerprint is spelled like this. -/
def spelled (fingerprint : String) : ResolvedNativePeer :=
  ⟨⟨"nas", fingerprint, .pad [1], 53400, none, [extResumeV1]⟩, "192.0.2.7"⟩

/-- One key is listed twice if one of its advertisements leaves out the hyphens. -/
theorem listed_twice : ∃ peers rest, (@discover .sample .sample 0 "").Ends (⟨.browse, .ok ()⟩ ::
      ⟨.recvResolvedAll 0, .ok [spelled "0100-0000-0000-0000", spelled "0100000000000000"]⟩ :: rest)
      (.ok peers) ∧
    peers.map NativeLanPeer.pubkey = [.pad [1], .pad [1]] := by
  have hmap : ∀ r ∈ [spelled "0100-0000-0000-0000", spelled "0100000000000000"],
      ∃ p, @mapResolvedPeer .sample .sample r = .ok p :=
    @exists_map_of_no_panic .sample .sample _ (by decide +kernel)
  have hcollect := @collectPeers_eq_ok .sample .sample (normalizePeerRef "") _ hmap .empty
  exact ⟨_, _, (@ends_discover_iff .sample .sample ..).mpr
    ⟨.ok (), _, rfl, .inr ⟨_, ⟨_, .refl _⟩, hcollect, rfl, rfl⟩⟩, by decide +kernel⟩

end NightBridge.Api
