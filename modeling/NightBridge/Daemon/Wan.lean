/-
# Registering with a rendezvous server

`crates/daemon/src/wan.rs`: a daemon gathers its candidates and registers them,
and another one looks them up.  On the way a candidate is a text,
`candidate_to_rendezvous` and `candidate_from_rendezvous`, which the server
parses as well to validate it.

The server wants a port other than zero, and a STUN answer may say zero.  One
such answer is enough for the server to refuse the request as a whole
(`port_zero_refused`); exactly without one, what is looked up is what was
gathered (`gathered_survive_rendezvous`).
-/

import NightBridge.Native.Candidates
import NightBridge.Rendezvous.Visibility

namespace NightBridge.Daemon

open Data Effect Native Rendezvous

/-- `SocketAddr`'s `FromStr` and `Display`.  The text of an IPv4 address is read
back as that address. -/
class SocketText extends SocketAddrs where
  display : SocketAddr → String
  parse_display : ∀ ip port, parse (display (.v4 ip port)) = some (.v4 ip port)

/-- The texts of IPv4 addresses, to run the model with. -/
@[reducible] def SocketText.ipv4 : SocketText where
  parse := parseV4
  display
    | .v4 ip port => displayV4 ip port
    | .v6 .. => ""
  parse_display := parseV4_displayV4

def registrationTtlSeconds (registerIntervalSeconds : ℕ) : ℕ :=
  max (min (registerIntervalSeconds * 3) (2 ^ 64 - 1)) 1

theorem one_le_registrationTtlSeconds (registerIntervalSeconds : ℕ) :
    1 ≤ registrationTtlSeconds registerIntervalSeconds := le_max_right _ _

section lookup

variable [SocketAddrs]

/-- `candidate_from_rendezvous`, with the text of its error. -/
def candidateFromRendezvous (candidate : Candidate) : Except String NativeCandidate :=
  match SocketAddrs.parse candidate.address with
  | none => .error ("invalid rendezvous candidate address " ++ candidate.address)
  | some address => .ok
    { kind := match candidate.kind with
        | .local => .local
        | .serverReflexive => .serverReflexive
      address
      priority := candidate.priority }

/-- `lookup_peer_candidates`, of the answer of the server. -/
def lookupPeerCandidates (response : LookupResponse) : Except String (List NativeCandidate) :=
  match response.peer with
  | none => .error "WAN peer is not registered with rendezvous"
  | some peer => peer.candidates.mapM candidateFromRendezvous

end lookup

section wan

variable [SocketText]

def candidateToRendezvous (candidate : NativeCandidate) : Candidate where
  kind := match candidate.kind with
    | .local => .local
    | .serverReflexive => .serverReflexive
  address := SocketText.display candidate.address
  priority := candidate.priority

/-- `build_register_request`, with the alias and the key of the daemon. -/
def buildRegisterRequest (aliasName : String) (pubkey : Bytes32) (candidates : List NativeCandidate)
    (ttlSeconds : ℕ) : RegisterRequest where
  aliasName
  pubkey
  candidates := candidates.map candidateToRendezvous
  ttlSeconds

/-! ### To the server and back -/

/-- A candidate with an IPv4 address, as all that are gathered. -/
def IsV4 (candidate : NativeCandidate) : Prop := ∃ ip port, candidate.address = .v4 ip port

variable {candidate : NativeCandidate} {candidates : List NativeCandidate}

theorem candidateFromRendezvous_toRendezvous (h : IsV4 candidate) :
    candidateFromRendezvous (candidateToRendezvous candidate) = .ok candidate := by
  obtain ⟨kind, address, priority⟩ := candidate
  obtain ⟨ip, port, rfl⟩ := h
  cases kind <;> simp [candidateFromRendezvous, candidateToRendezvous, SocketText.parse_display]

theorem validate_candidateToRendezvous (h : IsV4 candidate) :
    (candidateToRendezvous candidate).validate = .ok () ↔ candidate.address.port ≠ 0 := by
  obtain ⟨ip, port, haddress⟩ := h
  have hparsed : SocketAddrs.parse (candidateToRendezvous candidate).address = some (.v4 ip port) := by
    simp [candidateToRendezvous, haddress, SocketText.parse_display]
  have hzero : port.toNat = 0 ↔ port = 0 := UInt16.toNat_inj (b := 0)
  rw [Candidate.validate, hparsed, haddress, Option.map_some, SocketAddr.port, ne_eq, ← hzero]
  cases port.toNat with
  | zero => simp
  | succ n => simp

theorem mapM_fromRendezvous_map_toRendezvous (h : ∀ candidate ∈ candidates, IsV4 candidate) :
    (candidates.map candidateToRendezvous).mapM candidateFromRendezvous = .ok candidates := by
  induction candidates with
  | nil => rfl
  | cons candidate candidates ih =>
    rw [List.forall_mem_cons] at h
    rw [List.map_cons, List.mapM_cons, candidateFromRendezvous_toRendezvous h.1, ih h.2]
    rfl

theorem forM_validate_map_toRendezvous (h : ∀ candidate ∈ candidates, IsV4 candidate) :
    (candidates.map candidateToRendezvous).forM Candidate.validate = .ok () ↔
      ∀ candidate ∈ candidates, candidate.address.port ≠ 0 := by
  induction candidates with
  | nil => exact iff_of_true rfl (by simp)
  | cons candidate candidates ih =>
    rw [List.forall_mem_cons] at h
    rw [List.map_cons, List.forM, List.forall_mem_cons, ← ih h.2, ← validate_candidateToRendezvous h.1]
    cases (candidateToRendezvous candidate).validate with
    | error e => exact iff_of_false (fun h => by cases h) fun h => by cases h.1
    | ok _ => exact (and_iff_right rfl).symm

theorem validate_buildRegisterRequest {aliasName : String} (halias : isBlank aliasName = false)
    (pubkey : Bytes32) (hne : candidates ≠ []) (h : ∀ candidate ∈ candidates, IsV4 candidate)
    {ttlSeconds : ℕ} (httl : 1 ≤ ttlSeconds) :
    (buildRegisterRequest aliasName pubkey candidates ttlSeconds).validate = .ok () ↔
      ∀ candidate ∈ candidates, candidate.address.port ≠ 0 := by
  have hmap : candidates.map candidateToRendezvous ≠ [] := by simpa using hne
  have httl' : ttlSeconds ≠ 0 := by omega
  have hnonblank : requireNonblank "alias" aliasName = .ok () := if_neg (by simp [halias])
  rw [RegisterRequest.validate, buildRegisterRequest, ← forM_validate_map_toRendezvous h]
  simp only [hnonblank, if_neg hmap, if_neg httl']
  rfl

/-- **What is gathered survives the rendezvous.**  With a port other than zero,
an alias that is not blank and at least a second: the request is valid exactly
if no accepted STUN answer says port zero.  Then a registry takes it (unless its
end is beyond every `Instant`), and until it runs out a lookup gives the
gathered candidates back, in their order, whatever happens in between but
another registration of the key. -/
theorem gathered_survive_rendezvous (localAddr : Option SocketAddr) {nativePort : UInt16}
    (hport : nativePort ≠ 0) (attempts : List StunAttempt)
    {aliasName : String} (halias : isBlank aliasName = false) (pubkey : Bytes32) {ttlSeconds : ℕ}
    (httl : 1 ≤ ttlSeconds) : ∃ candidates,
    gatherCandidates localAddr nativePort attempts = some (.ok candidates) ∧
      let request := buildRegisterRequest aliasName pubkey candidates ttlSeconds
      (request.validate = .ok () ↔ ∀ attempt ∈ attempts, ∀ address,
        discoverServerReflexiveCandidate nativePort attempt = some (.ok address) → address.port ≠ 0) ∧
      (request.validate = .ok () → ∀ (registry : Registry) (now expiresAt : ℕ),
        checkedAdd now (registry.cappedTtl ttlSeconds) = some expiresAt →
        (registry.register now request).1.isOk ∧
        ∀ (calls : List TimedCall) (now' : ℕ), now ≤ now' → now' < expiresAt →
          (∀ c ∈ calls, c.1 ≤ now') →
          (∀ e ∈ answers Registry.handle (registry.register now request).2 calls,
            registered pubkey e = none) →
          ∀ requester, ∃ response,
            ((after Registry.handle (registry.register now request).2 calls).lookupRequest now'
              ⟨requester, pubkey⟩).1 = .ok response ∧
            lookupPeerCandidates response = .ok candidates) := by
  obtain ⟨candidates, hgathered, -, -, hmem⟩ := gatherCandidates_spec localAddr hport attempts
  have hne : candidates ≠ [] := List.ne_nil_of_mem ((hmem _).mpr (.inl rfl))
  have hv4 : ∀ candidate ∈ candidates, IsV4 candidate := by
    intro candidate hcandidate
    rcases (hmem candidate).mp hcandidate with rfl | ⟨ip, -, rfl⟩ | ⟨address, ⟨attempt, -, hfound⟩, rfl⟩
    · exact ⟨_, _, rfl⟩
    · exact ⟨_, _, rfl⟩
    · rcases discoverServerReflexiveCandidate_yieldsV4 nativePort attempt with ⟨e, h⟩ | ⟨ip, port, h⟩
      · cases hfound.symm.trans h
      · exact ⟨ip, port, Except.ok.inj (Option.some.inj (hfound.symm.trans h))⟩
  refine ⟨candidates, hgathered, ?_, fun hvalid registry now expiresAt hexpires => ⟨?_, ?_⟩⟩
  · rw [validate_buildRegisterRequest halias pubkey hne hv4 httl]
    constructor
    · intro h attempt hattempt address hfound
      exact h ⟨.serverReflexive, address, 80⟩
        ((hmem _).mpr (.inr (.inr ⟨address, ⟨attempt, hattempt, hfound⟩, rfl⟩)))
    · intro h candidate hcandidate
      rcases (hmem candidate).mp hcandidate with rfl | ⟨ip, -, rfl⟩ |
        ⟨address, ⟨attempt, hattempt, hfound⟩, rfl⟩
      · exact hport
      · exact hport
      · exact h attempt hattempt address hfound
  · exact (Registry.register_of_valid hvalid hexpires).1
  · intro calls now' hle hlt horder hothers requester
    have hfound := registry.lookup_of_register hvalid hexpires hle hlt horder hothers
    refine ⟨⟨some ⟨aliasName, pubkey, candidates.map candidateToRendezvous,
      (now' - now) / nanosPerSec⟩⟩, ?_, mapM_fromRendezvous_map_toRendezvous hv4⟩
    rw [Registry.lookupRequest_eq]
    exact congrArg (fun peer => Except.ok (LookupResponse.mk peer)) hfound

end wan

/-- A daemon that a STUN server sees as `203.0.113.10:53400` is found a second
later. -/
theorem gathered_survive_rendezvous_reflexive :
    letI := SocketText.ipv4
    ∃ candidates, gatherCandidates none 53400 [.sample ⟨203, 0, 113, 10⟩ 53400] = some (.ok candidates) ∧
      ∃ response, (((Registry.new (120 * nanosPerSec)).register 0
        (buildRegisterRequest "nas" (.pad [1]) candidates
          (registrationTtlSeconds 60))).2.lookupRequest nanosPerSec ⟨.pad [2], .pad [1]⟩).1 =
            .ok response ∧
        lookupPeerCandidates response = .ok candidates := by
  let _ := SocketText.ipv4
  have hfound : discoverServerReflexiveCandidate 53400 (.sample ⟨203, 0, 113, 10⟩ 53400) =
      some (.ok (.v4 ⟨203, 0, 113, 10⟩ 53400)) := by decide +kernel
  have hmapped : ∀ attempt ∈ [StunAttempt.sample ⟨203, 0, 113, 10⟩ 53400], ∀ address,
      discoverServerReflexiveCandidate 53400 attempt = some (.ok address) → address.port ≠ 0 := by
    intro attempt hattempt address haddress
    rw [List.mem_singleton.mp hattempt, hfound] at haddress
    cases haddress
    decide
  obtain ⟨candidates, hgathered, hvalid, hregistered⟩ := gathered_survive_rendezvous none
    (show (53400 : UInt16) ≠ 0 by decide) [.sample ⟨203, 0, 113, 10⟩ 53400]
    (show isBlank "nas" = false by decide) (.pad [1]) (one_le_registrationTtlSeconds 60)
  have hexpires : checkedAdd 0 ((Registry.new (120 * nanosPerSec)).cappedTtl
    (registrationTtlSeconds 60)) = some (120 * nanosPerSec) := by decide
  exact ⟨candidates, hgathered, (hregistered (hvalid.mpr hmapped) _ 0 _ hexpires).2 []
    nanosPerSec (by decide)
    (by decide) (by simp) (by simp [answers, traced]) (.pad [2])⟩

/-- **A STUN answer may spoil the registration**: one that says port zero is
accepted and gathered, and the server refuses the request. -/
theorem port_zero_refused :
    letI := SocketText.ipv4
    gatherCandidates none 53400 [.sample ⟨203, 0, 113, 10⟩ 0] = some (.ok
      [⟨.local, .v4 .localhost 53400, 100⟩, ⟨.serverReflexive, .v4 ⟨203, 0, 113, 10⟩ 0, 80⟩]) ∧
    (buildRegisterRequest "nas" (.pad [1])
      [⟨.local, .v4 .localhost 53400, 100⟩, ⟨.serverReflexive, .v4 ⟨203, 0, 113, 10⟩ 0, 80⟩]
        180).validate = .error .invalidCandidatePort := by
  decide +kernel

end NightBridge.Daemon
