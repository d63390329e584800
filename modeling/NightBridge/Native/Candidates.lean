/-
# Candidates

`crates/protocol-native-v1/src/candidates.rs`: the addresses under which a
listener can perhaps be reached are the loopback address, the address of the
interface that leads out, and what STUN servers say.  They are gathered, freed
of duplicates and sorted, by a key that says which candidate it is.

The interface is found by connecting a UDP socket and asking for its address, so
that address is an argument here, `none` if a step fails; and so is what the
operating system answers for each server.  A server that gives no address is
left out.
-/

import NightBridge.Native.Stun
import Mathlib.Data.List.Lex
import Mathlib.Data.List.Sort

namespace NightBridge.Native

open Data

inductive CandidateKind
  | local
  | serverReflexive
  deriving DecidableEq, Repr

structure NativeCandidate where
  kind : CandidateKind
  address : SocketAddr
  priority : UInt32
  deriving DecidableEq, Repr

/-- The loop of `dedupe_candidates`. -/
def dedupeFrom (seen : List (CandidateKind × SocketAddr)) : List NativeCandidate → List NativeCandidate
  | [] => []
  | candidate :: candidates =>
    if (candidate.kind, candidate.address) ∈ seen then dedupeFrom seen candidates
    else candidate :: dedupeFrom ((candidate.kind, candidate.address) :: seen) candidates

def dedupeCandidates (candidates : List NativeCandidate) : List NativeCandidate :=
  dedupeFrom [] candidates

def candidateKindRank : CandidateKind → ℕ
  | .local => 0
  | .serverReflexive => 1

/-- The key candidates are sorted by, compared lexicographically; the order of
the priorities is turned around. -/
def NativeCandidate.key (candidate : NativeCandidate) : List ℕ :=
  (UInt32.size - 1 - candidate.priority.toNat) :: candidateKindRank candidate.kind ::
    candidate.address.key

/-- `sort_candidates`; the sort is stable. -/
def sortCandidates (candidates : List NativeCandidate) : List NativeCandidate :=
  candidates.insertionSort fun c c' => c.key ≤ c'.key

/-- `primary_ipv4_address`, of the address the socket has got. -/
def primaryIpv4Address : Option SocketAddr → Option Ipv4Addr
  | some (.v4 ip _) => if !ip.isLoopback && !ip.isUnspecified then some ip else none
  | _ => none

def localCandidates (localAddr : Option SocketAddr) (nativePort : UInt16) :
    Except NativeError (List NativeCandidate) :=
  if nativePort = 0 then .error (.transport "native candidate port must be greater than zero")
  else
    let candidates : List NativeCandidate := [⟨.local, .v4 .localhost nativePort, 100⟩]
    let candidates := match primaryIpv4Address localAddr with
      | some address => candidates ++ [⟨.local, .v4 address nativePort, 90⟩]
      | none => candidates
    .ok (sortCandidates (dedupeCandidates candidates))

/-- The body of the loop over the STUN servers. -/
def pushReflexive (nativePort : UInt16) (candidates : List NativeCandidate) (attempt : StunAttempt) :
    Option (List NativeCandidate) := do
  match ← discoverServerReflexiveCandidate nativePort attempt with
  | .ok address => return candidates ++ [⟨.serverReflexive, address, 80⟩]
  | .error _ => return candidates

/-- `gather_candidates`, or a panic. -/
def gatherCandidates (localAddr : Option SocketAddr) (nativePort : UInt16)
    (attempts : List StunAttempt) :
    Option (Except NativeError (List NativeCandidate)) :=
  match localCandidates localAddr nativePort with
  | .error e => some (.error e)
  | .ok candidates => do
    let candidates ← attempts.foldlM (pushReflexive nativePort) candidates
    return .ok (sortCandidates (dedupeCandidates candidates))

/-! ### What is gathered -/

/-- The candidate a server makes known. -/
def reflexive (nativePort : UInt16) (attempt : StunAttempt) : Option NativeCandidate :=
  match discoverServerReflexiveCandidate nativePort attempt with
  | some (.ok address) => some ⟨.serverReflexive, address, 80⟩
  | _ => none

variable {nativePort : UInt16} {candidate : NativeCandidate} {candidates : List NativeCandidate}

theorem dedupeFrom_sublist (seen : List (CandidateKind × SocketAddr))
    (candidates : List NativeCandidate) :
    (dedupeFrom seen candidates).Sublist candidates := by
  induction candidates generalizing seen with
  | nil => exact .slnil
  | cons candidate candidates ih =>
    rw [dedupeFrom]
    split_ifs
    · exact (ih _).cons _
    · exact (ih _).cons_cons _

theorem mem_of_mem_dedupeCandidates (h : candidate ∈ dedupeCandidates candidates) :
    candidate ∈ candidates :=
  (dedupeFrom_sublist [] candidates).subset h

theorem sortCandidates_perm (candidates : List NativeCandidate) :
    (sortCandidates candidates).Perm candidates :=
  List.perm_insertionSort _ _

@[simp] theorem mem_sortCandidates : candidate ∈ sortCandidates candidates ↔ candidate ∈ candidates :=
  (sortCandidates_perm candidates).mem_iff

theorem pushReflexive_eq (candidates : List NativeCandidate) (attempt : StunAttempt) :
    pushReflexive nativePort candidates attempt =
      some (candidates ++ (reflexive nativePort attempt).toList) := by
  rcases discoverServerReflexiveCandidate_yieldsV4 nativePort attempt with ⟨e, h⟩ | ⟨ip, port, h⟩ <;>
    simp [pushReflexive, reflexive, h]

/-- **The loop over the servers** adds what each of them makes known. -/
theorem foldlM_pushReflexive (attempts : List StunAttempt) (candidates : List NativeCandidate) :
    attempts.foldlM (pushReflexive nativePort) candidates =
      some (candidates ++ attempts.filterMap (reflexive nativePort)) := by
  induction attempts generalizing candidates with
  | nil => simp
  | cons attempt attempts ih =>
    rw [List.foldlM_cons, pushReflexive_eq, Option.bind_eq_bind, Option.bind_some, ih]
    cases h : reflexive nativePort attempt <;> simp [h]

/-! ### The order in which the servers answer -/

/-- What duplicates are told by. -/
def NativeCandidate.endpoint (candidate : NativeCandidate) : CandidateKind × SocketAddr :=
  (candidate.kind, candidate.address)

theorem nodup_dedupeFrom (seen : List (CandidateKind × SocketAddr))
    (candidates : List NativeCandidate) :
    (∀ candidate ∈ dedupeFrom seen candidates, candidate.endpoint ∉ seen) ∧
      ((dedupeFrom seen candidates).map NativeCandidate.endpoint).Nodup := by
  induction candidates generalizing seen with
  | nil => exact ⟨fun _ h => absurd h List.not_mem_nil, List.nodup_nil⟩
  | cons candidate candidates ih =>
    rw [dedupeFrom]
    split_ifs with hseen
    · exact ih seen
    · obtain ⟨hfresh, hnodup⟩ := ih ((candidate.kind, candidate.address) :: seen)
      refine ⟨List.forall_mem_cons.mpr ⟨hseen, fun c hc => ?_⟩, ?_⟩
      · exact fun hin => hfresh c hc (List.mem_cons_of_mem _ hin)
      · rw [List.map_cons, List.nodup_cons]
        refine ⟨fun hin => ?_, hnodup⟩
        obtain ⟨c, hc, hsame⟩ := List.mem_map.mp hin
        exact hfresh c hc (hsame ▸ List.mem_cons_self)

theorem exists_mem_dedupeFrom {seen : List (CandidateKind × SocketAddr)}
    (hmem : candidate ∈ candidates) (hseen : candidate.endpoint ∉ seen) :
    ∃ kept ∈ dedupeFrom seen candidates, kept.endpoint = candidate.endpoint := by
  induction candidates generalizing seen with
  | nil => cases hmem
  | cons first candidates ih =>
    rw [dedupeFrom]
    split_ifs with hfirst
    · rcases List.mem_cons.mp hmem with rfl | hmem
      · exact absurd hfirst hseen
      · exact ih hmem hseen
    · by_cases hsame : candidate.endpoint = first.endpoint
      · exact ⟨first, List.mem_cons_self, hsame.symm⟩
      · have hmem := (List.mem_cons.mp hmem).resolve_left fun h => hsame (congrArg _ h)
        obtain ⟨kept, hkept, hendpoint⟩ := ih hmem
          (List.not_mem_cons_of_ne_of_not_mem hsame hseen)
        exact ⟨kept, List.mem_cons_of_mem _ hkept, hendpoint⟩

/-- **Only duplicates are dropped**, where an endpoint says which candidate it
is. -/
theorem mem_dedupeCandidates_iff (hinj : ∀ c ∈ candidates, ∀ c' ∈ candidates,
      c.endpoint = c'.endpoint → c = c') :
    candidate ∈ dedupeCandidates candidates ↔ candidate ∈ candidates := by
  refine ⟨mem_of_mem_dedupeCandidates, fun hmem => ?_⟩
  obtain ⟨kept, hkept, hendpoint⟩ := exists_mem_dedupeFrom hmem List.not_mem_nil
  rwa [← hinj kept (mem_of_mem_dedupeCandidates hkept) candidate hmem hendpoint]

/-- **The key says which candidate it is.** -/
theorem NativeCandidate.key_injective : Function.Injective NativeCandidate.key := by
  rintro ⟨kind, address, priority⟩ ⟨kind', address', priority'⟩ h
  simp only [NativeCandidate.key, List.cons.injEq] at h
  obtain ⟨hpriority, hkind, haddress⟩ := h
  obtain rfl : kind = kind' := by
    cases kind <;> cases kind' <;> first | rfl | cases hkind
  obtain rfl := SocketAddr.key_injective haddress
  obtain rfl : priority = priority' := by
    have h1 := priority.toNat_lt_size
    have h2 := priority'.toNat_lt_size
    exact UInt32.toNat_inj.mp (by omega)
  rfl

theorem pairwise_sortCandidates (h : candidates.Nodup) :
    (sortCandidates candidates).Pairwise fun c c' => c.key < c'.key := by
  have : Std.Total fun c c' : NativeCandidate => c.key ≤ c'.key := ⟨fun c c' => le_total _ _⟩
  have : IsTrans NativeCandidate fun c c' => c.key ≤ c'.key := ⟨fun _ _ _ => le_trans⟩
  have hsorted := List.pairwise_insertionSort (fun c c' : NativeCandidate => c.key ≤ c'.key) candidates
  have hnodup := (sortCandidates_perm candidates).nodup_iff.mpr h
  refine hsorted.imp₂ (fun c c' hle hne => ?_) hnodup
  exact lt_of_le_of_ne hle fun hkey => hne (NativeCandidate.key_injective hkey)

theorem priority_le_of_key_lt {c c' : NativeCandidate} (h : c.key < c'.key) :
    c'.priority ≤ c.priority := by
  rw [NativeCandidate.key, NativeCandidate.key, List.cons_lt_cons_iff] at h
  have h1 := c.priority.toNat_lt_size
  have h2 := c'.priority.toNat_lt_size
  rw [UInt32.le_iff_toNat_le]
  omega

/-- The address is one that a server has made known. -/
def Discovers (nativePort : UInt16) (attempts : List StunAttempt) (address : SocketAddr) : Prop :=
  ∃ attempt ∈ attempts, discoverServerReflexiveCandidate nativePort attempt = some (.ok address)

/-- What there is to be gathered: loopback, the address of the interface that
leads out, if there is one, and what the servers have made known. -/
def IsCandidate (localAddr : Option SocketAddr) (nativePort : UInt16) (attempts : List StunAttempt)
    (candidate : NativeCandidate) : Prop :=
  candidate = ⟨.local, .v4 .localhost nativePort, 100⟩ ∨
    (∃ ip, primaryIpv4Address localAddr = some ip ∧ candidate = ⟨.local, .v4 ip nativePort, 90⟩) ∨
    ∃ address, Discovers nativePort attempts address ∧ candidate = ⟨.serverReflexive, address, 80⟩

section gathering

variable {localAddr : Option SocketAddr} {attempts others : List StunAttempt}

theorem primaryIpv4Address_ne_localhost {ip : Ipv4Addr} (h : primaryIpv4Address localAddr = some ip) :
    ip ≠ .localhost := by
  rintro rfl
  unfold primaryIpv4Address at h
  split at h
  · split_ifs at h with hip
    obtain rfl := Option.some.inj h
    exact absurd hip (by decide)
  · cases h

theorem IsCandidate.eq_of_endpoint {c c' : NativeCandidate} (hc : IsCandidate localAddr nativePort attempts c)
    (hc' : IsCandidate localAddr nativePort attempts c') (h : c.endpoint = c'.endpoint) : c = c' := by
  simp only [NativeCandidate.endpoint, Prod.mk.injEq] at h
  obtain ⟨hkind, haddress⟩ := h
  rcases hc with rfl | ⟨ip, hip, rfl⟩ | ⟨address, -, rfl⟩ <;>
    rcases hc' with rfl | ⟨ip', hip', rfl⟩ | ⟨address', -, rfl⟩
  case inl.inr.inl =>
    have hsame : Ipv4Addr.localhost = ip' := (SocketAddr.v4.inj haddress).1
    exact absurd hsame.symm (primaryIpv4Address_ne_localhost hip')
  case inr.inl.inl =>
    exact absurd (SocketAddr.v4.inj haddress).1 (primaryIpv4Address_ne_localhost hip)
  -- otherwise the kinds differ, or the address says it all
  all_goals cases hkind
  · rfl
  · cases haddress
    rfl
  · cases haddress
    rfl

theorem mem_filterMap_reflexive : candidate ∈ attempts.filterMap (reflexive nativePort) ↔
    ∃ address, Discovers nativePort attempts address ∧ candidate = ⟨.serverReflexive, address, 80⟩ := by
  rw [List.mem_filterMap]
  constructor
  · rintro ⟨attempt, hattempt, h⟩
    unfold reflexive at h
    split at h
    · rename_i address hdiscover
      exact ⟨address, ⟨attempt, hattempt, hdiscover⟩, (Option.some.inj h).symm⟩
    · cases h
  · rintro ⟨address, ⟨attempt, hattempt, hdiscover⟩, rfl⟩
    refine ⟨attempt, hattempt, ?_⟩
    rw [reflexive, hdiscover]

theorem mem_sorted_iff {raw : List NativeCandidate}
    (hraw : ∀ c, c ∈ raw ↔ IsCandidate localAddr nativePort attempts c) (c : NativeCandidate) :
    c ∈ sortCandidates (dedupeCandidates raw) ↔ IsCandidate localAddr nativePort attempts c := by
  rw [mem_sortCandidates, mem_dedupeCandidates_iff, hraw]
  exact fun c hc c' hc' => ((hraw c).mp hc).eq_of_endpoint ((hraw c').mp hc')

/-- **The local candidates** are loopback and the address of the interface. -/
theorem localCandidates_spec (localAddr : Option SocketAddr) (hport : nativePort ≠ 0) : ∃ locals,
    localCandidates localAddr nativePort = .ok locals ∧
      ∀ c, c ∈ locals ↔ IsCandidate localAddr nativePort [] c := by
  rw [localCandidates, if_neg hport]
  refine ⟨_, rfl, mem_sorted_iff fun c => ?_⟩
  cases hprimary : primaryIpv4Address localAddr with
  | none => simp [IsCandidate, Discovers, hprimary]
  | some ip => simp [IsCandidate, Discovers, hprimary]

/-- **What is gathered**, strictly in the order of the keys. -/
theorem gatherCandidates_spec (localAddr : Option SocketAddr) (hport : nativePort ≠ 0)
    (attempts : List StunAttempt) : ∃ candidates,
    gatherCandidates localAddr nativePort attempts = some (.ok candidates) ∧
      (candidates.map NativeCandidate.endpoint).Nodup ∧
      (candidates.Pairwise fun c c' => c.key < c'.key) ∧
      ∀ c, c ∈ candidates ↔ IsCandidate localAddr nativePort attempts c := by
  obtain ⟨locals, hlocals, hmem⟩ := localCandidates_spec localAddr hport
  rw [gatherCandidates, hlocals]
  simp only [foldlM_pushReflexive, Option.bind_eq_bind, Option.bind_some]
  have hendpoints := (nodup_dedupeFrom [] (locals ++ attempts.filterMap (reflexive nativePort))).2
  refine ⟨_, rfl, ?_, pairwise_sortCandidates (List.Nodup.of_map _ hendpoints),
    mem_sorted_iff fun c => ?_⟩
  · exact ((sortCandidates_perm _).map _).nodup_iff.mpr hendpoints
  · rw [List.mem_append, hmem, mem_filterMap_reflexive]
    simp [IsCandidate, Discovers, or_assoc]

theorem discovers_of_perm (h : others.Perm attempts) (address : SocketAddr) :
    Discovers nativePort others address ↔ Discovers nativePort attempts address := by
  simp only [Discovers, h.mem_iff]

/-- **What is gathered does not depend on the order of the answers.**  The list
is without duplicates, by descending priority, and holds the local candidates
and the endpoints that were discovered.  The answers in another order give the
same list, and so do any that make the same endpoints known, however often. -/
theorem gatherCandidates_determined (localAddr : Option SocketAddr) (nativePort : UInt16)
    (hport : nativePort ≠ 0) (attempts : List StunAttempt) : ∃ candidates,
    gatherCandidates localAddr nativePort attempts = some (.ok candidates) ∧
      (candidates.map fun c => (c.kind, c.address)).Nodup ∧
      (candidates.Pairwise fun c c' => c'.priority ≤ c.priority) ∧
      (∀ c, c ∈ candidates ↔ c = ⟨.local, .v4 .localhost nativePort, 100⟩ ∨
        (∃ ip, primaryIpv4Address localAddr = some ip ∧ c = ⟨.local, .v4 ip nativePort, 90⟩) ∨
        ∃ address, Discovers nativePort attempts address ∧ c = ⟨.serverReflexive, address, 80⟩) ∧
      ∀ others : List StunAttempt, (others.Perm attempts ∨ ∀ address,
          Discovers nativePort others address ↔ Discovers nativePort attempts address) →
        gatherCandidates localAddr nativePort others = some (.ok candidates) := by
  obtain ⟨candidates, hgather, hnodup, hsorted, hmem⟩ := gatherCandidates_spec localAddr hport attempts
  refine ⟨candidates, hgather, hnodup, hsorted.imp priority_le_of_key_lt, hmem, fun others h => ?_⟩
  have hdiscovers := h.elim discovers_of_perm id
  obtain ⟨candidates', hgather', -, hsorted', hmem'⟩ := gatherCandidates_spec localAddr hport others
  have : Std.Irrefl fun c c' : NativeCandidate => c.key < c'.key := ⟨fun c => lt_irrefl c.key⟩
  have : Std.Antisymm fun c c' : NativeCandidate => c.key < c'.key :=
    ⟨fun _ _ hlt hgt => absurd hgt hlt.asymm⟩
  rw [hgather', hsorted'.eq_of_mem_iff hsorted fun c => ?_]
  rw [hmem, hmem']
  simp only [IsCandidate, hdiscovers]

/-- Two servers in either order, and one of them asked twice. -/
theorem gatherCandidates_determined_two : ∃ candidates,
    gatherCandidates none 53400 [.sample ⟨203, 0, 113, 9⟩ 40000, .sample ⟨203, 0, 113, 5⟩ 53400] =
        some (.ok candidates) ∧
      gatherCandidates none 53400 [.sample ⟨203, 0, 113, 5⟩ 53400, .sample ⟨203, 0, 113, 9⟩ 40000] =
        some (.ok candidates) ∧
      gatherCandidates none 53400 [.sample ⟨203, 0, 113, 9⟩ 40000, .sample ⟨203, 0, 113, 5⟩ 53400,
        .sample ⟨203, 0, 113, 9⟩ 40000] = some (.ok candidates) := by
  obtain ⟨candidates, hgather, -, -, -, hsame⟩ := gatherCandidates_determined none 53400 (by decide)
    [.sample ⟨203, 0, 113, 9⟩ 40000, .sample ⟨203, 0, 113, 5⟩ 53400]
  refine ⟨candidates, hgather, hsame _ (.inl (.swap _ _ _)), hsame _ (.inr fun address => ?_)⟩
  simp only [Discovers, List.mem_cons, List.not_mem_nil, or_false]
  constructor
  · rintro ⟨attempt, rfl | rfl | rfl, h⟩
    · exact ⟨_, .inl rfl, h⟩
    · exact ⟨_, .inr rfl, h⟩
    · exact ⟨_, .inl rfl, h⟩
  · rintro ⟨attempt, rfl | rfl, h⟩
    · exact ⟨_, .inl rfl, h⟩
    · exact ⟨_, .inr (.inl rfl), h⟩

end gathering

end NightBridge.Native
