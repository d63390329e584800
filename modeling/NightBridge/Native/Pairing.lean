/-
# Pairing codes

`crates/core/src/identity/sas.rs` and
`crates/protocol-native-v1/src/pairing.rs`: two people compare six digits that
their nodes compute from both public keys and both session nonces.

`compute_sas` puts the keys in order, and `combined_nonce` puts the nonces in
the order of their keys, so both together are a function of the unordered pair
of `(key, nonce)`: the session, seen from no side.  `pairingKeyMaterial_eq` says
which function, and `sessionBytes_inj` that it forgets nothing.
-/

import NightBridge.Native.Dto
import NightBridge.Data.SocketAddr
import Mathlib.Data.Sym.Sym2

namespace NightBridge

open Data

/-! ### A pair in the order of its keys -/

section ordered

variable {α β : Type} [LE α] [DecidableLE α]

/-- The two entries, the one with the lower key first. -/
def ordered (p q : α × β) : (α × β) × (α × β) := if p.1 ≤ q.1 then (p, q) else (q, p)

theorem ordered_cases (p q : α × β) : ordered p q = (p, q) ∨ ordered p q = (q, p) := by
  unfold ordered
  split_ifs
  · exact .inl rfl
  · exact .inr rfl

theorem mk_ordered (p q : α × β) : s((ordered p q).1, (ordered p q).2) = s(p, q) := by
  rcases ordered_cases p q with h | h <;> rw [h]
  exact Sym2.eq_swap

variable [Std.Total (fun a b : α => a ≤ b)] [Std.Antisymm (fun a b : α => a ≤ b)]

theorem ordered_comm {p q : α × β} (h : p.1 ≠ q.1) : ordered p q = ordered q p := by
  unfold ordered
  by_cases hle : p.1 ≤ q.1
  · have hnot : ¬ q.1 ≤ p.1 := fun hge => h (Std.Antisymm.antisymm _ _ hle hge)
    rw [if_pos hle, if_neg hnot]
  · have hge : q.1 ≤ p.1 := (Std.Total.total p.1 q.1).resolve_left hle
    rw [if_neg hle, if_pos hge]

/-- **The ordered pair is the unordered one**, if the keys differ. -/
theorem ordered_eq_iff {p q p' q' : α × β} (h : p.1 ≠ q.1) :
    ordered p q = ordered p' q' ↔ s(p, q) = s(p', q') := by
  constructor
  · intro heq
    rw [← mk_ordered p q, ← mk_ordered p' q', heq]
  · intro heq
    rcases Sym2.eq_iff.mp heq with ⟨rfl, rfl⟩ | ⟨rfl, rfl⟩
    · rfl
    · exact ordered_comm h

end ordered

/-! Byte arrays are compared byte by byte. -/

instance : DecidableLE Bytes32 := fun a b => inferInstanceAs (Decidable (a.1 ≤ b.1))

instance : Std.Total (fun a b : Bytes32 => a ≤ b) := ⟨fun a b => List.le_total a.1 b.1⟩

instance : Std.Antisymm (fun a b : Bytes32 => a ≤ b) :=
  ⟨fun _ _ h h' => Subtype.ext (List.le_antisymm h h')⟩

namespace Core

def sasDigits : ℕ := 6

/-- `Hkdf::<Sha256>::new(None, …)` and `expand` to four bytes: from the input
key material and the info. -/
abbrev Hkdf := Bytes → Bytes → { bs : Bytes // bs.length = 4 }

/-- The `input_key_material` of `compute_sas`. -/
def inputKeyMaterial (pubkeyA pubkeyB : Bytes32) (nonce : Bytes) : Bytes :=
  let (lo, hi) := if pubkeyA ≤ pubkeyB then (pubkeyA, pubkeyB) else (pubkeyB, pubkeyA)
  lo.1 ++ hi.1 ++ nonce

def computeSas (hkdf : Hkdf) (pubkeyA pubkeyB : Bytes32) (nonce : Bytes) : String :=
  let outputKeyMaterial := hkdf (inputKeyMaterial pubkeyA pubkeyB nonce) (utf8 "lsi-sas-v1")
  let value := ofBeBytes outputKeyMaterial.1
  String.ofList ((decimal (value % 10 ^ sasDigits)).leftpad sasDigits '0')

end Core

namespace Native

open NightBridge.Core

/-- `push_nonce`; the length is cast to a `u32`. -/
def pushNonce (output nonce : Bytes) : Bytes := output ++ toBeBytes 4 (nonce.length % 2 ^ 32) ++ nonce

def combinedNonce (localPubkey : Bytes32) (localNonce : Bytes) (remotePubkey : Bytes32)
    (remoteNonce : Bytes) : Bytes :=
  if localPubkey ≤ remotePubkey then pushNonce (pushNonce [] localNonce) remoteNonce
  else pushNonce (pushNonce [] remoteNonce) localNonce

def pairingSas (hkdf : Hkdf) (localPubkey : Bytes32) (localNonce : Bytes) (remotePubkey : Bytes32)
    (remoteNonce : Bytes) : String :=
  let nonce := combinedNonce localPubkey localNonce remotePubkey remoteNonce
  computeSas hkdf localPubkey remotePubkey nonce

/-- What HKDF is given when `pairing_sas` is computed. -/
def pairingKeyMaterial (localPubkey : Bytes32) (localNonce : Bytes) (remotePubkey : Bytes32)
    (remoteNonce : Bytes) : Bytes :=
  inputKeyMaterial localPubkey remotePubkey (combinedNonce localPubkey localNonce remotePubkey remoteNonce)

/-! ### The key material is the session, encoded -/

/-- Both keys, then both nonces with their lengths. -/
def sessionBytes (session : (Bytes32 × Bytes) × (Bytes32 × Bytes)) : Bytes :=
  session.1.1.1 ++ (session.2.1.1 ++
    ((toBeBytes 4 (session.1.2.length % 2 ^ 32) ++ session.1.2) ++
      (toBeBytes 4 (session.2.2.length % 2 ^ 32) ++ session.2.2)))

theorem pairingKeyMaterial_eq (a : Bytes32) (m : Bytes) (b : Bytes32) (n : Bytes) :
    pairingKeyMaterial a m b n = sessionBytes (ordered (a, m) (b, n)) := by
  unfold pairingKeyMaterial inputKeyMaterial combinedNonce ordered
  split_ifs <;> simp [sessionBytes, pushNonce]

/-- A nonce after its length can be told from what follows it. -/
theorem lengthPrefixed_inj {m n rest rest' : Bytes} (hm : m.length < 2 ^ 32) (hn : n.length < 2 ^ 32)
    (h : (toBeBytes 4 (m.length % 2 ^ 32) ++ m) ++ rest = (toBeBytes 4 (n.length % 2 ^ 32) ++ n) ++ rest') :
    m = n ∧ rest = rest' := by
  rw [List.append_assoc, List.append_assoc, Nat.mod_eq_of_lt hm, Nat.mod_eq_of_lt hn] at h
  obtain ⟨hlength, htail⟩ := List.append_inj h (by simp)
  have hlen : m.length = n.length := by
    rw [← ofBeBytes_toBeBytes (n := 4) hm, hlength, ofBeBytes_toBeBytes hn]
  exact List.append_inj htail hlen

/-- **The encoding forgets nothing** of a session whose nonces are shorter than
2^32 bytes. -/
theorem sessionBytes_inj {p q p' q' : Bytes32 × Bytes} (hp : p.2.length < 2 ^ 32)
    (hq : q.2.length < 2 ^ 32) (hp' : p'.2.length < 2 ^ 32) (hq' : q'.2.length < 2 ^ 32)
    (h : sessionBytes (p, q) = sessionBytes (p', q')) : (p, q) = (p', q') := by
  obtain ⟨hlo, h⟩ := List.append_inj h (by rw [p.1.2, p'.1.2])
  obtain ⟨hhi, h⟩ := List.append_inj h (by rw [q.1.2, q'.1.2])
  obtain ⟨hm, h⟩ := lengthPrefixed_inj hp hp' h
  have h' : (toBeBytes 4 (q.2.length % 2 ^ 32) ++ q.2) ++ [] =
      (toBeBytes 4 (q'.2.length % 2 ^ 32) ++ q'.2) ++ [] := by simpa using h
  obtain ⟨hn, -⟩ := lengthPrefixed_inj hq hq' h'
  exact Prod.ext (Prod.ext (Subtype.ext hlo) hm) (Prod.ext (Subtype.ext hhi) hn)

theorem pairingKeyMaterial_comm {a b : Bytes32} (h : a ≠ b) (m n : Bytes) :
    pairingKeyMaterial a m b n = pairingKeyMaterial b n a m := by
  rw [pairingKeyMaterial_eq, pairingKeyMaterial_eq, ordered_comm h]

/-- The code a four-byte output stands for: its value in decimal, cut to the
last digits. -/
def sasOf (output : { bs : Bytes // bs.length = 4 }) : String :=
  String.ofList ((decimal (ofBeBytes output.1 % 10 ^ sasDigits)).leftpad sasDigits '0')

theorem pairingSas_eq (hkdf : Hkdf) (a b : Bytes32) (m n : Bytes) :
    pairingSas hkdf a m b n = sasOf (hkdf (pairingKeyMaterial a m b n) (utf8 "lsi-sas-v1")) := rfl

theorem ordered_of_keyMaterial {a b c d : Bytes32} {m n m' n' : Bytes} (hm : m.length < 2 ^ 32)
    (hn : n.length < 2 ^ 32) (hm' : m'.length < 2 ^ 32) (hn' : n'.length < 2 ^ 32)
    (h : pairingKeyMaterial a m b n = pairingKeyMaterial c m' d n') :
    ordered (a, m) (b, n) = ordered (c, m') (d, n') := by
  rw [pairingKeyMaterial_eq, pairingKeyMaterial_eq] at h
  rcases ordered_cases (a, m) (b, n) with h₁ | h₁ <;>
    rcases ordered_cases (c, m') (d, n') with h₂ | h₂ <;>
    rw [h₁, h₂] at h ⊢
  · exact sessionBytes_inj hm hn hm' hn' h
  · exact sessionBytes_inj hm hn hn' hm' h
  · exact sessionBytes_inj hn hm hm' hn' h
  · exact sessionBytes_inj hn hm hn' hm' h

/-- **Pairing codes are symmetric and bind the session.**  With distinct keys
both sides compute one code.  The code is the last six decimal digits of what
HKDF makes of the key material, and two sessions give HKDF the same input
exactly if they are the same keys with the same nonces. -/
theorem pairing_binds_session (hkdf : Hkdf) :
    (∀ (a b : Bytes32) (m n : Bytes), a ≠ b → m.length < 2 ^ 32 → n.length < 2 ^ 32 →
      pairingSas hkdf a m b n = pairingSas hkdf b n a m) ∧
    (∀ (a b : Bytes32) (m n : Bytes), pairingSas hkdf a m b n =
      sasOf (hkdf (pairingKeyMaterial a m b n) (utf8 "lsi-sas-v1"))) ∧
    ∀ (a b c d : Bytes32) (m n m' n' : Bytes), a ≠ b → c ≠ d → m.length < 2 ^ 32 → n.length < 2 ^ 32 →
      m'.length < 2 ^ 32 → n'.length < 2 ^ 32 →
      (pairingKeyMaterial a m b n = pairingKeyMaterial c m' d n' ↔
        s((a, m), (b, n)) = s((c, m'), (d, n'))) := by
  refine ⟨fun a b m n hab _ _ => ?_, pairingSas_eq hkdf, fun a b c d m n m' n' hab _ hm hn hm' hn' => ?_⟩
  · rw [pairingSas_eq, pairingSas_eq, pairingKeyMaterial_comm hab]
  · rw [← ordered_eq_iff (p := (a, m)) (q := (b, n)) hab]
    refine ⟨ordered_of_keyMaterial hm hn hm' hn', fun h => ?_⟩
    rw [pairingKeyMaterial_eq, pairingKeyMaterial_eq, h]

/-- Two keys whose nonces change places are another session, and an HKDF that
looks at the nonces gives it another code. -/
theorem pairing_binds_session_swapped :
    let hkdf : Hkdf := fun material _ => ⟨toBeBytes 4 (ofBeBytes (material.drop 64)), rfl⟩
    pairingSas hkdf (.pad [1]) [5] (.pad [2]) [6] = pairingSas hkdf (.pad [2]) [6] (.pad [1]) [5] ∧
    pairingSas hkdf (.pad [1]) [5] (.pad [2]) [6] ≠ pairingSas hkdf (.pad [1]) [6] (.pad [2]) [5] ∧
    pairingKeyMaterial (.pad [1]) [5] (.pad [2]) [6] ≠ pairingKeyMaterial (.pad [1]) [6] (.pad [2]) [5] := by
  intro hkdf
  obtain ⟨hsame, -, hbinds⟩ := pairing_binds_session hkdf
  refine ⟨hsame _ _ _ _ (by decide) (by decide) (by decide), by decide +kernel, fun h => ?_⟩
  have hsession := (hbinds (.pad [1]) (.pad [2]) (.pad [1]) (.pad [2]) [5] [6] [6] [5] (by decide) (by decide)
    (by decide) (by decide) (by decide) (by decide)).mp h
  exact absurd hsession (by decide)

end Native
end NightBridge
