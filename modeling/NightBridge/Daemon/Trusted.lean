/-
# Is trust granted to a key?

The trust store is keyed by a fingerprint, eight bytes of a digest, and the
daemon looks a peer up by the fingerprint of the key it proved to hold; it never
compares that key with the one in the row.  `trust` in turn leaves the key of a
row that is already there.  So where two keys have one fingerprint, the second
is accepted in the first one's place (`trusted_by_digest`).

The log of calls says which key a row holds (`pubkey_after`): the one of the
first call that trusted the fingerprint since it was last untrusted.  From it,
`trusted_key_iff` says when the trust granted is the key's own.
-/

import NightBridge.Core.TrustLog
import NightBridge.Daemon.Receive

namespace NightBridge.Daemon

open Data Effect Native NightBridge.Core

def passedKey : TrustCall → Option Bytes32
  | .trust pubkey .. => some pubkey
  | .trustWithNativeCertificate pubkey .. => some pubkey
  | .untrust _ | .touch _ => none

section history

variable [Primitives]

/-- The key was passed to a call since its fingerprint was last untrusted. -/
def Passed (pk : Bytes32) (log : List TrustEvent) : Prop :=
  some pk ∈ (sinceUntrust (.fromPubkey pk) log).map fun e => passedKey e.op.2

instance (pk : Bytes32) (log : List TrustEvent) : Decidable (Passed pk log) :=
  inferInstanceAs (Decidable (_ ∈ _))

/-- The key of the first call that trusted the fingerprint since it was last
untrusted. -/
def firstKey (f : Fingerprint) (log : List TrustEvent) : Option Bytes32 :=
  ((sinceUntrust f log).findSome? (granted f)).map Grant.pubkey

theorem passedKey_of_granted {f : Fingerprint} {e : TrustEvent} {g : Grant} (h : granted f e = some g) :
    passedKey e.op.2 = some g.pubkey := by
  unfold granted at h
  split at h
  · split_ifs at h
    exact Option.some.inj h ▸ rfl
  · split_ifs at h
    exact Option.some.inj h ▸ rfl
  · cases h

theorem passed_of_firstKey {pk : Bytes32} {log : List TrustEvent}
    (h : firstKey (.fromPubkey pk) log = some pk) :
    Passed pk log := by
  obtain ⟨g, hg, rfl⟩ := Option.map_eq_some_iff.mp h
  obtain ⟨e, he, hgranted⟩ := List.exists_of_findSome?_eq_some hg
  exact List.mem_map.mpr ⟨e, he, passedKey_of_granted hgranted⟩

/-- **The key of a row after any calls.** -/
theorem pubkey_after (calls : List TimedTrustCall) (f : Fingerprint) :
    ((after TrustDb.handle .empty calls).find? f.display).map PeerRow.pubkey =
      firstKey f (answers TrustDb.handle .empty calls) := by
  have hpeer := congrArg (Option.map Peer.pubkey) (TrustDb.peer?_after calls f)
  rw [TrustDb.peer?, Option.map_map] at hpeer
  refine hpeer.trans ?_
  rw [loggedPeer, firstKey]
  cases hfirst : (sinceUntrust f (answers TrustDb.handle .empty calls)).findSome? (granted f) with
  | none => rfl
  | some first =>
    obtain ⟨e, he, hg⟩ := List.exists_of_findSome?_eq_some hfirst
    cases hlast : lastOf (granted f) (sinceUntrust f (answers TrustDb.handle .empty calls)) with
    | none =>
      rw [lastOf_eq_none_iff.mp hlast e he] at hg
      cases hg
    | some last => rfl

/-- `ensure_native_peer_trusted` reads one row, and wants its policy to be
`AutoAccept`. -/
theorem ensureNativePeerTrusted_ok_iff {trustDbPath : String} {hello : Hello} {s : Store} {w : Wire} :
    ((ensureNativePeerTrusted trustDbPath (peerOf hello)).run handler (s, w)).1 = .ok () ↔
      ∃ row, s.trust.find? (Fingerprint.fromPubkey hello.pubkey).display = some row ∧
        row.policy = .autoAccept := by
  rw [ensureNativePeerTrusted, peerOf, Fingerprint.fromStr_display]
  simp only [Prog.run_call, handler, exec, TrustDb.get_eq]
  cases s.trust.find? (Fingerprint.fromPubkey hello.pubkey).display with
  | none => simp [bail]
  | some row => cases hp : row.policy <;> simp [bail, hp]

theorem trust_pubkey (db : TrustDb) (pk : Bytes32) (label : String) (policy : PeerPolicy) (now : ℤ) :
    ∃ peer, (db.trust pk label policy now).1 = .ok peer ∧
      some peer.pubkey =
        ((db.find? (Fingerprint.fromPubkey pk).display).map PeerRow.pubkey).or (some pk) := by
  rw [TrustDb.trust, TrustDb.readBack, TrustDb.get_eq, Table.find?_upsert]
  cases db.find? (Fingerprint.fromPubkey pk).display <;> simp

/-- **When trust is the key's own.**  After any calls, the following two hold of
a key exactly when the first call that trusted its fingerprint, since it was last
untrusted, was for that key, or there was none: the daemon accepts a `Hello` that
proves the key only if the key was passed to a call since then, and `trust` of
the key returns a row with that key. -/
theorem trusted_key_iff (calls : List TimedTrustCall) (pk : Bytes32) (trustDbPath : String)
    (s : Store) (w : Wire) :
    ((∀ hello binding, hello.pubkey = pk → authenticateHello hello binding = .ok () →
        ((ensureNativePeerTrusted trustDbPath (peerOf hello)).run handler
          ({ s with trust := after TrustDb.handle .empty calls }, w)).1 = .ok () →
        Passed pk (answers TrustDb.handle .empty calls)) ∧
      ∀ label policy now peer,
        ((after TrustDb.handle .empty calls).trust pk label policy now).1 = .ok peer → peer.pubkey = pk) ↔
    ∀ first ∈ firstKey (.fromPubkey pk) (answers TrustDb.handle .empty calls), first = pk := by
  have hrow := pubkey_after calls (.fromPubkey pk)
  constructor
  · rintro ⟨-, htrust⟩ first hfirst
    obtain ⟨peer, hpeer, hkey⟩ := trust_pubkey (after TrustDb.handle .empty calls) pk "" .prompt 0
    rw [hrow, Option.mem_def.mp hfirst] at hkey
    exact (Option.some.inj hkey).symm.trans (htrust _ _ _ _ hpeer)
  · intro hcond
    refine ⟨?_, ?_⟩
    · rintro hello binding rfl - hok
      obtain ⟨row, hfind, -⟩ := ensureNativePeerTrusted_ok_iff.mp hok
      rw [show (after TrustDb.handle .empty calls).find? _ = _ from hfind] at hrow
      exact passed_of_firstKey (hcond _ hrow.symm ▸ hrow.symm)
    · intro label policy now peer hok
      obtain ⟨peer', hpeer, hkey⟩ := trust_pubkey (after TrustDb.handle .empty calls) pk label policy now
      obtain rfl := Except.ok.inj (hok.symm.trans hpeer)
      rw [hrow] at hkey
      cases hhead : firstKey (.fromPubkey pk) (answers TrustDb.handle .empty calls) with
      | none =>
        rw [hhead] at hkey
        exact Option.some.inj hkey
      | some first =>
        rw [hhead] at hkey
        exact (Option.some.inj hkey).trans (hcond _ hhead)

end history

/-! ### Two keys with one fingerprint -/

/-- Every digest is zero. -/
@[reducible] def oneDigest : Primitives := { Primitives.sample with sha256 := fun _ => .pad [] }

/-- The first key is trusted and the second never was.  The daemon accepts a
`Hello` that proves the second, and `trust` of the second returns the first. -/
theorem trusted_by_digest :
    letI := oneDigest
    let first : Bytes32 := .pad [1]
    let second : Bytes32 := .pad [2]
    let calls : List TimedTrustCall := [(0, .trust first "laptop" .autoAccept)]
    let hello := buildAuthenticatedHello ⟨second⟩ "x" [] [] []
    hello.pubkey = second ∧ authenticateHello hello [] = .ok () ∧
      ((ensureNativePeerTrusted "trust.db" (peerOf hello)).run handler
        ({ Store.fresh with trust := after TrustDb.handle .empty calls }, .fresh)).1 = .ok () ∧
      ¬ Passed second (answers TrustDb.handle .empty calls) ∧
      ((after TrustDb.handle .empty calls).trust second "x" .prompt 0).1.map Peer.pubkey = .ok first := by
  exact ⟨by decide, by decide +kernel, by decide +kernel, by decide +kernel, by decide +kernel⟩

end NightBridge.Daemon
