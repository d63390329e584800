/-
# The table of trusted peers as a log of calls

What `TrustStore::get` returns can be read off the calls made so far.  Only
those since the last `untrust` of the fingerprint count.  Among them the
successful `trust` and `trust_with_native_certificate` calls are the *grants*,
and the last `touch` after the first grant dates the last sighting; an earlier
one found no row.

Everything goes through the row of one fingerprint: `peerAfter` says what a call
does to it and `peer?_handle` that the table does the same.
-/

import NightBridge.Core.Trust
import NightBridge.Effect.Log

namespace NightBridge.Core

open Data Effect

/-! ### The row of a fingerprint -/

/-- A row as `get` returns it. -/
def PeerRow.toPeer (f : Fingerprint) (row : PeerRow) : Peer :=
  { fingerprint := f, pubkey := row.pubkey, label := row.label, trustedAt := row.trustedAt,
    lastSeen := row.lastSeen, nativeCertificateFingerprint := row.nativeCertificateFingerprint,
    policy := row.policy }

namespace TrustDb

def peer? (db : TrustDb) (f : Fingerprint) : Option Peer := (db.find? f.display).map (·.toPeer f)

theorem get_eq_peer? (db : TrustDb) (f : Fingerprint) : db.get f = .ok (db.peer? f) := get_eq db f

section upsert

variable {db : TrustDb} {fingerprint : Fingerprint} {row : PeerRow} {g : PeerRow → PeerRow}
  {hg : ∀ r, (g r).fingerprint = r.fingerprint} (hrow : row.fingerprint = fingerprint.display)

include hrow

theorem readBack_upsert : ∃ peer, readBack (db.upsert row g hg) fingerprint = .ok peer := by
  rw [readBack, get_eq, Table.find?_upsert, if_pos hrow.symm]
  exact ⟨_, rfl⟩

theorem peer?_upsert (f : Fingerprint) : peer? (db.upsert row g hg) f =
    if fingerprint = f then some ((((db.find? f.display).map g).getD row).toPeer f)
    else db.peer? f := by
  rw [peer?, Table.find?_upsert, hrow]
  by_cases h : fingerprint = f
  · rw [if_pos (congrArg _ h.symm), if_pos h]
    rfl
  · rw [if_neg fun h' => h (Fingerprint.display_injective h').symm, if_neg h]
    rfl

end upsert

theorem peer?_delete (db : TrustDb) (fingerprint f : Fingerprint) :
    peer? (db.delete fingerprint.display) f = if fingerprint = f then none else db.peer? f := by
  rw [peer?, Table.find?_delete]
  by_cases h : fingerprint = f
  · rw [if_pos (congrArg _ h.symm), if_pos h]
    rfl
  · rw [if_neg fun h' => h (Fingerprint.display_injective h').symm, if_neg h]
    rfl

theorem peer?_touch (db : TrustDb) (fingerprint f : Fingerprint) (now : ℤ) :
    peer? (db.touch fingerprint now) f =
      if fingerprint = f then (db.peer? f).map ({ · with lastSeen := some now }) else db.peer? f := by
  rw [peer?, touch, Table.find?_modify]
  by_cases h : fingerprint = f
  · rw [if_pos (congrArg _ h.symm), if_pos h, peer?, Option.map_map, Option.map_map]
    rfl
  · rw [if_neg fun h' => h (Fingerprint.display_injective h').symm, if_neg h]
    rfl

end TrustDb

/-! ### Calls -/

/-- A call that writes `peers`. -/
inductive TrustCall
  | trust (pubkey : Bytes32) (label : String) (policy : PeerPolicy)
  | trustWithNativeCertificate (pubkey : Bytes32) (label : String) (policy : PeerPolicy)
      (nativeCertificateFingerprint : String)
  | untrust (fingerprint : Fingerprint)
  | touch (fingerprint : Fingerprint)

@[reducible] def TrustCall.Resp : TrustCall → Type
  | .trust .. => Except Failure Peer
  | .trustWithNativeCertificate .. => Except Failure Peer
  | .untrust _ => Bool
  | .touch _ => Unit

/-- A call at the time the clock shows, which need not be later than the one
before. -/
abbrev TimedTrustCall := ℤ × TrustCall

abbrev TrustEvent := Event TimedTrustCall fun c => c.2.Resp

section

variable [Primitives]

def TrustCall.fingerprint : TrustCall → Fingerprint
  | .trust pubkey .. => .fromPubkey pubkey
  | .trustWithNativeCertificate pubkey .. => .fromPubkey pubkey
  | .untrust fingerprint => fingerprint
  | .touch fingerprint => fingerprint

def TrustDb.handle : Prog.Handler TimedTrustCall (fun c => c.2.Resp) TrustDb
  | (now, .trust pubkey label policy), db => db.trust pubkey label policy now
  | (now, .trustWithNativeCertificate pubkey label policy cert), db =>
    db.trustWithNativeCertificate pubkey label policy cert now
  | (_, .untrust fingerprint), db => db.untrust fingerprint
  | (now, .touch fingerprint), db => ((), db.touch fingerprint now)

/-! ### The log -/

/-- What a successful `trust` or `trust_with_native_certificate` was given, and
when. -/
structure Grant where
  pubkey : Bytes32
  label : String
  policy : PeerPolicy
  pin : Option String
  time : ℤ

/-- A successful call that trusts a key with this fingerprint. -/
def granted (f : Fingerprint) : TrustEvent → Option Grant
  | ⟨(now, .trust pubkey label policy), .ok _⟩ =>
    if Fingerprint.fromPubkey pubkey = f then some ⟨pubkey, label, policy, none, now⟩ else none
  | ⟨(now, .trustWithNativeCertificate pubkey label policy cert), .ok _⟩ =>
    if Fingerprint.fromPubkey pubkey = f then some ⟨pubkey, label, policy, some cert, now⟩ else none
  | _ => none

/-- An `untrust` of the fingerprint. -/
def untrusted (f : Fingerprint) : TrustEvent → Bool
  | ⟨(_, .untrust fingerprint), _⟩ => fingerprint = f
  | _ => false

/-- A `touch` of the fingerprint, and when. -/
def touched (f : Fingerprint) : TrustEvent → Option ℤ
  | ⟨(now, .touch fingerprint), _⟩ => if fingerprint = f then some now else none
  | _ => none

/-- The calls since the last `untrust` of the fingerprint. -/
def sinceUntrust (f : Fingerprint) (log : List TrustEvent) : List TrustEvent :=
  log.rtakeWhile fun e => !untrusted f e

/-- The certificate of the last grant with one. -/
def loggedPin (f : Fingerprint) (log : List TrustEvent) : Option String :=
  lastOf (fun e => (granted f e).bind Grant.pin) (sinceUntrust f log)

/-- The last `touch` after the first grant. -/
def loggedSighting (f : Fingerprint) (log : List TrustEvent) : Option ℤ :=
  lastOf (touched f) ((sinceUntrust f log).dropWhile fun e => (granted f e).isNone)

def loggedPeer (f : Fingerprint) (log : List TrustEvent) : Option Peer :=
  match (sinceUntrust f log).findSome? (granted f), lastOf (granted f) (sinceUntrust f log) with
  | some first, some last => some
    { fingerprint := f, pubkey := first.pubkey, label := last.label, trustedAt := first.time,
      lastSeen := loggedSighting f log, nativeCertificateFingerprint := loggedPin f log,
      policy := last.policy }
  | _, _ => none

/-! ### One call -/

/-- The peer after a grant: a new row, or the row that is there with the label,
the policy and the certificate of the grant. -/
def Grant.applied (f : Fingerprint) (g : Grant) : Option Peer → Peer
  | none => ⟨f, g.pubkey, g.label, g.time, none, g.pin, g.policy⟩
  | some peer => { peer with
      label := g.label, policy := g.policy,
      nativeCertificateFingerprint := g.pin.or peer.nativeCertificateFingerprint }

/-- What a call does to the peer with a fingerprint. -/
def peerAfter (f : Fingerprint) (e : TrustEvent) (peer : Option Peer) : Option Peer :=
  if untrusted f e then none
  else match granted f e, touched f e with
    | some g, _ => some (g.applied f peer)
    | none, some now => peer.map ({ · with lastSeen := some now })
    | none, none => peer

section reading

variable {f : Fingerprint} {log : List TrustEvent} {e : TrustEvent}

theorem touched_eq_none_of_granted {g : Grant} (h : granted f e = some g) : touched f e = none := by
  unfold granted at h
  split at h
  · rfl
  · rfl
  · cases h

omit [Primitives] in
theorem sinceUntrust_concat : sinceUntrust f (log ++ [e]) =
    if untrusted f e then [] else sinceUntrust f log ++ [e] := by
  rw [sinceUntrust, List.rtakeWhile_concat]
  cases untrusted f e <;> rfl

/-- **The log says the same as its calls one by one.** -/
theorem loggedPeer_concat : loggedPeer f (log ++ [e]) = peerAfter f e (loggedPeer f log) := by
  unfold peerAfter
  cases hu : untrusted f e with
  | true => simp [loggedPeer, sinceUntrust_concat, hu]
  | false =>
    simp only [loggedPeer, loggedSighting, loggedPin, sinceUntrust_concat, hu, Bool.false_eq_true,
      if_false, List.findSome?_append, lastOf_concat, List.dropWhile_append, List.isEmpty_iff]
    generalize sinceUntrust f log = recent
    cases hfirst : recent.findSome? (granted f) with
    | none =>
      have hnone := List.findSome?_eq_none_iff.mp hfirst
      have hlast : lastOf (granted f) recent = none := lastOf_eq_none_iff.mpr hnone
      have hpin : lastOf (fun e => (granted f e).bind Grant.pin) recent = none :=
        lastOf_eq_none_iff.mpr fun e he => by rw [hnone e he]; rfl
      have hdrop : recent.dropWhile (fun e => (granted f e).isNone) = [] :=
        List.dropWhile_eq_nil_iff.mpr fun e he => by rw [hnone e he]; rfl
      cases hg : granted f e with
      | none => cases touched f e <;> simp [hlast, hg]
      | some g =>
        have htouched := touched_eq_none_of_granted hg
        simp [hlast, hpin, hdrop, hg, htouched, Grant.applied]
    | some first =>
      obtain ⟨e₀, he₀, hg₀⟩ := List.exists_of_findSome?_eq_some hfirst
      obtain ⟨last, hlast⟩ : ∃ last, lastOf (granted f) recent = some last := by
        rw [← Option.ne_none_iff_exists', Ne, lastOf_eq_none_iff]
        exact fun h => by rw [h e₀ he₀] at hg₀; cases hg₀
      have hdrop : recent.dropWhile (fun e => (granted f e).isNone) ≠ [] := by
        rw [Ne, List.dropWhile_eq_nil_iff]
        exact fun h => by have := h e₀ he₀; rw [hg₀] at this; cases this
      cases hg : granted f e with
      | none => cases ht : touched f e <;> simp [hlast, hdrop, hg, ht]
      | some g => simp [hlast, hdrop, hg, touched_eq_none_of_granted hg, Grant.applied]

end reading

namespace TrustDb

section trust

variable (db : TrustDb) (pubkey : Bytes32) (label : String) (policy : PeerPolicy) (now : ℤ)

theorem trust_isOk : ∃ peer, (db.trust pubkey label policy now).1 = .ok peer := readBack_upsert rfl

theorem peer?_trust (f : Fingerprint) : (db.trust pubkey label policy now).2.peer? f =
    if Fingerprint.fromPubkey pubkey = f then
      some (Grant.applied f ⟨pubkey, label, policy, none, now⟩ (db.peer? f))
    else db.peer? f := by
  rw [trust, peer?_upsert rfl, peer?]
  cases db.find? f.display <;> rfl

/-- A certificate that is not 64 lower-case digits is refused, and nothing
changes; another one is pinned. -/
theorem trustWithNativeCertificate_cases (cert : String) :
    (∃ e, db.trustWithNativeCertificate pubkey label policy cert now = (.error e, db)) ∨
    ((∃ peer, (db.trustWithNativeCertificate pubkey label policy cert now).1 = .ok peer) ∧
      ∀ f, (db.trustWithNativeCertificate pubkey label policy cert now).2.peer? f =
        if Fingerprint.fromPubkey pubkey = f then
          some (Grant.applied f ⟨pubkey, label, policy, some cert, now⟩ (db.peer? f))
        else db.peer? f) := by
  unfold trustWithNativeCertificate
  cases validateCertificateFingerprint cert with
  | error e => exact .inl ⟨e, rfl⟩
  | ok u =>
    refine .inr ⟨readBack_upsert rfl, fun f => ?_⟩
    rw [peer?_upsert rfl, peer?]
    cases db.find? f.display <;> rfl

end trust

/-- **One call** does to the table what it does to the row. -/
theorem peer?_handle (c : TimedTrustCall) (db : TrustDb) (f : Fingerprint) :
    (handle c db).2.peer? f = peerAfter f ⟨c, (handle c db).1⟩ (db.peer? f) := by
  obtain ⟨now, c⟩ := c
  cases c with
  | trust pubkey label policy =>
    obtain ⟨peer, hok⟩ := trust_isOk db pubkey label policy now
    simp only [handle, peer?_trust, hok, peerAfter, untrusted, granted, touched, Bool.false_eq_true,
      if_false]
    split_ifs <;> rfl
  | trustWithNativeCertificate pubkey label policy cert =>
    simp only [handle]
    rcases trustWithNativeCertificate_cases db pubkey label policy now cert with
      ⟨e, he⟩ | ⟨⟨peer, hok⟩, hpeer⟩
    · rw [he]
      rfl
    · simp only [hok, hpeer, peerAfter, untrusted, granted, touched, Bool.false_eq_true, if_false]
      split_ifs <;> rfl
  | untrust fingerprint =>
    simp only [handle, untrust, peer?_delete, peerAfter, untrusted, granted, touched, decide_eq_true_eq]
  | touch fingerprint =>
    simp only [handle, peer?_touch, peerAfter, untrusted, granted, touched, Bool.false_eq_true, if_false]
    split_ifs <;> rfl

/-- **After any calls the table says what the log says.** -/
theorem peer?_after (calls : List TimedTrustCall) (f : Fingerprint) :
    (after handle .empty calls).peer? f = loggedPeer f (answers handle .empty calls) := by
  induction calls using List.reverseRecOn with
  | nil => rfl
  | append_singleton calls c ih =>
    rw [after_concat, answers_concat, loggedPeer_concat, peer?_handle, ih]

theorem loggedPeer_isSome_iff {f : Fingerprint} {log : List TrustEvent} :
    (loggedPeer f log).isSome ↔ ∃ e ∈ sinceUntrust f log, (granted f e).isSome := by
  unfold loggedPeer
  cases hfirst : (sinceUntrust f log).findSome? (granted f) with
  | none =>
    have hnone := List.findSome?_eq_none_iff.mp hfirst
    simp only [Option.isSome_none, Bool.false_eq_true, false_iff, not_exists, not_and]
    exact fun e he => by simp [hnone e he]
  | some first =>
    obtain ⟨e, he, hg⟩ := List.exists_of_findSome?_eq_some hfirst
    cases hlast : lastOf (granted f) (sinceUntrust f log) with
    | none => rw [lastOf_eq_none_iff.mp hlast e he] at hg; cases hg
    | some last => exact iff_of_true rfl ⟨e, he, by rw [hg]; rfl⟩

theorem loggedPin_of_loggedPeer {f : Fingerprint} {log : List TrustEvent} {peer : Peer}
    (h : loggedPeer f log = some peer) : loggedPin f log = peer.nativeCertificateFingerprint := by
  unfold loggedPeer at h
  split at h
  · cases h
    rfl
  · cases h

/-- A call about another fingerprint says nothing about this one. -/
theorem peerAfter_of_ne {f : Fingerprint} {e : TrustEvent} (h : e.op.2.fingerprint ≠ f)
    (peer : Option Peer) : peerAfter f e peer = peer := by
  obtain ⟨⟨now, c⟩, r⟩ := e
  cases c with
  | trust pubkey label policy =>
    have h' : Fingerprint.fromPubkey pubkey ≠ f := h
    cases r <;> simp [peerAfter, untrusted, granted, touched, h']
  | trustWithNativeCertificate pubkey label policy cert =>
    have h' : Fingerprint.fromPubkey pubkey ≠ f := h
    cases r <;> simp [peerAfter, untrusted, granted, touched, h']
  | untrust fingerprint =>
    have h' : fingerprint ≠ f := h
    simp [peerAfter, untrusted, granted, touched, h']
  | touch fingerprint =>
    have h' : fingerprint ≠ f := h
    simp [peerAfter, untrusted, granted, touched, h']

/-- **The table of trusted peers refines its log.**  After any calls, at any
times, `get` returns the row the log describes: there is one exactly when a call
since the last `untrust` has trusted a key with that fingerprint; the label and
the policy are the last one's, the key and the date the first one's, the pin is
that of the last one with a certificate, and the last sighting is the last
`touch` since the row was made.  A refused certificate changes nothing, and no
call changes the row of another fingerprint. -/
theorem get_eq_logged (calls : List TimedTrustCall) (f : Fingerprint) :
    (after handle .empty calls).get f = .ok (loggedPeer f (answers handle .empty calls)) ∧
      ((∃ peer, (after handle .empty calls).get f = .ok (some peer)) ↔
        ∃ e ∈ sinceUntrust f (answers handle .empty calls), (granted f e).isSome) ∧
      (∀ (db : TrustDb) pubkey label policy cert now e,
        (db.trustWithNativeCertificate pubkey label policy cert now).1 = .error e →
        (db.trustWithNativeCertificate pubkey label policy cert now).2 = db) ∧
      ∀ (db : TrustDb) (c : TimedTrustCall), c.2.fingerprint ≠ f → (handle c db).2.get f = db.get f := by
  refine ⟨by rw [get_eq_peer?, peer?_after], ?_, ?_, fun db c hc => ?_⟩
  · rw [get_eq_peer?, peer?_after, ← loggedPeer_isSome_iff, Option.isSome_iff_exists]
    simp only [Except.ok.injEq]
  · intro db pubkey label policy cert now e herror
    rcases trustWithNativeCertificate_cases db pubkey label policy now cert with
      ⟨e', he⟩ | ⟨⟨peer, hok⟩, -⟩
    · rw [he]
    · rw [hok] at herror
      cases herror
  · rw [get_eq_peer?, get_eq_peer?, peer?_handle, peerAfter_of_ne hc]

end TrustDb

end

end NightBridge.Core
