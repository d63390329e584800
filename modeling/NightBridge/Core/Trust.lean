/-
# The table of trusted peers

`crates/core/src/trust/store.rs` and the table `peers` of `schema.sql`.  A row is
keyed by the text of a fingerprint; `trust` and `trust_with_native_certificate`
insert a row or, on conflict, update its label and policy (and the certificate
pin), leaving the public key and the date of the row that is there.  `untrust`
deletes the row and `touch` dates the last sighting.

`row_to_peer` parses the fingerprint text back; it always succeeds here, since
the text it reads is the text the lookup asked for (`get_eq`).
-/

import NightBridge.Core.Fingerprint
import NightBridge.Data.Table

namespace NightBridge.Core

open Data

/-- `PeerPolicy`; the column holds its text, one of the three the `CHECK` allows. -/
inductive PeerPolicy
  | autoAccept
  | prompt
  | block
  deriving DecidableEq, Repr

structure PeerRow where
  fingerprint : String
  pubkey : Bytes32
  label : String
  trustedAt : ℤ
  lastSeen : Option ℤ
  nativeCertificateFingerprint : Option String
  policy : PeerPolicy
  deriving DecidableEq

/-- `Peer`, a row with its fingerprint parsed. -/
structure Peer where
  fingerprint : Fingerprint
  pubkey : Bytes32
  label : String
  trustedAt : ℤ
  lastSeen : Option ℤ
  nativeCertificateFingerprint : Option String
  policy : PeerPolicy
  deriving DecidableEq

/-- The table `peers`, `fingerprint TEXT PRIMARY KEY`. -/
abbrev TrustDb := Table PeerRow PeerRow.fingerprint

def rowToPeer (row : PeerRow) : Except Failure Peer :=
  match Fingerprint.fromStr row.fingerprint with
  | .ok fingerprint => .ok
    { fingerprint, pubkey := row.pubkey, label := row.label, trustedAt := row.trustedAt,
      lastSeen := row.lastSeen,
      nativeCertificateFingerprint := row.nativeCertificateFingerprint, policy := row.policy }
  | .error e => .error e

namespace TrustDb

def get (db : TrustDb) (fingerprint : Fingerprint) : Except Failure (Option Peer) :=
  match db.find? fingerprint.display with
  | some row => (rowToPeer row).map some
  | none => .ok none

/-- The end of `trust` and `trust_with_native_certificate`: read the row back. -/
def readBack (db : TrustDb) (fingerprint : Fingerprint) : Except Failure Peer :=
  match db.get fingerprint with
  | .ok (some peer) => .ok peer
  | .ok none => .error (.error (.trustStore "peer disappeared after insert"))
  | .error e => .error e

def trust [Primitives] (db : TrustDb) (pubkey : Bytes32) (label : String)
    (policy : PeerPolicy) (now : ℤ) :
    Except Failure Peer × TrustDb :=
  let fingerprint := Fingerprint.fromPubkey pubkey
  let db' := db.upsert
    ⟨fingerprint.display, pubkey, label, now, none, none, policy⟩
    (fun row => { row with label := label, policy := policy }) (fun _ => rfl)
  (readBack db' fingerprint, db')

def validateCertificateFingerprint (value : String) : Except Failure Unit :=
  if (utf8 value).length = 64 ∧
      value.toList.all fun ch => isAsciiHexdigit ch && !(65 ≤ ch.toNat && ch.toNat ≤ 90) then .ok ()
  else .error (.error (.trustStore
    "native certificate fingerprint must be 64 lowercase hex characters"))

def trustWithNativeCertificate [Primitives] (db : TrustDb) (pubkey : Bytes32)
    (label : String) (policy : PeerPolicy) (nativeCertificateFingerprint : String) (now : ℤ) :
    Except Failure Peer × TrustDb :=
  match validateCertificateFingerprint nativeCertificateFingerprint with
  | .error e => (.error e, db)
  | .ok () =>
    let fingerprint := Fingerprint.fromPubkey pubkey
    let db' := db.upsert
      ⟨fingerprint.display, pubkey, label, now, none, some nativeCertificateFingerprint, policy⟩
      (fun row => { row with
        label := label, policy := policy,
        nativeCertificateFingerprint := some nativeCertificateFingerprint }) (fun _ => rfl)
    (readBack db' fingerprint, db')

def untrust (db : TrustDb) (fingerprint : Fingerprint) : Bool × TrustDb :=
  ((db.find? fingerprint.display).isSome, db.delete fingerprint.display)

def touch (db : TrustDb) (fingerprint : Fingerprint) (now : ℤ) : TrustDb :=
  db.modify fingerprint.display (fun row => { row with lastSeen := some now }) (fun _ => rfl)

/-! ### What a lookup returns -/

theorem rowToPeer_of_display {row : PeerRow} {f : Fingerprint} (h : row.fingerprint = f.display) :
    rowToPeer row = .ok
      { fingerprint := f, pubkey := row.pubkey, label := row.label, trustedAt := row.trustedAt,
        lastSeen := row.lastSeen,
        nativeCertificateFingerprint := row.nativeCertificateFingerprint,
        policy := row.policy } := by
  rw [rowToPeer, h, Fingerprint.fromStr_display]

/-- **A lookup never fails**, and returns the row with that fingerprint. -/
theorem get_eq (db : TrustDb) (f : Fingerprint) :
    db.get f = .ok ((db.find? f.display).map fun row =>
      { fingerprint := f, pubkey := row.pubkey, label := row.label, trustedAt := row.trustedAt,
        lastSeen := row.lastSeen,
        nativeCertificateFingerprint := row.nativeCertificateFingerprint,
        policy := row.policy }) := by
  unfold get
  cases h : db.find? f.display with
  | none => rfl
  | some row =>
    simp only [rowToPeer_of_display (Table.find?_eq_some_iff.mp h).2]
    rfl

end TrustDb
end NightBridge.Core
