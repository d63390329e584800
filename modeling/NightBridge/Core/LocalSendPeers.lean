/-
# The tables of LocalSend peers

`crates/core/src/trust/store.rs` and the tables `localsend_peers` and
`localsend_lan_peers` of `schema.sql`.  A peer is keyed by its normalized
fingerprint: the separators `:` and `-` are dropped and the rest is in lower
case.

| call | no row | a row |
| --- | --- | --- |
| `record_pending_localsend_peer` | pending, one attempt | one attempt more |
| `record_trusted_localsend_peer` | trusted | alias, date and address |
| `approve_localsend_peer` | trusted | becomes trusted |
| `deny_localsend_peer` | blocked | becomes blocked |

So a sighting never changes the status of a row that is there; it decides the
status of a new one.  Every call reads its row back, which always succeeds,
because a normalized fingerprint is its own normal form
(`normalized_normalized`).
-/

import NightBridge.Core.Trust
import NightBridge.Data.Lowercase
import Mathlib.Data.List.Sort

namespace NightBridge.Core

open Data

/-! ### Fingerprints -/

/-- A fingerprint without its separators, in lower case. -/
def normalized (fingerprint : String) : String :=
  String.ofList ((fingerprint.toList.filter fun ch => ch ≠ ':' && ch ≠ '-').flatMap toLowercase)

/-- **Normalizing twice changes nothing.** -/
theorem normalized_normalized (fingerprint : String) :
    normalized (normalized fingerprint) = normalized fingerprint := by
  have hfixed : ∀ cs : List Char, (∀ c ∈ cs, (c ≠ ':' && c ≠ '-') = true) →
      ((cs.flatMap toLowercase).filter fun ch => ch ≠ ':' && ch ≠ '-').flatMap toLowercase =
        cs.flatMap toLowercase := by
    intro cs
    induction cs with
    | nil => intro _; rfl
    | cons c cs ih =>
      intro h
      have hkeep : (toLowercase c).filter (fun ch => ch ≠ ':' && ch ≠ '-') = toLowercase c := by
        rw [List.filter_eq_self]
        intro d hd
        rcases le_toNat_of_mem_toLowercase hd with rfl | hle
        · exact h d (by simp)
        · have h1 : d ≠ ':' := by rintro rfl; exact absurd hle (by decide)
          have h2 : d ≠ '-' := by rintro rfl; exact absurd hle (by decide)
          simp [h1, h2]
      have hlower : (toLowercase c).flatMap toLowercase = toLowercase c := by
        rw [List.flatMap_congr fun d hd => toLowercase_of_mem hd]
        simp
      rw [List.flatMap_cons, List.filter_append, List.flatMap_append, hkeep, hlower,
        ih fun d hd => h d (List.mem_cons_of_mem _ hd)]
  unfold normalized
  rw [String.toList_ofList, hfixed _ fun c hc => (List.mem_filter.mp hc).2]

-- a fingerprint that is not known is never evaluated, which the tables of the case mapping make slow
attribute [irreducible] normalized

def normalizeLocalsendFingerprint (fingerprint : String) : Except CoreError String :=
  if normalized fingerprint = "" then .error (.trustStore "LocalSend fingerprint is required")
  else .ok (normalized fingerprint)

def requireNonblank (label value : String) : Except CoreError Unit :=
  if isBlank value then .error (.trustStore (label ++ " is required")) else .ok ()

/-! ### The tables -/

/-- `LocalSendPeerStatus`; the column holds its text, one of the three the
`CHECK` allows. -/
inductive LocalSendPeerStatus
  | pending
  | trusted
  | blocked
  deriving DecidableEq, Repr

/-- `LocalSendPeer`, a row of `localsend_peers`. -/
structure LocalSendPeer where
  fingerprint : String
  aliasName : String
  label : Option String
  status : LocalSendPeerStatus
  firstSeen : ℤ
  lastSeen : ℤ
  attemptCount : ℕ
  sourceIp : Option String
  deriving DecidableEq

/-- `LocalSendLanPeer`, a row of `localsend_lan_peers`. -/
structure LocalSendLanPeer where
  fingerprint : String
  aliasName : String
  sourceIp : String
  port : UInt16
  protocol : String
  deviceModel : Option String
  deviceType : Option String
  download : Bool
  firstSeen : ℤ
  lastSeen : ℤ
  deriving DecidableEq

/-- The two tables, each with `fingerprint TEXT PRIMARY KEY`. -/
@[ext]
structure LocalSendDb where
  peers : Table LocalSendPeer LocalSendPeer.fingerprint
  lanPeers : Table LocalSendLanPeer LocalSendLanPeer.fingerprint

namespace LocalSendDb

/-- The tables after the schema has been created. -/
def empty : LocalSendDb := ⟨.empty, .empty⟩

instance : Inhabited LocalSendDb := ⟨empty⟩

def getLocalsendPeer (db : LocalSendDb) (fingerprint : String) :
    Except CoreError (Option LocalSendPeer) :=
  (normalizeLocalsendFingerprint fingerprint).map db.peers.find?

/-- The end of a call: read the row back. -/
def readBack (db : LocalSendDb) (fingerprint done : String) : Except CoreError LocalSendPeer :=
  match db.getLocalsendPeer fingerprint with
  | .ok (some peer) => .ok peer
  | .ok none => .error (.trustStore ("LocalSend peer disappeared after " ++ done))
  | .error e => .error e

/-- The checks of the two calls that record a sighting. -/
def checkSighting (fingerprint aliasName : String) : Except CoreError String := do
  let fingerprint ← normalizeLocalsendFingerprint fingerprint
  requireNonblank "LocalSend alias" aliasName
  pure fingerprint

/-- The two calls that record a sighting: a new row gets `status` and
`attempts`, a row that is there `more` attempts. -/
def recordLocalsendPeer (status : LocalSendPeerStatus) (attempts more : ℕ) (db : LocalSendDb)
    (fingerprint aliasName : String) (sourceIp : Option String) (now : ℤ) :
    Except CoreError LocalSendPeer × LocalSendDb :=
  match checkSighting fingerprint aliasName with
  | .error e => (.error e, db)
  | .ok fingerprint =>
    let peers := db.peers.upsert
      ⟨fingerprint, aliasName, none, status, now, now, attempts, sourceIp⟩
      (fun row => { row with
        aliasName := aliasName, lastSeen := now, attemptCount := row.attemptCount + more,
        sourceIp := sourceIp.or row.sourceIp }) (fun _ => rfl)
    (readBack { db with peers } fingerprint "insert", { db with peers })

def recordPendingLocalsendPeer := recordLocalsendPeer .pending 1 1

def recordTrustedLocalsendPeer := recordLocalsendPeer .trusted 0 0

def setLocalsendPeerStatus (db : LocalSendDb) (fingerprint : String) (status : LocalSendPeerStatus)
    (label : Option String) (now : ℤ) : Except CoreError LocalSendPeer × LocalSendDb :=
  match normalizeLocalsendFingerprint fingerprint with
  | .error e => (.error e, db)
  | .ok fingerprint =>
    let label := (label.map trim).filter (· ≠ "")
    -- an `UPDATE`, and an `INSERT` when it has changed no row
    let peers := db.peers.upsert
      ⟨fingerprint, "", label, status, now, now, 0, none⟩
      (fun row => { row with status := status, label := label.or row.label, lastSeen := now })
      (fun _ => rfl)
    (readBack { db with peers } fingerprint "update", { db with peers })

def approveLocalsendPeer (db : LocalSendDb) (fingerprint : String) (label : Option String)
    (now : ℤ) : Except CoreError LocalSendPeer × LocalSendDb :=
  db.setLocalsendPeerStatus fingerprint .trusted label now

def denyLocalsendPeer (db : LocalSendDb) (fingerprint : String) (now : ℤ) :
    Except CoreError LocalSendPeer × LocalSendDb :=
  db.setLocalsendPeerStatus fingerprint .blocked none now

def isLocalsendPeerBlocked (db : LocalSendDb) (fingerprint : String) : Except CoreError Bool :=
  (db.getLocalsendPeer fingerprint).map fun peer => peer.any (·.status = .blocked)

/-- `TrustStore::list_localsend_peers_by_status`, the latest sighting first. -/
def listLocalsendPeersByStatus (db : LocalSendDb) (status : LocalSendPeerStatus) :
    List LocalSendPeer :=
  (db.peers.rows.filter (·.status = status)).insertionSort fun a b =>
    b.lastSeen < a.lastSeen ∨ (a.lastSeen = b.lastSeen ∧ b.firstSeen ≤ a.firstSeen)

def trustedLocalsendFingerprints (db : LocalSendDb) : List String :=
  (db.listLocalsendPeersByStatus .trusted).map LocalSendPeer.fingerprint

def getLocalsendLanPeer (db : LocalSendDb) (fingerprint : String) :
    Except CoreError (Option LocalSendLanPeer) :=
  (normalizeLocalsendFingerprint fingerprint).map db.lanPeers.find?

/-- The checks of `record_localsend_lan_peer`. -/
def checkLanPeer (peer : LocalSendLanPeer) : Except CoreError String := do
  let fingerprint ← normalizeLocalsendFingerprint peer.fingerprint
  requireNonblank "LocalSend alias" peer.aliasName
  requireNonblank "LocalSend source IP" peer.sourceIp
  requireNonblank "LocalSend protocol" peer.protocol
  pure fingerprint

def recordLocalsendLanPeer (db : LocalSendDb) (peer : LocalSendLanPeer) (now : ℤ) :
    Except CoreError LocalSendLanPeer × LocalSendDb :=
  match checkLanPeer peer with
  | .error e => (.error e, db)
  | .ok fingerprint =>
    let lanPeers := db.lanPeers.upsert
      { peer with fingerprint := fingerprint, firstSeen := now, lastSeen := now }
      (fun row => { peer with
        fingerprint := row.fingerprint, firstSeen := row.firstSeen, lastSeen := now })
      (fun _ => rfl)
    (match getLocalsendLanPeer { db with lanPeers } fingerprint with
      | .ok (some peer) => .ok peer
      | .ok none => .error (.trustStore "LocalSend LAN peer disappeared after insert")
      | .error e => .error e, { db with lanPeers })

/-! ### The status of a fingerprint -/

/-- The status in the row of a normalized fingerprint. -/
def status? (db : LocalSendDb) (f : String) : Option LocalSendPeerStatus :=
  (db.peers.find? f).map LocalSendPeer.status

theorem mem_trustedLocalsendFingerprints {db : LocalSendDb} {f : String} :
    f ∈ db.trustedLocalsendFingerprints ↔ db.status? f = some .trusted := by
  simp only [trustedLocalsendFingerprints, listLocalsendPeersByStatus, List.mem_map,
    (List.perm_insertionSort _ _).mem_iff, List.mem_filter, decide_eq_true_eq, status?,
    Option.map_eq_some_iff, Table.find?_eq_some_iff]
  constructor
  · rintro ⟨row, ⟨hrow, hstatus⟩, hf⟩
    exact ⟨row, ⟨hrow, hf⟩, hstatus⟩
  · rintro ⟨row, ⟨hrow, hf⟩, hstatus⟩
    exact ⟨row, ⟨hrow, hstatus⟩, hf⟩

theorem getLocalsendPeer_normalized {db : LocalSendDb} {fingerprint : String}
    (h : normalized fingerprint ≠ "") :
    db.getLocalsendPeer (normalized fingerprint) = .ok (db.peers.find? (normalized fingerprint)) := by
  rw [getLocalsendPeer, normalizeLocalsendFingerprint, normalized_normalized, if_neg h]
  rfl

theorem readBack_isOk {db : LocalSendDb} {fingerprint : String} (done : String)
    (h : normalized fingerprint ≠ "") (hsome : (db.peers.find? (normalized fingerprint)).isSome) :
    ∃ peer, db.readBack (normalized fingerprint) done = .ok peer := by
  obtain ⟨peer, hpeer⟩ := Option.isSome_iff_exists.mp hsome
  exact ⟨peer, by rw [readBack, getLocalsendPeer_normalized h, hpeer]⟩

theorem status?_upsert {db : LocalSendDb} {row : LocalSendPeer} {g : LocalSendPeer → LocalSendPeer}
    {hg : ∀ r, (g r).fingerprint = r.fingerprint} (f : String) :
    status? { db with peers := db.peers.upsert row g hg } f =
      if f = row.fingerprint then some (((db.peers.find? f).map g).getD row).status
      else db.status? f := by
  rw [status?, Table.find?_upsert]
  split_ifs <;> rfl

theorem checkSighting_eq (fingerprint aliasName : String) : checkSighting fingerprint aliasName =
    if normalized fingerprint = "" then .error (.trustStore "LocalSend fingerprint is required")
    else if isBlank aliasName then .error (.trustStore "LocalSend alias is required")
    else .ok (normalized fingerprint) := by
  unfold checkSighting normalizeLocalsendFingerprint requireNonblank
  split_ifs <;> rfl

section record

variable (status : LocalSendPeerStatus) (attempts more : ℕ) (db : LocalSendDb)
  {fingerprint aliasName : String} (sourceIp : Option String) (now : ℤ)

/-- **Recording a sighting** succeeds on a usable fingerprint and alias. -/
theorem recordLocalsendPeer_isOk (hf : normalized fingerprint ≠ "")
    (ha : isBlank aliasName = false) :
    ∃ peer, (recordLocalsendPeer status attempts more db fingerprint aliasName sourceIp now).1 =
      .ok peer := by
  rw [recordLocalsendPeer, checkSighting_eq, if_neg hf, if_neg (by simp [ha])]
  dsimp only
  exact readBack_isOk _ hf (by simp only [Table.find?_upsert, if_true, Option.isSome_some])

theorem recordLocalsendPeer_of_blank (hf : normalized fingerprint ≠ "")
    (ha : isBlank aliasName = true) :
    recordLocalsendPeer status attempts more db fingerprint aliasName sourceIp now =
      (.error (.trustStore "LocalSend alias is required"), db) := by
  rw [recordLocalsendPeer, checkSighting_eq, if_neg hf, if_pos ha]

/-- **A sighting decides the status of a new row only.** -/
theorem status?_recordLocalsendPeer (fingerprint aliasName f : String) :
    (recordLocalsendPeer status attempts more db fingerprint aliasName sourceIp now).2.status? f =
      if f = normalized fingerprint ∧ f ≠ "" ∧ isBlank aliasName = false then
        some ((db.status? f).getD status)
      else db.status? f := by
  rw [recordLocalsendPeer, checkSighting_eq]
  by_cases hf : normalized fingerprint = ""
  · rw [if_pos hf, if_neg fun h => h.2.1 (h.1.trans hf)]
  · cases ha : isBlank aliasName with
    | true => simp [hf]
    | false =>
      simp only [if_neg hf, Bool.false_eq_true, if_false, status?_upsert]
      by_cases he : f = normalized fingerprint
      · subst he
        simp only [if_true, status?, ne_eq, hf, not_false_eq_true, and_self]
        cases db.peers.find? (normalized fingerprint) <;> rfl
      · simp [he]

end record

/-- **Approving and denying** set the status. -/
theorem status?_setLocalsendPeerStatus (db : LocalSendDb) (fingerprint : String)
    (status : LocalSendPeerStatus) (label : Option String) (now : ℤ) (f : String) :
    (db.setLocalsendPeerStatus fingerprint status label now).2.status? f =
      if f = normalized fingerprint ∧ f ≠ "" then some status else db.status? f := by
  rw [setLocalsendPeerStatus, normalizeLocalsendFingerprint]
  by_cases hf : normalized fingerprint = ""
  · rw [if_pos hf, if_neg fun h => h.2 (h.1.trans hf)]
  · simp only [if_neg hf, status?_upsert]
    by_cases he : f = normalized fingerprint
    · subst he
      simp only [if_true, ne_eq, hf, not_false_eq_true, and_self]
      cases db.peers.find? (normalized fingerprint) <;> rfl
    · simp [he]

theorem peers_recordLocalsendLanPeer (db : LocalSendDb) (peer : LocalSendLanPeer) (now : ℤ) :
    (db.recordLocalsendLanPeer peer now).2.peers = db.peers := by
  unfold recordLocalsendLanPeer
  cases checkLanPeer peer <;> rfl

end LocalSendDb
end NightBridge.Core
