/-
# The table of LocalSend peers as a log of calls

A row of `localsend_peers` can be read off the successful calls about its
fingerprint, in whatever spelling they were made.  Each such call leaves a
`PeerNote`: the alias and the address of a sighting, the decision and the label
of an approval, and its time.  The row then has

* the status of the last decision, or that of the sighting that made it;
* the last label, trimmed, and the last address that were not left out;
* as many attempts as `record_pending_localsend_peer` has succeeded;
* the time of the first call as its first sighting, and of the last one as its last.

`PeerNote.applied` is what one call does to the row; the four SQL statements do
just that (`find?_handle`), and the log grows in the same way
(`loggedRow_concat`).
-/

import NightBridge.Core.LocalSendPeers
import NightBridge.Effect.Log

namespace NightBridge.Core

open Data Effect

namespace LocalSendDb

/-- A call that writes the tables. -/
inductive PeerCall
  | recordPending (fingerprint aliasName : String) (sourceIp : Option String)
  | recordTrusted (fingerprint aliasName : String) (sourceIp : Option String)
  | recordLan (peer : LocalSendLanPeer)
  | approve (fingerprint : String) (label : Option String)
  | deny (fingerprint : String)

@[reducible] def PeerCall.Resp : PeerCall → Type
  | .recordPending .. => Except CoreError LocalSendPeer
  | .recordTrusted .. => Except CoreError LocalSendPeer
  | .recordLan _ => Except CoreError LocalSendLanPeer
  | .approve .. => Except CoreError LocalSendPeer
  | .deny _ => Except CoreError LocalSendPeer

/-- A call at the time the clock shows. -/
abbrev TimedPeerCall := ℤ × PeerCall

abbrev PeerEvent := Event TimedPeerCall fun c => c.2.Resp

def handle : Prog.Handler TimedPeerCall (fun c => c.2.Resp) LocalSendDb
  | (now, .recordPending fingerprint aliasName sourceIp), db =>
    recordPendingLocalsendPeer db fingerprint aliasName sourceIp now
  | (now, .recordTrusted fingerprint aliasName sourceIp), db =>
    recordTrustedLocalsendPeer db fingerprint aliasName sourceIp now
  | (now, .recordLan peer), db => db.recordLocalsendLanPeer peer now
  | (now, .approve fingerprint label), db => db.approveLocalsendPeer fingerprint label now
  | (now, .deny fingerprint), db => db.denyLocalsendPeer fingerprint now

/-! ### Decisions -/

/-- What a call decides about a normalized fingerprint. -/
def PeerCall.decides (f : String) : PeerCall → Option LocalSendPeerStatus
  | .approve fingerprint _ => if f = normalized fingerprint then some .trusted else none
  | .deny fingerprint => if f = normalized fingerprint then some .blocked else none
  | _ => none

/-- The last approval or denial of a normalized fingerprint. -/
def lastDecision (f : String) (calls : List PeerCall) : Option LocalSendPeerStatus :=
  calls.foldl (fun decided c => (c.decides f).or decided) none

theorem lastDecision_concat (f : String) (calls : List PeerCall) (c : PeerCall) :
    lastDecision f (calls ++ [c]) = (c.decides f).or (lastDecision f calls) := by
  rw [lastDecision, List.foldl_append]
  rfl

/-- **One call**: a decision sets the status, and nothing else changes the
status of a row. -/
theorem status?_handle {f : String} (hf : f ≠ "") (db : LocalSendDb) (c : TimedPeerCall) :
    (∃ d, c.2.decides f = some d ∧ (handle c db).2.status? f = some d) ∨
      (c.2.decides f = none ∧ ∀ status, db.status? f = some status →
        (handle c db).2.status? f = some status) := by
  obtain ⟨now, c⟩ := c
  have hset : ∀ (fingerprint : String) (status : LocalSendPeerStatus) (label : Option String),
      (f = normalized fingerprint ∧
        (db.setLocalsendPeerStatus fingerprint status label now).2.status? f = some status) ∨
      (f ≠ normalized fingerprint ∧
        (db.setLocalsendPeerStatus fingerprint status label now).2.status? f = db.status? f) := by
    intro fingerprint status label
    rw [status?_setLocalsendPeerStatus]
    by_cases h : f = normalized fingerprint
    · exact .inl ⟨h, if_pos ⟨h, hf⟩⟩
    · exact .inr ⟨h, if_neg fun h' => h h'.1⟩
  have hrecord : ∀ (new : LocalSendPeerStatus) (attempts more : ℕ) (fingerprint aliasName : String)
      (sourceIp : Option String) (status : LocalSendPeerStatus), db.status? f = some status →
      (recordLocalsendPeer new attempts more db fingerprint aliasName sourceIp now).2.status? f =
        some status := by
    intro new attempts more fingerprint aliasName sourceIp status hstatus
    rw [status?_recordLocalsendPeer, hstatus]
    split_ifs <;> rfl
  cases c with
  | recordPending fingerprint aliasName sourceIp => exact .inr ⟨rfl, hrecord _ _ _ _ _ _⟩
  | recordTrusted fingerprint aliasName sourceIp => exact .inr ⟨rfl, hrecord _ _ _ _ _ _⟩
  | recordLan peer =>
    refine .inr ⟨rfl, fun status hstatus => ?_⟩
    rw [handle, status?, peers_recordLocalsendLanPeer]
    exact hstatus
  | approve fingerprint label =>
    rcases hset fingerprint .trusted label with ⟨h, hs⟩ | ⟨h, hs⟩
    · exact .inl ⟨.trusted, if_pos h, hs⟩
    · exact .inr ⟨if_neg h, fun status hstatus => hs.trans hstatus⟩
  | deny fingerprint =>
    rcases hset fingerprint .blocked none with ⟨h, hs⟩ | ⟨h, hs⟩
    · exact .inl ⟨.blocked, if_pos h, hs⟩
    · exact .inr ⟨if_neg h, fun status hstatus => hs.trans hstatus⟩

/-- **The last decision stands**, whatever is recorded after it. -/
theorem status?_after {f : String} (hf : f ≠ "") {calls : List TimedPeerCall} {d : LocalSendPeerStatus}
    (h : lastDecision f (calls.map Prod.snd) = some d) : (after handle .empty calls).status? f = some d := by
  induction calls using List.reverseRecOn generalizing d with
  | nil => cases h
  | append_singleton calls c ih =>
    rw [List.map_append, List.map_singleton, lastDecision_concat] at h
    rw [after_concat]
    rcases status?_handle hf (after handle .empty calls) c with ⟨d', hdecides, hstatus⟩ | ⟨hdecides, hkeeps⟩
    · rw [hdecides] at h
      obtain rfl := Option.some.inj h
      exact hstatus
    · rw [hdecides] at h
      exact hkeeps d (ih h)

/-! ### The log -/

/-- What a successful call says about its fingerprint. -/
structure PeerNote where
  /-- The alias of a sighting. -/
  aliasName : Option String
  /-- The trimmed label of an approval, unless it is blank. -/
  label : Option String
  /-- An approval or a denial. -/
  decision : Option LocalSendPeerStatus
  /-- The status of a row the call makes. -/
  status : LocalSendPeerStatus
  /-- A rejected attempt. -/
  attempt : Bool
  sourceIp : Option String
  time : ℤ

def sighting (status : LocalSendPeerStatus) (attempt : Bool) (aliasName : String)
    (sourceIp : Option String) (now : ℤ) : PeerNote :=
  ⟨some aliasName, none, none, status, attempt, sourceIp, now⟩

def decision (status : LocalSendPeerStatus) (label : Option String) (now : ℤ) : PeerNote :=
  ⟨none, (label.map trim).filter (· ≠ ""), some status, status, false, none, now⟩

/-- The note a call leaves about a normalized fingerprint, if it succeeds. -/
def noted (f : String) : PeerEvent → Option PeerNote
  | ⟨(now, .recordPending fingerprint aliasName sourceIp), .ok _⟩ =>
    if normalized fingerprint = f then some (sighting .pending true aliasName sourceIp now) else none
  | ⟨(now, .recordTrusted fingerprint aliasName sourceIp), .ok _⟩ =>
    if normalized fingerprint = f then some (sighting .trusted false aliasName sourceIp now) else none
  | ⟨(now, .approve fingerprint label), .ok _⟩ =>
    if normalized fingerprint = f then some (decision .trusted label now) else none
  | ⟨(now, .deny fingerprint), .ok _⟩ =>
    if normalized fingerprint = f then some (decision .blocked none now) else none
  | _ => none

/-- The row some notes come to. -/
def rowOf (f : String) (notes : List PeerNote) : Option LocalSendPeer :=
  notes.head?.map fun first =>
    { fingerprint := f
      aliasName := (lastOf PeerNote.aliasName notes).getD ""
      label := lastOf PeerNote.label notes
      status := (lastOf PeerNote.decision notes).getD first.status
      firstSeen := first.time
      lastSeen := (notes.getLast?.map PeerNote.time).getD first.time
      attemptCount := notes.countP PeerNote.attempt
      sourceIp := lastOf PeerNote.sourceIp notes }

def loggedRow (f : String) (log : List PeerEvent) : Option LocalSendPeer :=
  rowOf f (log.filterMap (noted f))

/-! ### One call -/

/-- The row after a call: a new one, or the one that is there brought up to date. -/
def PeerNote.applied (f : String) (n : PeerNote) : Option LocalSendPeer → LocalSendPeer
  | none => ⟨f, n.aliasName.getD "", n.label, n.status, n.time, n.time, n.attempt.toNat, n.sourceIp⟩
  | some row => { row with
      aliasName := n.aliasName.getD row.aliasName
      label := n.label.or row.label
      status := n.decision.getD row.status
      lastSeen := n.time
      attemptCount := row.attemptCount + n.attempt.toNat
      sourceIp := n.sourceIp.or row.sourceIp }

/-- A note that decides gives a new row the status it decides. -/
def PeerNote.Consistent (n : PeerNote) : Prop := n.decision.getD n.status = n.status

theorem consistent_of_noted {f : String} {e : PeerEvent} {n : PeerNote} (h : noted f e = some n) :
    n.Consistent := by
  unfold noted at h
  split at h
  case h_5 => cases h
  all_goals
    obtain ⟨-, hn⟩ := Option.ite_none_right_eq_some.mp h
    cases hn
    rfl

theorem rowOf_concat {f : String} {notes : List PeerNote} {n : PeerNote} (hn : n.Consistent) :
    rowOf f (notes ++ [n]) = some (n.applied f (rowOf f notes)) := by
  have hattempt : [n].countP PeerNote.attempt = n.attempt.toNat := by
    cases h : n.attempt <;> simp [h]
  cases notes with
  | nil =>
    have hstatus : n.decision.getD n.status = n.status := hn
    simp [rowOf, PeerNote.applied, hstatus, hattempt]
  | cons first rest =>
    simp only [rowOf, PeerNote.applied, List.head?_append, List.head?_cons, Option.some_or,
      lastOf_concat,
      List.getLast?_append, List.getLast?_singleton, List.countP_append, hattempt, Option.map_some]
    cases n.aliasName <;> cases n.decision <;> simp

/-- **The log says the same as its calls one by one.** -/
theorem loggedRow_concat {f : String} {log : List PeerEvent} {e : PeerEvent} :
    loggedRow f (log ++ [e]) =
      match noted f e with
      | some n => some (n.applied f (loggedRow f log))
      | none => loggedRow f log := by
  rw [loggedRow, List.filterMap_append]
  cases h : noted f e with
  | none => simp [h, loggedRow]
  | some n =>
    rw [show [e].filterMap (noted f) = [n] by simp [h], rowOf_concat (consistent_of_noted h)]
    rfl

section statements

variable (db : LocalSendDb) (fingerprint : String) (now : ℤ)

/-- How a call on `localsend_peers` ends: it fails and changes nothing, or it
succeeds and leaves its note. -/
def Leaves (db : LocalSendDb) (key : String) (n : PeerNote)
    (out : Except CoreError LocalSendPeer × LocalSendDb) : Prop :=
  (∃ e, out = (.error e, db)) ∨
    ((∃ peer, out.1 = .ok peer) ∧ ∀ f, out.2.peers.find? f =
      if key = f then some (n.applied f (db.peers.find? f)) else db.peers.find? f)

/-- **Recording a sighting** leaves its note. -/
theorem leaves_recordLocalsendPeer (status : LocalSendPeerStatus) (attempt : Bool) (aliasName : String)
    (sourceIp : Option String) :
    Leaves db (normalized fingerprint) (sighting status attempt aliasName sourceIp now)
      (recordLocalsendPeer status attempt.toNat attempt.toNat db fingerprint aliasName
        sourceIp now) := by
  by_cases hf : normalized fingerprint = ""
  · rw [recordLocalsendPeer, checkSighting_eq, if_pos hf]
    exact .inl ⟨_, rfl⟩
  · cases ha : isBlank aliasName with
    | true => exact .inl ⟨_, recordLocalsendPeer_of_blank status _ _ db sourceIp now hf ha⟩
    | false =>
      refine .inr ⟨recordLocalsendPeer_isOk status _ _ db sourceIp now hf ha, fun f => ?_⟩
      rw [recordLocalsendPeer, checkSighting_eq, if_neg hf, if_neg (by simp [ha])]
      simp only [Table.find?_upsert, eq_comm (a := f)]
      split_ifs with h
      · subst h
        cases db.peers.find? (normalized fingerprint) <;> rfl
      · rfl

theorem leaves_recordPendingLocalsendPeer (aliasName : String) (sourceIp : Option String) :
    Leaves db (normalized fingerprint) (sighting .pending true aliasName sourceIp now)
      (recordPendingLocalsendPeer db fingerprint aliasName sourceIp now) :=
  leaves_recordLocalsendPeer db fingerprint now .pending true aliasName sourceIp

theorem leaves_recordTrustedLocalsendPeer (aliasName : String) (sourceIp : Option String) :
    Leaves db (normalized fingerprint) (sighting .trusted false aliasName sourceIp now)
      (recordTrustedLocalsendPeer db fingerprint aliasName sourceIp now) :=
  leaves_recordLocalsendPeer db fingerprint now .trusted false aliasName sourceIp

/-- **Approving and denying** leave their note. -/
theorem leaves_setLocalsendPeerStatus (status : LocalSendPeerStatus) (label : Option String) :
    Leaves db (normalized fingerprint) (decision status label now)
      (db.setLocalsendPeerStatus fingerprint status label now) := by
  unfold setLocalsendPeerStatus normalizeLocalsendFingerprint
  by_cases hf : normalized fingerprint = ""
  · rw [if_pos hf]
    exact .inl ⟨_, rfl⟩
  · rw [if_neg hf]
    refine .inr ⟨?_, fun f => ?_⟩
    · dsimp only
      exact readBack_isOk _ hf (by simp only [Table.find?_upsert, if_true, Option.isSome_some])
    simp only [Table.find?_upsert, eq_comm (a := f)]
    split_ifs with h
    · subst h
      cases db.peers.find? (normalized fingerprint) <;> rfl
    · rfl

end statements

/-- **One call** does to the table what its note does to the row. -/
theorem find?_handle (c : TimedPeerCall) (db : LocalSendDb) (f : String) :
    (handle c db).2.peers.find? f =
      match noted f ⟨c, (handle c db).1⟩ with
      | some n => some (n.applied f (db.peers.find? f))
      | none => db.peers.find? f := by
  obtain ⟨now, c⟩ := c
  cases c with
  | recordPending fingerprint aliasName sourceIp =>
    rcases leaves_recordPendingLocalsendPeer db fingerprint now aliasName sourceIp with
      ⟨e, he⟩ | ⟨⟨peer, hok⟩, hfind⟩
    · simp only [handle, he, noted]
    · simp only [handle, hok, hfind, noted]
      split_ifs <;> rfl
  | recordTrusted fingerprint aliasName sourceIp =>
    rcases leaves_recordTrustedLocalsendPeer db fingerprint now aliasName sourceIp with
      ⟨e, he⟩ | ⟨⟨peer, hok⟩, hfind⟩
    · simp only [handle, he, noted]
    · simp only [handle, hok, hfind, noted]
      split_ifs <;> rfl
  | recordLan peer =>
    simp only [handle, peers_recordLocalsendLanPeer]
    rfl
  | approve fingerprint label =>
    rcases leaves_setLocalsendPeerStatus db fingerprint now .trusted label with
      ⟨e, he⟩ | ⟨⟨peer, hok⟩, hfind⟩
    · simp only [handle, approveLocalsendPeer, he, noted]
    · simp only [handle, approveLocalsendPeer, hok, hfind, noted]
      split_ifs <;> rfl
  | deny fingerprint =>
    rcases leaves_setLocalsendPeerStatus db fingerprint now .blocked none with
      ⟨e, he⟩ | ⟨⟨peer, hok⟩, hfind⟩
    · simp only [handle, denyLocalsendPeer, he, noted]
    · simp only [handle, denyLocalsendPeer, hok, hfind, noted]
      split_ifs <;> rfl

/-- **After any calls the table says what the log says.** -/
theorem find?_after (calls : List TimedPeerCall) (f : String) :
    (after handle .empty calls).peers.find? f = loggedRow f (answers handle .empty calls) := by
  induction calls using List.reverseRecOn with
  | nil => rfl
  | append_singleton calls c ih =>
    rw [after_concat, answers_concat, loggedRow_concat, find?_handle, ih]

/-- Whether a call on the table of decisions succeeded. -/
def succeeded : PeerEvent → Bool
  | ⟨(_, .recordPending ..), r⟩ => r.isOk
  | ⟨(_, .recordTrusted ..), r⟩ => r.isOk
  | ⟨(_, .recordLan _), _⟩ => false
  | ⟨(_, .approve ..), r⟩ => r.isOk
  | ⟨(_, .deny _), r⟩ => r.isOk

/-- A failed call, and any `record_localsend_lan_peer`, leaves the table as it
is. -/
theorem peers_handle_of_failed {c : TimedPeerCall} {db : LocalSendDb}
    (h : succeeded ⟨c, (handle c db).1⟩ = false) : (handle c db).2.peers = db.peers := by
  obtain ⟨now, c⟩ := c
  have hleaves : ∀ {key : String} {n : PeerNote} {out : Except CoreError LocalSendPeer × LocalSendDb},
      Leaves db key n out → out.1.isOk = false → out.2.peers = db.peers := by
    rintro key n out (⟨e, rfl⟩ | ⟨⟨peer, hok⟩, -⟩) hfailed
    · rfl
    · rw [hok] at hfailed
      cases hfailed
  cases c with
  | recordPending fingerprint aliasName sourceIp =>
    have hcall := leaves_recordPendingLocalsendPeer db fingerprint now aliasName sourceIp
    simp only [handle, succeeded] at h ⊢
    generalize recordPendingLocalsendPeer db fingerprint aliasName sourceIp now = out at hcall h ⊢
    exact hleaves hcall h
  | recordTrusted fingerprint aliasName sourceIp =>
    have hcall := leaves_recordTrustedLocalsendPeer db fingerprint now aliasName sourceIp
    simp only [handle, succeeded] at h ⊢
    generalize recordTrustedLocalsendPeer db fingerprint aliasName sourceIp now = out at hcall h ⊢
    exact hleaves hcall h
  | recordLan peer => simp only [handle, peers_recordLocalsendLanPeer]
  | approve fingerprint label =>
    have hcall := leaves_setLocalsendPeerStatus db fingerprint now .trusted label
    simp only [handle, succeeded, approveLocalsendPeer] at h ⊢
    generalize db.setLocalsendPeerStatus fingerprint .trusted label now = out at hcall h ⊢
    exact hleaves hcall h
  | deny fingerprint =>
    have hcall := leaves_setLocalsendPeerStatus db fingerprint now .blocked none
    simp only [handle, succeeded, denyLocalsendPeer] at h ⊢
    generalize db.setLocalsendPeerStatus fingerprint .blocked none now = out at hcall h ⊢
    exact hleaves hcall h

/-- **The table of LocalSend peers refines its log.**  After any calls, at any
times and in any spelling, the row of a normalized fingerprint is the one the
log describes, and the first sighting in a row that is there never changes.  A
LAN sighting and a failed call change nothing. -/
theorem find?_eq_logged (calls : List TimedPeerCall) (f : String) :
    (after handle .empty calls).peers.find? f = loggedRow f (answers handle .empty calls) ∧
      (∀ row more, (after handle .empty calls).peers.find? f = some row →
        ∃ row', (after handle .empty (calls ++ more)).peers.find? f = some row' ∧
          row'.firstSeen = row.firstSeen) ∧
      ∀ c, succeeded ⟨c, (handle c (after handle .empty calls)).1⟩ = false →
        (after handle .empty (calls ++ [c])).peers = (after handle .empty calls).peers := by
  refine ⟨find?_after calls f, fun row more hrow => ?_, fun c hc => ?_⟩
  · induction more using List.reverseRecOn with
    | nil => exact ⟨row, by simpa using hrow, rfl⟩
    | append_singleton more c ih =>
      obtain ⟨row', hrow', hfirst⟩ := ih
      rw [← List.append_assoc, after_concat, find?_handle, hrow']
      cases noted f ⟨c, (handle c (after handle .empty (calls ++ more))).1⟩ with
      | none => exact ⟨row', rfl, hfirst⟩
      | some n => exact ⟨_, rfl, hfirst⟩
  · rw [after_concat]
    exact peers_handle_of_failed hc

end LocalSendDb
end NightBridge.Core
