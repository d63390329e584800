/-
# Who may open an upload session

Under the policy `trusted` a request is let in when one of three sources names
its fingerprint: the configuration, the allowlist file, which is read for each
request, or the trust database.  A denial is a row of the database, so it takes
a peer out of that source and of no other.

A request also writes: the sighting of a peer that is let in is recorded, which
refuses a blank alias, so two requests of one peer need not get one answer.  And
a peer that the file names and that has no row gets one, as trusted; taking it
out of the file then does not take it out (`authorized_after_removal`).
-/

import NightBridge.Core.PeerLog
import NightBridge.LocalSend.Server

namespace NightBridge.LocalSend

open Data Effect NightBridge.Core LocalSendDb

/-- The allowlist, as a request reads it. -/
def allowlist (state : ServerState) (fs : Fs) : Except IoFailure (List String) :=
  match state.trustedFingerprintsFile with
  | none => .ok []
  | some path => (readText fs path).map listedFingerprints

/-- One of the three sources names the fingerprint. -/
def Named (state : ServerState) (listed : List String) (db : LocalSendDb) (f : String) : Prop :=
  f ∈ state.trustedFingerprints ∨ f ∈ listed ∨
    (state.trustDbPath.isSome ∧ db.status? f = some .trusted)

/-- The store after a statement on the tables of peers. -/
def Store.withPeers (s : Store) (peers : LocalSendDb) : Store :=
  { s with peers, clock := fun k => s.clock (k + 1) }

@[simp] theorem withPeers_peers (s : Store) (peers : LocalSendDb) :
    (s.withPeers peers).peers = peers := rfl

theorem withPeers_frame (s : Store) (peers : LocalSendDb) :
    (s.withPeers peers).fs = s.fs ∧ (s.withPeers peers).sessions = s.sessions := ⟨rfl, rfl⟩

section spec

variable {state : ServerState} {s : Store} {b : Body}

/-- The end of `trusted_fingerprints`: what the trust store adds to the two
lists. -/
theorem run_approved (listed : List String) : (do
      let approved ← match state.trustDbPath with
        | some _ => do
          openTrust
          .call .trustedLocalsendFingerprints (orSession "failed to read trusted LocalSend peers")
        | none => pure []
      pure (state.trustedFingerprints ++ listed ++ approved) : Io (List String)).run handler (s, b) =
    (.ok (state.trustedFingerprints ++ listed ++
      if state.trustDbPath.isSome then s.peers.trustedLocalsendFingerprints else []), (s, b)) := by
  cases state.trustDbPath with
  | none => rfl
  | some path => rfl

theorem run_trustedFingerprints :
    (trustedFingerprints state).run handler (s, b) =
      match allowlist state s.fs with
      | .error e => (.error (.io e), (s, b))
      | .ok listed => (.ok (state.trustedFingerprints ++ listed ++
          if state.trustDbPath.isSome then s.peers.trustedLocalsendFingerprints else []), (s, b)) := by
  unfold trustedFingerprints allowlist
  cases state.trustedFingerprintsFile with
  | none => exact run_approved []
  | some path =>
    have hread : (readTrustedFingerprintsFile path).run handler (s, b) =
        (((readText s.fs path).map listedFingerprints).mapError .io, (s, b)) := by
      simp only [readTrustedFingerprintsFile, readToString, Prog.call_bind, Prog.run_call, handler, exec,
        orIo, Prog.run_bind, Prog.run_ofExcept]
      cases readText s.fs path <;> rfl
    dsimp only
    rw [Prog.run_bind, hread]
    cases readText s.fs path with
    | error e => rfl
    | ok text => exact run_approved (listedFingerprints text)

variable {peer : DeviceInfo} {sourceIp : Option String} {f : String}

theorem run_recordTrusted (hdb : state.trustDbPath.isSome) :
    (recordTrustedLocalsendPeer state peer f sourceIp).run handler (s, b) =
      let r := LocalSendDb.recordTrustedLocalsendPeer s.peers f peer.aliasName sourceIp (s.clock 0)
      ((r.1.mapError fun e => .session ("failed to record trusted LocalSend peer: " ++
        showCoreError e)).map
        fun _ => (), (s.withPeers r.2, b)) := by
  obtain ⟨path, hpath⟩ := Option.isSome_iff_exists.mp hdb
  rw [recordTrustedLocalsendPeer, hpath]
  have hrun : ∀ r : Except CoreError LocalSendPeer × LocalSendDb, (do
        let _ ← orSession "failed to record trusted LocalSend peer" r.1
        pure () : Io Unit).run handler (s.withPeers r.2, b) =
      ((r.1.mapError fun e => .session ("failed to record trusted LocalSend peer: " ++
        showCoreError e)).map
        fun _ => (), (s.withPeers r.2, b)) := by
    rintro ⟨_ | _, db⟩ <;> rfl
  exact hrun _

theorem run_recordTrusted_none (hdb : ¬ state.trustDbPath.isSome) :
    (recordTrustedLocalsendPeer state peer f sourceIp).run handler (s, b) = (.ok (), (s, b)) := by
  rw [recordTrustedLocalsendPeer, Option.not_isSome_iff_eq_none.mp hdb]
  rfl

/-- A peer that is not let in is recorded, unless it is blocked. -/
theorem run_recordPending (state : ServerState) (s : Store) (b : Body) (peer : DeviceInfo)
    (sourceIp : Option String) (f : String) :
    ∃ r s', (recordPendingLocalsendPeer state peer f sourceIp).run handler (s, b) = (r, (s', b)) ∧
      (s' = s ∨ s' = s.withPeers
        (LocalSendDb.recordPendingLocalsendPeer s.peers f peer.aliasName sourceIp (s.clock 0)).2) := by
  unfold recordPendingLocalsendPeer
  cases state.trustDbPath with
  | none => exact ⟨_, _, rfl, .inl rfl⟩
  | some path =>
    have hrecord : ∃ r, (do
          let _ ← .call (.recordPendingLocalsendPeer f peer.aliasName sourceIp)
            (orSession "failed to record pending LocalSend peer")
          pure () : Io Unit).run handler (s, b) = (r, (s.withPeers
            (LocalSendDb.recordPendingLocalsendPeer s.peers f peer.aliasName sourceIp
              (s.clock 0)).2, b)) := by
      have hrun : ∀ r : Except CoreError LocalSendPeer × LocalSendDb, ∃ r', (do
            let _ ← orSession "failed to record pending LocalSend peer" r.1
            pure () : Io Unit).run handler (s.withPeers r.2, b) = (r', (s.withPeers r.2, b)) := by
        rintro ⟨_ | _, db⟩ <;> exact ⟨_, rfl⟩
      exact hrun _
    simp only [openTrust, Prog.call_bind, Prog.run_call, handler, exec, orSession, Except.mapError,
      Prog.ofExcept_ok, Prog.ret_bind, Prog.run_bind, Prog.run_ofExcept]
    cases s.peers.isLocalsendPeerBlocked f with
    | error e => exact ⟨_, _, rfl, .inl rfl⟩
    | ok blocked =>
      cases blocked with
      | true => exact ⟨_, _, rfl, .inl rfl⟩
      | false =>
        obtain ⟨r, hr⟩ := hrecord
        exact ⟨r, _, hr, .inr rfl⟩

theorem mem_trusted_iff {listed : List String} :
    (f ∈ state.trustedFingerprints ++ listed ++
      if state.trustDbPath.isSome then s.peers.trustedLocalsendFingerprints else []) ↔
      Named state listed s.peers f := by
  rw [List.append_assoc, List.mem_append, List.mem_append, Named]
  split_ifs with hdb
  · rw [mem_trustedLocalsendFingerprints]
    simp [hdb]
  · simp [hdb]

/-- How a request under the policy `trusted` goes: it is refused before the
sources are asked, or it is let in and recorded, or it is refused and
recorded. -/
theorem run_authorizePrepareUpload (hpolicy : state.receivePolicy = .trusted) :
    (∃ e, (authorizePrepareUpload state peer sourceIp).run handler (s, b) = (.error e, (s, b)) ∧
      (normalized peer.fingerprint = "" ∨ ∃ e, allowlist state s.fs = .error e)) ∨
    (normalized peer.fingerprint ≠ "" ∧ ∃ listed, allowlist state s.fs = .ok listed ∧
      (Named state listed s.peers (normalized peer.fingerprint) ∧
        (authorizePrepareUpload state peer sourceIp).run handler (s, b) =
          (recordTrustedLocalsendPeer state peer (normalized peer.fingerprint) sourceIp).run
            handler (s, b) ∨
      ¬ Named state listed s.peers (normalized peer.fingerprint) ∧
        ∃ e s', (authorizePrepareUpload state peer sourceIp).run handler (s, b) = (.error e, (s', b)) ∧
          (s' = s ∨ s' = s.withPeers (LocalSendDb.recordPendingLocalsendPeer s.peers
            (normalized peer.fingerprint) peer.aliasName sourceIp (s.clock 0)).2))) := by
  rw [authorizePrepareUpload, hpolicy]
  dsimp only
  rw [normalizeFingerprint]
  by_cases hf : normalized peer.fingerprint = ""
  · rw [if_pos hf]
    exact .inl ⟨_, rfl, .inl hf⟩
  rw [if_neg hf]
  dsimp only
  rw [Prog.run_bind, run_trustedFingerprints]
  cases hlist : allowlist state s.fs with
  | error e => exact .inl ⟨_, rfl, .inr ⟨e, rfl⟩⟩
  | ok listed =>
    dsimp only
    refine .inr ⟨hf, listed, rfl, ?_⟩
    by_cases hnamed : Named state listed s.peers (normalized peer.fingerprint)
    · rw [if_pos (mem_trusted_iff.mpr hnamed)]
      exact .inl ⟨hnamed, rfl⟩
    · rw [if_neg fun hmem => hnamed (mem_trusted_iff.mp hmem)]
      refine .inr ⟨hnamed, ?_⟩
      obtain ⟨r, s', hrun, hs'⟩ :=
        run_recordPending state s b peer sourceIp (normalized peer.fingerprint)
      cases r with
      | error e => exact ⟨e, s', Prog.run_bind_error _ hrun, hs'⟩
      | ok u => exact ⟨_, s', Prog.run_bind_ok _ hrun, hs'⟩

end spec

def Authorized (state : ServerState) (s : Store) (b : Body) (peer : DeviceInfo)
    (sourceIp : Option String) : Prop :=
  ((authorizePrepareUpload state peer sourceIp).run handler (s, b)).1 = .ok ()

instance (state : ServerState) (s : Store) (b : Body) (peer : DeviceInfo) (sourceIp : Option String) :
    Decidable (Authorized state s b peer sourceIp) := inferInstanceAs (Decidable (_ = _))

section decision

variable {state : ServerState} {s : Store} {b : Body} {peer : DeviceInfo} {sourceIp : Option String}

/-- **The decision**, under the policy `trusted`: the fingerprint is usable, a
source names it, and the sighting can be recorded. -/
theorem authorized_iff (hpolicy : state.receivePolicy = .trusted) :
    Authorized state s b peer sourceIp ↔
      normalized peer.fingerprint ≠ "" ∧ ∃ listed, allowlist state s.fs = .ok listed ∧
        Named state listed s.peers (normalized peer.fingerprint) ∧
        (state.trustDbPath.isSome → isBlank peer.aliasName = false) := by
  unfold Authorized
  rcases run_authorizePrepareUpload (s := s) (b := b) hpolicy with
    ⟨e, hrun, hwhy⟩ | ⟨hf, listed, hlist, ⟨hnamed, hrun⟩ | ⟨hnamed, e, s', hrun, -⟩⟩
  · rw [hrun]
    refine iff_of_false (fun h => nomatch h) ?_
    rintro ⟨hf, listed, hlist, -⟩
    rcases hwhy with h | ⟨e, h⟩
    · exact hf h
    · rw [h] at hlist
      cases hlist
  · rw [hrun]
    have hsources : (normalized peer.fingerprint ≠ "" ∧ ∃ listed, allowlist state s.fs = .ok listed ∧
        Named state listed s.peers (normalized peer.fingerprint) ∧
        (state.trustDbPath.isSome → isBlank peer.aliasName = false)) ↔
        (state.trustDbPath.isSome → isBlank peer.aliasName = false) :=
      ⟨fun h => h.2.choose_spec.2.2, fun h => ⟨hf, listed, hlist, hnamed, h⟩⟩
    rw [hsources]
    by_cases hdb : state.trustDbPath.isSome
    · rw [run_recordTrusted hdb]
      have hf' : normalized (normalized peer.fingerprint) ≠ "" := by rwa [normalized_normalized]
      cases ha : isBlank peer.aliasName with
      | true =>
        have hr := recordLocalsendPeer_of_blank .trusted 0 0 s.peers sourceIp (s.clock 0) hf' ha
        simp only [LocalSendDb.recordTrustedLocalsendPeer, hr]
        exact iff_of_false (fun h => nomatch h) fun h => nomatch h hdb
      | false =>
        obtain ⟨row, hr⟩ := recordLocalsendPeer_isOk .trusted 0 0 s.peers sourceIp (s.clock 0) hf' ha
        simp only [LocalSendDb.recordTrustedLocalsendPeer, hr]
        exact iff_of_true rfl fun _ => trivial
    · rw [run_recordTrusted_none hdb]
      exact iff_of_true rfl fun h => absurd h hdb
  · rw [hrun]
    refine iff_of_false (fun h => nomatch h) ?_
    rintro ⟨-, listed', hlist', hnamed', -⟩
    obtain rfl := Except.ok.inj (hlist.symm.trans hlist')
    exact hnamed hnamed'

/-- **What a request writes**: at most a row for its fingerprint where there is
none, as pending, or as trusted when the configuration or the file names it. -/
theorem authorize_effect (hpolicy : state.receivePolicy = .trusted) :
    ∃ r s', (authorizePrepareUpload state peer sourceIp).run handler (s, b) = (r, (s', b)) ∧
      s'.fs = s.fs ∧ s'.sessions = s.sessions ∧
      ∀ f, s'.peers.status? f = s.peers.status? f ∨
        (s.peers.status? f = none ∧ f = normalized peer.fingerprint ∧
          (s'.peers.status? f = some .pending ∨
            (s'.peers.status? f = some .trusted ∧ state.trustDbPath.isSome ∧
              (f ∈ state.trustedFingerprints ∨ ∃ listed, allowlist state s.fs = .ok listed ∧
                f ∈ listed)))) := by
  -- a sighting changes the status of its own fingerprint only, and only where there is no row
  have hrecord : ∀ (new : LocalSendPeerStatus) (attempts more : ℕ) (f : String),
      (recordLocalsendPeer new attempts more s.peers (normalized peer.fingerprint)
        peer.aliasName sourceIp
          (s.clock 0)).2.status? f = s.peers.status? f ∨
        (s.peers.status? f = none ∧ f = normalized peer.fingerprint ∧
          (recordLocalsendPeer new attempts more s.peers (normalized peer.fingerprint) peer.aliasName
            sourceIp (s.clock 0)).2.status? f = some new) := by
    intro new attempts more f
    rw [status?_recordLocalsendPeer, normalized_normalized]
    split_ifs with h
    · cases hs : s.peers.status? f with
      | none => exact .inr ⟨rfl, h.1, rfl⟩
      | some status => exact .inl rfl
    · exact .inl rfl
  rcases run_authorizePrepareUpload (s := s) (b := b) hpolicy with
    ⟨e, hrun, -⟩ | ⟨-, listed, hlist, ⟨hnamed, hrun⟩ | ⟨-, e, s', hrun, hs'⟩⟩
  · exact ⟨_, _, hrun, rfl, rfl, fun f => .inl rfl⟩
  · by_cases hdb : state.trustDbPath.isSome
    · rw [run_recordTrusted hdb] at hrun
      refine ⟨_, _, hrun, (withPeers_frame _ _).1, (withPeers_frame _ _).2, fun f => ?_⟩
      rw [withPeers_peers, LocalSendDb.recordTrustedLocalsendPeer]
      rcases hrecord .trusted 0 0 f with h | ⟨hnone, rfl, h⟩
      · exact .inl h
      · refine .inr ⟨hnone, rfl, .inr ⟨h, hdb, ?_⟩⟩
        rcases hnamed with hconfig | hlisted | ⟨-, htrusted⟩
        · exact .inl hconfig
        · exact .inr ⟨listed, hlist, hlisted⟩
        · rw [hnone] at htrusted
          cases htrusted
    · rw [hrun, run_recordTrusted_none hdb]
      exact ⟨_, _, rfl, rfl, rfl, fun f => .inl rfl⟩
  · rcases hs' with rfl | rfl
    · exact ⟨_, _, hrun, rfl, rfl, fun f => .inl rfl⟩
    · refine ⟨_, _, hrun, (withPeers_frame _ _).1, (withPeers_frame _ _).2, fun f => ?_⟩
      rw [withPeers_peers, LocalSendDb.recordPendingLocalsendPeer]
      rcases hrecord .pending 1 1 f with h | ⟨hnone, hf, h⟩
      · exact .inl h
      · exact .inr ⟨hnone, hf, .inl h⟩

theorem sessions_of_not_authorized (hpolicy : state.receivePolicy = .trusted)
    (files : BTreeMap String FileMeta) (h : ¬ Authorized state s b peer sourceIp) :
    ((prepareUpload state ⟨peer, files⟩ sourceIp).run handler (s, b)).2.1.sessions = s.sessions := by
  obtain ⟨r, s', hrun, -, hsessions, -⟩ := authorize_effect (s := s) (b := b) hpolicy
  rw [Authorized, hrun] at h
  cases r with
  | ok u => exact absurd rfl h
  | error e => rw [prepareUpload, Prog.run_bind_error _ hrun, hsessions]

end decision

/-! ### Denied peers -/

/-- **What a denial does.**  When the last decision on a fingerprint is a
denial, a request of that peer is let in exactly when the configuration or the
file names it, and can be recorded.  A request that is not let in opens no
session. -/
theorem authorized_denied_iff {config : LocalSendServerConfig}
    (hpolicy : config.receivePolicy = .trusted)
    {calls : List TimedPeerCall} {s : Store} (hpeers : s.peers = after LocalSendDb.handle .empty calls)
    {peer : DeviceInfo}
    (hdenied : lastDecision (normalized peer.fingerprint) (calls.map Prod.snd) = some .blocked)
    (b : Body) (sourceIp : Option String) :
    (Authorized config.bind s b peer sourceIp ↔
      normalized peer.fingerprint ≠ "" ∧ ∃ listed, allowlist config.bind s.fs = .ok listed ∧
        (normalized peer.fingerprint ∈ config.bind.trustedFingerprints ∨
          normalized peer.fingerprint ∈ listed) ∧
        (config.trustDbPath.isSome → isBlank peer.aliasName = false)) ∧
      ∀ files, ¬ Authorized config.bind s b peer sourceIp →
        ((prepareUpload config.bind ⟨peer, files⟩ sourceIp).run handler (s, b)).2.1.sessions =
          s.sessions := by
  refine ⟨?_, fun files h => sessions_of_not_authorized hpolicy files h⟩
  rw [authorized_iff (show config.bind.receivePolicy = .trusted from hpolicy)]
  refine and_congr_right fun hf => exists_congr fun listed => and_congr_right fun _ => ?_
  -- the database does not name a blocked peer
  have hblocked : s.peers.status? (normalized peer.fingerprint) ≠ some .trusted := by
    rw [hpeers, status?_after hf hdenied]
    decide
  have hnamed : Named config.bind listed s.peers (normalized peer.fingerprint) ↔
      (normalized peer.fingerprint ∈ config.bind.trustedFingerprints ∨
        normalized peer.fingerprint ∈ listed) := by
    simp [Named, hblocked]
  exact and_congr_left fun _ => hnamed

/-- A server that trusts one peer by its configuration, and has a trust database. -/
def oneTrusted : LocalSendServerConfig where
  inboxDir := ["inbox"]
  sessionTtl := 10
  receivePolicy := .trusted
  trustedFingerprints := ["ab-cd"]
  trustedFingerprintsFile := none
  trustDbPath := some ["trust.db"]

/-- A server without configured peers that reads an allowlist. -/
def fileTrusted : LocalSendServerConfig :=
  { oneTrusted with trustedFingerprints := [], trustedFingerprintsFile := some ["trusted"] }

def deniedStore : Store := { Store.fresh 10 with peers := after LocalSendDb.handle .empty [(0, .deny "ABCD")] }

/-- A denied peer that no source names is kept out. -/
theorem authorized_denied_iff_unlisted :
    ¬ Authorized { oneTrusted with trustedFingerprints := [] }.bind deniedStore .empty
      oneFileOffer.info none := by
  intro h
  have hpeers : deniedStore.peers = after LocalSendDb.handle .empty [(0, .deny "ABCD")] := rfl
  obtain ⟨-, listed, hlist, hnamed, -⟩ :=
    (authorized_denied_iff rfl hpeers (by decide +kernel) .empty none).1.mp h
  obtain rfl := Except.ok.inj hlist
  revert hnamed
  decide +kernel

/-- **A denied peer is let in** when the configuration names it. -/
theorem denied_authorized :
    lastDecision (normalized oneFileOffer.info.fingerprint) [.deny "ABCD"] = some .blocked ∧
      Authorized oneTrusted.bind deniedStore .empty oneFileOffer.info none := by
  decide +kernel

/-! ### Runs of the server -/

inductive ServerEvent
  /-- `prepare-upload`, or the legacy `send-request`, which asks the same. -/
  | request (offer : PrepareUploadRequest) (sourceIp : Option String)
  /-- Someone edits files; the allowlist may be among them. -/
  | edit (fs : Fs)
  | approve (fingerprint : String) (label : Option String)
  | deny (fingerprint : String)

def ServerEvent.step (state : ServerState) (s : Store) : ServerEvent → Store
  | .request offer sourceIp => ((prepareUpload state offer sourceIp).run handler (s, .empty)).2.1
  | .edit fs => { s with fs }
  | .approve fingerprint label => s.withPeers
      (s.peers.approveLocalsendPeer fingerprint label (s.clock 0)).2
  | .deny fingerprint => s.withPeers (s.peers.denyLocalsendPeer fingerprint (s.clock 0)).2

/-- The call by which an operator decides. -/
def ServerEvent.decision : ServerEvent → Option PeerCall
  | .approve fingerprint label => some (.approve fingerprint label)
  | .deny fingerprint => some (.deny fingerprint)
  | _ => none

def serve (state : ServerState) (s : Store) (events : List ServerEvent) : Store :=
  events.foldl (ServerEvent.step state) s

/-- A request that the file alone lets in is from a peer with a row in the trust
database. -/
def ServerEvent.HasRow (state : ServerState) (s : Store) : ServerEvent → Prop
  | .request offer _ =>
    state.trustDbPath.isSome → normalized offer.info.fingerprint ∉ state.trustedFingerprints →
    (∃ listed, allowlist state s.fs = .ok listed ∧ normalized offer.info.fingerprint ∈ listed) →
    s.peers.status? (normalized offer.info.fingerprint) ≠ none
  | _ => True

/-- Every event of a run meets it. -/
def AllHaveRows (state : ServerState) : Store → List ServerEvent → Prop
  | _, [] => True
  | s, event :: rest => event.HasRow state s ∧ AllHaveRows state (event.step state s) rest

theorem allHaveRows_concat {state : ServerState} {s : Store} {events : List ServerEvent}
    {event : ServerEvent} :
    AllHaveRows state s (events ++ [event]) ↔
      AllHaveRows state s events ∧ event.HasRow state (serve state s events) := by
  induction events generalizing s with
  | nil => simp [AllHaveRows, serve]
  | cons e events ih =>
    simp only [List.cons_append, AllHaveRows, ih, and_assoc]
    rfl

section runs

variable {state : ServerState} {s : Store}

theorem peers_request (offer : PrepareUploadRequest) (sourceIp : Option String) :
    ((prepareUpload state offer sourceIp).run handler (s, .empty)).2.1.peers =
      ((authorizePrepareUpload state offer.info sourceIp).run handler (s, .empty)).2.1.peers := by
  rw [prepareUpload, Prog.run_bind]
  rcases (authorizePrepareUpload state offer.info sourceIp).run handler (s, .empty) with ⟨_ | u, s', b'⟩
  · rfl
  · simp only [Prog.run_call, handler, exec, Prog.run_ofExcept]

/-- The peers the database trusts are named by the configuration or were
approved last. -/
def TrustedByDecision (state : ServerState) (db : LocalSendDb) (decisions : List PeerCall) : Prop :=
  ∀ f, f ≠ "" → db.status? f = some .trusted →
    f ∈ state.trustedFingerprints ∨ lastDecision f decisions = some .trusted

theorem TrustedByDecision.set {db : LocalSendDb} {decisions : List PeerCall}
    (h : TrustedByDecision state db decisions) {c : PeerCall} {fingerprint : String}
    {status : LocalSendPeerStatus} (label : Option String) (now : ℤ)
    (hc : ∀ f, c.decides f = if f = normalized fingerprint then some status else none) :
    TrustedByDecision state (db.setLocalsendPeerStatus fingerprint status label now).2
      (decisions ++ [c]) := by
  intro f hf htrusted
  rw [status?_setLocalsendPeerStatus] at htrusted
  rw [lastDecision_concat, hc]
  by_cases he : f = normalized fingerprint
  · rw [if_pos ⟨he, hf⟩] at htrusted
    rw [if_pos he]
    exact .inr htrusted
  · rw [if_neg fun h' => he h'.1] at htrusted
    rw [if_neg he]
    exact h f hf htrusted

/-- **Every event keeps it**, a request provided that its peer has a row. -/
theorem TrustedByDecision.step (hpolicy : state.receivePolicy = .trusted) {decisions : List PeerCall}
    (h : TrustedByDecision state s.peers decisions) {event : ServerEvent} (hrow : event.HasRow state s) :
    TrustedByDecision state (event.step state s).peers (decisions ++ event.decision.toList) := by
  cases event with
  | request offer sourceIp =>
    simp only [ServerEvent.decision, Option.toList_none, List.append_nil, ServerEvent.step,
      peers_request]
    obtain ⟨r, s', hrun, -, -, hstatus⟩ := authorize_effect (s := s) (b := .empty) hpolicy
    rw [hrun]
    intro f hf htrusted
    rcases hstatus f with hsame | ⟨hnone, rfl, hpending | ⟨-, hdb, hconfig | hlisted⟩⟩
    · exact h f hf (hsame.symm.trans htrusted)
    · rw [hpending] at htrusted
      cases htrusted
    · exact .inl hconfig
    · by_cases hconfig : normalized offer.info.fingerprint ∈ state.trustedFingerprints
      · exact .inl hconfig
      · exact absurd hnone (hrow hdb hconfig hlisted)
  | edit fs =>
    simp only [ServerEvent.decision, Option.toList_none, List.append_nil]
    exact h
  | approve fingerprint label => exact h.set label (s.clock 0) fun f => rfl
  | deny fingerprint => exact h.set none (s.clock 0) fun f => rfl

theorem trustedByDecision_serve (hpolicy : state.receivePolicy = .trusted) (hempty : s.peers = .empty)
    {events : List ServerEvent} (hrows : AllHaveRows state s events) :
    TrustedByDecision state (serve state s events).peers (events.filterMap ServerEvent.decision) := by
  induction events using List.reverseRecOn with
  | nil =>
    intro f _ htrusted
    rw [serve, List.foldl_nil, hempty] at htrusted
    cases htrusted
  | append_singleton events event ih =>
    obtain ⟨hbefore, hrow⟩ := allHaveRows_concat.mp hrows
    have hstep := (ih hbefore).step hpolicy hrow
    rw [serve, List.foldl_append, List.filterMap_append]
    cases hd : event.decision with
    | none =>
      rw [hd] at hstep
      simpa [hd, serve] using hstep
    | some c =>
      rw [hd] at hstep
      simpa [hd, serve] using hstep

/-- **Authorization follows the sources.**  In a run from an empty trust
database in which every request that the file alone lets in is from a peer with
a row, a request is let in only if the configuration or the file as it is now
names its peer, or the last decision on the peer is an approval. -/
theorem authorized_named (hpolicy : state.receivePolicy = .trusted) (hempty : s.peers = .empty)
    {events : List ServerEvent} (hrows : AllHaveRows state s events) {b : Body} {peer : DeviceInfo}
    {sourceIp : Option String} (h : Authorized state (serve state s events) b peer sourceIp) :
    normalized peer.fingerprint ∈ state.trustedFingerprints ∨
      (∃ listed, allowlist state (serve state s events).fs = .ok listed ∧
        normalized peer.fingerprint ∈ listed) ∨
      lastDecision (normalized peer.fingerprint) (events.filterMap ServerEvent.decision) =
        some .trusted := by
  obtain ⟨hf, listed, hlist, hconfig | hlisted | ⟨-, htrusted⟩, -⟩ := (authorized_iff hpolicy).mp h
  · exact .inl hconfig
  · exact .inr (.inl ⟨listed, hlist, hlisted⟩)
  · rcases trustedByDecision_serve hpolicy hempty hrows _ hf htrusted with hconfig | happroved
    · exact .inl hconfig
    · exact .inr (.inr happroved)

end runs

/-- A tree with this allowlist. -/
def allowlistFile (text : String) : Fs :=
  match Fs.empty.create ["trusted"] with
  | .ok (file, fs) => fs.writeAt file 0 (utf8 text)
  | .error _ => .empty

/-- The file names a peer, which is approved and makes a request, and is emptied. -/
def approvedOnce : List ServerEvent :=
  [.edit (allowlistFile "AB:CD"), .approve "AB:CD" none, .request oneFileOffer none,
    .edit (allowlistFile "")]

/-- A peer that was approved is let in after it was taken out of the file. -/
theorem authorized_named_approved :
    allowlist fileTrusted.bind (serve fileTrusted.bind (.fresh 10) approvedOnce).fs = .ok [] ∧
      lastDecision "abcd" (approvedOnce.filterMap ServerEvent.decision) = some .trusted := by
  have hf : normalized oneFileOffer.info.fingerprint = "abcd" := by decide +kernel
  have hfile : allowlist fileTrusted.bind (serve fileTrusted.bind (.fresh 10) approvedOnce).fs =
      .ok [] := by decide +kernel
  have h : Authorized fileTrusted.bind (serve fileTrusted.bind (.fresh 10) approvedOnce) .empty
      oneFileOffer.info none := by decide +kernel
  -- the request finds the row that the approval made
  have hrow : (serve fileTrusted.bind (.fresh 10) (approvedOnce.take 2)).peers.status?
      (normalized oneFileOffer.info.fingerprint) ≠ none := by decide +kernel
  have hrows : AllHaveRows fileTrusted.bind (.fresh 10) approvedOnce :=
    ⟨trivial, trivial, fun _ _ _ => hrow, trivial, trivial⟩
  refine ⟨hfile, ?_⟩
  rw [← hf]
  rcases authorized_named rfl rfl hrows h with hconfig | ⟨listed, hlist, hlisted⟩ | happroved
  · exact absurd hconfig (by decide +kernel)
  · rw [hfile] at hlist
    cases hlist
    cases hlisted
  · exact happroved

/-- The file names a peer, which makes a request, and is emptied. -/
def listedOnce : List ServerEvent :=
  [.edit (allowlistFile "AB:CD"), .request oneFileOffer none, .edit (allowlistFile "")]

/-- **A peer that was taken out of the file is still let in**, though nobody
ever approved it. -/
theorem authorized_after_removal :
    normalized oneFileOffer.info.fingerprint ∉ fileTrusted.bind.trustedFingerprints ∧
      allowlist fileTrusted.bind (serve fileTrusted.bind (.fresh 10) listedOnce).fs = .ok [] ∧
      lastDecision (normalized oneFileOffer.info.fingerprint)
        (listedOnce.filterMap ServerEvent.decision) = none ∧
      Authorized fileTrusted.bind (serve fileTrusted.bind (.fresh 10) listedOnce) .empty
        oneFileOffer.info none := by
  decide +kernel

/-! ### Two requests of one peer -/

/-- **When the decision depends on identity alone.**  Two requests whose
fingerprints are the same get the same answer, in one state, exactly when no
sighting would be recorded, or both aliases are blank, or neither is. -/
theorem sameDecision_iff {state : ServerState} {s : Store} {b b' : Body} {peer peer' : DeviceInfo}
    {sourceIp sourceIp' : Option String}
    (h : normalized peer.fingerprint = normalized peer'.fingerprint) :
    (Authorized state s b peer sourceIp ↔ Authorized state s b' peer' sourceIp') ↔
      state.receivePolicy ≠ .trusted ∨ state.trustDbPath = none ∨
        (¬ ∃ listed, allowlist state s.fs = .ok listed ∧ normalized peer.fingerprint ≠ "" ∧
          Named state listed s.peers (normalized peer.fingerprint)) ∨
        (isBlank peer.aliasName = isBlank peer'.aliasName) := by
  by_cases hpolicy : state.receivePolicy = .trusted
  · rw [authorized_iff hpolicy, authorized_iff hpolicy, ← h]
    by_cases hnamed : ∃ listed, allowlist state s.fs = .ok listed ∧ normalized peer.fingerprint ≠ "" ∧
        Named state listed s.peers (normalized peer.fingerprint)
    · obtain ⟨listed, hlist, hf, hn⟩ := hnamed
      -- both decisions come down to what recording says
      have hdecided : ∀ blank : Bool, (normalized peer.fingerprint ≠ "" ∧
          ∃ listed, allowlist state s.fs = .ok listed ∧
            Named state listed s.peers (normalized peer.fingerprint) ∧
            (state.trustDbPath.isSome → blank = false)) ↔
          (state.trustDbPath.isSome → blank = false) := fun blank =>
        ⟨fun hd => hd.2.choose_spec.2.2, fun hd => ⟨hf, listed, hlist, hn, hd⟩⟩
      rw [hdecided, hdecided]
      cases hdb : state.trustDbPath with
      | none => simp
      | some path =>
        have hex : ∃ listed, allowlist state s.fs = .ok listed ∧ normalized peer.fingerprint ≠ "" ∧
            Named state listed s.peers (normalized peer.fingerprint) := ⟨listed, hlist, hf, hn⟩
        cases isBlank peer.aliasName <;> cases isBlank peer'.aliasName <;> simp [hpolicy, hex]
    · refine iff_of_true (iff_of_false ?_ ?_) (.inr (.inr (.inl hnamed)))
      · rintro ⟨hf, listed, hlist, hn, -⟩
        exact hnamed ⟨listed, hlist, hf, hn⟩
      · rintro ⟨hf, listed, hlist, hn, -⟩
        exact hnamed ⟨listed, hlist, hf, hn⟩
  · refine iff_of_true ?_ (.inl hpolicy)
    unfold Authorized authorizePrepareUpload
    cases hp : state.receivePolicy with
    | trusted => exact absurd hp hpolicy
    | auto => rfl
    | prompt => rfl

/-- The same phone without a name. -/
def unnamedPhone : DeviceInfo := { oneFileOffer.info with aliasName := " " }

/-- The same phone with another name. -/
def renamedPhone : DeviceInfo := { oneFileOffer.info with aliasName := "Tablet", fingerprint := "ab-cd" }

theorem sameDecision_iff_renamed :
    (Authorized oneTrusted.bind (.fresh 10) .empty oneFileOffer.info none ↔
      Authorized oneTrusted.bind (.fresh 10) .empty renamedPhone (some "10.0.0.2")) := by
  have h : normalized oneFileOffer.info.fingerprint = normalized renamedPhone.fingerprint := by
    decide +kernel
  exact (sameDecision_iff h).mpr (.inr (.inr (.inr (by decide))))

/-- **The alias decides**: a trusted phone is let in, and kept out when it has
no name. -/
theorem unnamed_not_authorized :
    normalized oneFileOffer.info.fingerprint = normalized unnamedPhone.fingerprint ∧
      Authorized oneTrusted.bind (.fresh 10) .empty oneFileOffer.info none ∧
      ¬ Authorized oneTrusted.bind (.fresh 10) .empty unnamedPhone none := by
  decide +kernel

end NightBridge.LocalSend
