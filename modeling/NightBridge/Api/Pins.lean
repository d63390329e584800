/-
# The pins of native sends

`docs/security/native-trust-audit.md`: an outbound native send is pinned to the
certificate in the trust store.  A request runs here against the store and a
world: the store answers its lookups, and the world everything else as it likes.
Others may write the store between any two calls of the request.

The pin is a function of the fingerprint and of the calls of the store, so
nothing the world says matters to it (`native_send_pinned`).
-/

import NightBridge.Api.Sends
import NightBridge.Core.TrustLog

namespace NightBridge.Api

open Data Effect NightBridge.Core NightBridge.Native

/-- What answers the calls of a request, but for the rows of the trust store. -/
structure World where
  answer : ℕ → (o : Op) → Resp o
  clock : ℕ → ℤ

/-- Run a call, the `n`-th of a request; a read of the store may fail. -/
def World.exec [Primitives] (world : World) : (o : Op) → TrustDb → ℕ → Resp o × TrustDb × ℕ
  | .trustGet f, db, n =>
    (match world.answer n (.trustGet f) with
      | .error e => .error e
      | .ok _ => db.get f, db, n + 1)
  | .trustWithNativeCertificate pubkey label policy cert, db, n =>
    let (r, db') := db.trustWithNativeCertificate pubkey label policy cert (world.clock n)
    (r, db', n + 1)
  | o, db, n => (world.answer n o, db, n + 1)

/-- The certificate that a native send is pinned to. -/
def Op.pin? : Op → Option String
  | .nativeSendToUrl _ _ _ pin => some pin
  | .nativeSendToCandidates _ _ _ pin => some pin
  | _ => none

theorem Op.role_of_pin? {o : Op} {pin : String} (h : o.pin? = some pin) : o.role = .send := by
  cases o with
  | nativeSendToUrl => rfl
  | nativeSendToCandidates => rfl
  | _ => cases h

section store

variable [Primitives] {world : World}

theorem get_of_exec {f : Fingerprint} {db : TrustDb} {n : ℕ} {peer : Peer}
    (h : (world.exec (.trustGet f) db n).1 = .ok (some peer)) : db.get f = .ok (some peer) := by
  rw [World.exec] at h
  split at h
  · cases h
  · exact h

theorem get_of_seen {p q : Handler String} {n n' : ℕ} {seen : List (Prog.Seen Op Resp TrustDb)}
    (hrun : Prog.Open world.exec p n seen q n') {db : TrustDb} {f : Fingerprint} {peer : Peer}
    (h : (db, ⟨.trustGet f, .ok (some peer)⟩) ∈ seen) : db.get f = .ok (some peer) := by
  let P : Prog.Seen Op Resp TrustDb → Prop := fun e =>
    ∀ f peer, e.2 = ⟨.trustGet f, .ok (some peer)⟩ → e.1.get f = .ok (some peer)
  refine (hrun.inv (I := fun _ => True) (P := P) (fun o db n _ => ⟨trivial, fun f peer he => ?_⟩)
    trivial).2 _ h
    f peer rfl
  obtain ⟨rfl, hr⟩ := Event.mk.inj he
  exact get_of_exec (eq_of_heq hr)

end store

section pins

variable [Primitives] [DebugText] (state : DaemonState) (request : SendRequest)

/-- The fingerprint a request is about: that of the discovered peer the
reference names, or the one it gives. -/
inductive Resolved (hist : Calls) : Fingerprint → Prop
  | lan {peerRef : String} {peers : List NativeLanPeer} {peer : NativeLanPeer}
      {fingerprint : Fingerprint}
      (target : request.target = some (.peerFingerprint peerRef))
      (discovered : (discover 1500 state.fingerprint).Returned hist peers)
      (resolved : resolvePeerRef peers peerRef = .ok peer)
      (parsed : Fingerprint.fromStr peer.fingerprint = .ok fingerprint) : Resolved hist fingerprint
  | wan {text : String} {fingerprint : Fingerprint} (target : request.target = some (.wanPeer text))
      (parsed : Fingerprint.fromStr text = .ok fingerprint) : Resolved hist fingerprint

/-- The request has found a row with `AutoAccept` for its fingerprint, and the
pin is what the log of the store, as it was then, says about that
fingerprint. -/
def TrustedPin (seen : List (Prog.Seen Op Resp TrustDb)) (pin : String) : Prop :=
  ∃ f peer db, Resolved state request (seen.map Prod.snd) f ∧
    (db, ⟨.trustGet f, .ok (some peer)⟩) ∈ seen ∧ peer.policy = .autoAccept ∧
    ∀ calls, after TrustDb.handle .empty calls = db →
      loggedPeer f (answers TrustDb.handle .empty calls) = some peer ∧
        loggedPin f (answers TrustDb.handle .empty calls) = some pin

variable {state request} {world : World}

/-- A row with a pin, found by the request, gives the pin the log says. -/
theorem TrustedPin.of_row {p q : Handler String} {n n' : ℕ} {seen : List (Prog.Seen Op Resp TrustDb)}
    (hrun : Prog.Open world.exec p n seen q n') {f : Fingerprint} {peer : Peer} {pin : String}
    (hresolved : Resolved state request (seen.map Prod.snd) f)
    (hrow : ⟨.trustGet f, .ok (some peer)⟩ ∈ seen.map Prod.snd)
    (hpin : nativeWanCertificateFingerprint peer = .ok pin) : TrustedPin state request seen pin := by
  obtain ⟨⟨db, e⟩, hmem, rfl⟩ := List.mem_map.mp hrow
  obtain ⟨hpolicy, hcert⟩ := pin_of_nativeWanCertificateFingerprint hpin
  refine ⟨f, peer, db, hresolved, hmem, hpolicy, ?_⟩
  rintro calls rfl
  have hget := get_of_seen hrun hmem
  rw [TrustDb.get_eq_peer?, TrustDb.peer?_after] at hget
  have hlogged := Except.ok.inj hget
  exact ⟨hlogged, (TrustDb.loggedPin_of_loggedPeer hlogged).trans hcert⟩

/-- **Native sends fail closed.**  Whatever the world answers, and whatever
others do to the store meanwhile, a request reaches a native send only with the
pin of a row with `AutoAccept` that it found for its fingerprint. -/
theorem native_send_pinned [Rendezvous.SocketAddrs] {seen : List (Prog.Seen Op Resp TrustDb)} {o : Op}
    {k : Resp o → Handler String} {n : ℕ}
    (hrun : Prog.Open world.exec (sendFiles state request) 0 seen (.call o k) n) {pin : String}
    (hpin : o.pin? = some pin) : TrustedPin state request seen pin := by
  have hjustified : Justified state request ([] ++ seen.map Prod.snd) o :=
    (hrun.wp (wp_sendFiles state request)).1
  rw [List.nil_append] at hjustified
  cases hjustified with
  | other ho => simp [Op.role_of_pin? hpin] at ho
  | localsendUrl => cases hpin
  | nativeLan target discovered resolved parsed row pinned =>
    cases hpin
    exact .of_row hrun (.lan target discovered resolved parsed) row pinned
  | localsendLan => cases hpin
  | wan target parsed row pinned =>
    cases hpin
    exact .of_row hrun (.wan target parsed) row pinned

end pins

/-- A world in which every file is there and the rendezvous server knows one
address. -/
def World.sample : World where
  clock _ := 0
  answer _
    | .metadata _ => .ok true
    | .newUuid => "t"
    | .emit _ => ()
    | .browse => .ok ()
    | .recvResolvedAll _ => .ok []
    | .shutdownBrowser => .ok ()
    | .intoValues peers => ⟨peers.rows, .refl _⟩
    | .localIpv4 => .ok ⟨192, 168, 0, 2⟩
    | .buildProbeClient => .ok ()
    | .spawnProbe _ => ()
    | .joinProbe => none
    | .openTrust => .ok ()
    | .trustGet _ => .ok none
    | .trustWithNativeCertificate .. => .error .panic
    | .recordLocalsendLanPeer peer => .ok peer
    | .listLocalsendLanPeers => .ok []
    | .rendezvousConnect _ => .ok ()
    | .rendezvousLookup _ => .ok (some ⟨"nas", .pad [1],
        [⟨.serverReflexive, "203.0.113.7:53400", 1⟩], 0⟩)
    | .rendezvousClose => ()
    | .localSendClientNew => .ok ()
    | .localSendClientPinned _ => .ok ()
    | .localSendSend .. => .ok ()
    | .nativeSendToUrl .. => .ok ()
    | .nativeSendToCandidates .. => .ok ()

/-- A store that trusts one key, with a certificate. -/
def sampleStore (cert : String) : TrustDb :=
  after (@TrustDb.handle .sample) .empty
    [(0, .trustWithNativeCertificate (.pad [1]) "nas" .autoAccept cert)]

/-- A daemon with a rendezvous server. -/
def DaemonState.sampleWan : DaemonState :=
  { DaemonState.sample with wan := ⟨true, some "https://rendezvous"⟩ }

/-- A request to send a file to the key that is trusted. -/
def SendRequest.sampleWan : SendRequest := ⟨["a.txt"], some (.wanPeer "0100-0000-0000-0000"), true⟩

/-- The request, up to its send. -/
def sampleRun (cert : String) : List (Prog.Seen Op Resp TrustDb) × Prog Op Resp
    (Raised Status) String × ℕ :=
  Prog.drive (@World.exec .sample .sample) (sampleStore cert) 8
    (@sendFiles .sample .sample .sample .sampleWan .sampleWan) 0

theorem native_send_pinned_wan :
    let cert := "00000000000000000000000000000000000000000000000000000000000000aa"
    (sampleRun cert).2.1.next?.bind Op.pin? = some cert ∧
      @TrustedPin .sample .sample .sampleWan .sampleWan (sampleRun cert).1 cert := by
  intro cert
  have hnext : (sampleRun cert).2.1.next?.bind Op.pin? = some cert := by decide +kernel
  refine ⟨hnext, ?_⟩
  obtain ⟨o, k, hpin, hrun⟩ := Prog.open_drive_bind (sampleRun.eq_1 cert) hnext
  exact @native_send_pinned .sample .sample _ _ _ .sample _ _ _ _ hrun _ hpin

end NightBridge.Api
