/-
# A client and a daemon agree on the wire

`connect` is a session of `send_prepared_native_files` with
`handle_native_connection`.  The pieces of the two programs, put one after the
other, are one schedule of the session (`path_gathered`, `path_published`);
since the steps of the two sides commute, every schedule ends where this one
does.

Up to the moment when the daemon has read `Done`, what it has on disk is what a
run that was cut off leaves (`Recoverable`), and this is all the next run needs.
So any number of runs may have been cut off before (`Earlier`).
-/

import NightBridge.Daemon.Exchange
import Mathlib.Algebra.BigOperators.Group.List.Basic

namespace NightBridge.Daemon

open Data Effect Native

/-- A client that has connected: its key, its store, and what the TLS session
exports. -/
structure Caller where
  keypair : Keypair
  store : Store
  binding : Bytes32

section session

variable [Primitives] [Serde]

omit [Serde] in
def Caller.hello (caller : Caller) (t : String) : Hello := clientHello caller.keypair t caller.binding

/-- The session of a caller with a daemon that has the store `s`. -/
def connect (daemon : Endpoint) (caller : Caller) (request : RequestTransfer)
    (paths : List Path) (s : Store) :
    Session Op Resp AnyError Unit Party where
  left := ⟨sendPreparedNativeFiles request paths caller.keypair,
    ⟨caller.store, ⟨[], [], caller.binding⟩, []⟩⟩
  right := ⟨handleNativeConnection daemon.nodeAlias daemon.pubkey daemon.inboxDir daemon.trustDbPath
    daemon.manifestPath,
    ⟨s, ⟨[], [], caller.binding⟩, []⟩⟩

/-- What the daemon reads and records: the `Hello`, the request, every planned
chunk and `Done`, and nothing else. -/
def transcript (hello : Hello) (request : RequestTransfer) (content : String → Bytes) : List Entry :=
  (controlBlocks (.hello hello)).map .read ++ (controlBlocks (.requestTransfer request)).map .read ++
    (plan request.files).flatMap (chunkEntries request.transferId content) ++
    (controlBlocks (.done ⟨request.transferId⟩)).map .read

/-- What the two sides need of a request. -/
structure Sendable (request : RequestTransfer) (content : String → Bytes) : Prop where
  offer : Offer request.transferId request.files content
  valid : request.Valid
  positive : ∀ o ∈ request.files, 0 < o.size
  total : (request.files.map FileOffer.size).sum ≤ maxNativeTransferBytes
  chunks : ∀ d ∈ plan request.files, (chunkOf content d.1 d.2).Fits
  asked : FitsFrame (.requestTransfer request)
  accept : FitsFrame (.accept ⟨request.transferId, defaultChunkSize⟩)
  done : FitsFrame (.done ⟨request.transferId⟩)

/-- The caller is trusted by a daemon with the store `s`, its sources hold what
they held in `fs`, and the handshake fits its frames. -/
structure Caller.Admitted (caller : Caller) (daemon : Endpoint) (t : String)
    (paths : List Path) (fs : Fs) (s : Store) : Prop where
  proof : authenticateHello (caller.hello t) caller.binding.1 = .ok ()
  trusted : Trusts s.trust caller.keypair.publicBytes
  sources : ∀ path ∈ paths, caller.store.fs.contents path = fs.contents path
  hello : FitsFrame (.hello (caller.hello t))
  ack : FitsFrame (.helloAck (helloAckOf daemon.nodeAlias daemon.pubkey (caller.hello t) (s.nonces 0)))

/-- Until it has read all of `Done`, the daemon has what a run that was cut off
leaves. -/
def Recoverable (daemon : Endpoint) (caller : Caller) (request : RequestTransfer)
    (content : String → Bytes) (q : Party) : Prop :=
  q.log.length < (transcript (caller.hello request.transferId) request content).length →
    Leftover daemon.inboxDir request.transferId request.files content q.store

/-! ### The schedule -/

variable {daemon : Endpoint} {caller : Caller} {request : RequestTransfer} {paths : List Path}
  {content : String → Bytes} {s : Store}

variable (daemon caller request content) in
theorem recoverable_feed (bytes : Bytes) (q : Party) :
    Recoverable daemon caller request content (quic.feed bytes q) ↔
      Recoverable daemon caller request content q := Iff.rfl

theorem recoverable_of_leftover {s : Store} (wire : Wire) (log : List Entry)
    (h : Leftover daemon.inboxDir request.transferId request.files content s) :
    Recoverable daemon caller request content ⟨s, wire, log⟩ := fun _ => h

omit [Primitives] [Serde] in
theorem leftover_nonces (h : Leftover daemon.inboxDir request.transferId request.files content s)
    (nonces : ℕ → Bytes) :
    Leftover daemon.inboxDir request.transferId request.files content { s with nonces := nonces } :=
  h.imp (fun h => ⟨h.wellFormed, h.unknown, h.way, h.empty⟩) fun h => h.congr rfl rfl rfl fun _ h => h

/-- **From the start to the request**: the daemon has answered the `Hello`, and
the request has arrived. -/
theorem path_asked {fs : Fs} (hserde : Serde.RoundTrips) (hasked : FitsFrame (.requestTransfer request))
    (hcaller : caller.Admitted daemon request.transferId paths fs s)
    (h : Leftover daemon.inboxDir request.transferId request.files content s) :
    ∃ p q : Party, Path quic (Recoverable daemon caller request content)
      (connect daemon caller request paths s)
        ⟨⟨upload request paths >>= fun _ => hangUp request.transferId, p⟩,
          ⟨withContext "failed to read native transfer request" readControl >>=
              serveRequest daemon.inboxDir daemon.manifestPath
                (peerOf (caller.hello request.transferId)),
            q.feed (frame (.requestTransfer request))⟩⟩ ∧
      Idle caller.store p ∧ q.store = { s with nonces := advance s.nonces } ∧ q.wire.inp = [] ∧
      q.log = (controlBlocks (.hello (caller.hello request.transferId))).map .read := by
  have hP := recoverable_feed daemon caller request content
  have hI : ∀ nonces wire log, Recoverable daemon caller request content
    ⟨{ s with nonces := nonces }, wire, log⟩ :=
    fun nonces wire log => recoverable_of_leftover wire log (leftover_nonces h nonces)
  have hdial := runs_dial (p := ⟨caller.store, ⟨[], [], caller.binding⟩, []⟩) hcaller.hello
  have hlisten := runs_listen (q := ⟨s, ⟨[], [], caller.binding⟩, []⟩) hserde (fun _ _ => hI _ _ _)
    hcaller.hello rfl
  have hgreet := runs_greet (q := ⟨s, ⟨[], [], caller.binding⟩,
      (controlBlocks (.hello (caller.hello request.transferId))).map .read⟩)
    hI hcaller.proof hcaller.trusted hcaller.ack daemon.trustDbPath
  obtain ⟨p, hask, hp⟩ := runs_ask hserde (p := Party.sent ⟨caller.store, ⟨[], [], caller.binding⟩, []⟩
    (frame (.hello (caller.hello request.transferId)))) ⟨rfl, rfl⟩ hcaller.ack hasked
  refine ⟨p, Party.sent ⟨{ s with nonces := advance s.nonces }, ⟨[], [], caller.binding⟩,
      (controlBlocks (.hello (caller.hello request.transferId))).map .read⟩
    (frame (.helloAck (helloAckOf daemon.nodeAlias daemon.pubkey (caller.hello request.transferId)
      (s.nonces 0)))),
    ?_, hp, rfl, rfl, rfl⟩
  rw [connect, sendPreparedNativeFiles_eq, handleNativeConnection_eq]
  refine (hdial.left hP (hI _ _ _)).trans ((hlisten.right_quiet (hI _ _ _)).trans ?_)
  exact (hgreet.right (hI _ _ _)).trans (hask.left hP (hI _ _ _))

/-- **From the start until the daemon has read `Done`.** -/
theorem path_gathered {fs : Fs} (hserde : Serde.RoundTrips) (hreq : Sendable request content)
    (hlen : request.files.length ≤ paths.length)
    (hsources : ∀ o path, (o, path) ∈ request.files.zip paths → fs.contents path =
      some (content o.fileId))
    (hcaller : caller.Admitted daemon request.transferId paths fs s)
    (h : Leftover daemon.inboxDir request.transferId request.files content s) :
    ∃ (p q : Party) (fs' : Fs), Path quic (Recoverable daemon caller request content)
        (connect daemon caller request paths s)
        ⟨⟨hangUp request.transferId, p⟩,
          ⟨publish (.trusted daemon.inboxDir (peerOf (caller.hello request.transferId)).fingerprint)
              request.transferId (.done ⟨request.transferId⟩) >>= fun _ => finishStream,
            q.got (controlBlocks (.done ⟨request.transferId⟩))⟩⟩ ∧
      Idle caller.store p ∧ s.fs.createDirAll (partDir daemon.inboxDir request.transferId) = .ok fs' ∧
      Reading daemon.inboxDir request content fs'
        ((controlBlocks (.hello (caller.hello request.transferId))).map .read ++
          (controlBlocks (.requestTransfer request)).map .read)
        (frame (.done ⟨request.transferId⟩)) (plan request.files) q := by
  obtain ⟨fs', hmk⟩ := Fs.createDirAll_isOk h.way
  have hP := recoverable_feed daemon caller request content
  have hI : ∀ s wire log, Leftover daemon.inboxDir request.transferId request.files content s →
      Recoverable daemon caller request content ⟨s, wire, log⟩ := fun s => recoverable_of_leftover
  obtain ⟨p, q, hasked, hp, hstore, hinp, hlog⟩ := path_asked hserde hreq.asked hcaller h
  have hq : Leftover daemon.inboxDir request.transferId request.files content q.store := by
    rw [hstore]
    exact leftover_nonces h _
  have hread := runs_read hserde (fun wire log => hI _ wire log hq) hreq.asked hinp []
  rw [List.append_nil] at hread
  have hfp : isBlank (peerOf (caller.hello request.transferId)).fingerprint = false := isBlank_display _
  obtain ⟨s', haccepts, hstaged, hfs'⟩ := runs_acceptRequest (q := { q with
      wire := { q.wire with inp := [] }, log :=
        q.log ++ (controlBlocks (.requestTransfer request)).map .read })
    hfp hreq.valid hreq.offer.stable hreq.total hreq.accept hq
    (by rw [hstore]; exact hmk) hI daemon.manifestPath
  obtain ⟨p', hupload, hp'⟩ := runs_upload hserde hp hreq.accept hreq.done hlen
    (fun o path hm => (hcaller.sources path (List.of_mem_zip hm).2).trans (hsources o path hm))
    hreq.offer.size hreq.chunks
  have hstart : Reading daemon.inboxDir request content fs'
      ((controlBlocks (.hello (caller.hello request.transferId))).map .read ++
        (controlBlocks (.requestTransfer request)).map .read) (frame (.done ⟨request.transferId⟩)) []
      (Party.feed ((plan request.files).flatMap (chunkBytes content) ++ frame
        (.done ⟨request.transferId⟩))
        (Party.sent ⟨s', { q.wire with inp := [] },
          q.log ++ (controlBlocks (.requestTransfer request)).map .read⟩
          (frame (.accept ⟨request.transferId, defaultChunkSize⟩)))) := by
    refine ⟨hstaged, ?_, nofun, ?_, fun rest hrest => ?_⟩
    · rw [← hfs']
      exact fun _ _ => ⟨rfl, rfl⟩
    · rw [Party.feed_log, Party.sent_log, hlog, List.flatMap_nil, List.append_nil]
    · rw [List.nil_append] at hrest
      rw [Party.feed_inp, Party.sent_inp, hrest, List.nil_append]
  obtain ⟨q', hgather, hq'⟩ := runs_gather hserde hreq.offer hreq.chunks hreq.done hstart hI
    (peerOf (caller.hello request.transferId)).fingerprint
  refine ⟨p', q', fs', hasked.trans ?_, hp', hmk, hq'⟩
  refine ((hread.mapError _).right_quiet (hI _ _ _ hq)).trans ?_
  refine (haccepts.right (hI _ _ _ hq)).trans ?_
  refine (hupload.left hP (hI _ _ _ (.inr hstaged))).trans ?_
  exact hgather.right_quiet (hI _ _ _ (.inr hstaged))

omit [Primitives] [Serde] in
theorem log_le_of_step {f f' : Session Op Resp AnyError Unit Party} (h : f.Step quic f') :
    f.right.state.log.length ≤ f'.right.state.log.length := by
  obtain ⟨who, h⟩ := h
  cases who with
  | true =>
    obtain ⟨⟨a, b⟩, hturn, rfl⟩ := Option.map_eq_some_iff.mp h
    obtain ⟨o, k, -, -, heq⟩ := Side.turn_eq_some hturn
    obtain ⟨rfl, rfl⟩ := Prod.mk.inj heq
    exact le_rfl
  | false =>
    obtain ⟨⟨a, b⟩, hturn, rfl⟩ := Option.map_eq_some_iff.mp h
    obtain ⟨o, k, -, -, heq⟩ := Side.turn_eq_some hturn
    obtain ⟨rfl, rfl⟩ := Prod.mk.inj heq
    simp [quic]

omit [Primitives] [Serde] in
theorem log_le_of_reaches {f f' : Session Op Resp AnyError Unit Party} (h : f.Reaches quic f') :
    f.right.state.log.length ≤ f'.right.state.log.length := by
  induction h with
  | refl => exact le_rfl
  | tail _ hstep ih => exact ih.trans (log_le_of_step hstep)

/-- **A run can be cut off at any moment before `Done`**: what is left then is
what the next run can start from. -/
theorem always_recoverable {fs : Fs} (hserde : Serde.RoundTrips) (hreq : Sendable request content)
    (hlen : request.files.length ≤ paths.length)
    (hsources : ∀ o path, (o, path) ∈ request.files.zip paths → fs.contents path =
      some (content o.fileId))
    (hcaller : caller.Admitted daemon request.transferId paths fs s)
    (h : Leftover daemon.inboxDir request.transferId request.files content s) :
    (connect daemon caller request paths s).Always quic (Recoverable daemon caller request content) := by
  obtain ⟨p, q, fs', hpath, -, -, hq⟩ := path_gathered hserde hreq hlen hsources hcaller h
  refine hpath.always (recoverable_feed daemon caller request content) fun f hreach hlt => ?_
  -- once `Done` has been read, the log is as long as it gets
  have hle := log_le_of_reaches hreach
  rw [Party.got_log, hq.log] at hle
  exact absurd hlt (not_lt.mpr hle)

/-- Runs of the request that were cut off before the daemon had read `Done`; the
sources hold what they held in `fs`, and the store was `s₀` before. -/
inductive Earlier (daemon : Endpoint) (request : RequestTransfer) (paths : List Path)
    (content : String → Bytes) (fs : Fs) (s₀ : Store) : Store → Prop
  | none : Earlier daemon request paths content fs s₀ s₀
  | cut {s : Store} {caller : Caller} {f : Session Op Resp AnyError Unit Party}
      (before : Earlier daemon request paths content fs s₀ s)
      (admitted : caller.Admitted daemon request.transferId paths fs s)
      (reached : (connect daemon caller request paths s).Reaches quic f)
      (cut : f.right.state.log.length < (transcript (caller.hello request.transferId) request
        content).length) :
      Earlier daemon request paths content fs s₀ f.right.state.store

theorem Earlier.leftover {fs : Fs} {s₀ : Store} (hserde : Serde.RoundTrips)
    (hreq : Sendable request content) (hlen : request.files.length ≤ paths.length)
    (hsources : ∀ o path, (o, path) ∈ request.files.zip paths → fs.contents path =
      some (content o.fileId))
    (h₀ : Unbegun daemon.inboxDir request.transferId s₀)
    (h : Earlier daemon request paths content fs s₀ s) :
    Leftover daemon.inboxDir request.transferId request.files content s := by
  induction h with
  | none => exact .inl h₀
  | cut _ hadmitted hreached hcut ih =>
    exact always_recoverable hserde hreq hlen hsources hadmitted ih _ hreached hcut

/-- **From `Done` to the end**, when names are free. -/
theorem path_published {fs : Fs} {log : List Entry} {later : Bytes} (hserde : Serde.RoundTrips)
    (hreq : Sendable request content)
    (hfree : (allocate (takenIn fs daemon.inboxDir) (offeredNames request.files)).isSome)
    {p q : Party} {cs : Store} (hp : Idle cs p)
    (hq : Reading daemon.inboxDir request content fs log later (plan request.files) q) {q' : Party}
    (hstore : q'.store = q.store) (fingerprint : String) :
    ∃ (p' : Party) (s' : Store), Path quic (fun _ => True)
        ⟨⟨hangUp request.transferId, p⟩,
          ⟨publish (.trusted daemon.inboxDir fingerprint) request.transferId
            (.done ⟨request.transferId⟩) >>=
            fun _ => finishStream, q'⟩⟩
        ⟨⟨.ret (), p'⟩, ⟨.ret (), Party.sent { q' with store := s' }
          (frame (.done ⟨request.transferId⟩))⟩⟩ ∧
      Idle cs p' ∧ s'.manifest.selectState request.transferId = some .completed ∧
      Gained daemon.inboxDir request.files content fs s'.fs := by
  obtain ⟨s', hpublish, hstate, hgained⟩ :=
    runs_publish hreq.offer hreq.done hreq.positive hreq.valid hfree hq
    hstore fingerprint
  obtain ⟨p', hhangUp, hp'⟩ := runs_hangUp hserde hp hreq.done
  refine ⟨p', s', (hpublish.right trivial).trans ?_, hp', hstate, hgained⟩
  rw [← bind_pure finishStream, ← bind_pure (hangUp request.transferId)]
  exact ((runs_finishStream trivial).right_quiet trivial).trans
    (hhangUp.left_quiet (fun _ _ => Iff.rfl) trivial)

/-- What a request prepared from the sources is. -/
theorem sendable_prepared {fs : Fs} (hall : List.Forall₂ (OfferOf fs) request.files paths)
    (hids : request.files.map FileOffer.fileId = (List.range request.files.length).map preparedId)
    (hne : paths ≠ []) (hpos : ∀ path ∈ paths, fs.contents path ≠ some [])
    (hnames : ∀ o ∈ request.files, isBlank o.fileName = false)
    (htotal : (request.files.map FileOffer.size).sum ≤ maxNativeTransferBytes)
    (hstable : Stable request.transferId) (hasked : FitsFrame (.requestTransfer request))
    (haccept : FitsFrame (.accept ⟨request.transferId, defaultChunkSize⟩))
    (hdone : FitsFrame (.done ⟨request.transferId⟩)) :
    Sendable request (sourceContent fs (request.files.zip paths)) := by
  obtain ⟨hoffer, -⟩ := offer_prepared hstable hall hids
  have hsizes := size_pos_prepared hall hpos
  have hcount : request.files.length ≤ (request.files.map FileOffer.size).sum := by
    rw [← List.length_map FileOffer.size]
    refine List.length_le_sum_of_one_le _ fun n hn => ?_
    obtain ⟨o, ho, rfl⟩ := List.mem_map.mp hn
    exact hsizes o ho
  refine ⟨hoffer, ⟨hstable.isBlank, ?_, fun o ho => ?_, nodup_fileIds hids, hnames⟩, hsizes,
    htotal, ?_, hasked,
    haccept, hdone⟩
  · rintro hnil
    have hlen := hall.length_eq
    rw [hnil] at hlen
    exact hne (List.length_eq_zero_iff.mp hlen.symm)
  · obtain ⟨k, -, hk⟩ := exists_preparedId hids ho
    rw [hk]
    exact isBlank_preparedId k
  · rintro ⟨o, c⟩ hd
    obtain ⟨ho, hc⟩ := mem_plan.mp hd
    exact fits_chunkOf hids (hcount.trans htotal) ho (hoffer.size o ho) hc

/-- **Client and daemon agree on the wire.**  A request is prepared from a list
of sources, not empty and each with bytes, that the receiver takes; any number
of runs of it have been cut off before `Done`; and now a trusted peer sends it,
with names free in the inbox.  Then, in whatever order the two sides take their
steps, both return `Ok`; the daemon has read the `Hello`, the request, the
planned chunks in order and `Done`, each as what it is, and recorded each chunk
as it came; nothing is left unread; and the inbox has gained the sources. -/
theorem exchange_agrees {s₀ s₁ d : Store} {w w' : Wire} (hserde : Serde.RoundTrips)
    (hprep : (NativeTransferSender.prepareRequest paths).run handler (s₀, w) = (.ok request, (s₁, w')))
    (hne : paths ≠ []) (hpos : ∀ path ∈ paths, s₀.fs.contents path ≠ some [])
    (hnames : ∀ o ∈ request.files, isBlank o.fileName = false)
    (htotal : (request.files.map FileOffer.size).sum ≤ maxNativeTransferBytes)
    (hstable : Stable request.transferId) (hasked : FitsFrame (.requestTransfer request))
    (haccept : FitsFrame (.accept ⟨request.transferId, defaultChunkSize⟩))
    (hdone : FitsFrame (.done ⟨request.transferId⟩))
    (hfirst : Unbegun daemon.inboxDir request.transferId d)
    (hearlier : Earlier daemon request paths (sourceContent s₀.fs (request.files.zip paths)) s₀.fs d s)
    (hcaller : caller.Admitted daemon request.transferId paths s₀.fs s)
    (hfree : ∀ fs', s.fs.createDirAll (partDir daemon.inboxDir request.transferId) = .ok fs' →
      (allocate (takenIn fs' daemon.inboxDir) (offeredNames request.files)).isSome) :
    ∃ f, (connect daemon caller request paths s).Ends quic f ∧
      f.left.rest = .ret () ∧ f.right.rest = .ret () ∧
      f.left.state.wire.inp = [] ∧ f.right.state.wire.inp = [] ∧
      f.right.state.log = transcript (caller.hello request.transferId) request
        (sourceContent s₀.fs (request.files.zip paths)) ∧
      f.right.state.store.manifest.selectState request.transferId = some .completed ∧
      Gained daemon.inboxDir request.files (sourceContent s₀.fs (request.files.zip paths)) s.fs
        f.right.state.store.fs ∧
      request.files.length = paths.length ∧
      ∀ o path, (o, path) ∈ request.files.zip paths →
        s₀.fs.contents path = some (sourceContent s₀.fs (request.files.zip paths) o.fileId) := by
  obtain ⟨-, -, hall, hids⟩ := run_prepareRequest hprep
  have hreq := sendable_prepared hall hids hne hpos hnames htotal hstable hasked haccept hdone
  obtain ⟨-, hsources⟩ := offer_prepared hstable hall hids
  have hlen := hall.length_eq
  have hleft := hearlier.leftover hserde hreq hlen.le hsources hfirst
  obtain ⟨p, q, fs', hgathered, hp, hmk, hq⟩ := path_gathered hserde hreq hlen.le hsources hcaller hleft
  obtain ⟨p', s', hpublished, hp', hstate, hgained⟩ := path_published hserde hreq (hfree fs' hmk) hp hq
    (q.got_store (controlBlocks (.done ⟨request.transferId⟩)))
    (peerOf (caller.hello request.transferId)).fingerprint
  refine ⟨_, ((hgathered.mono fun _ _ => trivial).trans hpublished).ends ?_, rfl, rfl, hp'.inp,
    ?_, ?_, hstate,
    hgained.of_createDirAll hmk, hlen, hsources⟩
  · exact not_step_of_stopped rfl rfl
  · change q.wire.inp.drop _ = []
    rw [hq.inp [] (by simp)]
    exact List.drop_length
  · change q.log ++ _ = _
    rw [hq.log]
    rfl

end session

/-! ### A run that was cut off, and the next one -/

def sampleCaller : Caller := ⟨⟨.pad [7]⟩, sourceStore, .pad []⟩

/-- The store of a daemon that trusts it. -/
def trustingDaemon : Store :=
  { Store.fresh with trust := (@Core.TrustDb.trust .sample .empty (.pad [7]) "peer" .autoAccept 0).2 }

/-- A codec for the messages of a run. -/
@[reducible] def runSerde (request : RequestTransfer) : Serde :=
  .table [.hello (@Caller.hello .sample sampleCaller request.transferId),
    .helloAck (helloAckOf "daemon" (.pad []) (@Caller.hello .sample sampleCaller request.transferId)
      (Store.fresh.nonces 0)),
    .requestTransfer request, .accept ⟨request.transferId, defaultChunkSize⟩, .done ⟨request.transferId⟩]

def sampleSession (request : RequestTransfer) (paths : List Path) (s : Store) :
    Session Op Resp AnyError Unit Party :=
  @connect .sample (runSerde request) sampleEndpoint sampleCaller request paths s

/-- The session after the daemon has written the chunk, and before it has
recorded it. -/
def cutSession : Session Op Resp AnyError Unit Party :=
  ((sampleSession sourceRequest [["src", "a.txt"]] trustingDaemon).play quic (List.replicate 4 true ++
    List.replicate 10 false ++ List.replicate 4 true ++ List.replicate 11 false ++
      List.replicate 13 true ++
    List.replicate 10 false)).getD (sampleSession sourceRequest [["src", "a.txt"]] trustingDaemon)

theorem cutSession_eq : (sampleSession sourceRequest [["src", "a.txt"]] trustingDaemon).play quic
    (List.replicate 4 true ++ List.replicate 10 false ++ List.replicate 4 true ++
      List.replicate 11 false ++
      List.replicate 13 true ++ List.replicate 10 false) = some cutSession := by
  have hsome : ((sampleSession sourceRequest [["src", "a.txt"]] trustingDaemon).play quic
      (List.replicate 4 true ++ List.replicate 10 false ++ List.replicate 4 true ++
        List.replicate 11 false ++
        List.replicate 13 true ++ List.replicate 10 false)).isSome := by decide +kernel
  obtain ⟨f, hf⟩ := Option.isSome_iff_exists.mp hsome
  rw [hf, cutSession, hf, Option.getD_some]

/-- What the daemon has left then: it has not seen the whole transcript, it
still trusts the client, and there are names for the files. -/
theorem cutSession_store :
    cutSession.right.state.log.length < (@transcript .sample (runSerde sourceRequest)
        (@Caller.hello .sample sampleCaller "uuid-0") sourceRequest
        (sourceContent sourceStore.fs (sourceRequest.files.zip [["src", "a.txt"]]))).length ∧
      (cutSession.right.state.store.trust.find?
        (@Core.Fingerprint.fromPubkey .sample (.pad [7])).display).map (·.policy) = some .autoAccept ∧
      cutSession.right.state.store.nonces 0 = [] ∧
      (match cutSession.right.state.store.fs.createDirAll (partDir ["inbox"] "uuid-0") with
        | .ok fs => (allocate (takenIn fs ["inbox"]) (offeredNames sourceRequest.files)).isSome
        | .error _ => true) = true := by
  -- one conjunction, so that the session is run once
  decide +kernel

theorem admitted_sample {s : Store} (htrust : (s.trust.find?
      (@Core.Fingerprint.fromPubkey .sample (.pad [7])).display).map (·.policy) = some .autoAccept)
    (hnonce : s.nonces 0 = []) :
    @Caller.Admitted .sample (runSerde sourceRequest) sampleCaller sampleEndpoint "uuid-0"
      [["src", "a.txt"]]
      sourceStore.fs s := by
  let _ : Primitives := .sample
  let _ : Serde := runSerde sourceRequest
  refine ⟨rfl, ?_, fun _ _ => rfl, by decide +kernel, ?_⟩
  · obtain ⟨row, hrow, hpolicy⟩ := Option.map_eq_some_iff.mp htrust
    have hget := Core.TrustDb.get_eq s.trust (Core.Fingerprint.fromPubkey (.pad [7]))
    rw [hrow] at hget
    exact ⟨_, hget, hpolicy⟩
  · rw [hnonce]
    decide +kernel

/-- The run after the one that was cut off delivers the file. -/
theorem exchange_agrees_cut : ∃ f,
    (sampleSession sourceRequest [["src", "a.txt"]] cutSession.right.state.store).Ends quic f ∧
      f.left.rest = .ret () ∧ f.right.rest = .ret () ∧
      f.left.state.wire.inp = [] ∧ f.right.state.wire.inp = [] ∧
      f.right.state.log = @transcript .sample (runSerde sourceRequest)
        (@Caller.hello .sample sampleCaller "uuid-0")
        sourceRequest (sourceContent sourceStore.fs (sourceRequest.files.zip [["src", "a.txt"]])) ∧
      f.right.state.store.manifest.selectState "uuid-0" = some .completed ∧
      Gained ["inbox"] sourceRequest.files
        (sourceContent sourceStore.fs (sourceRequest.files.zip [["src", "a.txt"]]))
        cutSession.right.state.store.fs f.right.state.store.fs ∧
      sourceRequest.files.length = 1 ∧
      ∀ o path, (o, path) ∈ sourceRequest.files.zip [["src", "a.txt"]] →
        sourceStore.fs.contents path = some
          (sourceContent sourceStore.fs (sourceRequest.files.zip [["src", "a.txt"]]) o.fileId) := by
  let _ : Primitives := .sample
  let _ : Serde := runSerde sourceRequest
  have hprep : (NativeTransferSender.prepareRequest [["src", "a.txt"]]).run handler
    (sourceStore, .fresh) =
      (.ok sourceRequest, (preparedStore, .fresh)) :=
    Prod.ext (by decide +kernel) (Prod.ext rfl (by decide +kernel))
  have hfirst : Unbegun ["inbox"] "uuid-0" trustingDaemon :=
    ⟨⟨nofun, nofun⟩, rfl, Fs.dirOk_empty _,
      fun f => by simp [Fs.lookup, resolve_part, trustingDaemon, Store.fresh, Fs.empty]⟩
  obtain ⟨hcut, htrusts, hnonce, hfree⟩ := cutSession_store
  have hearlier : Earlier sampleEndpoint sourceRequest [["src", "a.txt"]]
      (sourceContent sourceStore.fs (sourceRequest.files.zip [["src", "a.txt"]])) sourceStore.fs
        trustingDaemon
      cutSession.right.state.store :=
    .cut .none (admitted_sample (by decide +kernel) rfl) (path_play cutSession_eq).reaches hcut
  exact exchange_agrees (roundTrips_table (by decide +kernel)) hprep (by decide) (by decide +kernel)
    (by decide) (by decide) (by decide) (by decide +kernel) (by decide +kernel) (by decide +kernel) hfirst
    hearlier (admitted_sample htrusts hnonce) fun fs hfs => by
      change cutSession.right.state.store.fs.createDirAll (partDir ["inbox"] "uuid-0") = .ok fs at hfs
      rw [hfs] at hfree
      exact hfree

/-- **No list is sent without a file in it**: the request is prepared and then
refused, and neither side returns `Ok`. -/
theorem empty_list_refused :
    ((@NativeTransferSender.prepareRequest .sample []).run handler (.fresh, .fresh)).1 =
      .ok ⟨"uuid-0", []⟩ ∧
      ∃ f, (sampleSession ⟨"uuid-0", []⟩ [] trustingDaemon).Ends quic f ∧
        f.left.rest.outcome? = some (.error (.native (.io .unexpectedEof))) ∧
        f.right.rest.outcome? = some (.error (.context "failed to accept native transfer"
          (.native (.protocol "at least one file is required")))) := by
  exact ⟨by decide +kernel, ends_play (List.replicate 4 true ++ List.replicate 10 false ++
    List.replicate 4 true ++ List.replicate 3 false ++ [true]) (by decide +kernel)⟩

end NightBridge.Daemon
