/-
# The two sides of an exchange

`send_prepared_native_files` runs against `handle_native_connection` on one QUIC
stream that carries control frames and chunk frames with nothing that tells them
apart.  The client sends the chunks that `plan_chunks` lists (`plan`), and the
daemon reads as many chunk frames as a division of the sizes comes to
(`expected_chunk_count`); the two agree (`expectedChunkCount_eq`).

Both programs are cut where they wait for the other, and each piece is followed
call by call: `dial`, `ask`, `upload` and `hangUp` of the client, `greet`,
`acceptRequest`, `gather` and `publish` of the daemon.
-/

import NightBridge.Daemon.Receive
import NightBridge.Native.Client
import NightBridge.Native.Leftover
import NightBridge.Native.Planned
import NightBridge.Native.Resume

namespace NightBridge.Daemon

open Data Effect Native

/-! ### The plan -/

/-- The chunks of the files, in the order they are sent. -/
def plan (files : List FileOffer) : List (FileOffer × ChunkRange) :=
  files.flatMap fun o => (chunksFrom o.size defaultChunkSize 0).map fun c => (o, c)

theorem mem_plan {files : List FileOffer} {o : FileOffer} {c : ChunkRange} :
    (o, c) ∈ plan files ↔ o ∈ files ∧ c ∈ chunksFrom o.size defaultChunkSize 0 := by
  simp [plan]

theorem divCeil_eq (a : ℕ) {b : ℕ} (hb : 0 < b) : divCeil a b = (a + b - 1) / b := by
  have hmod := Nat.mod_lt a hb
  have hdiv := Nat.div_add_mod a b
  -- `q` full chunks and a rest below `b`
  have key : ∀ q rest, rest < b → (rest + b * q) / b = q := fun q rest hrest => by
    rw [Nat.add_mul_div_left _ _ hb, Nat.div_eq_of_lt hrest, Nat.zero_add]
  unfold divCeil
  split_ifs with h
  · have hsplit : a + b - 1 = (a % b - 1) + b * (a / b + 1) := by
      rw [Nat.mul_add]
      omega
    rw [hsplit, key _ _ (by omega)]
  · have hsplit : a + b - 1 = (b - 1) + b * (a / b) := by omega
    rw [hsplit, key _ _ (by omega)]

theorem length_chunksFrom {chunk : ℕ} (hc : 0 < chunk) (size offset : ℕ) :
    (chunksFrom size chunk offset).length = divCeil (size - offset) chunk := by
  rw [divCeil_eq _ hc]
  induction offset using chunksFrom.induct size chunk with
  | case1 offset h ih =>
    rw [chunksFrom_of_lt h.1 h.2, List.length_cons, ih, ← Nat.add_div_right _ hc]
    rcases Nat.le_total (size - offset) chunk with hlast | hmore
    · -- the last chunk may be short
      have hone : ∀ n, chunk ≤ n → n < 2 * chunk → n / chunk = 1 := fun n h1 h2 =>
        Nat.div_eq_of_lt_le (by omega) (by omega)
      rw [hone _ (by omega) (by omega), hone _ (by omega) (by omega)]
    · congr 1
      omega
  | case2 offset h =>
    rw [chunksFrom, if_neg h, List.length_nil, Nat.div_eq_of_lt (by omega)]

/-- **The two counts agree.** -/
theorem expectedChunkCount_eq (request : RequestTransfer) :
    expectedChunkCount request defaultChunkSize = (plan request.files).length := by
  have hc : 0 < defaultChunkSize := by decide
  rw [expectedChunkCount, plan, List.length_flatMap]
  refine congrArg List.sum (List.map_congr_left fun o _ => ?_)
  rw [List.length_map, length_chunksFrom hc, Nat.sub_zero]
  split_ifs with h
  · rw [h]
    rfl
  · rfl

theorem each_const {ε α β : Type} (body : Io ε Unit) {xs : List α} {ys : List β}
    (h : xs.length = ys.length) :
    (Prog.each xs fun _ => body : Io ε Unit) = Prog.each ys fun _ => body := by
  induction xs generalizing ys with
  | nil =>
    obtain rfl := List.length_eq_zero_iff.mp h.symm
    rfl
  | cons x xs ih =>
    cases ys with
    | nil => cases h
    | cons y ys => rw [Prog.each_cons, Prog.each_cons, ih (Nat.succ.inj h)]

section client

variable [Primitives] {files : List FileOffer} {content : String → Bytes}

/-- The planned chunks of a prepared request fit their frames: the ids are
short, since there are no more files than bytes. -/
theorem fits_chunkOf (hids : files.map FileOffer.fileId = (List.range files.length).map preparedId)
    (hcount : files.length ≤ maxNativeTransferBytes) {o : FileOffer} (ho : o ∈ files)
    (hsize : (content o.fileId).length = o.size) {c : ChunkRange}
    (hc : c ∈ chunksFrom o.size defaultChunkSize 0) : (chunkOf content o c).Fits := by
  obtain ⟨-, hpos, hle, hstop⟩ := mem_chunksFrom hc
  have hend : c.offset + c.length ≤ o.size := hstop
  have hlt := o.size_lt
  have hlen : (chunkOf content o c).bytes.length = c.length := slice_length (by omega)
  obtain ⟨k, hk, hid⟩ := exists_preparedId hids ho
  have hmax : maxNativeTransferBytes ≤ 10 ^ 11 := by decide
  have hshort : (utf8 o.fileId).length ≤ 16 := by
    rw [hid]
    exact length_utf8_preparedId (show 0 < 11 by decide) (lt_of_lt_of_le hk (hcount.trans hmax))
  have hblank : isBlank (chunkOf content o c).fileId = false := by
    rw [show (chunkOf content o c).fileId = preparedId k from hid]
    exact isBlank_preparedId k
  refine ⟨⟨utf8_ne_nil hblank, ?_, ?_, rfl, ?_⟩, hblank, ?_⟩
  · exact lt_of_le_of_lt hshort (by decide)
  · exact lt_of_le_of_lt (Nat.le_of_add_right_le hend) hlt
  · have hchunk : defaultChunkSize + 94 ≤ maxChunkFrameBytes := by decide
    rw [TransferChunk.frameLen, hlen, show (chunkOf content o c).fileId = o.fileId from rfl]
    omega
  · exact List.length_pos_iff.mp (by omega)

/-- The bytes of a planned chunk's frame. -/
def chunkBytes (content : String → Bytes) (d : FileOffer × ChunkRange) : Bytes :=
  (chunkBlocks (chunkOf content d.1 d.2)).flatten

omit [Primitives] in
/-- A loop each of whose rounds sends something. -/
theorem runs_each_sends {ι ε : Type} {body : ι → Io ε Unit} {xs : List ι} {sends : ι → Bytes} {p : Party}
    (h : ∀ x ∈ xs, ∀ q : Party, q.store = p.store →
      Runs quic (fun _ => True) (body x) q (sends x) () (q.sent (sends x))) :
    Runs quic (fun _ => True) (Prog.each xs body) p (xs.flatMap sends) ()
      (p.sent (xs.flatMap sends)) := by
  have hround : ∀ done x rest q, xs = done ++ x :: rest → q = p.sent (done.flatMap sends) →
      ∃ q', Runs quic (fun _ => True) (body x) q (sends x) () q' ∧ q' =
        p.sent ((done ++ [x]).flatMap sends) := by
    rintro done x rest q hsplit rfl
    refine ⟨_, h x (by simp [hsplit]) _ rfl, ?_⟩
    rw [Party.sent_sent, List.flatMap_append, List.flatMap_singleton]
  obtain ⟨q, hrun, rfl⟩ := Runs.each (fun done q => q = p.sent (done.flatMap sends)) hround
    (show p = p.sent [] by simp [Party.sent])
  exact hrun

variable {p : Party}

/-- **`send_file_chunks`** sends the planned chunks of a file. -/
theorem runs_sendFileChunks {o : FileOffer} {path : Path}
    (hsource : p.store.fs.contents path = some (content o.fileId))
    (hsize : (content o.fileId).length = o.size)
    (hfits : ∀ c ∈ chunksFrom o.size defaultChunkSize 0, (chunkOf content o c).Fits) :
    Runs quic (fun _ => True) (sendFileChunks path o.fileId o.size defaultChunkSize) p
      ((plan [o]).flatMap (chunkBytes content)) ()
        (p.sent ((plan [o]).flatMap (chunkBytes content))) := by
  obtain ⟨file, hfile, hdata⟩ := Fs.lookup_of_contents hsource
  have hplan : (plan [o]).flatMap (chunkBytes content) =
      (chunksFrom o.size defaultChunkSize 0).flatMap fun c => chunkBytes content (o, c) := by
    simp [plan, List.flatMap_map]
  have hopen : Runs quic (fun _ => True) (.call (.openRead path) orAnyIo) p [] file p :=
    runs_store (o := .openRead path) (r := .ok file) rfl rfl
      (by rw [exec, Fs.openRead_of_file hfile]) rfl trivial rfl
  rw [hplan, sendFileChunks]
  refine hopen.then ?_
  rw [planChunks_of_pos (show 0 < defaultChunkSize by decide)]
  refine runs_each_sends fun c hc q hq => ?_
  have hend : c.offset + c.length ≤ o.size := (mem_chunksFrom hc).2.2.2
  have hread : q.store.fs.readExactAt file c.offset c.length = .ok (chunkOf content o c).bytes := by
    rw [hq, Fs.readExactAt, hdata, if_pos (by omega)]
    rfl
  have hbytes : Runs quic (fun _ => True) (.call (.readExactAt file c.offset c.length) orAnyIo) q []
      (chunkOf content o c).bytes q :=
    runs_store (o := .readExactAt _ _ _) (r := .ok _) rfl rfl (by rw [exec, hread]) rfl trivial rfl
  exact hbytes.then ((runs_writeChunkFrame (hfits c hc) fun _ => trivial).mapError _)

variable [Serde]

/-! The client, cut where it waits. -/

/-- `send_prepared_native_files` up to its `Hello`. -/
def dial (keypair : Keypair) (t : String) : Io AnyError Unit := do
  openBi
  let channelBinding ← orAny connectionChannelBinding
  orAny (writeControl (.hello (clientHello keypair t channelBinding)))

omit [Primitives] in
/-- From the answer to `Hello` to the request. -/
def ask (request : RequestTransfer) : Io AnyError Unit := do
  expectHelloAck (← orAny readControl)
  orAny (writeControl (.requestTransfer request))

/-- From the answer to the request to `Done`. -/
def upload (request : RequestTransfer) (paths : List Path) : Io AnyError Unit := do
  let accepted ← expectAccept request.transferId (← orAny readControl)
  .each (request.files.zip paths) fun (file, path) =>
    sendFileChunks path file.fileId file.size accepted.chunkSize
  orAny (writeControl (.done ⟨request.transferId⟩))

omit [Primitives] in
/-- From the answer to `Done` to the end. -/
def hangUp (t : String) : Io AnyError Unit := do
  expectDone t (← orAny readControl)
  .call .sendFinish orAnyIo

theorem sendPreparedNativeFiles_eq (request : RequestTransfer) (paths : List Path) (keypair : Keypair) :
    sendPreparedNativeFiles request paths keypair = (dial keypair request.transferId >>= fun _ =>
      ask request >>= fun _ => upload request paths >>= fun _ => hangUp request.transferId) := by
  simp only [sendPreparedNativeFiles, dial, ask, upload, hangUp, bind_assoc]

def frame (message : ControlMessage) : Bytes := (controlBlocks message).flatten

theorem runs_dial {keypair : Keypair} {t : String}
    (hfits : FitsFrame (.hello (clientHello keypair t p.wire.binding))) :
    Runs quic (fun _ => True) (dial keypair t) p
      (frame (.hello (clientHello keypair t p.wire.binding))) ()
      (p.sent (frame (.hello (clientHello keypair t p.wire.binding)))) := by
  have hopen : Runs quic (fun _ => True) openBi p [] () p :=
    runs_store (o := .openBi) (r := .ok ()) rfl rfl rfl rfl trivial rfl
  have hbind : Runs quic (fun _ => True) connectionChannelBinding p [] p.wire.binding p :=
    runs_store (o := .exportKeyingMaterial) (r := .ok p.wire.binding) rfl rfl rfl rfl trivial rfl
  exact hopen.then ((hbind.mapError _).then ((runs_writeControl hfits fun _ => trivial).mapError _))

omit [Primitives] in
theorem runs_read {I : Party → Prop} (hserde : Serde.RoundTrips)
    (hI : ∀ wire log, I ⟨p.store, wire, log⟩)
    {message : ControlMessage} (hfits : FitsFrame message) (hinp : p.wire.inp = []) (later : Bytes) :
    Runs quic I readControl (p.feed (frame message ++ later)) [] message
      { p with wire := { p.wire with inp := later }, log :=
        p.log ++ (controlBlocks message).map .read } := by
  have hgot : (p.feed (frame message ++ later)).got (controlBlocks message) =
      { p with wire := { p.wire with inp := later }, log :=
        p.log ++ (controlBlocks message).map .read } := by
    simp [Party.feed, Party.got, hinp, frame]
  rw [← hgot]
  refine runs_readControl (p := p.feed _) hfits (fun _ _ => hI _ _) hserde ?_
  rw [Party.Next, Party.feed_inp, hinp]
  exact List.prefix_append _ _

/-- A client that has read everything goes on to do so. -/
structure Idle (store : Store) (p : Party) : Prop where
  store : p.store = store
  inp : p.wire.inp = []

variable {cs : Store} (hserde : Serde.RoundTrips) (hp : Idle cs p)

include hserde hp

omit [Primitives] in
theorem runs_ask {request : RequestTransfer} {ack : HelloAck} (hack : FitsFrame (.helloAck ack))
    (hfits : FitsFrame (.requestTransfer request)) :
    ∃ p', Runs quic (fun _ => True) (ask request) (p.feed (frame (.helloAck ack)))
      (frame (.requestTransfer request)) () p' ∧ Idle cs p' := by
  have hread := runs_read (I := fun _ => True) hserde (fun _ _ => trivial) hack hp.inp []
  rw [List.append_nil] at hread
  exact ⟨_, (hread.mapError _).then (Runs.ret.then
    ((runs_writeControl hfits fun _ => trivial).mapError _)),
    hp.store, rfl⟩

theorem runs_upload {request : RequestTransfer} {paths : List Path}
    (haccept : FitsFrame (.accept ⟨request.transferId, defaultChunkSize⟩))
    (hdone : FitsFrame (.done ⟨request.transferId⟩)) (hlen : request.files.length ≤ paths.length)
    (hsources : ∀ o path, (o, path) ∈ request.files.zip paths → cs.fs.contents path =
      some (content o.fileId))
    (hsize : ∀ o ∈ request.files, (content o.fileId).length = o.size)
    (hfits : ∀ d ∈ plan request.files, (chunkOf content d.1 d.2).Fits) :
    ∃ p', Runs quic (fun _ => True) (upload request paths)
      (p.feed (frame (.accept ⟨request.transferId, defaultChunkSize⟩)))
      ((plan request.files).flatMap (chunkBytes content) ++ frame (.done ⟨request.transferId⟩)) () p' ∧
      Idle cs p' := by
  have hread := runs_read (I := fun _ => True) hserde (fun _ _ => trivial) haccept hp.inp []
  rw [List.append_nil] at hread
  have hplan : (request.files.zip paths).flatMap (fun d => (plan [d.1]).flatMap (chunkBytes content)) =
      (plan request.files).flatMap (chunkBytes content) := by
    rw [← List.flatMap_assoc, plan]
    nth_rewrite 2 [← List.map_fst_zip hlen]
    rw [List.flatMap_map]
    simp [plan]
  have hloop : ∀ q : Party, q.store = cs → Runs quic (fun _ => True)
      (.each (request.files.zip paths) fun (file, path) =>
        sendFileChunks path file.fileId file.size defaultChunkSize) q
      ((plan request.files).flatMap (chunkBytes content)) ()
      (q.sent ((plan request.files).flatMap (chunkBytes content))) := by
    intro q hq
    rw [← hplan]
    refine runs_each_sends fun d hd q' hq' => ?_
    have ho : d.1 ∈ request.files := (List.of_mem_zip hd).1
    refine runs_sendFileChunks ?_ (hsize _ ho) fun c hc => hfits (d.1, c) (mem_plan.mpr ⟨ho, hc⟩)
    rw [hq', hq]
    exact hsources _ _ hd
  have haccepted : ∀ q : Party, Runs quic (fun _ => True) (expectAccept request.transferId
      (.accept ⟨request.transferId, defaultChunkSize⟩)) q [] ⟨request.transferId, defaultChunkSize⟩
        q := fun q => by
    rw [expectAccept, if_pos rfl]
    exact .ret
  refine ⟨_, (hread.mapError _).then ((haccepted _).then ((hloop _ ?_).bind
    ((runs_writeControl hdone fun _ => trivial).mapError _))), ?_⟩
  · exact hp.store
  · exact ⟨hp.store, rfl⟩

omit [Primitives] in
theorem runs_hangUp {t : String} (hdone : FitsFrame (.done ⟨t⟩)) :
    ∃ p', Runs quic (fun _ => True) (hangUp t) (p.feed (frame (.done ⟨t⟩))) [] () p' ∧ Idle cs p' := by
  have hread := runs_read (I := fun _ => True) hserde (fun _ _ => trivial) hdone hp.inp []
  rw [List.append_nil] at hread
  have hack : ∀ q : Party, Runs quic (fun _ => True) (expectDone t (.done ⟨t⟩)) q [] () q := fun q => by
    rw [expectDone, if_pos rfl]
    exact .ret
  have hfinish : ∀ q : Party, Runs quic (fun _ => True) (.call .sendFinish orAnyIo) q [] () q := fun q =>
    runs_store (o := .sendFinish) (r := .ok ()) rfl rfl rfl rfl trivial rfl
  exact ⟨_, (hread.mapError _).then ((hack _).then (hfinish _)), hp.store, rfl⟩

end client

/-! ### The daemon -/

/-- A displayed fingerprint is not blank: it has a hexadecimal digit. -/
theorem isBlank_display (f : Core.Fingerprint) : isBlank f.display = false := by
  have hdigit : ∀ n < 16, isWhitespace (hexDigit n) = false := by decide
  have hfilter := Core.Fingerprint.filter_displayFrom 0 f.bytes
  cases hbytes : f.bytes with
  | nil => exact absurd f.length_eq (by simp [hbytes])
  | cons b bs =>
    rw [hbytes, hexChars] at hfilter
    have hmem : hexDigit (b.toNat / 16) ∈ f.display.toList := by
      rw [Core.Fingerprint.display, String.toList_ofList, hbytes]
      refine List.mem_of_mem_filter (p := fun c => decide (c ≠ '-')) ?_
      rw [hfilter]
      simp
    rw [isBlank, List.all_eq_false]
    exact ⟨_, hmem, by rw [hdigit _ (by have := b.toNat_lt; omega)]; decide⟩

section daemon

variable [Primitives] {I : Party → Prop} {q : Party}

/-- The trust store says `AutoAccept` of the fingerprint of the key. -/
def Trusts (db : Core.TrustDb) (pubkey : Bytes32) : Prop :=
  ∃ peer, db.get (Core.Fingerprint.fromPubkey pubkey) = .ok (some peer) ∧ peer.policy = .autoAccept

theorem runs_ensureNativePeerTrusted {hello : Hello} (hI : I q) (h : Trusts q.store.trust hello.pubkey)
    (trustDbPath : String) : Runs quic I (ensureNativePeerTrusted trustDbPath (peerOf hello))
      q [] () q := by
  obtain ⟨peer, hget, hpolicy⟩ := h
  rw [ensureNativePeerTrusted, peerOf, Core.Fingerprint.fromStr_display]
  have hopen : quic.exec .openTrust q = (.ok (), q) := by simp [quic, exec, entry]
  refine Runs.call (L := quic) (o := Op.openTrust) rfl (by rw [hopen]; exact hI) ?_
  rw [hopen]
  refine runs_store (o := .selectPeer _) (r := .ok (some peer)) rfl rfl (by rw [exec, hget]) rfl hI ?_
  simp only [hpolicy]
  rfl

def helloAckOf (nodeAlias : String) (pubkey : Bytes32) (hello : Hello) (nonce : Bytes) : HelloAck :=
  { protocolVersion, nodeAlias, pubkey, nonce,
    acceptedExtensions := negotiateExtensions defaultExtensions hello.extensions }

variable [Serde]

/-- **The `Hello` of a trusted peer is answered.** -/
theorem runs_greet {nodeAlias : String} {pubkey : Bytes32} {hello : Hello}
    (hI : ∀ nonces wire log, I ⟨{ q.store with nonces := nonces }, wire, log⟩)
    (hproof : authenticateHello hello q.wire.binding.1 = .ok ())
      (htrust : Trusts q.store.trust hello.pubkey)
    (hfits : FitsFrame (.helloAck (helloAckOf nodeAlias pubkey hello (q.store.nonces 0))))
      (trustDbPath : String) :
    Runs quic I (greet nodeAlias pubkey trustDbPath hello) q
      (frame (.helloAck (helloAckOf nodeAlias pubkey hello (q.store.nonces 0)))) ()
      (Party.sent { q with store := { q.store with nonces := advance q.store.nonces } }
        (frame (.helloAck (helloAckOf nodeAlias pubkey hello (q.store.nonces 0))))) := by
  have hbind : Runs quic I connectionChannelBinding q [] q.wire.binding q :=
    runs_store (o := .exportKeyingMaterial) (r := .ok q.wire.binding) rfl rfl rfl rfl (hI _ _ _) rfl
  have hnonce : Runs quic I randomSessionNonce q [] (q.store.nonces 0)
      { q with store := { q.store with nonces := advance q.store.nonces } } :=
    runs_store (o := .randomNonce) rfl rfl rfl rfl (hI _ _ _) rfl
  refine (hbind.mapError _).then (((Runs.ofExcept hproof).mapError _).then ?_)
  refine (runs_ensureNativePeerTrusted (hI _ _ _) htrust trustDbPath).then (hnonce.then ?_)
  exact (runs_writeControl (p := { q with store := { q.store with nonces := advance q.store.nonces } })
    hfits fun _ => hI _ _ _).mapError _

omit [Primitives] [Serde] in
theorem declaredBytes_of_sum {files : List FileOffer} (h : (files.map FileOffer.size).sum < 2 ^ 64) :
    declaredBytes files = some (files.map FileOffer.size).sum := by
  suffices H : ∀ acc, acc + (files.map FileOffer.size).sum < 2 ^ 64 →
      files.foldlM (fun acc (file : FileOffer) =>
        if acc + file.size < 2 ^ 64 then some (acc + file.size) else none) acc =
          some (acc + (files.map FileOffer.size).sum) by
    rw [declaredBytes, H 0 (by simpa using h), Nat.zero_add]
  clear h
  induction files with
  | nil => exact fun acc _ => by simp
  | cons file files ih =>
    intro acc hacc
    rw [List.map_cons, List.sum_cons] at hacc ⊢
    rw [List.foldlM_cons, if_pos (by omega), ← Nat.add_assoc]
    exact ih _ (by omega)

omit [Primitives] [Serde] in
theorem checkedDeclaredTransferBytes_of_sum {request : RequestTransfer}
    (h : (request.files.map FileOffer.size).sum ≤ maxNativeTransferBytes) :
    checkedDeclaredTransferBytes request = .ok (request.files.map FileOffer.size).sum := by
  have hmax : maxNativeTransferBytes < 2 ^ 64 := by decide
  rw [checkedDeclaredTransferBytes, declaredBytes_of_sum (by omega)]
  exact if_neg (by omega)

/-! `receive_native_transfer`, cut where it waits. -/

/-- Up to `AcceptTransfer`. -/
def acceptRequest (inboxDir : Path) (manifestPath : String) (peer : NativePeerInfo)
    (request : RequestTransfer) :
    Io AnyError AcceptTransfer := do
  withContext ("failed to open native manifest " ++ manifestPath) openManifest
  let _ ← .ofExcept (checkedDeclaredTransferBytes request)
  let accepted ← withContext "failed to accept native transfer"
    ((NativeTransferReceiver.trusted inboxDir peer.fingerprint).acceptTransfer peer request)
  withContext "failed to write native transfer acceptance" (writeControl (.accept accepted))
  pure accepted

/-- From the first chunk to the message after the chunks. -/
def gather (receiver : NativeTransferReceiver) (request : RequestTransfer) (accepted : AcceptTransfer) :
    Io AnyError ControlMessage := do
  .each (List.range (expectedChunkCount request accepted.chunkSize)) fun _ =>
    receiveOneChunk receiver request.transferId
  withContext "failed to read native transfer completion" readControl

/-- From that message on. -/
def publish (receiver : NativeTransferReceiver) (t : String) (message : ControlMessage) :
    Io AnyError Unit := do
  let done ← expectCompletion t message
  withContext "failed to publish native files" (receiver.finishTransfer t)
  withContext "failed to write native completion ack" (writeControl (.done done))

theorem receiveNativeTransfer_eq (inboxDir : Path) (manifestPath : String) (peer : NativePeerInfo)
    (request : RequestTransfer) : receiveNativeTransfer inboxDir manifestPath peer request =
      (acceptRequest inboxDir manifestPath peer request >>= fun accepted =>
        gather (.trusted inboxDir peer.fingerprint) request accepted >>=
          publish (.trusted inboxDir peer.fingerprint) request.transferId) := by
  simp only [receiveNativeTransfer, acceptRequest, gather, bind_assoc, pure_bind]
  rfl

variable {content : String → Bytes} {inboxDir : Path} {request : RequestTransfer}

omit [Primitives] in
/-- **A valid request is admitted**, whatever an earlier run has left. -/
theorem runs_acceptRequest {peer : NativePeerInfo} (hfp : isBlank peer.fingerprint = false)
    (hvalid : request.Valid) (hstable : Stable request.transferId)
    (htotal : (request.files.map FileOffer.size).sum ≤ maxNativeTransferBytes)
    (hfits : FitsFrame (.accept ⟨request.transferId, defaultChunkSize⟩))
    (h : Leftover inboxDir request.transferId request.files content q.store) {fs' : Fs}
    (hmk : q.store.fs.createDirAll (partDir inboxDir request.transferId) = .ok fs')
    (hI : ∀ s wire log, Leftover inboxDir request.transferId request.files content s → I ⟨s, wire, log⟩)
    (manifestPath : String) :
    ∃ s, Runs quic I (acceptRequest inboxDir manifestPath peer request) q
        (frame (.accept ⟨request.transferId, defaultChunkSize⟩)) ⟨request.transferId, defaultChunkSize⟩
        (Party.sent { q with store := s } (frame (.accept ⟨request.transferId, defaultChunkSize⟩))) ∧
      Staged inboxDir request.transferId request.files content s ∧ s.fs = fs' := by
  have hopen : Runs quic I openManifest q [] () q :=
    runs_store (o := .openManifest) (r := .ok ()) rfl rfl rfl rfl (hI _ _ _ h) rfl
  obtain ⟨s, haccept, hstaged, hfs, -⟩ := runs_acceptTransfer (I := I)
    (NativeTransferReceiver.trusted inboxDir peer.fingerprint) rfl rfl hfp hvalid hstable h hmk
    (fun s hs _ => hI s _ _ hs)
  have hwrite : Runs quic I (writeControl (.accept ⟨request.transferId, defaultChunkSize⟩))
      { q with store := s } (frame (.accept ⟨request.transferId, defaultChunkSize⟩)) ()
      (Party.sent { q with store := s } (frame (.accept ⟨request.transferId, defaultChunkSize⟩))) :=
    runs_writeControl (p := { q with store := s }) hfits fun _ => hI _ _ _ (.inr hstaged)
  refine ⟨s, ?_, hstaged, hfs⟩
  refine (hopen.mapError _).then ((Runs.ofExcept (checkedDeclaredTransferBytes_of_sum htotal)).then ?_)
  refine (haccept.mapError _).then ?_
  have h := (hwrite.mapError fun e => AnyError.context "failed to write native transfer acceptance"
    (.native e)).bind
    (f := fun _ => (pure ⟨request.transferId, defaultChunkSize⟩ : Io AnyError AcceptTransfer)) .ret
  rwa [List.append_nil] at h

/-- What a planned chunk leaves in the log of the daemon. -/
def chunkEntries (t : String) (content : String → Bytes) (d : FileOffer × ChunkRange) : List Entry :=
  (chunkBlocks (chunkOf content d.1 d.2)).map .read ++ [.stored (chunkRow t (chunkOf content d.1 d.2))]

/-- What holds of the daemon after the chunks `done` of the plan: the tree was
`fs` and the log `log` before them, and `later` comes after the chunks. -/
structure Reading (inboxDir : Path) (request : RequestTransfer) (content : String → Bytes) (fs : Fs)
    (log : List Entry) (later : Bytes) (done : List (FileOffer × ChunkRange)) (q : Party) : Prop where
  staged : Staged inboxDir request.transferId request.files content q.store
  elsewhere : Elsewhere inboxDir request.transferId fs q.store.fs
  recorded : ∀ d ∈ done, d.2 ∈ q.store.manifest.spans request.transferId d.1.fileId
  log : q.log = log ++ done.flatMap (chunkEntries request.transferId content)
  inp : ∀ rest, plan request.files = done ++ rest → q.wire.inp =
    rest.flatMap (chunkBytes content) ++ later

omit [Serde] in
/-- **One planned chunk read and stored.** -/
theorem Reading.step {fs : Fs} {log : List Entry} {later : Bytes} {done : List (FileOffer × ChunkRange)}
    (hoffer : Offer request.transferId request.files content)
    (hfits : ∀ d ∈ plan request.files, (chunkOf content d.1 d.2).Fits)
    (h : Reading inboxDir request content fs log later done q) {d : FileOffer × ChunkRange}
    {rest : List (FileOffer × ChunkRange)} (hsplit : plan request.files = done ++ d :: rest)
    (hI : ∀ s wire log, Leftover inboxDir request.transferId request.files content s → I ⟨s, wire, log⟩)
    (fingerprint : String) :
    ∃ q', Runs quic I (receiveOneChunk (.trusted inboxDir fingerprint) request.transferId) q [] () q' ∧
      Reading inboxDir request content fs log later (done ++ [d]) q' := by
  have hmem : ∀ d' ∈ done ++ [d], d'.1 ∈ request.files ∧
      d'.2 ∈ chunksFrom d'.1.size defaultChunkSize 0 := fun d' hd' => mem_plan.mp (by
    rw [hsplit]
    simp only [List.mem_append, List.mem_cons, List.not_mem_nil, or_false] at hd' ⊢
    tauto)
  obtain ⟨ho, hc⟩ := hmem d (by simp)
  obtain ⟨-, hpos, -, hstop⟩ := mem_chunksFrom hc
  have hend : d.2.offset + d.2.length ≤ d.1.size := hstop
  have hlt := d.1.size_lt
  have hinp := h.inp _ hsplit
  rw [List.flatMap_cons, List.append_assoc] at hinp
  have hread := runs_readChunkFrame (I := I) (p := q) (hfits d (by simp [hsplit])).toReadable
    (fun _ _ => hI _ _ _ (.inr h.staged))
    (by rw [Party.Next, hinp]; exact List.prefix_append _ _)
  obtain ⟨fs', hstore, hstaged, hframe⟩ := runs_receiveChunk (I := I) (p := q.got _)
    (NativeTransferReceiver.trusted inboxDir fingerprint) hoffer h.staged ho hpos hstop
    (fun s log hs _ => hI s _ log hs)
  refine ⟨_, (hread.mapError _).then (hstore.mapError _), hstaged, ?_, ?_, ?_, ?_⟩
  · exact h.elsewhere.trans fun p hp => hframe p (hp _)
  · intro d' hd'
    rcases List.mem_append.mp hd' with hd' | hd'
    · obtain ⟨ho', hc'⟩ := hmem d' (by simp [hd'])
      exact planned_mem_spans_record hoffer ho hc _ _ ho' hc' (h.recorded d' hd')
    · obtain rfl := List.mem_singleton.mp hd'
      exact (mem_spans_record _ _ _ _ _ (by omega) (by omega) _ _ _).mpr (.inr ⟨rfl, rfl, rfl⟩)
  · simp [h.log, chunkEntries]
  · intro rest' hsplit'
    rw [hsplit, List.append_assoc] at hsplit'
    obtain rfl : rest = rest' := by simpa using List.append_cancel_left hsplit'
    change q.wire.inp.drop _ = _
    rw [hinp, chunkBytes, List.drop_left]

omit [Serde] in
/-- **The daemon's loop reads the chunks the client planned.** -/
theorem runs_receiveChunks {fs : Fs} {log : List Entry} {later : Bytes}
    (hoffer : Offer request.transferId request.files content)
    (hfits : ∀ d ∈ plan request.files, (chunkOf content d.1 d.2).Fits)
    (h : Reading inboxDir request content fs log later [] q)
    (hI : ∀ s wire log, Leftover inboxDir request.transferId request.files content s → I ⟨s, wire, log⟩)
    (fingerprint : String) :
    ∃ q', Runs quic I (.each (List.range (expectedChunkCount request defaultChunkSize)) fun _ =>
        receiveOneChunk (.trusted inboxDir fingerprint) request.transferId) q [] () q' ∧
      Reading inboxDir request content fs log later (plan request.files) q' := by
  rw [each_const _ (show (List.range (expectedChunkCount request defaultChunkSize)).length =
    (plan request.files).length by rw [List.length_range, expectedChunkCount_eq])]
  have hround : ∀ done d rest q, plan request.files = done ++ d :: rest →
      Reading inboxDir request content fs log later done q →
      ∃ q', Runs quic I (receiveOneChunk (.trusted inboxDir fingerprint) request.transferId) q [] () q' ∧
        Reading inboxDir request content fs log later (done ++ [d]) q' :=
    fun done d rest q hsplit hq => hq.step hoffer hfits hsplit hI fingerprint
  have hloop : ∃ q', Runs quic I (.each (plan request.files) fun _ =>
        receiveOneChunk (.trusted inboxDir fingerprint) request.transferId) q
        ((plan request.files).flatMap fun _ => []) () q' ∧
      Reading inboxDir request content fs log later (plan request.files) q' := Runs.each _ hround h
  rwa [List.flatMap_eq_nil_iff.mpr fun _ _ => rfl] at hloop

/-- The offered names in the order `finish_transfer` publishes them. -/
def offeredNames (files : List FileOffer) : List String :=
  (files.insertionSort fun a b => a.fileId ≤ b.fileId).map FileOffer.fileName

omit [Primitives] [Serde] in
/-- What `ManifestStore::files` lists is the offer. -/
theorem Staged.fileNames_eq {t : String} {offers : List FileOffer} {s : Store}
    (h : Staged inboxDir t offers content s) (hnd : (offers.map FileOffer.fileId).Nodup) :
    (filesOf s.manifest t).map (·.fileName) = offeredNames offers := by
  have hids : ∀ o ∈ offers, ∀ o' ∈ offers, o.fileId = o'.fileId → o = o' := fun o ho o' ho' =>
    List.inj_on_of_nodup_map hnd ho ho'
  have hperm : (s.manifest.selectFiles t).Perm (offers.map (offeredRow t)) := by
    refine (List.perm_ext_iff_of_nodup ?_ ?_).mpr fun fr => ?_
    · exact (List.Nodup.of_map _ s.manifest.files.nodup).filter _
    · exact hnd.of_map.map_on fun o ho o' ho' he => hids o ho o' ho' (congrArg FileRow.fileId he)
    · simpa [ManifestDb.selectFiles] using h.rows fr
  -- two sorted lists of the same rows, whose ids differ
  have hsorted : s.manifest.selectFilesOrdered t =
      (offers.insertionSort fun a b => a.fileId ≤ b.fileId).map (offeredRow t) := by
    have hle : ∀ {α : Type} (id : α → String), Std.Total (fun a b => id a ≤ id b) ∧
        IsTrans α fun a b => id a ≤ id b :=
          fun id => ⟨⟨fun _ _ => String.le_total _ _⟩, ⟨fun _ _ _ => String.le_trans⟩⟩
    obtain ⟨htotal, htrans⟩ := hle FileRow.fileId
    obtain ⟨htotal', htrans'⟩ := hle FileOffer.fileId
    have hanti : ∀ a b : FileRow, a ∈ s.manifest.selectFilesOrdered t →
        b ∈ (offers.insertionSort fun a b => a.fileId ≤ b.fileId).map (offeredRow t) →
        a.fileId ≤ b.fileId → b.fileId ≤ a.fileId → a = b := by
      intro a b ha hb hab hba
      obtain ⟨o, ho, rfl⟩ := List.mem_map.mp (hperm.subset ((List.mem_insertionSort _).mp ha))
      obtain ⟨o', ho', rfl⟩ := List.mem_map.mp hb
      rw [hids o ho o' ((List.mem_insertionSort _).mp ho') (String.le_antisymm hab hba)]
    refine List.Perm.eq_of_pairwise hanti (List.pairwise_insertionSort _ _) ?_ ?_
    · exact List.pairwise_map.mpr (List.pairwise_insertionSort _ _)
    · exact (List.perm_insertionSort _ _).trans (hperm.trans ((List.perm_insertionSort _ _).symm.map _))
  rw [filesOf, hsorted, offeredNames, List.map_map, List.map_map]
  rfl

/-- **The chunks are read, and `Done` after them.** -/
theorem runs_gather {fs : Fs} {log : List Entry} (hserde : Serde.RoundTrips)
    (hoffer : Offer request.transferId request.files content)
    (hfits : ∀ d ∈ plan request.files, (chunkOf content d.1 d.2).Fits)
    (hdone : FitsFrame (.done ⟨request.transferId⟩))
    (h : Reading inboxDir request content fs log (frame (.done ⟨request.transferId⟩)) [] q)
    (hI : ∀ s wire log, Leftover inboxDir request.transferId request.files content s → I ⟨s, wire, log⟩)
    (fingerprint : String) :
    ∃ q', Runs quic I (gather (.trusted inboxDir fingerprint) request
      ⟨request.transferId, defaultChunkSize⟩) q
        [] (.done ⟨request.transferId⟩) (q'.got (controlBlocks (.done ⟨request.transferId⟩))) ∧
      Reading inboxDir request content fs log (frame (.done ⟨request.transferId⟩))
        (plan request.files) q' := by
  obtain ⟨q₁, hloop, h₁⟩ := runs_receiveChunks hoffer hfits h hI fingerprint
  have hread := runs_readControl (I := I) (p := q₁) hdone (fun _ _ => hI _ _ _ (.inr h₁.staged)) hserde
    (by rw [Party.Next, h₁.inp [] (by simp)]; exact List.prefix_rfl)
  exact ⟨q₁, hloop.then (hread.mapError _), h₁⟩

/-- **A transfer whose chunks have been read is published** when names are free. -/
theorem runs_publish {fs : Fs} {log : List Entry} {later : Bytes}
    (hoffer : Offer request.transferId request.files content)
    (hdone : FitsFrame (.done ⟨request.transferId⟩)) (hpos : ∀ o ∈ request.files, 0 < o.size)
    (hvalid : request.Valid) (hfree : (allocate (takenIn fs inboxDir)
      (offeredNames request.files)).isSome)
    (h : Reading inboxDir request content fs log later (plan request.files) q) {q' : Party}
    (hstore : q'.store = q.store) (fingerprint : String) :
    ∃ s, Runs quic (fun _ => True) (publish (.trusted inboxDir fingerprint) request.transferId
        (.done ⟨request.transferId⟩)) q' (frame (.done ⟨request.transferId⟩)) ()
        (Party.sent { q' with store := s } (frame (.done ⟨request.transferId⟩))) ∧
      s.manifest.selectState request.transferId = some .completed ∧
      Gained inboxDir request.files content fs s.fs := by
  have hexpect : Runs quic (fun _ => True)
    (expectCompletion request.transferId (.done ⟨request.transferId⟩)) q'
      [] ⟨request.transferId⟩ q' := by
    rw [expectCompletion, if_pos rfl]
    exact .ret
  have hcomplete := h.staged.complete (show 0 < defaultChunkSize by decide)
    (fun o ho c hc => h.recorded (o, c) (mem_plan.mpr ⟨ho, hc⟩)) hvalid.files
  have hnames : (allocate (takenIn q.store.fs inboxDir)
      ((filesOf q.store.manifest request.transferId).map (·.fileName))).isSome := by
    rw [Staged.fileNames_eq h.staged hvalid.nodup, h.elsewhere.takenIn_eq]
    exact hfree
  obtain ⟨s, hfinish, hstate, hgained⟩ := h.staged.finish (.trusted inboxDir fingerprint)
    (w := q'.wire) hoffer hcomplete hpos hnames
  rw [← hstore] at hfinish
  have hwp : ((NativeTransferReceiver.trusted inboxDir fingerprint).finishTransfer request.transferId).wp
      (Publishes inboxDir request.transferId) (fun _ _ => True) [] :=
    wp_finishTransfer_publishes (.trusted inboxDir fingerprint)
  have hpublish := runs_of_publishes (I := fun _ => True) (p := q') hwp hfinish fun _ => trivial
  exact ⟨s, hexpect.then ((hpublish.mapError _).then
    ((runs_writeControl hdone fun _ => trivial).mapError _)),
    hstate, hgained.of_elsewhere h.elsewhere⟩

/-! `handle_native_connection`, cut where it waits. -/

/-- Up to the first message. -/
def listen : Io AnyError ControlMessage := do
  acceptConnection
  acceptControlStream
  withContext "failed to read native control message" readControl

/-- What is done with the second message. -/
def serveRequest (inboxDir : Path) (manifestPath : String) (peer : NativePeerInfo) :
    ControlMessage → Io AnyError Unit
  | .requestTransfer request =>
    acceptRequest inboxDir manifestPath peer request >>= fun accepted =>
      gather (.trusted inboxDir peer.fingerprint) request accepted >>= fun message =>
        publish (.trusted inboxDir peer.fingerprint) request.transferId message >>= fun _ => finishStream
  | _ => pure ()

/-- What is done with the first message. -/
def serveHello (nodeAlias : String) (pubkey : Bytes32) (inboxDir : Path)
    (trustDbPath manifestPath : String) :
    ControlMessage → Io AnyError Unit
  | .hello hello =>
    greet nodeAlias pubkey trustDbPath hello >>= fun _ =>
      withContext "failed to read native transfer request" readControl >>=
        serveRequest inboxDir manifestPath (peerOf hello)
  | _ => pure ()

theorem handleNativeConnection_eq (nodeAlias : String) (pubkey : Bytes32) (inboxDir : Path)
    (trustDbPath manifestPath : String) :
    handleNativeConnection nodeAlias pubkey inboxDir trustDbPath manifestPath =
      (listen >>= serveHello nodeAlias pubkey inboxDir trustDbPath manifestPath) := by
  simp only [handleNativeConnection, listen, bind_assoc]
  refine bind_congr fun _ => bind_congr fun _ => bind_congr fun message => ?_
  cases message with
  | hello hello =>
    refine bind_congr fun _ => bind_congr fun message => ?_
    cases message with
    | requestTransfer request =>
      change (receiveNativeTransfer inboxDir manifestPath (peerOf hello) request >>=
        fun _ => finishStream) = _
      rw [receiveNativeTransfer_eq, serveRequest]
      simp only [bind_assoc]
    | _ => rfl
  | _ => rfl

omit [Primitives] in
theorem runs_listen (hserde : Serde.RoundTrips) (hI : ∀ wire log, I ⟨q.store, wire, log⟩)
    {message : ControlMessage} (hfits : FitsFrame message) (hinp : q.wire.inp = []) :
    Runs quic I listen (q.feed (frame message)) [] message { q with
      wire := { q.wire with inp := [] }, log := q.log ++ (controlBlocks message).map .read } := by
  have hconnect : Runs quic I acceptConnection (q.feed (frame message)) [] () (q.feed (frame message)) :=
    runs_store (o := .acceptIncoming) (r := .ok ()) rfl rfl rfl rfl (hI _ _) rfl
  have hstream : Runs quic I acceptControlStream (q.feed (frame message)) [] ()
    (q.feed (frame message)) :=
    runs_store (o := .acceptBi) (r := .ok ()) rfl rfl rfl rfl (hI _ _) rfl
  have hread := runs_read hserde hI hfits hinp []
  rw [List.append_nil] at hread
  exact hconnect.then (hstream.then (hread.mapError _))

omit [Primitives] [Serde] in
theorem runs_finishStream (hI : I q) : Runs quic I finishStream q [] () q :=
  runs_store (o := .sendFinish) (r := .ok ()) rfl rfl rfl rfl hI rfl

end daemon

end NightBridge.Daemon
