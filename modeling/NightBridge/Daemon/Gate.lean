/-
# The gate before a native receive

`Guarded` says of each call of `handle_native_connection` what must have come
before it on the same connection.  The program keeps to this whatever its calls
are answered (`wp_handleNativeConnection`); `receive_gate` reads it off the wire
and the store, for a connection that runs among any others.
-/

import NightBridge.Daemon.Receive
import NightBridge.Native.Effects
import NightBridge.Native.Streams

namespace NightBridge.Daemon

open Data Effect Native NativeTransferReceiver

/-- What a connection has read: how much it asked for, and the bytes. -/
def received (hist : Calls) : List (ℕ × Bytes) :=
  hist.filterMap fun
    | ⟨.recvExact n, .ok bytes⟩ => some (n, bytes)
    | _ => none

theorem received_append (hist hist' : Calls) :
    received (hist ++ hist') = received hist ++ received hist' := List.filterMap_append

theorem received_mono {hist hist' : Calls} (h : hist <+: hist') :
    received hist <+: received hist' := by
  obtain ⟨rest, rfl⟩ := h
  rw [received_append]
  exact List.prefix_append _ _

/-- The trust store said `AutoAccept` of the fingerprint of the key. -/
def Trusted [Primitives] (hist : Calls) (hello : Hello) : Prop :=
  ∃ peer, ⟨.selectPeer (Core.Fingerprint.fromPubkey hello.pubkey), .ok (some peer)⟩ ∈ hist ∧
    peer.policy = .autoAccept

theorem Trusted.mono [Primitives] {hist hist' : Calls} {hello : Hello} (h : hist <+: hist')
    (ht : Trusted hist hello) : Trusted hist' hello := by
  obtain ⟨peer, hpeer, hpolicy⟩ := ht
  exact ⟨peer, h.subset hpeer, hpolicy⟩

section evidence

variable [Serde]

/-- Two reads that make up one control message. -/
def ReadsAs (message : ControlMessage) (blocks : List (ℕ × Bytes)) : Prop :=
  ∃ head frame, blocks = [(4, head), (ofBeBytes head, frame)] ∧ 0 < ofBeBytes head ∧
    ofBeBytes head ≤ maxControlFrameBytes ∧ decodeFrame frame = .ok message

/-- The connection asked for the transfer, in its second message. -/
def Requested (hist : Calls) (hello : Hello) (request : RequestTransfer) : Prop :=
  ∃ blocks blocks', ReadsAs (.hello hello) blocks ∧ ReadsAs (.requestTransfer request) blocks' ∧
    blocks ++ blocks' <+: received hist

theorem Requested.mono {hist hist' : Calls} {hello : Hello} {request : RequestTransfer}
    (h : hist <+: hist') (hr : Requested hist hello request) : Requested hist' hello request := by
  obtain ⟨blocks, blocks', hread, hread', hblocks⟩ := hr
  exact ⟨blocks, blocks', hread, hread', hblocks.trans (received_mono h)⟩

variable [Primitives]

/-- The connection proved to hold the key of the `Hello`. -/
def Proved (hist : Calls) (hello : Hello) : Prop :=
  (∃ blocks, ReadsAs (.hello hello) blocks ∧ blocks <+: received hist) ∧
    ∃ binding, ⟨.exportKeyingMaterial, .ok binding⟩ ∈ hist ∧
      authenticateHello hello binding.1 = .ok ()

/-- Everything that comes before the first change. -/
structure Admitted (hist : Calls) (hello : Hello) (request : RequestTransfer) : Prop where
  proved : Proved hist hello
  trusted : Trusted hist hello
  requested : Requested hist hello request
  declared : ∃ total, checkedDeclaredTransferBytes request = .ok total
  valid : validateTransferRequest request = .ok ()

/-- What must have come before a call. -/
def Guarded (inboxDir : Path) (hist : Calls) (o : Op) : Prop :=
  (o = .openTrust → ∃ hello, Proved hist hello) ∧
    (o.mutates = true → ∃ hello request, Admitted hist hello request ∧
      Concerns inboxDir request.transferId hist o)

variable {hist hist' : Calls} {hello : Hello} {request : RequestTransfer} {inboxDir : Path}

theorem Proved.mono (h : hist <+: hist') (hp : Proved hist hello) : Proved hist' hello := by
  obtain ⟨⟨blocks, hread, hblocks⟩, binding, hb, hauth⟩ := hp
  exact ⟨⟨blocks, hread, hblocks.trans (received_mono h)⟩, binding, h.subset hb, hauth⟩

theorem Admitted.mono (h : hist <+: hist') (ha : Admitted hist hello request) :
    Admitted hist' hello request :=
  ⟨ha.proved.mono h, ha.trusted.mono h, ha.requested.mono h, ha.declared, ha.valid⟩

theorem guarded_of_quiet {o : Op} (hopen : o ≠ .openTrust) (hquiet : o.mutates = false) :
    Guarded inboxDir hist o :=
  ⟨fun he => absurd he hopen, fun hm => by rw [hquiet] at hm; cases hm⟩

end evidence

/-! ### The steps of a connection -/

theorem wp_readChunkFrame [Primitives] {G : Calls → Op → Prop} {hist : Calls}
    (hG : ∀ h n, G h (.recvExact n)) :
    readChunkFrame.wp G (fun _ _ => True) hist := by
  have hrecv : ∀ {n : ℕ} {h : Calls}, (recvExact n).wp G (fun _ _ => True) h := fun {n h} =>
    ⟨hG h n, fun r => wp_orIo.mpr fun _ _ => trivial⟩
  refine Prog.wp_bind_of hrecv fun h₁ head _ _ => Prog.wp_ite (fun _ => trivial) fun _ =>
    Prog.wp_ite (fun _ => trivial) fun _ => Prog.wp_bind_of hrecv fun h₂ idLen _ _ =>
    Prog.wp_ite (fun _ => trivial) fun _ => Prog.wp_bind_of hrecv fun h₃ id _ _ => ?_
  refine Prog.wp_bind_of wp_fromUtf8Or fun h₄ fileId _ _ => Prog.wp_bind_of hrecv fun h₅ offset _ _ =>
    Prog.wp_bind_of hrecv fun h₆ digest _ _ => Prog.wp_bind_of wp_fromUtf8Or fun h₇ blake3 _ _ =>
    Prog.wp_bind_of hrecv fun h₈ len _ _ => Prog.wp_ite (fun _ => trivial) fun _ => ?_
  exact Prog.wp_bind_of hrecv fun h₉ bytes _ _ => Prog.wp_ite (fun _ => trivial) fun _ => trivial

section steps

variable [Primitives] [Serde] {inboxDir : Path} {hist : Calls}

theorem wp_readControl :
    readControl.wp (Guarded inboxDir) (fun h message => ∃ blocks,
      ReadsAs message blocks ∧ received h = received hist ++ blocks) hist := by
  refine ⟨guarded_of_quiet nofun rfl, fun r => Prog.wp_bind.mpr (wp_orIo.mpr ?_)⟩
  rintro head rfl
  refine Prog.wp_ite (fun _ => trivial) fun hpos => Prog.wp_ite (fun _ => trivial) fun hmax => ?_
  refine ⟨guarded_of_quiet nofun rfl, fun r => Prog.wp_bind.mpr (wp_orIo.mpr ?_)⟩
  rintro frame rfl
  refine Prog.wp_ofExcept.mpr fun message hmessage => ?_
  refine ⟨_, ⟨head, frame, rfl, by omega, by omega, hmessage⟩, ?_⟩
  rw [received_append, received_append, List.append_assoc]
  rfl

theorem wp_writeControl (message : ControlMessage) :
    (writeControl message).wp (Guarded inboxDir) (fun h _ => received h = received hist) hist := by
  refine Prog.wp_bind.mpr (Prog.wp_ofExcept.mpr fun payload _ =>
    Prog.wp_ite (fun _ => trivial) fun _ => ?_)
  refine ⟨guarded_of_quiet nofun rfl, fun r => Prog.wp_bind.mpr (wp_orIo.mpr fun _ _ => ?_)⟩
  refine ⟨guarded_of_quiet nofun rfl, fun r' => wp_orIo.mpr fun _ _ => ?_⟩
  rw [received_append, received_append]
  simp [received]

theorem wp_connectionChannelBinding :
    connectionChannelBinding.wp (Guarded inboxDir)
      (fun h binding => h = hist ++ [⟨.exportKeyingMaterial, .ok binding⟩]) hist := by
  refine ⟨guarded_of_quiet nofun rfl, fun r => ?_⟩
  rcases r with e | binding
  · trivial
  · rfl

theorem wp_acceptConnection :
    acceptConnection.wp (Guarded inboxDir) (fun h _ => received h = received hist) hist := by
  refine ⟨guarded_of_quiet nofun rfl, fun r => ?_⟩
  rcases r with e | u
  · trivial
  · exact (received_append _ _).trans (by simp [received])

theorem wp_acceptControlStream :
    acceptControlStream.wp (Guarded inboxDir) (fun h _ => received h = received hist) hist := by
  refine ⟨guarded_of_quiet nofun rfl, fun r => ?_⟩
  rcases r with e | u
  · trivial
  · exact (received_append _ _).trans (by simp [received])

/-- `ensure_native_peer_trusted` after a proof: the row said `AutoAccept`. -/
theorem wp_ensureNativePeerTrusted {trustDbPath : String} {hello : Hello} (hproved : Proved hist hello) :
    (ensureNativePeerTrusted trustDbPath (peerOf hello)).wp (Guarded inboxDir)
      (fun h _ => received h = received hist ∧ Trusted h hello) hist := by
  rw [ensureNativePeerTrusted, peerOf, Core.Fingerprint.fromStr_display]
  refine ⟨⟨fun _ => ⟨hello, hproved⟩, nofun⟩, fun r => ?_⟩
  cases r with
  | error e => trivial
  | ok u =>
    refine ⟨guarded_of_quiet nofun rfl, fun r => ?_⟩
    rcases r with e | _ | peer
    · trivial
    · trivial
    · cases hp : peer.policy with
      | autoAccept =>
        simp only [hp, Prog.wp_pure]
        refine ⟨?_, peer, by simp, hp⟩
        rw [received_append, received_append]
        simp [received]
      | prompt => simp [hp, bail]
      | block => simp [hp, bail]

-- `wp` unfolds along its program, which is not to run the parser
attribute [local irreducible] Core.Fingerprint.fromStr

/-- The answer to a `Hello` is given to a proved and trusted peer. -/
theorem wp_greet {nodeAlias : String} {pubkey : Bytes32} {trustDbPath : String} {hello : Hello}
    {blocks : List (ℕ × Bytes)} (hread : ReadsAs (.hello hello) blocks)
    (hblocks : received hist = blocks) :
    (greet nodeAlias pubkey trustDbPath hello).wp (Guarded inboxDir)
      (fun h _ => received h = blocks ∧ Proved h hello ∧ Trusted h hello) hist := by
  refine Prog.wp_bind_of (Prog.wp_mapError.mpr wp_connectionChannelBinding) fun h₀ binding _ hh₀ => ?_
  subst hh₀
  have hrecv : received (hist ++ [⟨.exportKeyingMaterial, .ok binding⟩]) = blocks := by
    rw [received_append, hblocks]
    simp [received]
  refine Prog.wp_bind.mpr (Prog.wp_mapError.mpr (Prog.wp_ofExcept.mpr fun _ hauth => ?_))
  have hproved : Proved (hist ++ [⟨.exportKeyingMaterial, .ok binding⟩]) hello :=
    ⟨⟨blocks, hread, hrecv ▸ List.prefix_rfl⟩, binding, by simp, hauth⟩
  refine Prog.wp_bind_of (wp_ensureNativePeerTrusted hproved) fun h₁ _ hh ⟨hr, htrusted⟩ => ?_
  refine ⟨guarded_of_quiet nofun rfl, fun nonce => Prog.wp_mapError.mpr ?_⟩
  refine Prog.wp_mono (wp_writeControl _) (fun _ _ _ hg => hg) fun h₂ _ hh₂ hr₂ => ?_
  have hh₁ := (List.prefix_append h₁ [⟨.randomNonce, nonce⟩]).trans hh₂
  refine ⟨?_, hproved.mono (hh.trans hh₁), htrusted.mono hh₁⟩
  rw [hr₂, received_append, hr, hrecv]
  simp [received]

theorem guarded_of_concerns {ε α : Type} {p : Prog Op Resp ε α} {hello : Hello}
    {request : RequestTransfer} {Q : Calls → α → Prop} (hadmitted : Admitted hist hello request)
    (h : p.wp (Concerns inboxDir request.transferId) Q hist) : p.wp (Guarded inboxDir) Q hist := by
  refine Prog.wp_mono h (fun h o hh ho => ⟨?_, fun _ => ⟨hello, request, hadmitted.mono hh, ho⟩⟩)
    fun _ _ _ hq => hq
  rintro rfl
  cases ho

theorem wp_receiveNativeTransfer {manifestPath : String} {hello : Hello} {request : RequestTransfer}
    (hproved : Proved hist hello) (htrusted : Trusted hist hello)
    (hrequested : Requested hist hello request) :
    (receiveNativeTransfer inboxDir manifestPath (peerOf hello) request).wp (Guarded inboxDir)
      (fun _ _ => True) hist := by
  refine Prog.wp_bind.mpr (Prog.wp_mapError.mpr ⟨guarded_of_quiet nofun rfl, fun r =>
    wp_orManifest.mpr fun _ _ => ?_⟩)
  refine Prog.wp_bind.mpr (Prog.wp_ofExcept.mpr fun total htotal => ?_)
  have hopened := List.prefix_append hist [⟨.openManifest, r⟩]
  -- `accept_transfer` validates before its first call, so its calls come from an admitted request
  have hadmitted : ∀ h, hist ++ [⟨.openManifest, r⟩] <+: h →
      validateTransferRequest request = .ok () → Admitted h hello request := fun h hh hvalid =>
    ⟨hproved.mono (hopened.trans hh), htrusted.mono (hopened.trans hh),
      hrequested.mono (hopened.trans hh), ⟨total, htotal⟩, hvalid⟩
  refine Prog.wp_bind.mpr (Prog.wp_mapError.mpr (Prog.wp_mono (wp_acceptTransfer _ _ _) ?_ ?_))
  · rintro h o hh ⟨hvalid, ho⟩
    refine ⟨?_, fun _ => ⟨hello, request, hadmitted h hh hvalid, ho⟩⟩
    rintro rfl
    cases ho
  rintro h accepted hh ⟨hvalid, -⟩
  have ha := hadmitted h hh hvalid
  refine Prog.wp_bind_of (Prog.wp_mapError.mpr (wp_writeControl _)) fun h₁ _ hh₁ _ => ?_
  refine Prog.wp_bind_of (Prog.wp_each (I := fun h' => h <+: h') (fun h₂ _ _ _ hh₂ => ?_) hh₁)
    fun h₂ _ _ hh₂ => ?_
  · refine Prog.wp_bind_of (Prog.wp_mapError.mpr (wp_readChunkFrame fun _ _ =>
      guarded_of_quiet nofun rfl)) fun h₃ chunk hh₃ _ => Prog.wp_mapError.mpr ?_
    refine Prog.wp_mono (guarded_of_concerns (ha.mono (hh₂.trans hh₃))
      (wp_receiveChunkWithHash _ _ _ _ _)) (fun _ _ _ hg => hg) fun h₄ _ hh₄ _ => ?_
    exact hh₂.trans (hh₃.trans hh₄)
  refine Prog.wp_bind_of (Prog.wp_mapError.mpr wp_readControl) fun h₃ message hh₃ _ => ?_
  have hcompletion : (expectCompletion request.transferId message).wp (Guarded inboxDir)
      (fun h' _ => h₃ <+: h') h₃ := by
    cases message with
    | done done => exact Prog.wp_ite (fun _ => List.prefix_rfl) fun _ => trivial
    | _ => trivial
  refine Prog.wp_bind_of hcompletion fun h₄ done _ hh₄ => ?_
  refine Prog.wp_bind_of (Prog.wp_mapError.mpr (guarded_of_concerns
    (ha.mono (hh₂.trans (hh₃.trans hh₄)))
    (wp_finishTransfer (NativeTransferReceiver.trusted inboxDir (peerOf hello).fingerprint))))
      fun h₅ _ _ _ => ?_
  exact Prog.wp_mono (Prog.wp_mapError.mpr (wp_writeControl _)) (fun _ _ _ hg => hg) fun _ _
    _ _ => trivial

/-- **Every call of a connection is guarded**, whatever the calls are answered. -/
theorem wp_handleNativeConnection (nodeAlias : String) (pubkey : Bytes32) (inboxDir : Path)
    (trustDbPath manifestPath : String) :
    (handleNativeConnection nodeAlias pubkey inboxDir trustDbPath manifestPath).wp (Guarded inboxDir)
      (fun _ _ => True) [] := by
  refine Prog.wp_bind_of wp_acceptConnection fun h₀ _ _ hr₀ => ?_
  refine Prog.wp_bind_of wp_acceptControlStream fun h₀' _ _ hr₀' => ?_
  refine Prog.wp_bind_of (Prog.wp_mapError.mpr wp_readControl) fun h message _ hread => ?_
  obtain ⟨blocks, hread, hblocks⟩ := hread
  rw [hr₀', hr₀] at hblocks
  cases message with
  | hello hello =>
    refine Prog.wp_bind_of (wp_greet hread hblocks) fun h₁ _ _ hgreeted => ?_
    obtain ⟨hr₁, hproved, htrusted⟩ := hgreeted
    refine Prog.wp_bind_of (Prog.wp_mapError.mpr wp_readControl) fun h₂ message hh₂ hread' => ?_
    obtain ⟨blocks', hread', hblocks'⟩ := hread'
    cases message with
    | requestTransfer request =>
      have hrequested : Requested h₂ hello request :=
        ⟨blocks, blocks', hread, hread', by rw [hblocks', hr₁]⟩
      refine Prog.wp_bind_of (wp_receiveNativeTransfer (hproved.mono hh₂) (htrusted.mono hh₂)
        hrequested) fun h₃ _ _ _ => ?_
      refine ⟨guarded_of_quiet nofun rfl, fun r => ?_⟩
      rcases r with e | u <;> trivial
    | _ => trivial
  | _ => trivial

end steps

/-! ### The gate, read off the wire and the store -/

/-- The bytes of one control message. -/
def IsControlFrame [Serde] (message : ControlMessage) (bytes : Bytes) : Prop :=
  ∃ head frame, bytes = head ++ frame ∧ head.length = 4 ∧ frame.length = ofBeBytes head ∧
    frame ≠ [] ∧ frame.length ≤ maxControlFrameBytes ∧ decodeFrame frame = .ok message

/-- What the wire and the trust store answer. -/
def Answered (binding : Bytes32) : Prog.Seen Op Resp Store → Prop
  | (_, ⟨.recvExact n, .ok bytes⟩) => bytes.length = n
  | (_, ⟨.exportKeyingMaterial, .ok b⟩) => b = binding
  | (s, ⟨.selectPeer f, answer⟩) => answer = Core.TrustDb.get s.trust f
  | _ => True

theorem inp_exec {o : Op} {s : Store} {w : Wire} (h : ∀ n, o ≠ .recvExact n) :
    (exec o s w).2.2.inp = w.inp := by
  cases o with
  | recvExact n => exact absurd rfl (h n)
  | sendAll bytes => rfl
  | _ => exact congrArg Wire.inp (wire_exec nofun nofun)

theorem answered_exec (o : Op) (s : Store) (w : Wire) :
    (exec o s w).2.2.binding = w.binding ∧ Answered w.binding (s, ⟨o, (exec o s w).1⟩) := by
  cases o with
  | recvExact n =>
    rw [exec]
    split_ifs with h
    · exact ⟨rfl, by simp [Answered, h]⟩
    · exact ⟨rfl, trivial⟩
  | exportKeyingMaterial | selectPeer => exact ⟨rfl, rfl⟩
  | sendAll bytes => exact ⟨rfl, trivial⟩
  | _ => exact ⟨congrArg Wire.binding (wire_exec nofun nofun), trivial⟩

/-- What a connection has read is the front of what the remote sent; a read that
fails loses what was left. -/
theorem consumed {ε α : Type} {p q : Io ε α} {w w' : Wire} {seen : List (Prog.Seen Op Resp Store)}
    (hrun : p.Open exec w seen q w') :
    ∃ lost, w.inp = (received (seen.map Prod.snd)).flatMap Prod.snd ++ lost ++ w'.inp ∧
      (lost = [] ∨ w'.inp = []) := by
  induction hrun with
  | refl => exact ⟨[], by simp [received], .inl rfl⟩
  | @tail seen o k w' before s ih =>
    obtain ⟨lost, hinp, hlost⟩ := ih
    rw [List.map_append, received_append, List.flatMap_append, hinp]
    by_cases hrecv : ∃ n, o = .recvExact n
    · obtain ⟨n, rfl⟩ := hrecv
      by_cases hn : n ≤ w'.inp.length
      · simp only [exec, if_pos hn]
        refine ⟨lost, ?_, hlost.imp (fun hl => hl) fun hi => by simp [hi]⟩
        rcases hlost with rfl | hi
        · simp [received]
        · simp [received, hi]
      · simp only [exec, if_neg hn]
        exact ⟨lost ++ w'.inp, by simp [received], by simp⟩
    · have hsame := inp_exec (s := s) (w := w') fun n hn => hrecv ⟨n, hn⟩
      have hnone : received ([(s, (⟨o, (exec o s w').1⟩ : Event Op Resp))].map Prod.snd) = [] := by
        cases o with
        | recvExact n => exact absurd ⟨n, rfl⟩ hrecv
        | _ => rfl
      exact ⟨lost, by rw [hsame, hnone]; simp, hlost.imp (fun hl => hl) fun hi => by rw [hsame, hi]⟩

theorem length_received {binding : Bytes32} {seen : List (Prog.Seen Op Resp Store)}
    (h : ∀ e ∈ seen, Answered binding e) :
    ∀ b ∈ received (seen.map Prod.snd), b.2.length = b.1 := by
  intro b hb
  obtain ⟨e, he, hread⟩ := List.mem_filterMap.mp hb
  obtain ⟨⟨s, e⟩, hse, rfl⟩ := List.mem_map.mp he
  have hanswer := h _ hse
  dsimp only at hread
  split at hread
  · obtain rfl := Option.some.inj hread
    exact hanswer
  · cases hread

theorem ReadsAs.frame [Serde] {message : ControlMessage} {blocks : List (ℕ × Bytes)}
    (h : ReadsAs message blocks) (hlen : ∀ b ∈ blocks, b.2.length = b.1) :
    IsControlFrame message (blocks.flatMap Prod.snd) := by
  obtain ⟨head, frame, rfl, hpos, hmax, hdecode⟩ := h
  have hhead : head.length = 4 := hlen (4, head) (by simp)
  have hframe : frame.length = ofBeBytes head := hlen (ofBeBytes head, frame) (by simp)
  refine ⟨head, frame, by simp, hhead, hframe, ?_, by omega, hdecode⟩
  rintro rfl
  simp only [List.length_nil] at hframe
  omega

theorem declaredBytes_eq_some {files : List FileOffer} {total : ℕ}
    (h : declaredBytes files = some total) :
    (files.map FileOffer.size).sum = total ∧ total < 2 ^ 64 := by
  suffices H : ∀ acc, acc < 2 ^ 64 → files.foldlM (fun acc (file : FileOffer) =>
      if acc + file.size < 2 ^ 64 then some (acc + file.size) else none) acc = some total →
      acc + (files.map FileOffer.size).sum = total ∧ total < 2 ^ 64 by
    simpa using H 0 (by decide) h
  clear h
  induction files with
  | nil =>
    intro acc hacc h
    obtain rfl := Option.some.inj h
    exact ⟨by simp, hacc⟩
  | cons file files ih =>
    intro acc _ h
    rw [List.foldlM_cons] at h
    split_ifs at h with hlt
    · obtain ⟨hsum, htotal⟩ := ih _ hlt h
      refine ⟨?_, htotal⟩
      rw [List.map_cons, List.sum_cons]
      omega
    · cases h

/-- A change from `s` to `s'` is about the transfer: rows of other transfers stay,
and a file that changes is at a staging path of the transfer, was opened there on
this connection, or is published from there. -/
structure About (inboxDir : Path) (t : String) (hist : Calls) (s s' : Store) : Prop where
  rows : ∀ t', t' ≠ t → s'.manifest.rowsOf t' = s.manifest.rowsOf t'
  files : ∀ path, s'.fs.contents path ≠ s.fs.contents path → ∃ f staged,
    StagingPath inboxDir t f hist staged ∧
      (resolve path = resolve staged ∨
        (∃ file, ⟨.openWrite staged, .ok file⟩ ∈ hist ∧ s.fs.lookup path = some (.file file)) ∨
        ∃ name, resolve path = resolve (inboxDir ++ [name]) ∧
          s'.fs.contents path = s.fs.contents staged)
  dirs : ∀ path, s.fs.lookup path = none → s'.fs.lookup path = some .dir →
    resolve path <+: resolve inboxDir ∨
      ∃ dir, Component t hist dir ∧ resolve path <+: resolve (stagingRoot inboxDir ++ [dir])

/-- **A call that concerns a transfer changes nothing else.** -/
theorem about_of_concerns [Primitives] {inboxDir : Path} {t : String} {hist : Calls} {o : Op}
    (h : Concerns inboxDir t hist o) (s : Store) (w : Wire) :
    About inboxDir t hist s (exec o s w).2.1 := by
  refine ⟨fun t' ht' => rowsOf_exec fun hw => ht' ?_, fun path hpath => ?_, fun path hnone hdir => ?_⟩
  · cases o with
    | insertTransfer row files =>
      rcases hw with hw | ⟨file, hfile, hw⟩
      · exact hw.symm.trans h.1
      · exact hw.symm.trans (h.2 file hfile)
    | replaceChunk | touchTransfer | updateState => exact Eq.trans (Eq.symm hw) h
    | _ => cases hw
  · have htouch := not_not.mp fun hn => hpath (fs_exec (w := w) hn).1
    cases o with
    | openWrite q =>
      obtain ⟨f, hq⟩ := h
      exact ⟨f, q, hq, .inl htouch⟩
    | writeAt file offset bytes =>
      obtain ⟨q, f, hopened, hq⟩ := h
      exact ⟨f, q, hq, .inr (.inl ⟨file, hopened, htouch⟩)⟩
    | rename source target =>
      obtain ⟨file, name, -, hsource, rfl, -⟩ := h
      rcases htouch with htouch | htouch
      · exact ⟨file.fileId, source, hsource, .inl htouch⟩
      · refine ⟨file.fileId, source, hsource, ?_⟩
        by_cases hst : resolve (inboxDir ++ [name]) = resolve source
        · exact .inl (htouch.trans hst)
        · refine .inr (.inr ⟨name, htouch, ?_⟩)
          rw [exec] at hpath ⊢
          cases hfs : s.fs.rename source (inboxDir ++ [name]) with
          | error e =>
            rw [hfs] at hpath
            exact absurd rfl hpath
          | ok fs' => exact (fs'.contents_congr htouch).trans (Fs.contents_rename hfs hst).1
    | _ => cases htouch
  · obtain ⟨q, rfl, hq⟩ := dir_exec (by simp [hnone]) hdir
    rcases h with rfl | ⟨dir, hd, rfl⟩
    · exact .inl hq
    · exact .inr ⟨dir, hd, hq⟩

section gate

variable [Primitives] [Serde]

/-- What the remote sent, and the trust store said, before a change: `w` is the
connection at its start and `w'` at the change. -/
structure Gate (w w' : Wire) (seen : List (Prog.Seen Op Resp Store)) (hello : Hello)
    (request : RequestTransfer) : Prop where
  received : ∃ first second more, w.inp = first ++ second ++ more ++ w'.inp ∧
    IsControlFrame (.hello hello) first ∧ IsControlFrame (.requestTransfer request) second
  proof : authenticateHello hello w.binding.1 = .ok ()
  trusted : ∃ s answer row,
    (s, ⟨.selectPeer (Core.Fingerprint.fromPubkey hello.pubkey), answer⟩) ∈ seen ∧
      s.trust.find? (Core.Fingerprint.fromPubkey hello.pubkey).display = some row ∧
      row.policy = .autoAccept
  declared : (request.files.map FileOffer.size).sum < 2 ^ 64 ∧
    (request.files.map FileOffer.size).sum ≤ maxNativeTransferBytes
  valid : validateTransferRequest request = .ok ()

section answers

variable {ε α : Type} {p q : Io ε α} {w w' : Wire} {seen : List (Prog.Seen Op Resp Store)}
  {hello : Hello}

omit [Primitives] [Serde] in
theorem answered_run (hrun : p.Open exec w seen q w') : ∀ e ∈ seen, Answered w.binding e :=
  (hrun.inv (I := fun v => v.binding = w.binding) (P := Answered w.binding)
    (fun o s v hv => hv ▸ answered_exec o s v) rfl).2

/-- A proof holds for this connection, and its `Hello` is the first thing the
remote sent. -/
theorem Proved.onWire (hrun : p.Open exec w seen q w') (hp : Proved (seen.map Prod.snd) hello) :
    (∃ first more, w.inp = first ++ more ∧ IsControlFrame (.hello hello) first) ∧
      authenticateHello hello w.binding.1 = .ok () := by
  obtain ⟨⟨blocks, hread, rest, hrest⟩, binding, hb, hauth⟩ := hp
  constructor
  · obtain ⟨lost, hinp, -⟩ := consumed hrun
    refine ⟨blocks.flatMap Prod.snd, rest.flatMap Prod.snd ++ lost ++ w'.inp, ?_, hread.frame fun b hb =>
      length_received (answered_run hrun) b (hrest ▸ List.mem_append_left _ hb)⟩
    rw [hinp, ← hrest, List.flatMap_append]
    simp only [List.append_assoc]
  · obtain ⟨⟨s, e⟩, he, rfl⟩ := List.mem_map.mp hb
    exact (answered_run hrun _ he : binding = w.binding) ▸ hauth

/-- What the connection has been answered is what the remote sent and the trust
store held. -/
theorem Admitted.gate {request : RequestTransfer} (hrun : p.Open exec w seen q w')
    (ha : Admitted (seen.map Prod.snd) hello request) : Gate w w' seen hello request := by
  have hanswered := answered_run hrun
  refine ⟨?_, (ha.proved.onWire hrun).2, ?_, ?_, ha.valid⟩
  · obtain ⟨blocks, blocks', hread, hread', rest, hrest⟩ := ha.requested
    have hlen : ∀ b ∈ blocks ++ blocks', b.2.length = b.1 := fun b hb =>
      length_received hanswered b (hrest ▸ List.mem_append_left _ hb)
    obtain ⟨lost, hinp, -⟩ := consumed hrun
    refine ⟨_, _, rest.flatMap Prod.snd ++ lost, ?_,
      hread.frame fun b hb => hlen b (List.mem_append_left _ hb),
      hread'.frame fun b hb => hlen b (List.mem_append_right _ hb)⟩
    rw [hinp, ← hrest, List.flatMap_append, List.flatMap_append]
    simp only [List.append_assoc]
  · obtain ⟨peer, hpeer, hpolicy⟩ := ha.trusted
    obtain ⟨⟨s, e⟩, he, rfl⟩ := List.mem_map.mp hpeer
    have hget : .ok (some peer) = Core.TrustDb.get s.trust _ := hanswered _ he
    rw [Core.TrustDb.get_eq] at hget
    obtain ⟨row, hrow, rfl⟩ := Option.map_eq_some_iff.mp (Except.ok.inj hget).symm
    exact ⟨s, _, row, he, hrow, hpolicy⟩
  · obtain ⟨total, htotal⟩ := ha.declared
    rw [checkedDeclaredTransferBytes] at htotal
    split at htotal
    · cases htotal
    rename_i hsum
    obtain ⟨rfl, hlt⟩ := declaredBytes_eq_some hsum
    split_ifs at htotal with hmax
    exact ⟨hlt, not_lt.mp hmax⟩

end answers

/-- The rows of the manifest differ, or the file at some path does. -/
def Changes (s s' : Store) : Prop :=
  s'.manifest ≠ s.manifest ∨ ∃ path,
    s'.fs.lookup path ≠ s.fs.lookup path ∨ s'.fs.contents path ≠ s.fs.contents path

/-- **The gate of a native receive.**  Whatever the remote sends and whatever
others do to the store between the calls of a connection, a call that changes
the manifest or a file comes after a `Hello` with a proof for this connection, a
trust row that said `AutoAccept`, and a valid request of at most 64 GiB; and the
change is about the transfer of that request. -/
theorem receive_gate {nodeAlias : String} {pubkey : Bytes32} {inboxDir : Path}
    {trustDbPath manifestPath : String} {w w' : Wire} {seen : List (Prog.Seen Op Resp Store)}
    {o : Op} {k : Resp o → Io AnyError Unit}
    (hrun : (handleNativeConnection nodeAlias pubkey inboxDir trustDbPath manifestPath).Open exec w
      seen (.call o k) w') (s : Store) (hchange : Changes s (exec o s w').2.1) :
    ∃ hello request, Gate w w' seen hello request ∧
      About inboxDir request.transferId (seen.map Prod.snd) s (exec o s w').2.1 := by
  have hmutates : o.mutates = true := by
    by_contra hquiet
    obtain ⟨hmanifest, hfs⟩ := exec_of_not_mutates (s := s) (w := w') (eq_false_of_ne_true hquiet)
    rcases hchange with h | ⟨path, h | h⟩
    · exact h hmanifest
    · exact h (by rw [hfs])
    · exact h (by rw [hfs])
  obtain ⟨hguarded, -⟩ := hrun.wp (wp_handleNativeConnection nodeAlias pubkey inboxDir trustDbPath
    manifestPath)
  obtain ⟨hello, request, hadmitted, hconcerns⟩ := hguarded.2 hmutates
  exact ⟨hello, request, hadmitted.gate hrun, about_of_concerns hconcerns s w'⟩

end gate

/-! A peer with the key `7` asks a daemon that trusts it to take one byte. -/

/-- A `Hello` of the peer with the key. -/
def helloOf (key : Bytes32) : Hello :=
  ⟨protocolVersion, "peer", key, [], [], List.replicate 64 0⟩

/-- The answer to it. -/
def ackOf (key : Bytes32) : HelloAck := ⟨protocolVersion, "daemon", key, [], []⟩

/-- A request for one file of one byte. -/
def byteRequest (transferId : String) : RequestTransfer :=
  ⟨transferId, [.small "file-1" "a.txt" 1 none]⟩

/-- A codec for these messages. -/
@[reducible] def byteSerde : Serde := .table ([.hello (helloOf (.pad [7])), .hello (helloOf (.pad [8])),
  .helloAck (ackOf (.pad []))] ++ ["tx", "ty"].flatMap fun transferId =>
    [.requestTransfer (byteRequest transferId), .accept ⟨transferId, defaultChunkSize⟩, .done ⟨transferId⟩])

def sentBytes (messages : List ControlMessage) : Bytes := (messages.flatMap (@controlBlocks byteSerde)).flatten

/-- A store in which the keys are trusted. -/
def trustingStore (keys : List Bytes32) : Store := { Store.fresh with
  trust := keys.foldl (fun db key => (@Core.TrustDb.trust .sample db key "peer" .autoAccept
    0).2) .empty }

/-- The peer has sent a `Hello` and a request. -/
def askingWire : Wire :=
  ⟨sentBytes [.hello (helloOf (.pad [7])), .requestTransfer (byteRequest "tx")], [], .pad []⟩

/-- The connection of this peer, up to its first change. -/
def askingRun : List (Prog.Seen Op Resp Store) × Prog Op Resp AnyError Unit × Wire :=
  Prog.drive exec (trustingStore [.pad [7]]) 13
    (@handleNativeConnection .sample byteSerde "daemon" (.pad []) ["inbox"] "trust"
      "manifest") askingWire

theorem receive_gate_asking :
    ∃ hello request, @Gate .sample byteSerde askingWire askingRun.2.2 askingRun.1 hello request ∧
      About ["inbox"] request.transferId (askingRun.1.map Prod.snd) (trustingStore [.pad [7]])
        (exec (.createDirAll ["inbox", ".incoming", "native", "tx"]) (trustingStore [.pad [7]])
          askingRun.2.2).2.1 := by
  have hnext : askingRun.2.1.next? = some (.createDirAll ["inbox", ".incoming", "native", "tx"]) := by
    decide +kernel
  obtain ⟨k, hrun⟩ := Prog.open_drive_call askingRun.eq_1 hnext
  exact @receive_gate .sample byteSerde _ _ _ _ _ _ _ _ _ _ hrun _
    (.inr ⟨["inbox"], .inl (by decide +kernel)⟩)

end NightBridge.Daemon
