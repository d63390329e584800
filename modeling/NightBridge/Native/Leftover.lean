/-
# What a run that was cut off leaves behind

A run of a transfer can stop between any two calls of the receiver: the
connection is lost, or the daemon is.  What is left is one of two things.
Either the transfer is not in the manifest and nothing is staged (`Unbegun`), or
it is, and what is recorded is staged (`Staged`).  `Leftover` is either, and it
holds after every single call of `accept_transfer` (`runs_acceptTransfer`) and
of `receive_chunk_with_hash` (`runs_receiveChunk`).
-/

import NightBridge.Native.Delivery
import NightBridge.Native.Footprint
import NightBridge.Native.Frames

namespace NightBridge.Native

open Data Effect NativeTransferReceiver ManifestStore

/-! ### Calls on the store -/

section store

variable {I : Party → Prop} {p : Party} {ε α : Type}

theorem runs_store {o : Op} {k : Resp o → Io ε α} {r : Resp o} {s' : Store} {a : α}
    (ready : quic.waits o p = false) (hsends : quic.sends o = [])
    (hexec : exec o p.store p.wire = (r, s', p.wire)) (hentry : entry o r = none)
    (inv : I { p with store := s' }) (hk : k r = .ret a) :
    Runs quic I (.call o k) p [] a { p with store := s' } := by
  have h : Runs quic I (.call o k) p (quic.sends o) a { p with store := s' } := Runs.one ready (by
    simp only [quic, hexec, hentry, Option.toList_none, List.append_nil]) inv hk
  rwa [hsends] at h

/-- A call that publishes leaves the wire and the log alone. -/
theorem quiet_of_publishes [Primitives] {inboxDir : Path} {t : String} {hist : Calls} {o : Op}
    (h : Publishes inboxDir t hist o) : quic.waits o p = false ∧ quic.sends o = [] ∧
      (∀ s w, (exec o s w).2.2 = w) ∧ ∀ r, entry o r = none := by
  rcases h with h | rfl | ⟨source, target, rfl, -⟩
  · cases o with
    | nowUnix | newUuid | read | metadata | selectState | selectSize | selectFiles
    | selectFilesOrdered | selectRanges | updateState => exact ⟨rfl, rfl, fun _ _ => rfl, fun _ => rfl⟩
    | _ => exact h.elim
  · refine ⟨rfl, rfl, fun s w => ?_, fun _ => rfl⟩
    rw [exec]
    cases s.fs.createDirAll inboxDir <;> rfl
  · refine ⟨rfl, rfl, fun s w => ?_, fun _ => rfl⟩
    rw [exec]
    cases s.fs.rename source target <;> rfl

/-- **A program that only publishes** runs on its store alone. -/
theorem runs_of_publishes [Primitives] {inboxDir : Path} {t : String} {prog : Io ε α}
    {Q : Calls → α → Prop} {hist : Calls} (hwp : prog.wp (Publishes inboxDir t) Q hist) {a : α}
    {s' : Store} (hrun : prog.run handler (p.store, p.wire) = (.ok a, (s', p.wire)))
    (hI : ∀ s, I { p with store := s }) : Runs quic I prog p [] a { p with store := s' } := by
  induction prog generalizing hist p with
  | ret b =>
    obtain ⟨hb, hs⟩ := Prod.mk.inj hrun
    obtain rfl := Except.ok.inj hb
    obtain rfl : p.store = s' := congrArg Prod.fst hs
    exact .ret
  | fail e => cases hrun
  | call o k ih =>
    obtain ⟨hready, hsends, hwire, hentry⟩ := quiet_of_publishes (p := p) hwp.1
    have hexec : quic.exec o p = ((exec o p.store p.wire).1,
        { p with store := (exec o p.store p.wire).2.1 }) := by
      simp only [quic, hwire, hentry, Option.toList_none, List.append_nil]
    have hrest : Runs quic I (k (quic.exec o p).1) (quic.exec o p).2 [] a { p with store := s' } := by
      rw [hexec]
      refine ih _ (hwp.2 _) ?_ hI
      rw [Prog.run_call, handler] at hrun
      rw [show (exec o p.store p.wire).2 = ((exec o p.store p.wire).2.1, p.wire) from
        Prod.ext rfl (hwire _ _)] at hrun
      exact hrun
    have h := Runs.call hready (by rw [hexec]; exact hI _) hrest
    rwa [hsends] at h

theorem runs_nowUnix (inv : I { p with store := { p.store with clock := advance p.store.clock } }) :
    Runs quic I nowUnix p [] (p.store.clock 0)
      { p with store := { p.store with clock := advance p.store.clock } } :=
  runs_store rfl rfl rfl rfl inv rfl

theorem runs_createDirAll {path : Path} {fs' : Fs} (h : p.store.fs.createDirAll path = .ok fs')
    (inv : I { p with store := { p.store with fs := fs' } }) :
    Runs quic I (createDirAll path) p [] () { p with store := { p.store with fs := fs' } } :=
  runs_store (o := .createDirAll path) (r := .ok ()) rfl rfl (by rw [exec, h]; rfl) rfl inv rfl

theorem runs_updateState {t : String} {state : TransferState} {now : ℤ}
    (inv : I { p with store := { p.store with
      manifest := (p.store.manifest.updateState t state now).2 } }) :
    Runs quic I (updateState t state now) p [] (p.store.manifest.updateState t state now).1
      { p with store := { p.store with manifest := (p.store.manifest.updateState t state now).2 } } :=
  runs_store rfl rfl rfl rfl inv rfl

/-- The state of a known transfer is set to `Active`. -/
theorem runs_setActive {t : String} (hknown : (p.store.manifest.transfers.find? t).isSome)
    (hclock : I { p with store := { p.store with clock := advance p.store.clock } })
    (hset : I { p with store := { p.store with
      manifest := (p.store.manifest.updateState t .active (p.store.clock 0)).2
      clock := advance p.store.clock } }) :
    Runs quic I (setState t .active) p [] () { p with store := { p.store with
      manifest := (p.store.manifest.updateState t .active (p.store.clock 0)).2
      clock := advance p.store.clock } } := by
  change Runs quic I (nowUnix >>= fun now => updateState t .active now >>= fun updated =>
    if updated = 0 then manifestError "unknown transfer" else pure ()) p _ _ _
  refine (runs_nowUnix hclock).then ((runs_updateState (p := { p with store := { p.store with
    clock := advance p.store.clock } }) hset).then ?_)
  rw [if_neg (by simp [ManifestDb.updateState, hknown])]
  exact .ret

end store

/-! ### What is left -/

/-- Nothing of the transfer is there, but for directories. -/
structure Unbegun (inboxDir : Path) (t : String) (s : Store) : Prop where
  wellFormed : s.manifest.WellFormed
  unknown : s.manifest.transfers.find? t = none
  way : s.fs.DirOk (partDir inboxDir t)
  empty : ∀ f, s.fs.lookup (part inboxDir t f) = none

/-- What is left of a transfer that was cut off. -/
def Leftover (inboxDir : Path) (t : String) (offers : List FileOffer) (content : String → Bytes)
    (s : Store) : Prop :=
  Unbegun inboxDir t s ∨ Staged inboxDir t offers content s

section leftover

variable {inboxDir : Path} {t : String} {offers : List FileOffer} {content : String → Bytes} {s : Store}

theorem Leftover.way (h : Leftover inboxDir t offers content s) : s.fs.DirOk (partDir inboxDir t) :=
  h.elim Unbegun.way fun h => Fs.dirOk_of_dir h.dir

theorem Unbegun.made (h : Unbegun inboxDir t s) {fs' : Fs}
    (hmk : s.fs.createDirAll (partDir inboxDir t) = .ok fs') :
    Unbegun inboxDir t { s with fs := fs' } where
  wellFormed := h.wellFormed
  unknown := h.unknown
  way := Fs.dirOk_of_dir (Fs.createDirAll_spec hmk).2.2.1
  empty f := (lookup_part_of_createDirAll hmk f).trans (h.empty f)

theorem Staged.known (h : Staged inboxDir t offers content s) (hne : offers ≠ []) :
    (s.manifest.transfers.find? t).isSome := by
  obtain ⟨o, ho⟩ := List.exists_mem_of_ne_nil _ hne
  obtain ⟨hfr, ht⟩ := (h.rows (offeredRow t o)).mpr ⟨o, ho, rfl⟩
  exact ht ▸ h.wellFormed.files _ hfr

end leftover

/-! ### Call by call -/

section calls

variable (self : NativeTransferReceiver) {I : Party → Prop} {p : Party} {content : String → Bytes}

/-- The calls of `create_transfer`, from a store without the transfer. -/
theorem runs_createTransfer {request : RequestTransfer} {fingerprint : String} {inboxDir : Path}
    (hfp : isBlank fingerprint = false) (hvalid : request.Valid)
    (h : Unbegun inboxDir request.transferId p.store)
    (hdir : p.store.fs.lookup (partDir inboxDir request.transferId) = some .dir)
    (hI : ∀ s, Leftover inboxDir request.transferId request.files content s →
      s.trust = p.store.trust → I { p with store := s }) :
    ∃ s, Runs quic I (createTransfer request.transferId fingerprint .receive request.files) p [] ()
        { p with store := s } ∧
      Staged inboxDir request.transferId request.files content s ∧ s.fs = p.store.fs ∧
      s.trust = p.store.trust := by
  obtain ⟨db, hins, hcreated⟩ := insertTransfer_isOk h.wellFormed
    ⟨request.transferId, fingerprint, .receive, .pending, p.store.clock 0, p.store.clock 0⟩
    h.unknown hvalid.nodup
  have hstaged : Staged inboxDir request.transferId request.files content
      { p.store with manifest := db, clock := advance p.store.clock } :=
    .of_created content h.wellFormed hcreated hdir h.empty
  refine ⟨_, ?_, hstaged, rfl, rfl⟩
  rw [createTransfer, if_neg (by simp [hvalid.transferId]), if_neg (by simp [hfp]), if_neg hvalid.files]
  refine (runs_nowUnix (hI _ (.inl ⟨h.wellFormed, h.unknown, h.way, h.empty⟩) rfl)).then ?_
  exact runs_store (o := .insertTransfer _ _) (r := .ok ()) rfl rfl
    (by rw [exec]; exact congrArg (onManifest _ _) hins) rfl (hI _ (.inr hstaged) rfl) rfl

/-- The end of `accept_transfer`: the state becomes `Active`. -/
theorem runs_activate {inboxDir : Path} {t : String} {offers : List FileOffer} (hne : offers ≠ [])
    (h : Staged inboxDir t offers content p.store)
    (hI : ∀ s, Leftover inboxDir t offers content s → s.trust = p.store.trust →
      I { p with store := s }) :
    ∃ s, Runs quic I (setState t .active) p [] () { p with store := s } ∧
      Staged inboxDir t offers content s ∧ s.fs = p.store.fs ∧ s.trust = p.store.trust :=
  ⟨_, runs_setActive (h.known hne) (hI _ (.inr (h.congr rfl rfl rfl fun _ h => h)) rfl)
    (hI _ (.inr (h.updateState .active _ _)) rfl), h.updateState .active _ _, rfl, rfl⟩

/-- **`accept_transfer`, call by call**, whatever an earlier run has left. -/
theorem runs_acceptTransfer {peer : NativePeerInfo} {request : RequestTransfer}
    (hblocked : self.blocked = false) (hpeer : self.trustedPeerFingerprint = some peer.fingerprint)
    (hfp : isBlank peer.fingerprint = false) (hvalid : request.Valid)
    (hstable : Stable request.transferId)
    (h : Leftover self.inboxDir request.transferId request.files content p.store) {fs' : Fs}
    (hmk : p.store.fs.createDirAll (partDir self.inboxDir request.transferId) = .ok fs')
    (hI : ∀ s, Leftover self.inboxDir request.transferId request.files content s →
      s.trust = p.store.trust → I { p with store := s }) :
    ∃ s, Runs quic I (self.acceptTransfer peer request) p [] ⟨request.transferId, self.chunkSize⟩
        { p with store := s } ∧
      Staged self.inboxDir request.transferId request.files content s ∧ s.fs = fs' ∧
      s.trust = p.store.trust := by
  have hdir := (Fs.createDirAll_spec hmk).2.2.1
  rw [acceptTransfer, if_neg (by simp [hblocked]), if_neg (by simp [hpeer]), incomingDir_eq self hstable,
    (validateTransferRequest_eq_ok_iff request).mpr hvalid, Prog.ofExcept_ok, Prog.ret_bind,
      Prog.ret_bind]
  have hstate : ∀ q : Party, I q → Runs quic I (ManifestStore.state request.transferId) q []
      (q.store.manifest.selectState request.transferId) q := fun q hq =>
    runs_store (o := .selectState _) rfl rfl rfl rfl hq rfl
  rcases h with hun | hst
  · have hmade := hun.made hmk
    have hI₁ : I { p with store := { p.store with fs := fs' } } := hI _ (.inl hmade) rfl
    obtain ⟨s₁, hcreate, hs₁, hfs₁, htrust₁⟩ := runs_createTransfer (I := I)
      (p := { p with store := { p.store with fs := fs' } }) hfp hvalid hmade hdir hI
    obtain ⟨s₂, hset, hs₂, hfs₂, htrust₂⟩ := runs_activate (I := I) (p := { p with store := s₁ })
      hvalid.files hs₁ fun s hs htrust => hI s hs (htrust.trans htrust₁)
    refine ⟨s₂, (runs_createDirAll hmk hI₁).then ((hstate _ hI₁).then ?_), hs₂, hfs₂.trans hfs₁,
      htrust₂.trans htrust₁⟩
    have hnone : ManifestDb.selectState p.store.manifest request.transferId = none := by
      rw [ManifestDb.selectState, hun.unknown]
      rfl
    simp only [hnone, Option.isNone_none, if_true]
    exact hcreate.then (hset.then .ret)
  · have hfs : fs' = p.store.fs := by
      rw [Fs.createDirAll_of_dir hst.dir] at hmk
      exact (Except.ok.inj hmk).symm
    subst hfs
    obtain ⟨s₁, hset, hs₁, hfs₁, htrust₁⟩ := runs_activate hvalid.files hst hI
    have hI₁ : I p := hI p.store (.inr hst) rfl
    refine ⟨s₁, (runs_createDirAll hmk hI₁).then ((hstate _ hI₁).then ?_), hs₁, hfs₁, htrust₁⟩
    have hsome : (ManifestDb.selectState p.store.manifest request.transferId).isNone = false := by
      rw [ManifestDb.selectState, Option.isNone_map]
      simpa using hst.known hvalid.files
    simp only [hsome, Bool.false_eq_true, if_false]
    exact hset.then .ret

variable [Primitives] {t : String} {offers : List FileOffer}

/-- The row a chunk is recorded in. -/
def chunkRow (t : String) (chunk : TransferChunk) : ChunkRow :=
  ⟨t, chunk.fileId, asI64 chunk.offset, asI64 chunk.bytes.length, chunk.blake3⟩

/-- The chunk of an offered file that is made of this range. -/
def chunkOf (content : String → Bytes) (o : FileOffer) (range : ChunkRange) : TransferChunk where
  fileId := o.fileId
  offset := range.offset
  blake3 := blake3Hex (slice (content o.fileId) range.offset range.length)
  bytes := slice (content o.fileId) range.offset range.length

omit [Primitives] in
/-- The calls of `record_verified_chunk`. -/
theorem runs_recordVerifiedChunk {fr : FileRow} (hfr : fr ∈ p.store.manifest.files.rows)
    {offset length : ℕ} (hpos : 0 < length) (hend : offset + length ≤ asU64 fr.size) (blake3 : String)
    (hsize : I p) (hI : ∀ (db : ManifestDb) (clock : ℕ → ℤ) (log : List Entry),
      db.files = p.store.manifest.files →
      db.chunks = p.store.manifest.chunks.replace
        ⟨fr.transferId, fr.fileId, asI64 offset, asI64 length, blake3⟩ →
      (∀ t', (p.store.manifest.transfers.find? t').isSome → (db.transfers.find? t').isSome) →
      I { p with store := { p.store with manifest := db, clock := clock }, log := log }) :
    Runs quic I (recordVerifiedChunk fr.transferId fr.fileId offset length blake3) p [] ()
      { p with
        store := { p.store with
          manifest := p.store.manifest.record fr.transferId fr.fileId offset length blake3
            (p.store.clock 0)
          clock := advance p.store.clock }
        log := p.log ++ [.stored ⟨fr.transferId, fr.fileId, asI64 offset, asI64 length, blake3⟩] } := by
  have hlt := ManifestDb.asU64_lt fr.size
  have hfind : p.store.manifest.files.find? (fr.transferId, fr.fileId) = some fr :=
    Table.find?_eq_some_iff.mpr ⟨hfr, rfl⟩
  have hselect : p.store.manifest.selectSize fr.transferId fr.fileId = some fr.size := by
    rw [ManifestDb.selectSize, hfind]
    rfl
  have hfile : Runs quic I (fileSize fr.transferId fr.fileId) p [] (asU64 fr.size) p := by
    refine Runs.then (runs_store (o := .selectSize _ _) (r := .ok (some fr.size)) rfl rfl
      (by rw [exec, hselect]) rfl hsize rfl) ?_
    exact .ret
  rw [recordVerifiedChunk, if_neg (by omega)]
  refine hfile.then ?_
  rw [if_neg (by omega), if_neg (by omega)]
  -- the row is replaced, the clock read and the transfer touched
  have hreplaced : ∀ clock log, I { p with
      store := { p.store with
        manifest := { p.store.manifest with chunks := (p.store.manifest.chunks.replace
          ⟨fr.transferId, fr.fileId, asI64 offset, asI64 length, blake3⟩) }
        clock := clock }
      log := log } := fun clock log => hI _ clock log rfl rfl fun _ h => h
  have hreplace : Runs quic I (replaceChunk
    ⟨fr.transferId, fr.fileId, asI64 offset, asI64 length, blake3⟩) p
      [] () { p with
        store := { p.store with manifest := { p.store.manifest with
          chunks := p.store.manifest.chunks.replace
            ⟨fr.transferId, fr.fileId, asI64 offset, asI64 length, blake3⟩ } }
        log := p.log ++ [.stored ⟨fr.transferId, fr.fileId, asI64 offset, asI64 length, blake3⟩] } := by
    refine Runs.one (L := quic) (o := Op.replaceChunk _) (r := .ok ()) rfl ?_ (hreplaced _ _) rfl
    simp [quic, exec, ManifestDb.replaceChunk, hfind, onManifest, entry]
  refine hreplace.then ?_
  refine (runs_nowUnix ?_).then ?_
  · exact hreplaced _ _
  · refine runs_store (o := .touchTransfer _ _) (r := .ok ()) rfl rfl rfl rfl
      (hI _ _ _ rfl rfl fun t' ht' => ?_) rfl
    rw [ManifestDb.find?_record_transfers]
    exact ht'

/-- **`receive_chunk_with_hash`, call by call**, on a true slice of an offered
file. -/
theorem runs_receiveChunk (hoffer : Offer t offers content)
    (h : Staged self.inboxDir t offers content p.store) {o : FileOffer} (ho : o ∈ offers)
    {range : ChunkRange} (hpos : 0 < range.length) (hend : range.stop ≤ o.size)
    (hI : ∀ s log, Leftover self.inboxDir t offers content s → s.trust = p.store.trust →
      I ⟨s, p.wire, log⟩) :
    ∃ fs', Runs quic I (self.receiveChunkWithHash t o.fileId range.offset (chunkOf content o range).bytes
          (chunkOf content o range).blake3) p [] () { p with
        store := { p.store with
          manifest := p.store.manifest.record t o.fileId range.offset range.length
            (chunkOf content o range).blake3 (p.store.clock 0)
          fs := fs'
          clock := advance p.store.clock }
        log := p.log ++ [.stored (chunkRow t (chunkOf content o range))] } ∧
      Staged self.inboxDir t offers content { p.store with
        manifest := p.store.manifest.record t o.fileId range.offset range.length
          (chunkOf content o range).blake3 (p.store.clock 0)
        fs := fs'
        clock := advance p.store.clock } ∧
      ∀ q, resolve q ≠ resolve (part self.inboxDir t o.fileId) →
        fs'.contents q = p.store.fs.contents q ∧ fs'.lookup q = p.store.fs.lookup q := by
  have hsize := hoffer.size o ho
  have hend' : range.offset + range.length ≤ o.size := hend
  have hlen : (chunkOf content o range).bytes.length = range.length :=
    slice_length (show range.offset + range.length ≤ (content o.fileId).length by omega)
  have hne : (chunkOf content o range).bytes ≠ [] := List.length_pos_iff.mp (by omega)
  obtain ⟨hfr, -⟩ := (h.rows (offeredRow t o)).mpr ⟨o, ho, rfl⟩
  obtain ⟨i, fs₁, hopen⟩ := Fs.openWrite_isOk (resolve_part _ _ _) h.dir (h.notDir o ho)
  -- the file is opened with the bytes it has, the slice is written over them, and then recorded
  obtain ⟨-, hpart₁, hother₁⟩ := Fs.contents_openWrite hopen
  obtain ⟨hpart₂, hother₂, -⟩ := Fs.contents_openWrite_writeAt range.offset
    (chunkOf content o range).bytes hopen
  have hopened : Staged self.inboxDir t offers content { p.store with fs := fs₁ } := by
    refine h.rewrite hoffer ho hpart₁ ?_ (fun b hb => ?_) fun q hq => (hother₁ q hq).symm
    · cases hold : p.store.fs.contents (part self.inboxDir t o.fileId) with
      | none => exact Nat.zero_le _
      | some old => exact h.short o ho old hold
    · obtain ⟨old, hold, htrue⟩ := h.bytes o ho b hb
      rw [hold]
      exact htrue
  obtain ⟨hshort, hkept, hnew⟩ := h.overwritten hoffer ho hpos hend' rfl
  have hwritten := h.rewrite hoffer ho hpart₂ hshort hkept fun q hq => (hother₂ q hq).symm
  have hrecorded := fun now clock => hwritten.record hoffer ho hpos hend' hpart₂ hnew
    (chunkOf content o range).blake3 now clock
  refine ⟨_, ?_, hrecorded _ _, fun q hq => (hother₂ q hq).symm⟩
  have hdrop : (partPath self.inboxDir (cleanComponent t) (cleanComponent o.fileId)).dropLast =
      partDir self.inboxDir t := partPath_dropLast _ _ _
  rw [receiveChunkWithHash, if_neg hne, if_neg (by simp [chunkOf]),
    incomingFilePath_eq self hoffer.stable (hoffer.fileStable o ho), Prog.ret_bind, hdrop]
  refine (runs_createDirAll (Fs.createDirAll_of_dir h.dir) (hI _ _ (.inr h) rfl)).then ?_
  refine (runs_store (o := .openWrite _) (r := .ok i) rfl rfl ?_ rfl
    (hI _ _ (.inr hopened) rfl) rfl).then ?_
  · rw [part] at hopen
    rw [exec, hopen]
  refine (runs_store (p := { p with store := { p.store with fs := fs₁ } }) (o := .writeAt _ _ _)
    (r := .ok ()) rfl rfl ?_ rfl (hI _ _ (.inr hwritten) rfl) rfl).then ?_
  · have hseek := hoffer.seekable o ho
    rw [exec, if_pos (by omega)]
    rfl
  have hrec := runs_recordVerifiedChunk (I := I) (p := { p with store := { p.store with
    fs := fs₁.writeAt i range.offset (chunkOf content o range).bytes } }) hfr hpos
    (by rw [asU64_offeredRow]; exact hend') (chunkOf content o range).blake3 (hI _ _ (.inr hwritten) rfl)
    (fun db clock log hfiles hchunks htransfers =>
      hI _ _ (.inr ((hrecorded 0 clock).congr rfl hfiles hchunks
      fun t' ht' => htransfers t' (by rwa [ManifestDb.find?_record_transfers] at ht'))) rfl)
  rw [chunkRow, hlen]
  exact hrec

end calls

end NightBridge.Native
