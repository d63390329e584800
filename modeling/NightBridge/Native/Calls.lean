/-
# What any call can do

The three calls a peer can make through a connection, on any arguments and from
any store with a well-formed manifest: `accept_transfer`,
`receive_chunk_with_hash` and `finish_transfer`.  Each statement covers success
and every failure, and says all the call can have changed:

| call | manifest | files |
| --- | --- | --- |
| accept | nothing, a new transfer, or the state becomes `Active` | none |
| chunk | nothing, or the chunk is recorded | one staging path |
| finish | the state of the transfer | staged files move to the inbox |
-/

import NightBridge.Native.Accept
import NightBridge.Native.Finish

namespace NightBridge.Native

open Data Effect NativeTransferReceiver ManifestStore

/-- The checks of `accept_transfer` before it touches anything. -/
def Admitted (self : NativeTransferReceiver) (peer : NativePeerInfo) (request : RequestTransfer) :
    Prop :=
  self.blocked = false ∧ self.trustedPeerFingerprint = some peer.fingerprint ∧
    validateTransferRequest request = .ok ()

/-- What `accept_transfer` can do to the manifest. -/
def AcceptEffect (db : ManifestDb) (request : RequestTransfer) (db' : ManifestDb) : Prop :=
  db' = db ∨ Created db request.transferId request.files .active db' ∨
    ∃ now, db' = (db.updateState request.transferId .active now).2

/-- `record_verified_chunk` takes the chunk: it is a non-empty part of a file. -/
def ManifestDb.Takes (db : ManifestDb) (t f : String) (offset length : ℕ) : Prop :=
  ∃ fr ∈ db.files.rows, fr.key = (t, f) ∧ 0 < length ∧ offset + length ≤ asU64 fr.size

/-- What `receive_chunk_with_hash` can do to the manifest. -/
def ChunkEffect (db : ManifestDb) (t f : String) (db' : ManifestDb) : Prop :=
  db' = db ∨ ∃ fr ∈ db.files.rows, fr.key = (t, f) ∧ ∃ offset length blake3 now,
    0 < length ∧ offset + length ≤ asU64 fr.size ∧ db' = db.record t f offset length blake3 now

/-- The staging path of the ids: their sanitised forms, or a future UUID for an
id of which nothing is left. -/
def StagedAt (s : Store) (t f d g : String) : Prop :=
  (Stable t ∧ Stable f ∧ d = cleanComponent t ∧ g = cleanComponent f) ∨
    ((¬ Stable t ∨ ¬ Stable f) ∧ ∃ k, d = s.uuids k ∨ g = s.uuids k)

section calls

variable (self : NativeTransferReceiver) {s : Store} {w : Wire}

theorem run_incomingDir (t : String) : ∃ d uuids, (self.incomingDir t).run handler (s, w) =
    (.ok (stagingRoot self.inboxDir ++ [d]), ({ s with uuids := uuids }, w)) := by
  unfold incomingDir safeComponent
  by_cases ht : cleanComponent t = ""
  · exact ⟨s.uuids 0, advance s.uuids, by simp [ht, newUuid, handler, exec]⟩
  · exact ⟨cleanComponent t, s.uuids, by simp [ht]⟩

theorem run_createDirAll (p : Path) : ∃ r fs', (createDirAll p).run handler (s, w) =
    (r, ({ s with fs := fs' }, w)) ∧ ∀ q, fs'.contents q = s.fs.contents q := by
  cases hmk : s.fs.createDirAll p with
  | error e => exact ⟨.error (.io e), s.fs, by
      simp [createDirAll, handler, exec, onFs, hmk, orIo, Except.mapError], fun _ => rfl⟩
  | ok fs' => exact ⟨.ok (), fs', by
      simp [createDirAll, handler, exec, onFs, hmk, orIo, Except.mapError],
      Fs.contents_createDirAll hmk⟩

theorem find?_insertTransfer {db db' : ManifestDb} {row : TransferRow} {rows : List FileRow}
    (h : db.insertTransfer row rows = .ok db') : db'.transfers.find? row.transferId = some row := by
  rw [ManifestDb.insertTransfer] at h
  split at h
  · cases h
  · rename_i transfers htr
    split at h
    · cases h
    · cases h
      exact Table.find?_eq_some_iff.mpr ⟨by simp [(Table.insert_eq_some_iff.mp htr).2], rfl⟩

/-- **Any call of `create_transfer`** creates the transfer or changes nothing
but the clock. -/
theorem run_createTransfer (t fingerprint : String) (direction : TransferDirection)
    (files : List FileOffer) :
    (∃ e s', (createTransfer t fingerprint direction files).run handler (s, w) =
        (.error e, (s', w)) ∧
      s'.manifest = s.manifest ∧ s'.fs = s.fs ∧ s'.trust = s.trust) ∨
    ∃ db', (createTransfer t fingerprint direction files).run handler (s, w) =
        (.ok (), ({ s with manifest := db', clock := advance s.clock }, w)) ∧
      Created s.manifest t files .pending db' ∧
      (db'.transfers.find? t).map TransferRow.peerFingerprint = some fingerprint := by
  unfold createTransfer
  split_ifs
  · exact .inl ⟨_, s, rfl, rfl, rfl, rfl⟩
  · exact .inl ⟨_, s, rfl, rfl, rfl, rfl⟩
  · exact .inl ⟨_, s, rfl, rfl, rfl, rfl⟩
  · cases hins : s.manifest.insertTransfer
        ⟨t, fingerprint, direction, .pending, s.clock 0, s.clock 0⟩
        (files.map fun file => ⟨t, file.fileId, file.fileName, asI64 file.size, file.blake3⟩) with
    | error e => exact .inl ⟨.manifest e, { s with clock := advance s.clock }, by
        simp [nowUnix, insertTransfer, handler, exec, onManifest, hins, orManifest,
          Except.mapError], rfl, rfl, rfl⟩
    | ok db' => exact .inr ⟨db', by
        simp [nowUnix, insertTransfer, handler, exec, onManifest, hins, orManifest,
          Except.mapError], .of_insertTransfer hins, by rw [find?_insertTransfer hins]; rfl⟩

/-- **Any call of `accept_transfer`** fails and leaves the manifest, or creates
the transfer, or finds it there and makes it active. -/
theorem run_acceptTransfer_spec (peer : NativePeerInfo) (request : RequestTransfer) :
    ∃ r s', (self.acceptTransfer peer request).run handler (s, w) = (r, (s', w)) ∧
      s'.trust = s.trust ∧ (∀ q, s'.fs.contents q = s.fs.contents q) ∧
      (((∃ e, r = .error e) ∧ s'.manifest = s.manifest) ∨ (Admitted self peer request ∧
        ((∃ db' now, Created s.manifest request.transferId request.files .pending db' ∧
            (db'.transfers.find? request.transferId).map TransferRow.peerFingerprint =
              some peer.fingerprint ∧
            s'.manifest = (db'.updateState request.transferId .active now).2) ∨
          ((s.manifest.transfers.find? request.transferId).isSome ∧
            ∃ now, s'.manifest = (s.manifest.updateState request.transferId .active now).2)))) := by
  unfold acceptTransfer
  split_ifs with hblocked hpeer
  · exact ⟨_, s, rfl, rfl, fun _ => rfl, .inl ⟨⟨_, rfl⟩, rfl⟩⟩
  · exact ⟨_, s, rfl, rfl, fun _ => rfl, .inl ⟨⟨_, rfl⟩, rfl⟩⟩
  cases hv : validateTransferRequest request with
  | error e => exact ⟨_, s, rfl, rfl, fun _ => rfl, .inl ⟨⟨_, rfl⟩, rfl⟩⟩
  | ok _ =>
    have hadm : Admitted self peer request := ⟨by simpa using hblocked, not_not.mp hpeer, hv⟩
    obtain ⟨d, uuids, hdir⟩ := run_incomingDir self (s := s) (w := w) request.transferId
    obtain ⟨rd, fs', hmk, hcont⟩ := run_createDirAll (s := { s with uuids := uuids }) (w := w)
      (stagingRoot self.inboxDir ++ [d])
    rw [Prog.ofExcept_ok, Prog.ret_bind, Prog.run_bind_ok _ hdir]
    cases rd with
    | error e => exact ⟨_, _, Prog.run_bind_error _ hmk, rfl, hcont, .inl ⟨⟨_, rfl⟩, rfl⟩⟩
    | ok _ =>
      rw [Prog.run_bind_ok _ hmk, Prog.run_bind_ok _ (show (ManifestStore.state
        request.transferId).run handler ({ s with uuids := uuids, fs := fs' }, w) =
          (.ok (s.manifest.selectState request.transferId),
            ({ s with uuids := uuids, fs := fs' }, w)) from rfl)]
      have hact := run_setState_ne request.transferId
        (show TransferState.active ≠ .completed by decide)
      cases hf : s.manifest.transfers.find? request.transferId with
      | none =>
        rw [show s.manifest.selectState request.transferId = none by
          rw [ManifestDb.selectState, hf]; rfl]
        simp only [Option.isNone_none, if_true]
        rcases run_createTransfer (s := { s with uuids := uuids, fs := fs' }) (w := w)
          request.transferId peer.fingerprint .receive request.files with
          ⟨e, s', hrun, hm, hfs, htr⟩ | ⟨db', hrun, hcreated, hfingerprint⟩
        · exact ⟨_, s', Prog.run_bind_error _ hrun, htr, fun q => by rw [hfs]; exact hcont q,
            .inl ⟨⟨_, rfl⟩, hm⟩⟩
        · have hset := hact { s with
            uuids := uuids, fs := fs', manifest := db', clock := advance s.clock } w
          rw [if_pos hcreated.isSome] at hset
          rw [Prog.run_bind_ok _ hrun, Prog.run_bind_ok _ hset]
          exact ⟨_, _, rfl, rfl, hcont, .inr ⟨hadm, .inl ⟨db', _, hcreated, hfingerprint, rfl⟩⟩⟩
      | some row =>
        rw [show s.manifest.selectState request.transferId = some row.state by
          rw [ManifestDb.selectState, hf]; rfl]
        have hset := hact { s with uuids := uuids, fs := fs' } w
        rw [if_pos (by simp [hf])] at hset
        simp only [Option.isNone_some, Bool.false_eq_true, if_false]
        rw [Prog.run_bind_ok _ hset]
        exact ⟨_, _, rfl, rfl, hcont, .inr ⟨hadm, .inr ⟨rfl, _, rfl⟩⟩⟩

theorem run_acceptTransfer_any (peer : NativePeerInfo) (request : RequestTransfer) :
    ∃ r s', (self.acceptTransfer peer request).run handler (s, w) = (r, (s', w)) ∧
      s'.trust = s.trust ∧ (∀ q, s'.fs.contents q = s.fs.contents q) ∧
      AcceptEffect s.manifest request s'.manifest ∧
      (¬ Admitted self peer request → s'.manifest = s.manifest) := by
  obtain ⟨r, s', hrun, htrust, hcontents, hcases⟩ :=
    run_acceptTransfer_spec self (s := s) (w := w) peer request
  refine ⟨r, s', hrun, htrust, hcontents, ?_⟩
  rcases hcases with ⟨-, hsame⟩ | ⟨hadm, ⟨db', now, hcreated, -, hdb⟩ | ⟨-, now, hdb⟩⟩
  · exact ⟨.inl hsame, fun _ => hsame⟩
  · exact ⟨.inr (.inl (hdb ▸ hcreated.updateState .active now)), fun h => absurd hadm h⟩
  · exact ⟨.inr (.inr ⟨now, hdb⟩), fun h => absurd hadm h⟩

/-- A chunk that `record_verified_chunk` does not take is refused, and nothing
changes. -/
theorem run_recordVerifiedChunk_refused {t f : String} {offset length : ℕ} (blake3 : String)
    (h : ¬ s.manifest.Takes t f offset length) :
    ∃ e, (recordVerifiedChunk t f offset length blake3).run handler (s, w) = (.error e, (s, w)) := by
  unfold recordVerifiedChunk
  by_cases hzero : length = 0
  · rw [if_pos hzero]
    exact ⟨_, rfl⟩
  · rw [if_neg hzero]
    cases hf : s.manifest.files.find? (t, f) with
    | none =>
      have hsize : (fileSize t f).run handler (s, w) =
          (.error (.manifest "unknown transfer file"), (s, w)) := by
        simp [fileSize, selectSize, handler, exec, ManifestDb.selectSize, hf, orManifest,
          Except.mapError, manifestError]
      exact ⟨_, Prog.run_bind_error _ hsize⟩
    | some fr =>
      obtain ⟨hfr, hk⟩ := Table.find?_eq_some_iff.mp hf
      obtain ⟨rfl, rfl⟩ := Prod.mk.inj hk
      rw [Prog.run_bind_ok _ (run_fileSize hfr)]
      split_ifs with h1 h2
      · exact ⟨_, rfl⟩
      · exact ⟨_, rfl⟩
      · exact absurd ⟨fr, hfr, rfl, by omega, by omega⟩ h

theorem run_recordVerifiedChunk_any (t f : String) (offset length : ℕ) (blake3 : String) :
    ∃ r s', (recordVerifiedChunk t f offset length blake3).run handler (s, w) = (r, (s', w)) ∧
      s'.fs = s.fs ∧ s'.trust = s.trust ∧ ChunkEffect s.manifest t f s'.manifest ∧
      (r = .ok () → s.manifest.Takes t f offset length ∧
        s'.manifest = s.manifest.record t f offset length blake3 (s.clock 0)) := by
  by_cases htakes : s.manifest.Takes t f offset length
  · obtain ⟨fr, hfr, hk, hpos, hend⟩ := id htakes
    obtain ⟨rfl, rfl⟩ := Prod.mk.inj hk
    exact ⟨_, _, run_recordVerifiedChunk hfr hpos hend blake3, rfl, rfl,
      .inr ⟨fr, hfr, rfl, offset, length, blake3, _, hpos, hend, rfl⟩, fun _ => ⟨htakes, rfl⟩⟩
  · obtain ⟨e, hrun⟩ := run_recordVerifiedChunk_refused (w := w) blake3 htakes
    exact ⟨_, s, hrun, rfl, rfl, .inl rfl, nofun⟩

theorem run_receiveChunkWithHash_unchecked [Primitives] (t f : String) (offset : ℕ) {bytes : Bytes}
    {blake3 : String} (h : bytes = [] ∨ blake3Hex bytes ≠ blake3) :
    ∃ e, (self.receiveChunkWithHash t f offset bytes blake3).run handler (s, w) =
      (.error e, (s, w)) := by
  unfold receiveChunkWithHash
  split_ifs with hempty hhash
  · exact ⟨_, rfl⟩
  · exact ⟨_, rfl⟩
  · exact absurd h (not_or.mpr ⟨hempty, hhash⟩)

/-- **A chunk that passes the checks** is written to the staging path of its ids
and then offered to the manifest, unless the operating system refuses the
directory, the file or the offset; a file that is then new is empty. -/
theorem run_receiveChunkWithHash_write [Primitives] (t f : String) (offset : ℕ) {bytes : Bytes}
    {blake3 : String} (hne : bytes ≠ []) (hhash : blake3Hex bytes = blake3) :
    ∃ d g uuids fs', StagedAt s t f d g ∧
      ((self.incomingFilePath t f).run handler (s, w)).1 = .ok (partPath self.inboxDir d g) ∧
      (∀ q, resolve q ≠ resolve (partPath self.inboxDir d g) →
        fs'.contents q = s.fs.contents q) ∧
      ((∃ e, (self.receiveChunkWithHash t f offset bytes blake3).run handler (s, w) =
          (.error (.io e), ({ s with uuids := uuids, fs := fs' }, w)) ∧
          ∀ q, fs'.contents q = s.fs.contents q ∨
            (resolve q = resolve (partPath self.inboxDir d g) ∧ fs'.contents q = some [])) ∨
        ((self.receiveChunkWithHash t f offset bytes blake3).run handler (s, w) =
            (recordVerifiedChunk t f offset bytes.length blake3).run handler
              ({ s with uuids := uuids, fs := fs' }, w) ∧
          fs'.contents (partPath self.inboxDir d g) = some (overwrite
            ((s.fs.contents (partPath self.inboxDir d g)).getD []) offset bytes))) := by
  rw [receiveChunkWithHash, if_neg hne, if_neg (not_not.mpr hhash), hhash]
  obtain ⟨d, g, uuids, hpath, hdg⟩ := run_incomingFilePath self (s := s) (w := w) t f
  have hstaged := congrArg Prod.fst hpath
  rw [Prog.run_bind_ok _ hpath]
  cases hmk : s.fs.createDirAll (partPath self.inboxDir d g).dropLast with
  | error e =>
    have hrun : (createDirAll (partPath self.inboxDir d g).dropLast).run handler
        ({ s with uuids := uuids }, w) = (.error (.io e), ({ s with uuids := uuids }, w)) := by
      simp [createDirAll, handler, exec, onFs, hmk, orIo, Except.mapError]
    exact ⟨d, g, uuids, s.fs, hdg, hstaged, fun _ _ => rfl, .inl ⟨e, Prog.run_bind_error _ hrun,
      fun _ => .inl rfl⟩⟩
  | ok fs₁ =>
    have hrun : (createDirAll (partPath self.inboxDir d g).dropLast).run handler
        ({ s with uuids := uuids }, w) = (.ok (), ({ s with uuids := uuids, fs := fs₁ }, w)) := by
      simp [createDirAll, handler, exec, onFs, hmk, orIo, Except.mapError]
    have hcont := Fs.contents_createDirAll hmk
    rw [Prog.run_bind_ok _ hrun]
    cases hopen : fs₁.openWrite (partPath self.inboxDir d g) with
    | error e =>
      have hrun : (openWrite (partPath self.inboxDir d g)).run handler
          ({ s with uuids := uuids, fs := fs₁ }, w) =
            (.error (.io e), ({ s with uuids := uuids, fs := fs₁ }, w)) := by
        simp [openWrite, handler, exec, hopen, orIo, Except.mapError]
      exact ⟨d, g, uuids, fs₁, hdg, hstaged, fun q _ => hcont q, .inl ⟨e,
        Prog.run_bind_error _ hrun, fun q => .inl (hcont q)⟩⟩
    | ok opened =>
      obtain ⟨i, fs₂⟩ := opened
      have hrun : (openWrite (partPath self.inboxDir d g)).run handler
          ({ s with uuids := uuids, fs := fs₁ }, w) =
            (.ok i, ({ s with uuids := uuids, fs := fs₂ }, w)) := by
        simp [openWrite, handler, exec, hopen, orIo, Except.mapError]
      rw [Prog.run_bind_ok _ hrun]
      by_cases hseek : offset < 2 ^ 63
      · obtain ⟨hwritten, hother, -⟩ := Fs.contents_openWrite_writeAt offset bytes hopen
        refine ⟨d, g, uuids, fs₂.writeAt i offset bytes, hdg, hstaged, fun q hq => ?_, .inr ⟨?_, ?_⟩⟩
        · rw [(hother q hq).2, hcont]
        · refine Prog.run_bind_ok (a := ()) _ ?_
          simp [writeAt, handler, exec, onFs, orIo, Except.mapError, hseek, -Nat.reducePow]
        · rw [hwritten, hcont]
      · -- the file is open, and the seek fails
        obtain ⟨-, hpart, hother⟩ := Fs.contents_openWrite hopen
        refine ⟨d, g, uuids, fs₂, hdg, hstaged, fun q hq => ?_,
          .inl ⟨.invalidArgument, ?_, fun q => ?_⟩⟩
        · rw [(hother q hq).2, hcont]
        · refine Prog.run_bind_error _ ?_
          simp [writeAt, handler, exec, orIo, Except.mapError, hseek, -Nat.reducePow]
        · by_cases hq : resolve q = resolve (partPath self.inboxDir d g)
          · rw [Fs.contents_congr _ hq, hpart, Fs.contents_congr _ hq, hcont]
            cases s.fs.contents (partPath self.inboxDir d g) with
            | none => exact .inr ⟨hq, rfl⟩
            | some old => exact .inl rfl
          · exact .inl (by rw [(hother q hq).2, hcont])

/-- **Any call of `receive_chunk_with_hash`.**  It writes at most the staging path
of its ids, and only bytes that have the given digest; when it succeeds, they are
written and recorded. -/
theorem run_receiveChunkWithHash_any [Primitives] (t f : String) (offset : ℕ) (bytes : Bytes)
    (blake3 : String) :
    ∃ r s', (self.receiveChunkWithHash t f offset bytes blake3).run handler (s, w) =
        (r, (s', w)) ∧
      s'.trust = s.trust ∧ ChunkEffect s.manifest t f s'.manifest ∧
      ((r ≠ .ok () ∧ s'.manifest = s.manifest ∧ s'.fs = s.fs) ∨
        (bytes ≠ [] ∧ blake3Hex bytes = blake3 ∧ ∃ d g, StagedAt s t f d g ∧
          (∀ q, resolve q ≠ resolve (partPath self.inboxDir d g) →
            s'.fs.contents q = s.fs.contents q) ∧
          (r = .ok () → s.manifest.Takes t f offset bytes.length ∧
            s'.manifest = s.manifest.record t f offset bytes.length blake3 (s.clock 0) ∧
            s'.fs.contents (partPath self.inboxDir d g) = some (overwrite
              ((s.fs.contents (partPath self.inboxDir d g)).getD []) offset bytes)))) := by
  by_cases hcheck : bytes = [] ∨ blake3Hex bytes ≠ blake3
  · obtain ⟨e, hrun⟩ := run_receiveChunkWithHash_unchecked self (s := s) (w := w) t f offset hcheck
    exact ⟨_, s, hrun, rfl, .inl rfl, .inl ⟨nofun, rfl, rfl⟩⟩
  obtain ⟨hne, hhash⟩ := not_or.mp hcheck
  rw [not_not] at hhash
  obtain ⟨d, g, uuids, fs', hdg, -, hother, ⟨e, hrun, -⟩ | ⟨hrun, hwritten⟩⟩ :=
    run_receiveChunkWithHash_write self (s := s) (w := w) t f offset hne hhash
  · exact ⟨_, _, hrun, rfl, .inl rfl, .inr ⟨hne, hhash, d, g, hdg, hother, nofun⟩⟩
  · obtain ⟨r, s', hrec, hfs, htr, heff, hdone⟩ := run_recordVerifiedChunk_any
      (s := { s with uuids := uuids, fs := fs' }) (w := w) t f offset bytes.length blake3
    refine ⟨r, s', hrun.trans hrec, htr, heff, .inr ⟨hne, hhash, d, g, hdg, ?_, fun hr => ?_⟩⟩
    · rw [hfs]
      exact hother
    · obtain ⟨htakes, hm⟩ := hdone hr
      exact ⟨htakes, hm, by rw [hfs, hwritten]⟩

end calls

end NightBridge.Native
