/-
# Accepting a transfer

What `accept_transfer` does when it runs alone on a transfer id that the
manifest does not know.  The staging directory is made, a row is inserted for
the transfer and one for each offered file, and the state becomes `Active`
(`run_acceptTransfer_fresh`).  No file changes, and a well-formed manifest stays
well formed (`Created.wellFormed`).
-/

import NightBridge.Native.Publish

namespace NightBridge.Native

open Data Effect NativeTransferReceiver ManifestStore

/-- The row of `transfer_files` that `create_transfer` writes for an offer. -/
def offeredRow (t : String) (file : FileOffer) : FileRow :=
  ⟨t, file.fileId, file.fileName, asI64 file.size, file.blake3⟩

@[simp] theorem asU64_offeredRow (t : String) (file : FileOffer) :
    asU64 (offeredRow t file).size = file.size := asU64_asI64 file.size_lt

/-- `db'` is `db` with a new transfer of these files, in state `state`. -/
structure Created (db : ManifestDb) (t : String) (files : List FileOffer) (state : TransferState)
    (db' : ManifestDb) : Prop where
  fresh : db.transfers.find? t = none
  files : db'.files.rows = db.files.rows ++ files.map (offeredRow t)
  chunks : db'.chunks = db.chunks
  state : db'.selectState t = some state
  others : ∀ t', t' ≠ t → db'.transfers.find? t' = db.transfers.find? t'

namespace Created

variable {db db' : ManifestDb} {t : String} {files : List FileOffer} {state : TransferState}

theorem isSome (h : Created db t files state db') : (db'.transfers.find? t).isSome := by
  have := h.state
  unfold ManifestDb.selectState at this
  cases hf : db'.transfers.find? t with
  | none => rw [hf] at this; cases this
  | some r => rfl

theorem mem_files (h : Created db t files state db') {fr : FileRow} :
    fr ∈ db'.files.rows ↔ fr ∈ db.files.rows ∨ ∃ o ∈ files, offeredRow t o = fr := by
  rw [h.files, List.mem_append, List.mem_map]

theorem mem_own (h : Created db t files state db') (hwf : db.WellFormed) {fr : FileRow} :
    (fr ∈ db'.files.rows ∧ fr.transferId = t) ↔ ∃ o ∈ files, offeredRow t o = fr := by
  rw [h.mem_files]
  constructor
  · rintro ⟨hfr | hfr, rfl⟩
    · have := hwf.files fr hfr
      rw [h.fresh] at this
      cases this
    · exact hfr
  · rintro ⟨o, ho, rfl⟩
    exact ⟨.inr ⟨o, ho, rfl⟩, rfl⟩

/-- **A new transfer keeps the manifest well formed.** -/
theorem wellFormed (h : Created db t files state db') (hwf : db.WellFormed) : db'.WellFormed where
  files fr hfr := by
    rcases h.mem_files.mp hfr with hfr | ⟨o, -, rfl⟩
    · by_cases ht : fr.transferId = t
      · rw [ht]
        exact h.isSome
      · rw [h.others _ ht]
        exact hwf.files fr hfr
    · exact h.isSome
  chunks r hr := by
    rw [h.chunks] at hr
    obtain ⟨fr, hfr, hrest⟩ := hwf.chunks r hr
    exact ⟨fr, h.mem_files.mpr (.inl hfr), hrest⟩

theorem not_covered (h : Created db t files state db') (hwf : db.WellFormed) (f : String) (b : ℕ) :
    ¬ db'.Covered t f b := by
  rintro ⟨c, hc, -⟩
  obtain ⟨r, hr, rfl, -, -⟩ := ManifestDb.mem_spans.mp hc
  rw [h.chunks] at hr
  obtain ⟨fr, hfr, hk, -⟩ := hwf.chunks r hr
  have hsome := hwf.files fr hfr
  rw [show fr.transferId = r.transferId from congrArg Prod.fst hk, h.fresh] at hsome
  cases hsome

end Created

theorem ManifestDb.WellFormed.updateState {db : ManifestDb} (h : db.WellFormed) (t : String)
    (state : TransferState) (now : ℤ) : (db.updateState t state now).2.WellFormed where
  files fr hfr := by
    have := h.files fr hfr
    simp only [ManifestDb.updateState, Table.find?_modify]
    split_ifs <;> simpa using this
  chunks := h.chunks

/-- **What the inserts of `create_transfer` leave**, when they go through. -/
theorem Created.of_insertTransfer {db db' : ManifestDb} {row : TransferRow} {files : List FileOffer}
    (h : db.insertTransfer row (files.map (offeredRow row.transferId)) = .ok db') :
    Created db row.transferId files row.state db' := by
  rw [ManifestDb.insertTransfer] at h
  split at h
  · cases h
  · rename_i transfers htr
    split at h
    · cases h
    · rename_i fileTable hft
      cases h
      obtain ⟨hnew, htrows⟩ := Table.insert_eq_some_iff.mp htr
      have hfind : ∀ t', transfers.find? t' =
          if t' = row.transferId then some row else db.transfers.find? t' := by
        intro t'
        split_ifs with ht
        · exact Table.find?_eq_some_iff.mpr ⟨by simp [htrows], ht.symm⟩
        · simp [Table.find?, htrows, Ne.symm ht]
      exact {
        fresh := hnew
        files := (ManifestDb.insertFiles_eq_some_iff.mp hft).2.2
        chunks := rfl
        state := by simp [ManifestDb.selectState, hfind]
        others := fun t' ht => by simp [hfind, ht] }

/-- The inserts of `create_transfer` go through when the id is new. -/
theorem insertTransfer_isOk {db : ManifestDb} (hwf : db.WellFormed) (row : TransferRow)
    (hnew : db.transfers.find? row.transferId = none) {files : List FileOffer}
    (hnd : (files.map FileOffer.fileId).Nodup) :
    ∃ db', db.insertTransfer row (files.map (offeredRow row.transferId)) = .ok db' ∧
      Created db row.transferId files row.state db' := by
  obtain ⟨transfers, htr⟩ : ∃ transfers, db.transfers.insert row = some transfers := by
    rw [← Option.ne_none_iff_exists', Ne, Table.insert_eq_none_iff, not_not]
    exact hnew
  have hnodup : ((files.map (offeredRow row.transferId)).map FileRow.key).Nodup := by
    rw [List.map_map]
    refine List.Nodup.of_map Prod.snd ?_
    rw [List.map_map]
    exact hnd
  have hnone : ∀ r ∈ files.map (offeredRow row.transferId), db.files.find? r.key = none := by
    intro r hr
    obtain ⟨o, -, rfl⟩ := List.mem_map.mp hr
    rw [Table.find?_eq_none_iff]
    intro r' hr' hk
    have hsome := hwf.files r' hr'
    rw [show r'.transferId = row.transferId from congrArg Prod.fst hk, hnew] at hsome
    cases hsome
  obtain ⟨fileTable, hft⟩ : ∃ fileTable, ManifestDb.insertFiles db.files
      (files.map (offeredRow row.transferId)) = some fileTable :=
    ⟨⟨db.files.rows ++ files.map (offeredRow row.transferId), by
      rw [List.map_append]
      refine List.Nodup.append db.files.nodup hnodup ?_
      intro k hk hk'
      obtain ⟨r, hr, rfl⟩ := List.mem_map.mp hk'
      obtain ⟨r', hr', he⟩ := List.mem_map.mp hk
      exact Table.find?_eq_none_iff.mp (hnone r hr) r' hr' he⟩,
      ManifestDb.insertFiles_eq_some_iff.mpr ⟨hnodup, hnone, rfl⟩⟩
  have hok : db.insertTransfer row (files.map (offeredRow row.transferId)) =
      .ok { db with transfers := transfers, files := fileTable } := by
    rw [ManifestDb.insertTransfer, htr, hft]
  exact ⟨_, hok, .of_insertTransfer hok⟩

theorem Created.updateState {db db' : ManifestDb} {t : String} {files : List FileOffer}
    {state : TransferState} (h : Created db t files state db') (state' : TransferState) (now : ℤ) :
    Created db t files state' (db'.updateState t state' now).2 where
  fresh := h.fresh
  files := h.files
  chunks := h.chunks
  state := by
    rw [ManifestDb.selectState_updateState, if_pos rfl, h.state]
    rfl
  others t' ht := by
    simp only [ManifestDb.updateState, Table.find?_modify, if_neg ht]
    exact h.others t' ht

/-- **A new transfer accepted alone.** -/
theorem run_acceptTransfer_fresh (self : NativeTransferReceiver) {s : Store} {w : Wire}
    (peer : NativePeerInfo) (request : RequestTransfer) (hwf : s.manifest.WellFormed)
    (hblocked : self.blocked = false) (hpeer : self.trustedPeerFingerprint = some peer.fingerprint)
    (hfp : isBlank peer.fingerprint = false) (hvalid : request.Valid)
    (hstable : Stable request.transferId)
    (hnew : s.manifest.transfers.find? request.transferId = none)
    {fs' : Fs} (hmk : s.fs.createDirAll (partDir self.inboxDir request.transferId) = .ok fs') :
    ∃ db', (self.acceptTransfer peer request).run handler (s, w) =
        (.ok ⟨request.transferId, self.chunkSize⟩, ({ s with
          manifest := db'
          fs := fs'
          clock := advance (advance s.clock) }, w)) ∧
      Created s.manifest request.transferId request.files .active db' := by
  obtain ⟨db₁, hins, hcreated⟩ := insertTransfer_isOk hwf
    ⟨request.transferId, peer.fingerprint, .receive, .pending, s.clock 0, s.clock 0⟩
    hnew hvalid.nodup
  refine ⟨(db₁.updateState request.transferId .active (s.clock 1)).2, ?_,
    hcreated.updateState .active _⟩
  have hstate : s.manifest.selectState request.transferId = none := by
    rw [ManifestDb.selectState, hnew]
    rfl
  have hset := run_setState_ne request.transferId (show TransferState.active ≠ .completed by decide)
    { s with manifest := db₁, fs := fs', clock := advance s.clock } w
  rw [if_pos hcreated.isSome] at hset
  have hcreate : (createTransfer request.transferId peer.fingerprint .receive request.files).run
      handler ({ s with fs := fs' }, w) =
        (.ok (), ({ s with manifest := db₁, fs := fs', clock := advance s.clock }, w)) := by
    have hins' : s.manifest.insertTransfer
        ⟨request.transferId, peer.fingerprint, .receive, .pending, s.clock 0, s.clock 0⟩
        (request.files.map fun file =>
          ⟨request.transferId, file.fileId, file.fileName, asI64 file.size, file.blake3⟩) =
        .ok db₁ := hins
    simp [createTransfer, hvalid.transferId, hfp, hvalid.files, nowUnix, insertTransfer, handler,
      exec, onManifest, hins', orManifest, Except.mapError]
  rw [acceptTransfer, if_neg (by simp [hblocked]), if_neg (by simp [hpeer]),
    (validateTransferRequest_eq_ok_iff request).mpr hvalid, Prog.ofExcept_ok, Prog.ret_bind,
    incomingDir_eq self hstable, Prog.ret_bind,
    Prog.run_bind_ok _ (show (createDirAll (stagingRoot self.inboxDir ++
        [cleanComponent request.transferId])).run handler (s, w) =
      (.ok (), ({ s with fs := fs' }, w)) by
        rw [partDir] at hmk
        simp [createDirAll, handler, exec, onFs, hmk, orIo, Except.mapError]),
    Prog.run_bind_ok _ (show (ManifestStore.state request.transferId).run handler
        ({ s with fs := fs' }, w) = (.ok none, ({ s with fs := fs' }, w)) by
        simp [ManifestStore.state, selectState, handler, exec, hstate, orManifest,
          Except.mapError])]
  simp only [Option.isNone_none, if_true]
  rw [Prog.run_bind_ok _ hcreate, Prog.run_bind_ok _ hset]
  rfl

/-- What an accepted new transfer says about the receiver and the request. -/
theorem acceptTransfer_ok (self : NativeTransferReceiver) {s : Store} {w : Wire}
    {peer : NativePeerInfo} {request : RequestTransfer} {accepted : AcceptTransfer}
    {sw : Store × Wire} (hstable : Stable request.transferId)
    (hnew : s.manifest.transfers.find? request.transferId = none)
    (h : (self.acceptTransfer peer request).run handler (s, w) = (.ok accepted, sw)) :
    self.blocked = false ∧ self.trustedPeerFingerprint = some peer.fingerprint ∧
      isBlank peer.fingerprint = false ∧ request.Valid ∧
      ∃ fs', s.fs.createDirAll (partDir self.inboxDir request.transferId) = .ok fs' := by
  unfold acceptTransfer at h
  split_ifs at h with hblocked hpeer
  · cases h
  · cases h
  · cases hv : validateTransferRequest request with
    | error e =>
      rw [hv] at h
      cases h
    | ok _ =>
      have hvalid := (validateTransferRequest_eq_ok_iff request).mp hv
      rw [hv, Prog.ofExcept_ok, Prog.ret_bind, incomingDir_eq self hstable, Prog.ret_bind] at h
      cases hmk : s.fs.createDirAll (partDir self.inboxDir request.transferId) with
      | error e =>
        rw [partDir] at hmk
        rw [Prog.run_bind_error _ (show (createDirAll (stagingRoot self.inboxDir ++
            [cleanComponent request.transferId])).run handler (s, w) = (.error (.io e), (s, w)) by
          simp [createDirAll, handler, exec, onFs, hmk, orIo, Except.mapError])] at h
        cases h
      | ok fs' =>
        refine ⟨by simpa using hblocked, not_not.mp hpeer, ?_, hvalid, fs', rfl⟩
        by_contra hblank
        have hstate : s.manifest.selectState request.transferId = none := by
          rw [ManifestDb.selectState, hnew]
          rfl
        rw [partDir] at hmk
        simp [createDirAll, handler, exec, onFs, hmk, orIo, Except.mapError, ManifestStore.state,
          selectState, hstate, orManifest, createTransfer, hvalid.transferId,
          eq_true_of_ne_false hblank, manifestError] at h

/-- A receiver and the peer it trusts. -/
def sampleReceiver : NativeTransferReceiver := .trusted ["inbox"] "peer"

@[inherit_doc sampleReceiver]
def samplePeer : NativePeerInfo := ⟨"sender", "peer", .pad [], 53400, none, defaultExtensions⟩

end NightBridge.Native
