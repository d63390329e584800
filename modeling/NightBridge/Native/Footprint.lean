/-
# What the receiver touches

`Concerns inboxDir t hist o` says of a call `o`, made after the answered calls
`hist`, that it is one `accept_transfer`, `receive_chunk_with_hash` or
`finish_transfer` may make for the transfer `t`: it reads, or it changes rows of
`t`, a staging path of `t`, or renames a staged and checked file of `t` into the
inbox.  The three programs keep to it whatever their calls are answered
(`wp_acceptTransfer`, `wp_receiveChunkWithHash`, `wp_finishTransfer`), so it holds
under any interleaving with other connections.
-/

import NightBridge.Effect.Trace
import NightBridge.Native.Staging

namespace NightBridge.Native

open Data Effect NativeTransferReceiver ManifestStore

/-- The answered calls of a connection. -/
abbrev Calls := History Op Resp

/-- `safe_component` of the id may have returned `name`. -/
def Component (id : String) (hist : Calls) (name : String) : Prop :=
  (cleanComponent id ≠ "" ∧ name = cleanComponent id) ∨
    (cleanComponent id = "" ∧ ⟨.newUuid, name⟩ ∈ hist)

/-- `incoming_file_path` of the two ids may have returned `path`. -/
def StagingPath (inboxDir : Path) (t f : String) (hist : Calls) (path : Path) : Prop :=
  ∃ dir file, Component t hist dir ∧ Component f hist file ∧ path = partPath inboxDir dir file

/-- A file of the transfer was listed, read from a staging path, and found to have
the declared size and digest. -/
def Checked [Primitives] (inboxDir : Path) (t : String) (file : ManifestFile) (hist : Calls) : Prop :=
  (∃ rows, ⟨.selectFilesOrdered t, .ok rows⟩ ∈ hist ∧ file ∈ rows.map ManifestFile.ofRow) ∧
    ∃ path bytes, StagingPath inboxDir t file.fileId hist path ∧ ⟨.read path, .ok bytes⟩ ∈ hist ∧
      bytes.length = file.size ∧ ∀ expected, file.blake3 = some expected → blake3Hex bytes = expected

/-- The calls the receiver makes for a transfer. -/
def Concerns [Primitives] (inboxDir : Path) (t : String) (hist : Calls) : Op → Prop
  | .createDirAll path => path = inboxDir ∨
    ∃ dir, Component t hist dir ∧ path = stagingRoot inboxDir ++ [dir]
  | .openWrite path => ∃ f, StagingPath inboxDir t f hist path
  | .writeAt file _ _ => ∃ path f, ⟨.openWrite path, .ok file⟩ ∈ hist ∧
    StagingPath inboxDir t f hist path
  | .rename source target => ∃ file name, Checked inboxDir t file hist ∧
    StagingPath inboxDir t file.fileId hist source ∧ target = inboxDir ++ [name] ∧
    hist.getLast? = some ⟨.metadata target, false⟩
  | .insertTransfer row files => row.transferId = t ∧ ∀ file ∈ files, file.transferId = t
  | .replaceChunk row => row.transferId = t
  | .touchTransfer transferId _ => transferId = t
  | .updateState transferId _ _ => transferId = t
  | .nowUnix | .newUuid | .read _ | .metadata _ | .selectState _ | .selectSize _ _
  | .selectFiles _ | .selectFilesOrdered _ | .selectRanges _ _ => True
  | _ => False

/-- The calls that look something up, or set the state of the transfer. -/
def Looks (t : String) : Op → Prop
  | .nowUnix | .newUuid | .read _ | .metadata _ | .selectState _ | .selectSize _ _
  | .selectFiles _ | .selectFilesOrdered _ | .selectRanges _ _ => True
  | .updateState transferId _ _ => transferId = t
  | _ => False

/-- The calls that publish a transfer. -/
def Publishes [Primitives] (inboxDir : Path) (t : String) (hist : Calls) (o : Op) : Prop :=
  Looks t o ∨ o = .createDirAll inboxDir ∨
    ∃ source target, o = .rename source target ∧ Concerns inboxDir t hist o

section within

variable [Primitives] {inboxDir : Path} {t : String} {hist : Calls} {o : Op}

theorem Looks.concerns (h : Looks t o) : Concerns inboxDir t hist o := by
  cases o with
  | nowUnix | newUuid | read | metadata | selectState | selectSize | selectFiles
  | selectFilesOrdered | selectRanges => trivial
  | updateState => exact h
  | _ => exact h.elim

theorem Publishes.concerns (h : Publishes inboxDir t hist o) : Concerns inboxDir t hist o := by
  rcases h with h | rfl | ⟨_, _, -, h⟩
  · exact h.concerns
  · exact .inl rfl
  · exact h

end within

section lasting

variable {hist hist' : Calls} (h : hist <+: hist')

include h

theorem Component.mono {id name : String} (hc : Component id hist name) : Component id hist' name :=
  hc.imp (fun hn => hn) fun ⟨hid, hm⟩ => ⟨hid, h.subset hm⟩

theorem StagingPath.mono {inboxDir : Path} {t f : String} {path : Path}
    (hp : StagingPath inboxDir t f hist path) : StagingPath inboxDir t f hist' path := by
  obtain ⟨dir, file, hd, hf, rfl⟩ := hp
  exact ⟨dir, file, hd.mono h, hf.mono h, rfl⟩

theorem Checked.mono [Primitives] {inboxDir : Path} {t : String} {file : ManifestFile}
    (hc : Checked inboxDir t file hist) : Checked inboxDir t file hist' := by
  obtain ⟨⟨rows, hrows, hfile⟩, path, bytes, hpath, hread, hb⟩ := hc
  exact ⟨⟨rows, h.subset hrows, hfile⟩, path, bytes, hpath.mono h, h.subset hread, hb⟩

end lasting

/-! ### The calls one by one -/

section calls

variable {G : Calls → Op → Prop} {hist : Calls}

@[simp] theorem wp_orIo {α : Type} {r : Except IoError α} {Q : Calls → α → Prop} :
    (orIo r).wp G Q hist ↔ ∀ a, r = .ok a → Q hist a :=
  Prog.wp_ofExcept_mapError

@[simp] theorem wp_orManifest {α : Type} {r : Except String α} {Q : Calls → α → Prop} :
    (orManifest r).wp G Q hist ↔ ∀ a, r = .ok a → Q hist a :=
  Prog.wp_ofExcept_mapError

end calls

/-! ### Looking things up -/

-- `wp` unfolds along its program, which is not to compute names
attribute [local irreducible] cleanComponent

section looking

variable {t : String} {G : Calls → Op → Prop} (hG : ∀ h o, Looks t o → G h o) {hist : Calls}

include hG

theorem wp_safeComponent (id : String) :
    (safeComponent id).wp G (fun h name => Component id h name) hist := by
  refine Prog.wp_ite (fun hid => ?_) fun hid => ?_
  · exact ⟨hG _ _ trivial, fun name => .inr ⟨hid, by simp⟩⟩
  · exact .inl ⟨hid, rfl⟩

theorem wp_incomingFilePath (self : NativeTransferReceiver) (f : String) :
    (self.incomingFilePath t f).wp G (fun h path => StagingPath self.inboxDir t f h path) hist := by
  refine Prog.wp_bind_of (wp_safeComponent hG t) fun h dir _ hdir => ?_
  refine Prog.wp_bind_of (wp_safeComponent hG f) fun h' file hh hfile => ?_
  exact ⟨dir, file, hdir.mono hh, hfile, rfl⟩

theorem wp_fileSize (transferId f : String) :
    (fileSize transferId f).wp G (fun _ _ => True) hist := by
  refine Prog.wp_bind.mpr ⟨hG _ _ trivial, fun r => wp_orManifest.mpr fun size _ => ?_⟩
  cases size <;> trivial

theorem wp_verifiedRanges (transferId f : String) :
    (verifiedRanges transferId f).wp G (fun _ _ => True) hist :=
  Prog.wp_bind.mpr ⟨hG _ _ trivial, fun _ => wp_orManifest.mpr fun _ _ => trivial⟩

theorem wp_allCovered (transferId : String) (rows : List FileRow) :
    (allCovered transferId rows).wp G (fun _ _ => True) hist := by
  induction rows generalizing hist with
  | nil => trivial
  | cons row rows ih =>
    refine Prog.wp_bind_of (wp_verifiedRanges hG transferId row.fileId) fun h ranges _ _ => ?_
    exact Prog.wp_ite (fun _ => ih) fun _ => trivial

theorem wp_transferComplete (transferId : String) :
    (transferComplete transferId).wp G (fun _ _ => True) hist := by
  refine Prog.wp_bind.mpr ⟨hG _ _ trivial, fun r => wp_orManifest.mpr fun rows _ => ?_⟩
  exact Prog.wp_bind_of (wp_allCovered hG transferId rows) fun _ _ _ _ => trivial

theorem wp_setState (state : TransferState) :
    (setState t state).wp G (fun _ _ => True) hist := by
  have hupdate : ∀ h, (do
      let now ← nowUnix
      let updated ← updateState t state now
      if updated = 0 then manifestError "unknown transfer" else pure () : Io NativeError Unit).wp
      G (fun _ _ => True) h := fun h =>
    ⟨hG _ _ trivial, fun now => ⟨hG _ _ rfl, fun r => Prog.wp_bind.mpr (wp_orManifest.mpr
      fun updated _ => Prog.wp_ite (fun _ => trivial) fun _ => trivial)⟩⟩
  rw [setState]
  refine Prog.wp_ite (fun _ => ?_) fun _ => hupdate hist
  refine Prog.wp_bind_of (wp_transferComplete hG t) fun h allowed _ _ => ?_
  exact Prog.wp_ite (fun _ => trivial) fun _ => hupdate h

/-- The candidates are looked up one by one; the one returned was free just now. -/
theorem wp_firstFree (inboxDir : Path) (safeName : String) (indices : List ℕ) :
    (firstFree inboxDir safeName indices).wp G (fun h path =>
      (∃ name, path = inboxDir ++ [name]) ∧ h.getLast? = some ⟨.metadata path, false⟩) hist := by
  induction indices generalizing hist with
  | nil => trivial
  | cons index indices ih =>
    refine ⟨hG _ _ trivial, fun (found : Bool) => ?_⟩
    cases found with
    | true => exact ih
    | false => exact ⟨⟨_, rfl⟩, by simp⟩

theorem wp_availableTargetPath (inboxDir : Path) (fileName : String) :
    (availableTargetPath inboxDir fileName).wp G (fun h path =>
      (∃ name, path = inboxDir ++ [name]) ∧ h.getLast? = some ⟨.metadata path, false⟩) hist := by
  refine Prog.wp_bind.mpr (Prog.wp_ofExcept.mpr fun safeName _ =>
    ⟨hG _ _ trivial, fun (found : Bool) => ?_⟩)
  cases found with
  | true => exact wp_firstFree hG inboxDir safeName _
  | false => exact ⟨⟨_, rfl⟩, by simp⟩

end looking

/-! ### The receiver -/

section footprint

variable [Primitives] {inboxDir : Path} {t : String} {hist : Calls}

theorem wp_createTransfer (peerFingerprint : String) (direction : TransferDirection)
    (files : List FileOffer) :
    (createTransfer t peerFingerprint direction files).wp (Concerns inboxDir t)
      (fun _ _ => True) hist := by
  refine Prog.wp_ite (fun _ => trivial) fun _ => Prog.wp_ite (fun _ => trivial) fun _ =>
    Prog.wp_ite (fun _ => trivial) fun _ => ?_
  simp [nowUnix, insertTransfer, Concerns]

theorem wp_recordVerifiedChunk (f : String) (offset length : ℕ) (blake3 : String) :
    (recordVerifiedChunk t f offset length blake3).wp (Concerns inboxDir t)
      (fun _ _ => True) hist := by
  refine Prog.wp_ite (fun _ => trivial) fun _ =>
    Prog.wp_bind_of (wp_fileSize (fun _ _ => Looks.concerns (t := t)) t f) fun h size _ _ => ?_
  refine Prog.wp_ite (fun _ => trivial) fun _ => Prog.wp_ite (fun _ => trivial) fun _ => ?_
  simp [replaceChunk, nowUnix, touchTransfer, Concerns, Prog.wp_bind]

variable (self : NativeTransferReceiver)

/-- **`accept_transfer`** keeps to its transfer, and makes calls for a valid
request only. -/
theorem wp_acceptTransfer (peer : NativePeerInfo) (request : RequestTransfer) :
    (self.acceptTransfer peer request).wp
      (fun h o => validateTransferRequest request = .ok () ∧
        Concerns self.inboxDir request.transferId h o)
      (fun _ accepted => validateTransferRequest request = .ok () ∧
        accepted = ⟨request.transferId, self.chunkSize⟩) hist := by
  refine Prog.wp_ite (fun _ => trivial) fun _ => Prog.wp_ite (fun _ => trivial) fun _ => ?_
  refine Prog.wp_bind.mpr (Prog.wp_ofExcept.mpr fun _ hvalid => ?_)
  -- the request is valid from here on, so only the footprint is left to check
  refine Prog.wp_mono (G := Concerns self.inboxDir request.transferId)
    (Q := fun _ accepted => accepted = ⟨request.transferId, self.chunkSize⟩) ?_
    (fun _ _ _ ho => ⟨hvalid, ho⟩) fun _ _ _ ha => ⟨hvalid, ha⟩
  have hactive : ∀ h, (do
      setState request.transferId .active
      pure ⟨request.transferId, self.chunkSize⟩ : Io NativeError AcceptTransfer).wp
      (Concerns self.inboxDir request.transferId)
      (fun _ accepted => accepted = ⟨request.transferId, self.chunkSize⟩) h :=
    fun h => Prog.wp_bind_of (wp_setState (fun _ _ => Looks.concerns) .active) fun _ _ _ _ => rfl
  refine Prog.wp_bind_of (Prog.wp_bind_of (wp_safeComponent (fun _ _ => Looks.concerns) _)
    (R := fun h path => ∃ dir, Component request.transferId h dir ∧ path =
      stagingRoot self.inboxDir ++ [dir])
    fun _ dir _ hdir => ⟨dir, hdir, rfl⟩) fun h dir _ hdir => ?_
  refine ⟨.inr hdir, fun r => Prog.wp_bind.mpr (wp_orIo.mpr fun _ _ => ⟨trivial, fun r => ?_⟩)⟩
  refine Prog.wp_bind.mpr (wp_orManifest.mpr fun state _ => Prog.wp_ite (fun _ => ?_) fun _ => hactive _)
  exact Prog.wp_bind_of (wp_createTransfer _ _ _) fun h' _ _ _ => hactive h'

/-- **`receive_chunk_with_hash`** keeps to its transfer. -/
theorem wp_receiveChunkWithHash (f : String) (offset : ℕ) (bytes : Bytes) (blake3 : String) :
    (self.receiveChunkWithHash t f offset bytes blake3).wp (Concerns self.inboxDir t)
      (fun _ _ => True) hist := by
  refine Prog.wp_ite (fun _ => trivial) fun _ => Prog.wp_ite (fun _ => trivial) fun _ => ?_
  refine Prog.wp_bind_of (wp_incomingFilePath (fun _ _ => Looks.concerns) self f) fun h
    path _ hpath => ?_
  obtain ⟨dir, file, hdir, hfile, rfl⟩ := hpath
  refine ⟨.inr ⟨dir, hdir, partPath_dropLast _ _ _⟩,
    fun r => Prog.wp_bind.mpr (wp_orIo.mpr fun _ _ => ?_)⟩
  have hopened : StagingPath self.inboxDir t f h (partPath self.inboxDir dir file) :=
    ⟨dir, file, hdir, hfile, rfl⟩
  refine ⟨⟨f, hopened.mono (List.prefix_append _ _)⟩, fun r => Prog.wp_bind.mpr (wp_orIo.mpr ?_)⟩
  rintro fd rfl
  refine ⟨⟨partPath self.inboxDir dir file, f, by simp, ?_⟩, fun r => ?_⟩
  · exact hopened.mono (by simp [List.append_assoc])
  · exact Prog.wp_bind.mpr (wp_orIo.mpr fun _ _ => wp_recordVerifiedChunk f offset _ _)

/-- The first loop of `finish_transfer` checks the file. -/
theorem wp_verifyFile {file : ManifestFile}
    (hfile : ∃ rows, ⟨.selectFilesOrdered t, .ok rows⟩ ∈ hist ∧ file ∈ rows.map ManifestFile.ofRow) :
    (self.verifyFile t file).wp (Publishes self.inboxDir t)
      (fun h _ => Checked self.inboxDir t file h) hist := by
  obtain ⟨rows, hrows, hmem⟩ := hfile
  refine Prog.wp_bind_of (wp_incomingFilePath (fun _ _ => .inl) self file.fileId) fun h path
    hh hpath => ?_
  refine ⟨.inl trivial, fun r => Prog.wp_bind.mpr (wp_orIo.mpr ?_)⟩
  rintro bytes rfl
  have hchecked : bytes.length = file.size →
      (∀ expected, file.blake3 = some expected → blake3Hex bytes = expected) →
      Checked self.inboxDir t file (h ++ [⟨.read path, .ok bytes⟩]) := by
    intro hlen hhash
    refine ⟨⟨rows, ?_, hmem⟩, path, bytes, hpath.mono (List.prefix_append _ _), by simp, hlen, hhash⟩
    exact List.mem_append_left _ (hh.subset hrows)
  refine Prog.wp_ite (fun _ => ?_) fun hlen => ?_
  · exact Prog.wp_bind_of (wp_setState (fun _ _ => .inl) .failed) fun _ _ _ _ => trivial
  · cases hb : file.blake3 with
    | none => exact hchecked (not_not.mp hlen) (by simp [hb])
    | some expected =>
      refine Prog.wp_ite (fun _ => ?_) fun hhash => ?_
      · exact Prog.wp_bind_of (wp_setState (fun _ _ => .inl) .failed) fun _ _ _ _ => trivial
      · refine hchecked (not_not.mp hlen) fun e he => ?_
        obtain rfl : expected = e := Option.some.inj (hb.symm.trans he)
        exact not_not.mp hhash

/-- The second loop of `finish_transfer` renames what was checked. -/
theorem wp_publishFile {file : ManifestFile} (hchecked : Checked self.inboxDir t file hist) :
    (self.publishFile t file).wp (Publishes self.inboxDir t) (fun _ _ => True) hist := by
  refine Prog.wp_bind_of (wp_incomingFilePath (fun _ _ => .inl) self file.fileId) fun h path
    hh hpath => ?_
  refine Prog.wp_bind_of (wp_availableTargetPath (fun _ _ => .inl) self.inboxDir file.fileName)
    fun h' target hh' htarget => ?_
  obtain ⟨⟨name, rfl⟩, hfree⟩ := htarget
  refine ⟨.inr (.inr ⟨path, _, rfl, file, name, hchecked.mono (hh.trans hh'),
    hpath.mono hh', rfl, hfree⟩),
    fun r => ?_⟩
  exact wp_orIo.mpr fun _ _ => trivial

/-- **`finish_transfer`** looks things up, makes the inbox, and renames checked
files. -/
theorem wp_finishTransfer_publishes :
    (self.finishTransfer t).wp (Publishes self.inboxDir t) (fun _ _ => True) hist := by
  refine Prog.wp_bind_of (wp_transferComplete (fun _ _ => .inl) t) fun h complete _ _ =>
    Prog.wp_ite (fun _ => ?_) fun _ => ?_
  · exact Prog.wp_bind_of (wp_setState (fun _ _ => .inl) .interrupted) fun _ _ _ _ => trivial
  · refine Prog.wp_bind.mpr ⟨.inl trivial, fun r => Prog.wp_bind.mpr (wp_orManifest.mpr ?_)⟩
    rintro rows rfl
    have hverify : ∀ h', ⟨.selectFilesOrdered t, .ok rows⟩ ∈ h' →
        (Prog.each (rows.map ManifestFile.ofRow) (self.verifyFile t)).wp (Publishes self.inboxDir t)
          (fun h₁ _ => ∀ file ∈ rows.map ManifestFile.ofRow, Checked self.inboxDir t file h₁) h' :=
      fun h' hlisted => Prog.wp_each_forall (P := Checked self.inboxDir t)
        (fun file _ _ hh hc => Checked.mono hh hc)
        fun h₁ file hfile hh => wp_verifyFile self ⟨rows, hh.subset hlisted, hfile⟩
    refine Prog.wp_bind_of (hverify _ (by simp)) fun h₁ _ _ hall => ?_
    refine ⟨.inr (.inl rfl), fun r => Prog.wp_bind.mpr (wp_orIo.mpr fun _ _ => ?_)⟩
    refine Prog.wp_bind_of (Prog.wp_each (I := fun _ => True) (fun h₂ file hfile hh _ => ?_) trivial)
      fun _ _ _ _ => wp_setState (fun _ _ => .inl) .completed
    exact wp_publishFile self ((hall file hfile).mono ((List.prefix_append _ _).trans hh))

/-- **`finish_transfer`** keeps to its transfer. -/
theorem wp_finishTransfer :
    (self.finishTransfer t).wp (Concerns self.inboxDir t) (fun _ _ => True) hist :=
  Prog.wp_mono (wp_finishTransfer_publishes self) (fun _ _ _ => Publishes.concerns) fun _ _ _ h => h

end footprint

end NightBridge.Native
