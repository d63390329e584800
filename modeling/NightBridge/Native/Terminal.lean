/-
# Is `Completed` terminal?

Nothing in `accept_transfer` looks at the state a known transfer is in: a second
request with the id of a completed transfer makes it `Active` again, its chunks
can be sent once more, and `finish_transfer` then publishes them a second time
(`completed_reactivated`).  A file can also be published twice before its
transfer is complete, if `finish_transfer` stops at a later file and the chunks
of the first are sent again.

What does protect a published file is that nothing is staged for it any more.
`Settled` says so, and that the files of a completed transfer are published;
harmless calls keep it (`Settled.step`).
-/

import NightBridge.Native.Calls

namespace NightBridge.Native

open Data Effect NativeTransferReceiver ManifestStore

/-- A call through some connection. -/
inductive Call
  | accept (peer : NativePeerInfo) (request : RequestTransfer)
  | chunk (t f : String) (offset : ℕ) (bytes : Bytes) (blake3 : String)
  | finish (t : String)

def Call.exec [Primitives] (self : NativeTransferReceiver) : Call → Io NativeError Unit
  | .accept peer request => do
    let _ ← self.acceptTransfer peer request
    pure ()
  | .chunk t f offset bytes blake3 => self.receiveChunkWithHash t f offset bytes blake3
  | .finish t => self.finishTransfer t

/-- The files that a call publishes, by the ids of transfer and file: what was
staged is under a new name in the inbox. -/
def Call.published (inboxDir : Path) (s : Store) (call : Call) (s' : Store) : Set (String × String) :=
  {p | call = .finish p.1 ∧ ∃ name bytes, s.fs.contents (part inboxDir p.1 p.2) = some bytes ∧
    s.fs.lookup (inboxDir ++ [name]) = none ∧ s'.fs.lookup (part inboxDir p.1 p.2) = none ∧
    s'.fs.contents (inboxDir ++ [name]) = some bytes}

/-- The call does not accept the id of a completed transfer again, and does not
write to the staging path of a file that was published before.  Where
`finish_transfer` has to ask for UUIDs, they name no staged file. -/
def Call.Harmless [Primitives] (self : NativeTransferReceiver) (past : Set (String × String))
    (s : Store) : Call → Prop
  | .accept peer request => Admitted self peer request →
    s.manifest.selectState request.transferId ≠ some .completed
  | .chunk t f _ bytes blake3 => bytes ≠ [] → blake3Hex bytes = blake3 →
    ∀ d g, StagedAt s t f d g → ∀ p ∈ past, ¬ (d = cleanComponent p.1 ∧ g = cleanComponent p.2)
  | .finish t => FreshUuids self.inboxDir s ∨ StableIds t (filesOf s.manifest t)

/-- One harmless call on the inbox, when `past` has been published. -/
def CallStep [Primitives] (inboxDir : Path) (past : Set (String × String)) (s : Store) (call : Call)
    (s' : Store) : Prop :=
  ∃ self w r w', NativeTransferReceiver.inboxDir self = inboxDir ∧ call.Harmless self past s ∧
    (call.exec self).run handler (s, w) = (r, (s', w'))

/-- Harmless calls one after another, with what has been published. -/
inductive CallSteps [Primitives] (inboxDir : Path) :
    Store → Set (String × String) → Store → Set (String × String) → Prop
  | refl (s : Store) (past : Set (String × String)) : CallSteps inboxDir s past s past
  | tail {s s₁ s₂ : Store} {past past₁ : Set (String × String)} {call : Call}
      (before : CallSteps inboxDir s past s₁ past₁) (last : CallStep inboxDir past₁ s₁ call s₂) :
      CallSteps inboxDir s past s₂ (past₁ ∪ call.published inboxDir s₁ s₂)

/-- A completed transfer: its rows are complete, and its files are published. -/
structure Done (past : Set (String × String)) (s : Store) (t : String) : Prop where
  complete : s.manifest.Complete t
  stable : StableIds t (filesOf s.manifest t)
  published : ∀ file ∈ filesOf s.manifest t, (t, file.fileId) ∈ past

/-- What harmless calls keep. -/
structure Settled (inboxDir : Path) (past : Set (String × String)) (s : Store) : Prop where
  wellFormed : s.manifest.WellFormed
  done : ∀ t, s.manifest.selectState t = some .completed → Done past s t
  gone : ∀ p ∈ past, s.fs.contents (part inboxDir p.1 p.2) = none

/-- A transfer stays done when its rows stay as they are. -/
theorem Done.of_same {past past' : Set (String × String)} {s s' : Store} {t : String} (h : Done past s t)
    (hpast : past ⊆ past') (hfiles : s'.manifest.selectFiles t = s.manifest.selectFiles t)
    (hspans : ∀ f b, s.manifest.Covered t f b → s'.manifest.Covered t f b) : Done past' s' t := by
  have hof : filesOf s'.manifest t = filesOf s.manifest t := by
    rw [filesOf, filesOf, ManifestDb.selectFilesOrdered, ManifestDb.selectFilesOrdered, hfiles]
  have hmem : ∀ db : ManifestDb, ∀ fr, fr ∈ db.selectFiles t ↔
      fr ∈ db.files.rows ∧ fr.transferId = t := fun db fr => by simp [ManifestDb.selectFiles]
  refine ⟨⟨?_, ?_⟩, hof ▸ h.stable, fun file hfile => hpast (h.published file (hof ▸ hfile))⟩
  · obtain ⟨fr, hfr, ht⟩ := h.complete.1
    have hin := (hmem s.manifest fr).mpr ⟨hfr, ht⟩
    rw [← hfiles] at hin
    exact ⟨fr, (hmem s'.manifest fr).mp hin⟩
  · intro fr hfr ht b hb
    have hin := (hmem s'.manifest fr).mpr ⟨hfr, ht⟩
    rw [hfiles] at hin
    exact hspans _ _ (h.complete.2 fr ((hmem s.manifest fr).mp hin).1 ht b hb)

theorem Created.selectFiles {db db' : ManifestDb} {t t' : String} {files : List FileOffer}
    {state : TransferState} (h : Created db t files state db') (hne : t' ≠ t) :
    db'.selectFiles t' = db.selectFiles t' := by
  have hnone : (files.map (offeredRow t)).filter (fun r => r.transferId = t') = [] := by
    rw [List.filter_eq_nil_iff]
    intro r hr
    obtain ⟨o, -, rfl⟩ := List.mem_map.mp hr
    simp [offeredRow, hne.symm]
  rw [ManifestDb.selectFiles, ManifestDb.selectFiles, h.files, List.filter_append, hnone,
    List.append_nil]

/-- Recording a chunk changes nothing about another transfer. -/
theorem covered_record_of_ne {db : ManifestDb} {t f t' f' : String} {offset length : ℕ}
    {blake3 : String} {now : ℤ} (hne : t' ≠ t) {b : ℕ} (h : db.Covered t' f' b) :
    (db.record t f offset length blake3 now).Covered t' f' b := by
  obtain ⟨c, hc, hb⟩ := h
  obtain ⟨r, hr, rfl, rfl, rfl⟩ := ManifestDb.mem_spans.mp hc
  refine ⟨_, ManifestDb.mem_spans.mpr ⟨r, ManifestDb.mem_record_chunks.mpr (.inl ⟨hr, ?_⟩), rfl,
    rfl, rfl⟩, hb⟩
  intro hk
  exact hne (congrArg Prod.fst hk)

section steps

variable {inboxDir : Path} {past : Set (String × String)} {s s' : Store}

theorem gone_of_renames {t t' f' : String} {files : List ManifestFile} {names : List String}
    {fs fs' : Fs} (hsome : ∀ file ∈ files, (fs.contents (part inboxDir t file.fileId)).isSome)
    (hren : fs.Renames (moves inboxDir t files names) fs')
    (hgone : fs.contents (part inboxDir t' f') = none) : fs'.contents (part inboxDir t' f') = none := by
  refine (hren.frame fun m hm => ?_).2.trans hgone
  obtain ⟨file, hfile, name, -, rfl⟩ := mem_moves hm
  constructor
  · -- a source is there
    intro he
    have := hsome file hfile
    rw [← fs.contents_congr he, hgone] at this
    cases this
  · exact (resolve_name_ne_partPath inboxDir name _ _).symm

/-- All files of a publication that gets through are published. -/
theorem published_of_renames {t : String} {files : List ManifestFile} {names : List String}
    (ha : allocate (takenIn s.fs inboxDir) (files.map (·.fileName)) = some names)
    (hren : s.fs.Renames (moves inboxDir t files names) s'.fs) {file : ManifestFile}
    (hfile : file ∈ files) : (t, file.fileId) ∈ (Call.finish t).published inboxDir s s' := by
  have hlen := length_allocate ha
  rw [List.length_map] at hlen
  obtain ⟨name, hm⟩ := exists_mem_moves inboxDir t hlen hfile
  obtain ⟨hsome, hfree, hgone, hmoved⟩ := (hren.moved moves_apart).2.2 _ hm
  obtain ⟨bytes, hbytes⟩ := Option.isSome_iff_exists.mp hsome
  exact ⟨rfl, name, bytes, hbytes, hfree, hgone, hmoved.trans hbytes⟩

/-- `finish_transfer` of a done transfer fails at its first file and changes
nothing. -/
theorem run_finishTransfer_done [Primitives] (self : NativeTransferReceiver) {w : Wire} {t : String}
    (hsettled : Settled self.inboxDir past s) (h : Done past s t) :
    ∃ e, (self.finishTransfer t).run handler (s, w) = (.error e, (s, w)) := by
  obtain ⟨ok, hrun, hok⟩ := run_transferComplete (w := w) hsettled.wellFormed t
  obtain rfl := hok.mpr h.complete
  obtain ⟨fr, hfr, ht⟩ := h.complete.1
  have hmem := mem_filesOf.mpr ⟨fr, hfr, ht, rfl⟩
  cases hfiles : filesOf s.manifest t with
  | nil =>
    rw [hfiles] at hmem
    cases hmem
  | cons file files =>
    have hin : file ∈ filesOf s.manifest t := by simp [hfiles]
    obtain ⟨e, hread⟩ : ∃ e, s.fs.read (part self.inboxDir t file.fileId) = .error e := by
      cases hr : s.fs.read (part self.inboxDir t file.fileId) with
      | error e => exact ⟨e, rfl⟩
      | ok bytes =>
        have := Fs.read_eq_ok_iff.mp hr
        rw [hsettled.gone _ (h.published file hin)] at this
        cases this
    rw [part] at hread
    refine ⟨.io e, ?_⟩
    rw [finishTransfer, Prog.run_bind_ok _ hrun]
    simp only [Bool.not_true, Bool.false_eq_true, if_false]
    rw [Prog.run_bind_ok _ (show (ManifestStore.files t).run handler (s, w) =
      (.ok (filesOf s.manifest t), (s, w)) from rfl), hfiles]
    refine Prog.run_bind_error _ (Prog.run_bind_error _ ?_)
    rw [verifyFile, incomingFilePath_eq self h.stable.1 (h.stable.2 file hin)]
    simp [readFile, handler, exec, orIo, Except.mapError, hread]

/-- What one harmless call from a settled store leaves: the store is settled,
completed transfers are still completed, and their `finish_transfer` has
published nothing. -/
structure Kept (inboxDir : Path) (past : Set (String × String)) (s : Store) (call : Call) (s' : Store) :
    Prop where
  settled : Settled inboxDir (past ∪ call.published inboxDir s s') s'
  completed : ∀ t, s.manifest.selectState t = some .completed →
    s'.manifest.selectState t = some .completed
  unpublished : ∀ t, s.manifest.selectState t = some .completed → call = .finish t →
    ∀ q, s'.fs.contents q = s.fs.contents q

theorem gone_of_published {call : Call} (hgone : ∀ p ∈ past, s'.fs.contents (part inboxDir p.1 p.2) = none) :
    ∀ p ∈ past ∪ call.published inboxDir s s', s'.fs.contents (part inboxDir p.1 p.2) = none := by
  rintro p (hp | ⟨-, -, -, -, -, hnone, -⟩)
  · exact hgone p hp
  · rw [Fs.contents, hnone]

/-- A call that leaves the completed transfers done, and completes no other one. -/
theorem kept_of_done (hwf : s'.manifest.WellFormed)
    (hstate : ∀ t, s'.manifest.selectState t = some .completed ↔
      s.manifest.selectState t = some .completed)
    (hdone : ∀ t, s.manifest.selectState t = some .completed → Done past s' t)
    (hgone : ∀ p ∈ past, s'.fs.contents (part inboxDir p.1 p.2) = none) {call : Call}
    (hpub : ∀ t, s.manifest.selectState t = some .completed → call = .finish t →
      ∀ q, s'.fs.contents q = s.fs.contents q) : Kept inboxDir past s call s' :=
  ⟨⟨hwf, fun t ht => (hdone t ((hstate t).mp ht)).of_same Set.subset_union_left rfl fun _ _ hb => hb,
    gone_of_published hgone⟩, fun t ht => (hstate t).mpr ht, hpub⟩

theorem selectState_updateState_iff {db : ManifestDb} {t : String} {state : TransferState} {now : ℤ}
    (hne : state ≠ .completed) (hnot : db.selectState t ≠ some .completed) (t' : String) :
    (db.updateState t state now).2.selectState t' = some .completed ↔
      db.selectState t' = some .completed := by
  rw [ManifestDb.selectState_updateState]
  split_ifs with ht
  · subst ht
    cases hs : db.selectState t' with
    | none => simp
    | some st => simp [hne, ← hs, hnot]
  · rfl

/-- **An accepted request** that does not reuse a completed id is harmless. -/
theorem Settled.accept (self : NativeTransferReceiver) (h : Settled inboxDir past s) {w w' : Wire}
    {peer : NativePeerInfo} {request : RequestTransfer} {r : Except NativeError AcceptTransfer}
    (hok : Admitted self peer request →
      s.manifest.selectState request.transferId ≠ some .completed)
    (hrun : (self.acceptTransfer peer request).run handler (s, w) = (r, (s', w'))) :
    Kept inboxDir past s (.accept peer request) s' := by
  obtain ⟨r₁, s₁, hrun₁, -, hcont, heff, hadm⟩ :=
    run_acceptTransfer_any self (w := w) peer request
  obtain ⟨-, hs⟩ := Prod.mk.inj (hrun.symm.trans hrun₁)
  obtain ⟨rfl, -⟩ := Prod.mk.inj hs
  have hgone : ∀ p ∈ past, s'.fs.contents (part inboxDir p.1 p.2) = none := fun p hp =>
    (hcont _).trans (h.gone p hp)
  by_cases hsame : s'.manifest = s.manifest
  · refine kept_of_done (hsame ▸ h.wellFormed) (fun t => by rw [hsame]) (fun t ht => ?_) hgone
      (fun _ _ h => by cases h)
    exact (h.done t ht).of_same subset_rfl (by rw [hsame]) (fun f b hb => by rw [hsame]; exact hb)
  · have hnot := hok (not_not.mp fun hn => hsame (hadm hn))
    have hne : ∀ t, s.manifest.selectState t = some .completed → t ≠ request.transferId := by
      rintro t ht rfl
      exact hnot ht
    rcases heff with heff | hcreated | ⟨now, heff⟩
    · exact absurd heff hsame
    · have hstate : ∀ t, t ≠ request.transferId →
          s'.manifest.selectState t = s.manifest.selectState t := fun t ht => by
        rw [ManifestDb.selectState, ManifestDb.selectState, hcreated.others t ht]
      refine kept_of_done (hcreated.wellFormed h.wellFormed) (fun t => ?_) (fun t ht => ?_) hgone
        (fun _ _ h => by cases h)
      · by_cases ht : t = request.transferId
        · rw [ht, hcreated.state]
          exact ⟨(by cases ·), fun hc => absurd hc hnot⟩
        · rw [hstate t ht]
      · refine (h.done t ht).of_same subset_rfl (hcreated.selectFiles (hne t ht)) (fun f b hb => ?_)
        rwa [ManifestDb.Covered, ManifestDb.spans, hcreated.chunks]
    · refine kept_of_done (heff ▸ h.wellFormed.updateState _ _ _) (fun t => ?_)
        (fun t ht => ?_) hgone (fun _ _ h => by cases h)
      · rw [heff]
        exact selectState_updateState_iff (by decide) hnot t
      · exact (h.done t ht).of_same subset_rfl (by rw [heff]; rfl) (fun f b hb => by rw [heff]; exact hb)

variable [Primitives] (self : NativeTransferReceiver)

/-- **A chunk** that is not written to the staging path of a published file is
harmless. -/
theorem Settled.chunk (h : Settled self.inboxDir past s) {w w' : Wire} {t f : String} {offset : ℕ}
    {bytes : Bytes} {blake3 : String} {r : Except NativeError Unit}
    (hok : (Call.chunk t f offset bytes blake3).Harmless self past s)
    (hrun : (self.receiveChunkWithHash t f offset bytes blake3).run handler (s, w) =
      (r, (s', w'))) : Kept self.inboxDir past s (.chunk t f offset bytes blake3) s' := by
  obtain ⟨r₁, s₁, hrun₁, -, heff, hfs⟩ :=
    run_receiveChunkWithHash_any self (s := s) (w := w) t f offset bytes blake3
  obtain ⟨-, hs⟩ := Prod.mk.inj (hrun.symm.trans hrun₁)
  obtain ⟨rfl, -⟩ := Prod.mk.inj hs
  rcases hfs with ⟨-, hm, hfs⟩ | ⟨hne, hhash, d, g, hdg, hframe, -⟩
  · refine kept_of_done (hm ▸ h.wellFormed) (fun t => by rw [hm]) (fun t ht => ?_)
      (fun p hp => by rw [hfs]; exact h.gone p hp) (fun _ _ h => by cases h)
    exact (h.done t ht).of_same subset_rfl (by rw [hm]) (fun f b hb => by rw [hm]; exact hb)
  · have hsafe := hok hne hhash d g hdg
    have hgone : ∀ p ∈ past, s'.fs.contents (part self.inboxDir p.1 p.2) = none := fun p hp =>
      (hframe _ fun he => hsafe p hp
        (resolve_partPath_inj (normalName_cleanComponent p.1) he.symm)).trans (h.gone p hp)
    rcases heff with hm | ⟨fr, hfr, hk, offset', length, blake3', now, hpos, hend, hm⟩
    · refine kept_of_done (hm ▸ h.wellFormed) (fun t => by rw [hm]) (fun t' ht' => ?_) hgone
        (fun _ _ h => by cases h)
      exact (h.done t' ht').of_same subset_rfl (by rw [hm]) (fun f b hb => by rw [hm]; exact hb)
    · obtain ⟨rfl, rfl⟩ := Prod.mk.inj hk
      have hlt := ManifestDb.asU64_lt fr.size
      have hstate : ∀ t', s'.manifest.selectState t' = s.manifest.selectState t' := fun t' => by
        rw [hm, ManifestDb.record, ManifestDb.selectState_touchTransfer]
        rfl
      refine kept_of_done (hm ▸ h.wellFormed.record (by omega) (by omega) hfr hpos hend)
        (fun t' => by rw [hstate]) (fun t' ht' => ?_) hgone (fun _ _ h => by cases h)
      have hne' : t' ≠ fr.transferId := by
        -- the file of a completed transfer has stable ids, so the chunk goes to its staging path
        rintro rfl
        have hstable := (h.done _ ht').stable
        have hmem := mem_filesOf.mpr ⟨fr, hfr, rfl, rfl⟩
        have hfile := hstable.2 _ hmem
        rcases hdg with ⟨-, -, hd, hg⟩ | ⟨hnot, -⟩
        · exact hsafe _ ((h.done _ ht').published _ hmem) ⟨hd, hg⟩
        · exact hnot.elim (fun hn => hn hstable.1) fun hn => hn hfile
      refine (h.done t' ht').of_same subset_rfl (by rw [hm]; rfl) (fun f b hb => ?_)
      rw [hm]
      exact covered_record_of_ne hne' hb

theorem Ready.stableIds {t : String} (h : Ready inboxDir s t) : StableIds t (filesOf s.manifest t) := by
  obtain ⟨fr, hfr, hfrt⟩ := h.1.1
  exact ⟨(h.2 _ (mem_filesOf.mpr ⟨fr, hfr, hfrt, rfl⟩)).1, fun file hfile => (h.2 file hfile).2.1⟩

theorem Ready.isSome_contents {t : String} (h : Ready inboxDir s t) {file : ManifestFile}
    (hfile : file ∈ filesOf s.manifest t) : (s.fs.contents (part inboxDir t file.fileId)).isSome := by
  obtain ⟨-, -, bytes, hbytes, -⟩ := h.2 file hfile
  rw [hbytes]
  rfl

/-- A publication, whether it gets through or stops at a file. -/
theorem Settled.publish (h : Settled self.inboxDir past s) {w w' : Wire} {t : String}
    {r : Except NativeError Unit} (hc : s.manifest.selectState t ≠ some .completed)
    (hready : Ready self.inboxDir s t)
    (hrun : (self.finishTransfer t).run handler (s, w) = (r, (s', w'))) :
    Settled self.inboxDir (past ∪ (Call.finish t).published self.inboxDir s s') s' ∧
      ∀ t', s.manifest.selectState t' = some .completed →
        s'.manifest.selectState t' = some .completed := by
  obtain ⟨fs', ⟨names, ha, hren, hrun₁⟩ | ⟨e, before, file, names, hstop, herr⟩⟩ :=
    run_finishTransfer_ready self (w := w) h.wellFormed hready
  · obtain ⟨-, hs⟩ := Prod.mk.inj (hrun.symm.trans hrun₁)
    obtain ⟨rfl, -⟩ := Prod.mk.inj hs
    refine ⟨⟨h.wellFormed.updateState _ _ _, fun t' ht' => ?_, gone_of_published fun p hp =>
      gone_of_renames (fun _ => hready.isSome_contents) hren (h.gone p hp)⟩, fun t' ht' => ?_⟩
    · by_cases htt : t' = t
      · subst htt
        exact ⟨hready.1, hready.stableIds, fun file hfile =>
          .inr (published_of_renames ha hren hfile)⟩
      · rw [ManifestDb.selectState_updateState, if_neg htt] at ht'
        exact (h.done t' ht').of_same Set.subset_union_left rfl fun _ _ hb => hb
    · have hne : t' ≠ t := by
        rintro rfl
        exact hc ht'
      rw [ManifestDb.selectState_updateState, if_neg hne]
      exact ht'
  · obtain ⟨-, hs⟩ := Prod.mk.inj (hrun.symm.trans herr)
    obtain ⟨rfl, -⟩ := Prod.mk.inj hs
    obtain ⟨after, hsplit⟩ := hstop.split
    refine ⟨⟨h.wellFormed, fun t' ht' => ?_, gone_of_published fun p hp => gone_of_renames
      (fun file hfile => hready.isSome_contents (by simp [hsplit, hfile])) hstop.renamed (h.gone p hp)⟩,
      fun _ ht' => ht'⟩
    exact (h.done t' ht').of_same Set.subset_union_left rfl fun _ _ hb => hb

/-- **Any `finish_transfer`** is harmless: a done transfer is refused, and
publishing another one does not touch it. -/
theorem Settled.finish (h : Settled self.inboxDir past s) {w w' : Wire} {t : String}
    {r : Except NativeError Unit} (hok : (Call.finish t).Harmless self past s)
    (hrun : (self.finishTransfer t).run handler (s, w) = (r, (s', w'))) :
    Kept self.inboxDir past s (.finish t) s' := by
  by_cases hc : s.manifest.selectState t = some .completed
  · obtain ⟨e, herr⟩ := run_finishTransfer_done self (w := w) h (h.done t hc)
    obtain ⟨-, hs⟩ := Prod.mk.inj (hrun.symm.trans herr)
    obtain ⟨rfl, -⟩ := Prod.mk.inj hs
    exact kept_of_done h.wellFormed (fun _ => .rfl) h.done h.gone fun _ _ _ _ => rfl
  · have hpub : ∀ t', s.manifest.selectState t' = some .completed →
        Call.finish t = .finish t' → ∀ q, s'.fs.contents q = s.fs.contents q := by
      intro t' ht' he
      obtain rfl := Call.finish.inj he
      exact absurd ht' hc
    by_cases hready : Ready self.inboxDir s t
    · obtain ⟨hsettled, hkept⟩ := h.publish self hc hready hrun
      exact ⟨hsettled, hkept, hpub⟩
    · obtain ⟨e, s₁, herr, hfs, -, hm⟩ :=
        run_finishTransfer_refused self (w := w) h.wellFormed hok hready
      obtain ⟨-, hs⟩ := Prod.mk.inj (hrun.symm.trans herr)
      obtain ⟨rfl, -⟩ := Prod.mk.inj hs
      have hgone : ∀ p ∈ past, s'.fs.contents (part self.inboxDir p.1 p.2) = none := fun p hp => by
        rw [hfs]
        exact h.gone p hp
      rcases hm with hm | ⟨state, now, hne, hm⟩
      · refine kept_of_done (hm ▸ h.wellFormed) (fun t => by rw [hm]) (fun t' ht' => ?_) hgone hpub
        exact (h.done t' ht').of_same subset_rfl (by rw [hm]) (fun f b hb => by rw [hm]; exact hb)
      · refine kept_of_done (hm ▸ h.wellFormed.updateState _ _ _) (fun t' => ?_)
          (fun t' ht' => ?_) hgone hpub
        · rw [hm]
          exact selectState_updateState_iff hne hc t'
        · exact (h.done t' ht').of_same subset_rfl (by rw [hm]; rfl) (fun f b hb => by rw [hm]; exact hb)

/-- **One harmless call.** -/
theorem Settled.step {call : Call} (h : Settled inboxDir past s)
    (hstep : CallStep inboxDir past s call s') : Kept inboxDir past s call s' := by
  obtain ⟨self, w, r, w', rfl, hok, hrun⟩ := hstep
  cases call with
  | accept peer request =>
    rw [Call.exec, Prog.run_bind] at hrun
    cases hacc : (self.acceptTransfer peer request).run handler (s, w) with
    | mk r₁ sw =>
      obtain ⟨s₁, w₁⟩ := sw
      rw [hacc] at hrun
      cases r₁ with
      | error e =>
        cases hrun
        exact h.accept self hok hacc
      | ok a =>
        cases hrun
        exact h.accept self hok hacc
  | chunk t f offset bytes blake3 => exact h.chunk self hok hrun
  | finish t => exact h.finish self hok hrun

theorem Settled.steps {past' : Set (String × String)} (h : Settled inboxDir past s)
    (hsteps : CallSteps inboxDir s past s' past') :
    Settled inboxDir past' s' ∧ ∀ t, s.manifest.selectState t = some .completed →
      s'.manifest.selectState t = some .completed := by
  induction hsteps with
  | refl => exact ⟨h, fun _ ht => ht⟩
  | tail _ last ih =>
    obtain ⟨hsettled, hcompleted⟩ := ih h
    have hkept := hsettled.step last
    exact ⟨hkept.settled, fun t ht => hkept.completed t (hcompleted t ht)⟩

/-- **Under harmless calls `Completed` is terminal, and a file is published at
most once.**  From an empty manifest, and whatever lies in the directory tree: a
transfer that is `Completed` is still so after any further harmless calls, and
no `finish_transfer` for it changes a file; and no call publishes a file that
was published before. -/
theorem completed_terminal {s₀ s₁ s₂ s₃ : Store} {past₁ past₂ : Set (String × String)}
    (hempty : s₀.manifest = .empty) (hbefore : CallSteps inboxDir s₀ ∅ s₁ past₁)
    (hafter : CallSteps inboxDir s₁ past₁ s₂ past₂) {call : Call}
    (hlast : CallStep inboxDir past₂ s₂ call s₃) :
    (∀ t, s₁.manifest.selectState t = some .completed → s₃.manifest.selectState t = some .completed ∧
      (call = .finish t → ∀ q, s₃.fs.contents q = s₂.fs.contents q)) ∧
    ∀ p ∈ call.published inboxDir s₂ s₃, p ∉ past₂ := by
  have hstart : Settled inboxDir ∅ s₀ := by
    refine ⟨⟨?_, ?_⟩, ?_, nofun⟩
    · rw [hempty]
      nofun
    · rw [hempty]
      nofun
    · intro t ht
      rw [hempty] at ht
      cases ht
  obtain ⟨hsettled₁, -⟩ := hstart.steps hbefore
  obtain ⟨hsettled₂, hkept⟩ := hsettled₁.steps hafter
  have hstep := hsettled₂.step hlast
  refine ⟨fun t ht => ⟨hstep.completed t (hkept t ht), hstep.unpublished t (hkept t ht)⟩, ?_⟩
  rintro p ⟨-, -, bytes, hstaged, -⟩ hpast
  rw [hsettled₂.gone p hpast] at hstaged
  cases hstaged

end steps

/-! ### A transfer completed twice -/

/-- The store after some calls, each on a connection of its own. -/
def replay [Primitives] (self : NativeTransferReceiver) (calls : List Call) (s : Store) : Store :=
  calls.foldl (fun s call => ((call.exec self).run handler (s, .fresh)).2.1) s

theorem replay_concat [Primitives] (self : NativeTransferReceiver) (calls : List Call) (call : Call)
    (s : Store) : replay self (calls ++ [call]) s =
      ((call.exec self).run handler (replay self calls s, .fresh)).2.1 :=
  List.foldl_append

theorem callStep_replay [Primitives] (self : NativeTransferReceiver) (calls : List Call)
    (call : Call) (s : Store) {past : Set (String × String)}
    (h : call.Harmless self past (replay self calls s)) :
    CallStep self.inboxDir past (replay self calls s) call (replay self (calls ++ [call]) s) := by
  rw [replay_concat]
  exact ⟨self, .fresh, _, _, rfl, h, rfl⟩

/-- A transfer of one file of one byte. -/
def oneByteRequest : RequestTransfer := ⟨"tx", [.small "file-1" "a.txt" 1 none]⟩

@[inherit_doc oneByteRequest]
def oneByteAccept : Call := .accept samplePeer oneByteRequest

@[inherit_doc oneByteRequest]
def oneByteChunk : Call := .chunk "tx" "file-1" 0 [1] (@blake3Hex .sample [1])

/-- The calls that deliver it. -/
def oneByteCalls : List Call := [oneByteAccept, oneByteChunk, .finish "tx"]

/-- These calls publish the file, and a second `finish_transfer` after them
publishes nothing. -/
theorem completed_terminal_oneByte :
    ∃ past, ("tx", "file-1") ∈ past ∧
      @CallSteps .sample ["inbox"] .fresh ∅ (@replay .sample sampleReceiver oneByteCalls .fresh) past ∧
      (@replay .sample sampleReceiver (oneByteCalls ++ [.finish "tx"]) .fresh).manifest.selectState
        "tx" = some .completed ∧
      (∀ q, (@replay .sample sampleReceiver (oneByteCalls ++ [.finish "tx"]) .fresh).fs.contents q =
        (@replay .sample sampleReceiver oneByteCalls .fresh).fs.contents q) ∧
      ∀ p ∈ (Call.finish "tx").published ["inbox"] (@replay .sample sampleReceiver oneByteCalls .fresh)
        (@replay .sample sampleReceiver (oneByteCalls ++ [.finish "tx"]) .fresh), p ∉ past := by
  let _ : Primitives := .sample
  have hids : ∀ db : ManifestDb, (filesOf db "tx").all (fun file => file.fileId = "file-1") = true →
      StableIds "tx" (filesOf db "tx") := by
    intro db hall
    refine ⟨by decide, fun file hfile => ?_⟩
    rw [of_decide_eq_true (List.all_eq_true.mp hall file hfile)]
    decide
  have haccept := (CallSteps.refl _ ∅).tail
    (callStep_replay sampleReceiver [] oneByteAccept .fresh fun _ => nofun)
  have hchunk := haccept.tail (callStep_replay sampleReceiver [oneByteAccept] oneByteChunk .fresh
    fun _ _ _ _ _ p hp => hp.elim (False.elim ·) fun h => by cases h.1)
  have hfinish := hchunk.tail (callStep_replay sampleReceiver [oneByteAccept, oneByteChunk] (.finish "tx")
    .fresh (.inr (hids _ (by decide +kernel))))
  obtain ⟨hterminal, honce⟩ := completed_terminal rfl hfinish (.refl _ _)
    (callStep_replay sampleReceiver oneByteCalls (.finish "tx") .fresh (.inr (hids _ (by decide +kernel))))
  obtain ⟨hcompleted, hsame⟩ := hterminal "tx" (by decide +kernel)
  exact ⟨_, .inr ⟨rfl, "a.txt", [1], by decide +kernel⟩, hfinish, hcompleted, hsame rfl, honce⟩

/-- A completed transfer is accepted again: it is `Active`, and its file is
published a second time.  The second publication does not even need the request. -/
theorem completed_reactivated :
    (@replay .sample sampleReceiver oneByteCalls .fresh).manifest.selectState "tx" =
        some .completed ∧
      (@replay .sample sampleReceiver (oneByteCalls ++ oneByteCalls.take 1) .fresh).manifest.selectState
        "tx" = some .active ∧
      (@replay .sample sampleReceiver oneByteCalls .fresh).fs.contents ["inbox", "a (1).txt"] = none ∧
      (@replay .sample sampleReceiver (oneByteCalls ++ oneByteCalls) .fresh).fs.contents
        ["inbox", "a (1).txt"] = some [1] ∧
      (@replay .sample sampleReceiver (oneByteCalls ++ oneByteCalls.drop 1) .fresh).fs.contents
        ["inbox", "a (1).txt"] = some [1] := by
  decide +kernel

end NightBridge.Native
