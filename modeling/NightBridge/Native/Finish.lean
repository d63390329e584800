/-
# `finish_transfer` as a whole

`Ready` is what the checks of `finish_transfer` accept: every byte of every file
is recorded, and every staged file has its declared size and digest.  From a
store that is not ready the call fails and leaves the directory tree alone
(`run_finishTransfer_refused`).  From one that is, it renames the staged files
into the inbox in the order of their ids (`run_finishTransfer_ready`), and that
succeeds exactly when the names can be allocated and no two files are staged at
one path (`finish_ok_iff`).
-/

import NightBridge.Native.Publish

namespace NightBridge.Native

open Data Effect NativeTransferReceiver ManifestStore

/-- The files of a transfer as `ManifestStore::files` returns them. -/
def filesOf (db : ManifestDb) (t : String) : List ManifestFile :=
  (db.selectFilesOrdered t).map ManifestFile.ofRow

/-- The renames that publish `files` under `names`. -/
def moves (inboxDir : Path) (t : String) (files : List ManifestFile) (names : List String) :
    List (Path × Path) :=
  List.zipWith (fun file name => (part inboxDir t file.fileId, inboxDir ++ [name])) files names

theorem mem_filesOf {db : ManifestDb} {t : String} {file : ManifestFile} :
    file ∈ filesOf db t ↔ ∃ fr ∈ db.files.rows, fr.transferId = t ∧ ManifestFile.ofRow fr = file := by
  simp only [filesOf, ManifestDb.selectFilesOrdered, List.mem_map,
    (List.perm_insertionSort _ _).mem_iff, ManifestDb.selectFiles, List.mem_filter,
    decide_eq_true_eq, and_assoc]

theorem mem_moves {inboxDir : Path} {t : String} {files : List ManifestFile} {names : List String}
    {m : Path × Path} (h : m ∈ moves inboxDir t files names) :
    ∃ file ∈ files, ∃ name ∈ names, m = (part inboxDir t file.fileId, inboxDir ++ [name]) := by
  unfold moves at h
  rw [← List.map_uncurry_zip_eq_zipWith, List.mem_map] at h
  obtain ⟨⟨file, name⟩, hm, rfl⟩ := h
  exact ⟨file, (List.of_mem_zip hm).1, name, (List.of_mem_zip hm).2, rfl⟩

theorem exists_mem_moves (inboxDir : Path) (t : String) {files : List ManifestFile}
    {names : List String} (hlen : names.length = files.length) {file : ManifestFile}
    (hfile : file ∈ files) :
    ∃ name, (part inboxDir t file.fileId, inboxDir ++ [name]) ∈ moves inboxDir t files names := by
  obtain ⟨i, hi, rfl⟩ := List.getElem_of_mem hfile
  refine ⟨names[i], ?_⟩
  have hm : i < (moves inboxDir t files names).length := by
    rw [moves, List.length_zipWith]
    omega
  have hget := List.getElem_mem hm
  simpa only [moves, List.getElem_zipWith] using hget

theorem moves_apart {inboxDir : Path} {t : String} {files : List ManifestFile}
    {names : List String} : ∀ m ∈ moves inboxDir t files names,
      ∀ m' ∈ moves inboxDir t files names, resolve m.1 ≠ resolve m'.2 := by
  intro m hm m' hm'
  obtain ⟨file, -, -, -, rfl⟩ := mem_moves hm
  obtain ⟨-, -, name, -, rfl⟩ := mem_moves hm'
  exact (resolve_name_ne_partPath inboxDir name _ _).symm

/-- The loop of renames stopped at `file`, after the files of `before` were
renamed. -/
structure Stopped (inboxDir : Path) (t : String) (fs : Fs) (files before : List ManifestFile)
    (file : ManifestFile) (names : List String) (fs' : Fs) : Prop where
  split : ∃ after, files = before ++ file :: after
  named : allocate (takenIn fs inboxDir) (before.map (·.fileName)) = some names
  renamed : fs.Renames (moves inboxDir t before names) fs'
  why : (chooseName (takenIn fs' inboxDir) file.fileName = none ∧
      allocate (takenIn fs inboxDir) (files.map (·.fileName)) = none) ∨
    fs'.contents (part inboxDir t file.fileId) = none

section publish

variable (self : NativeTransferReceiver) {t : String} {w : Wire}

/-- **The loop of renames** publishes all files under the allocated names, or
stops at the first that has no name or is not there. -/
theorem run_publishFiles (ht : Stable t) (files : List ManifestFile)
    (hf : ∀ file ∈ files, Stable file.fileId) (s : Store)
    (hdir : s.fs.lookup self.inboxDir = some .dir) :
    ∃ fs', (∃ names, allocate (takenIn s.fs self.inboxDir) (files.map (·.fileName)) = some names ∧
        s.fs.Renames (moves self.inboxDir t files names) fs' ∧
        (Prog.each files (self.publishFile t)).run handler (s, w) =
          (.ok (), ({ s with fs := fs' }, w))) ∨
      ∃ e before file names, Stopped self.inboxDir t s.fs files before file names fs' ∧
        (Prog.each files (self.publishFile t)).run handler (s, w) =
          (.error e, ({ s with fs := fs' }, w)) := by
  induction files generalizing s with
  | nil => exact ⟨s.fs, .inl ⟨[], rfl, .nil _, rfl⟩⟩
  | cons file files ih =>
    have hpath := incomingFilePath_eq self ht (hf file (by simp))
    rcases run_availableTargetPath self.inboxDir file.fileName s w with
      ⟨name, hpick, htarget⟩ | ⟨hnone, e, htarget⟩
    · have hfree := pickName_free hpick
      have hnormal := normalName_of_free hdir hfree
      have hpub : ∀ r s', onFs s w (s.fs.rename (part self.inboxDir t file.fileId)
            (self.inboxDir ++ [name])) = (r, s', w) →
          (self.publishFile t file).run handler (s, w) = (r.mapError .io, (s', w)) := by
        intro r s' h
        rw [publishFile, hpath, Prog.ret_bind, Prog.run_bind_ok _ htarget, renameFile,
          Prog.run_call]
        simp only [handler, exec]
        rw [part] at h
        rw [h, orIo, Prog.run_ofExcept]
      cases hren : s.fs.rename (part self.inboxDir t file.fileId) (self.inboxDir ++ [name]) with
      | error e =>
        refine ⟨s.fs, .inr ⟨.io e, [], file, [], ⟨⟨files, rfl⟩, rfl, .nil _, ?_⟩, ?_⟩⟩
        · -- nobody can have the name, or the file is not there
          by_cases hfits : nameFits name
          · right
            by_contra hc
            obtain ⟨bs, hbs⟩ := Option.ne_none_iff_exists'.mp hc
            obtain ⟨i, hi, -⟩ := Fs.lookup_of_contents hbs
            obtain ⟨fs', hok⟩ := Fs.rename_isOk hi (by rwa [List.getLastD_concat])
              (resolve_append_normal _ hnormal) hdir (by simp [lookup_of_free hfree])
            rw [hok] at hren
            cases hren
          · have hnone : chooseName (takenIn s.fs self.inboxDir) file.fileName = none := by
              rw [chooseName, hpick, Option.filter_some, if_neg hfits]
            exact .inl ⟨hnone, by rw [List.map_cons, allocate, hnone]; rfl⟩
        · rw [Prog.each_cons, Prog.run_bind_error _ (hpub _ _ (by rw [hren]; rfl))]
      | ok fs₁ =>
        have hname : chooseName (takenIn s.fs self.inboxDir) file.fileName = some name := by
          rw [chooseName, hpick, Option.filter_some, if_pos (Fs.fits_of_rename hren)]
        have hrun := hpub (.ok ()) { s with fs := fs₁ } (by rw [hren]; rfl)
        obtain ⟨hdir₁, htaken⟩ := inbox_rename hdir (normalName_cleanComponent t) hfree hren
        have hfree' := lookup_of_free hfree
        have halloc : ∀ l : List ManifestFile, allocate (takenIn s.fs self.inboxDir)
            ((file :: l).map (·.fileName)) =
              (allocate (takenIn fs₁ self.inboxDir) (l.map (·.fileName))).map (name :: ·) := by
          intro l
          rw [List.map_cons, allocate, hname, htaken]
          rfl
        obtain ⟨fs', ⟨names, ha, hr, hgo⟩ | ⟨e, before, file', names, hstop, hgo⟩⟩ :=
          ih (fun f h => hf f (by simp [h])) { s with fs := fs₁ } hdir₁
        · refine ⟨fs', .inl ⟨name :: names, by rw [halloc, ha]; rfl, .cons hfree' hren hr, ?_⟩⟩
          rw [Prog.each_cons, Prog.run_bind_ok _ hrun, hgo]
        · obtain ⟨after, rfl⟩ := hstop.split
          refine ⟨fs', .inr ⟨e, file :: before, file', name :: names,
            ⟨⟨after, rfl⟩, by rw [halloc, hstop.named]; rfl, .cons hfree' hren hstop.renamed, ?_⟩, ?_⟩⟩
          · exact hstop.why.imp_left fun h => ⟨h.1, by rw [halloc, h.2]; rfl⟩
          · rw [Prog.each_cons, Prog.run_bind_ok _ hrun, hgo]
    · replace hnone : chooseName (takenIn s.fs self.inboxDir) file.fileName = none := by
        rw [chooseName, hnone, Option.filter_none]
      refine ⟨s.fs, .inr ⟨e, [], file, [], ⟨⟨files, rfl⟩, rfl, .nil _, .inl ⟨hnone, ?_⟩⟩, ?_⟩⟩
      · rw [List.map_cons, allocate, hnone]
        rfl
      · rw [Prog.each_cons, publishFile, hpath, Prog.ret_bind,
          Prog.run_bind_error _ (Prog.run_bind_error _ htarget)]

end publish

/-! ### The whole call -/

/-- What the checks of `finish_transfer` accept. -/
def Ready [Primitives] (inboxDir : Path) (s : Store) (t : String) : Prop :=
  s.manifest.Complete t ∧ ∀ file ∈ filesOf s.manifest t, Verified s.fs inboxDir t file

/-- No two files are staged at one path. -/
def DistinctParts (files : List ManifestFile) : Prop :=
  (files.map fun file => cleanComponent file.fileId).Nodup

instance (files : List ManifestFile) : Decidable (DistinctParts files) :=
  inferInstanceAs (Decidable (List.Nodup _))

theorem lookup_inbox_of_part {fs : Fs} {inboxDir : Path} {t f : String} {bytes : Bytes}
    (h : fs.contents (part inboxDir t f) = some bytes) : fs.lookup inboxDir = some .dir := by
  obtain ⟨i, hi, -⟩ := Fs.lookup_of_contents h
  rw [part] at hi
  exact lookup_inbox_of_staged (by rw [hi]; rfl)

theorem map_fst_moves {inboxDir : Path} {t : String} {files : List ManifestFile}
    {names : List String} (h : names.length = files.length) :
    (moves inboxDir t files names).map (fun m => resolve m.1) =
      files.map fun file => resolve (part inboxDir t file.fileId) := by
  induction files generalizing names with
  | nil => rfl
  | cons file files ih =>
    cases names with
    | nil => cases h
    | cons name names =>
      rw [List.map_cons, ← ih (Nat.succ.inj h)]
      rfl

section finish

variable [Primitives] (self : NativeTransferReceiver) {s : Store} {w : Wire} {t : String}

/-- A call before every byte is recorded marks the transfer `Interrupted`. -/
theorem run_finishTransfer_incomplete (hwf : s.manifest.WellFormed)
    (h : ¬ s.manifest.Complete t) :
    (self.finishTransfer t).run handler (s, w) =
      (if (s.manifest.transfers.find? t).isSome then
          .error (.protocol "transfer has missing bytes")
        else .error (.manifest "unknown transfer"),
        ({ s with
          manifest := (s.manifest.updateState t .interrupted (s.clock 0)).2
          clock := advance s.clock }, w)) := by
  obtain ⟨ok, hrun, hok⟩ := run_transferComplete (w := w) hwf t
  obtain rfl : ok = false := by
    rw [← Bool.not_eq_true]
    exact fun hc => h (hok.mp hc)
  have hset := run_setState_ne t (show TransferState.interrupted ≠ .completed by decide) s w
  rw [finishTransfer, Prog.run_bind_ok _ hrun]
  simp only [Bool.not_false, if_true]
  split_ifs at hset ⊢
  · exact Prog.run_bind_ok _ hset
  · exact Prog.run_bind_error _ hset

/-- **A refused call** leaves the directory tree alone. -/
theorem run_finishTransfer_refused (hwf : s.manifest.WellFormed)
    (hu : FreshUuids self.inboxDir s ∨ StableIds t (filesOf s.manifest t))
    (h : ¬ Ready self.inboxDir s t) :
    ∃ e s', (self.finishTransfer t).run handler (s, w) = (.error e, (s', w)) ∧ Refused t s s' := by
  by_cases hc : s.manifest.Complete t
  · obtain ⟨ok, hrun, hok⟩ := run_transferComplete (w := w) hwf t
    obtain rfl := hok.mpr hc
    obtain ⟨e, s', hverify, hr⟩ := run_verifyFiles_error self (w := w)
      (filesOf s.manifest t) hu fun hv => h ⟨hc, hv⟩
    refine ⟨e, s', ?_, hr⟩
    rw [finishTransfer, Prog.run_bind_ok _ hrun]
    simp only [Bool.not_true, Bool.false_eq_true, if_false]
    rw [Prog.run_bind_ok _ (show (files t).run handler (s, w) = (.ok (filesOf s.manifest t), (s, w))
      from rfl), Prog.run_bind_error _ hverify]
  · rw [run_finishTransfer_incomplete self hwf hc]
    split_ifs
    · exact ⟨_, _, rfl, rfl, rfl, .inr ⟨.interrupted, _, by decide, rfl⟩⟩
    · exact ⟨_, _, rfl, rfl, rfl, .inr ⟨.interrupted, _, by decide, rfl⟩⟩

theorem run_finishTransfer_ready (hwf : s.manifest.WellFormed) (h : Ready self.inboxDir s t) :
    ∃ fs', (∃ names,
        allocate (takenIn s.fs self.inboxDir) ((filesOf s.manifest t).map (·.fileName)) =
          some names ∧
        s.fs.Renames (moves self.inboxDir t (filesOf s.manifest t) names) fs' ∧
        (self.finishTransfer t).run handler (s, w) = (.ok (), ({ s with
          manifest := (s.manifest.updateState t .completed (s.clock 0)).2
          fs := fs'
          clock := advance s.clock }, w))) ∨
      ∃ e before file names,
        Stopped self.inboxDir t s.fs (filesOf s.manifest t) before file names fs' ∧
        (self.finishTransfer t).run handler (s, w) = (.error e, ({ s with fs := fs' }, w)) := by
  obtain ⟨hc, hv⟩ := h
  obtain ⟨ok, hrun, hok⟩ := run_transferComplete (w := w) hwf t
  obtain rfl := hok.mpr hc
  obtain ⟨fr, hfr, hfrt⟩ := hc.1
  obtain ⟨ht, -, bytes, hpart, -⟩ := hv _ (mem_filesOf.mpr ⟨fr, hfr, hfrt, rfl⟩)
  have hdir := lookup_inbox_of_part hpart
  have hmk : (createDirAll self.inboxDir).run handler (s, w) = (.ok (), (s, w)) := by
    simp [createDirAll, handler, exec, onFs, Fs.createDirAll_of_dir hdir, orIo, Except.mapError]
  -- up to the loop of renames nothing changes
  have hstart : (self.finishTransfer t).run handler (s, w) = (do
        Prog.each (filesOf s.manifest t) (self.publishFile t)
        setState t .completed : Io NativeError Unit).run handler (s, w) := by
    rw [finishTransfer, Prog.run_bind_ok _ hrun]
    simp only [Bool.not_true, Bool.false_eq_true, if_false]
    rw [Prog.run_bind_ok _ (show (files t).run handler (s, w) = (.ok (filesOf s.manifest t), (s, w))
      from rfl), Prog.run_bind_ok _ (run_verifyFiles self hv), Prog.run_bind_ok _ hmk]
  rw [hstart]
  obtain ⟨fs', ⟨names, ha, hr, hpub⟩ | ⟨e, before, file, names, hstop, hpub⟩⟩ :=
    run_publishFiles self (w := w) ht (filesOf s.manifest t) (fun file hm => (hv file hm).2.1) s hdir
  · refine ⟨fs', .inl ⟨names, ha, hr, ?_⟩⟩
    rw [Prog.run_bind_ok _ hpub]
    exact run_setState_completed (s := { s with fs := fs' }) hwf hc w
  · exact ⟨fs', .inr ⟨e, before, file, names, hstop, Prog.run_bind_error _ hpub⟩⟩

/-- A file that stops the loop has no name left, or shares its staging path with
an earlier one. -/
theorem not_stopped (h : Ready self.inboxDir s t)
    (ha : (allocate (takenIn s.fs self.inboxDir)
      ((filesOf s.manifest t).map (·.fileName))).isSome)
    (hd : DistinctParts (filesOf s.manifest t)) {before : List ManifestFile} {file : ManifestFile}
    {names : List String} {fs' : Fs} :
    ¬ Stopped self.inboxDir t s.fs (filesOf s.manifest t) before file names fs' := by
  rintro ⟨⟨after, hsplit⟩, -, hren, ⟨-, hnone⟩ | hgone⟩
  · rw [hnone] at ha
    cases ha
  · obtain ⟨-, -, bytes, hpart, -⟩ := h.2 file (by simp [hsplit])
    obtain ⟨i, hi, -⟩ := Fs.lookup_of_contents hpart
    have hclean := normalName_cleanComponent t
    have hother : ∀ m ∈ moves self.inboxDir t before names,
        resolve (part self.inboxDir t file.fileId) ≠ resolve m.1 := by
      intro m hm he
      obtain ⟨file', hmem, name, -, rfl⟩ := mem_moves hm
      have heq := (resolve_partPath_inj hclean he).2
      rw [DistinctParts, hsplit, List.map_append, List.map_cons] at hd
      exact (List.nodup_append.mp hd).2.2 _ (List.mem_map.mpr ⟨file', hmem, rfl⟩) _
        List.mem_cons_self heq.symm
    rw [(hren.kept hother (by rw [hi]; rfl)).2.2, hpart] at hgone
    cases hgone

/-- **When a ready transfer is published**: exactly when its names can be
allocated in turn and no two files share a staging path. -/
theorem finish_ok_iff (hwf : s.manifest.WellFormed) (h : Ready self.inboxDir s t) :
    (∃ s', (self.finishTransfer t).run handler (s, w) = (.ok (), (s', w))) ↔
      (allocate (takenIn s.fs self.inboxDir)
        ((filesOf s.manifest t).map (·.fileName))).isSome ∧
      DistinctParts (filesOf s.manifest t) := by
  obtain ⟨fs', ⟨names, ha, hr, hrun⟩ | ⟨e, before, file, names, hstop, hrun⟩⟩ :=
    run_finishTransfer_ready self (w := w) hwf h
  · refine ⟨fun _ => ⟨by rw [ha]; rfl, ?_⟩, fun _ => ⟨_, hrun⟩⟩
    have hlen := length_allocate ha
    rw [List.length_map] at hlen
    have hnd := (hr.moved moves_apart).1
    rw [map_fst_moves hlen] at hnd
    refine List.Nodup.of_map (fun c => resolve (partPath self.inboxDir (cleanComponent t) c)) ?_
    rw [List.map_map]
    exact hnd
  · constructor
    · rintro ⟨s', hs'⟩
      rw [hrun] at hs'
      cases hs'
    · rintro ⟨ha, hd⟩
      exact absurd hstop (not_stopped self h ha hd)

end finish

end NightBridge.Native
