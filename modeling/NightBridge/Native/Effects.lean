/-
# What an operation changes

Each operation of `exec` changes little.  `Op.WritesRows` and `Op.Touches` say
what: the transfers whose rows an SQL statement writes, and the paths whose file
a system call may change.  Everything else stays (`rowsOf_exec`, `fs_exec`,
`dir_exec`), whoever makes the call and whatever it answers.
-/

import NightBridge.Native.Machine

namespace NightBridge.Native

open Data Effect

/-- The rows of a transfer in the three tables. -/
def ManifestDb.rowsOf (db : ManifestDb) (t : String) :
    Option TransferRow × List FileRow × List ChunkRow :=
  (db.transfers.find? t, db.selectFiles t, db.chunks.rows.filter fun r => r.transferId = t)

/-- The statement writes rows of the transfer. -/
def Op.WritesRows (t : String) : Op → Prop
  | .insertTransfer row files => row.transferId = t ∨ ∃ file ∈ files, file.transferId = t
  | .replaceChunk row => row.transferId = t
  | .touchTransfer transferId _ => transferId = t
  | .updateState transferId _ _ => transferId = t
  | _ => False

/-- The call may change the bytes, or the existence, of the file at the path. -/
def Op.Touches (s : Store) (path : Path) : Op → Prop
  | .openWrite q => resolve path = resolve q
  | .writeAt file _ _ => s.fs.lookup path = some (.file file)
  | .rename source target => resolve path = resolve source ∨ resolve path = resolve target
  | _ => False

/-- The call can change the manifest or the directory tree. -/
def Op.mutates : Op → Bool
  | .createDirAll _ | .openWrite _ | .writeAt .. | .rename .. => true
  | .insertTransfer .. | .replaceChunk _ | .touchTransfer .. | .updateState .. => true
  | _ => false

/-- The call can change the directory tree. -/
def Op.writesTree : Op → Bool
  | .createDirAll _ | .openWrite _ | .writeAt .. | .rename .. => true
  | _ => false

/-- The statement can change the manifest. -/
def Op.writesManifest : Op → Bool
  | .insertTransfer .. | .replaceChunk _ | .touchTransfer .. | .updateState .. => true
  | _ => false

section rows

variable {db db' : ManifestDb} {t : String}

theorem rowsOf_insertTransfer {row : TransferRow} {files : List FileRow}
    (h : db.insertTransfer row files = .ok db') (hrow : row.transferId ≠ t)
    (hfiles : ∀ file ∈ files, file.transferId ≠ t) : db'.rowsOf t = db.rowsOf t := by
  rw [ManifestDb.insertTransfer] at h
  split at h
  · cases h
  rename_i transfers htransfers
  split at h
  · cases h
  rename_i files' hinsert
  cases h
  have hnone : files.filter (fun r => decide (r.transferId = t)) = [] := by
    rw [List.filter_eq_nil_iff]
    exact fun file hfile => by simpa using hfiles file hfile
  have hfind : transfers.find? t = db.transfers.find? t := by
    rw [Table.find?, Table.find?, (Table.insert_eq_some_iff.mp htransfers).2, List.find?_append]
    simp [hrow]
  simp only [ManifestDb.rowsOf, ManifestDb.selectFiles, hfind,
    (ManifestDb.insertFiles_eq_some_iff.mp hinsert).2.2, List.filter_append, hnone, List.append_nil]

theorem rowsOf_replaceChunk {row : ChunkRow} (h : db.replaceChunk row = .ok db')
    (hrow : row.transferId ≠ t) : db'.rowsOf t = db.rowsOf t := by
  rw [ManifestDb.replaceChunk] at h
  split at h
  · cases h
  cases h
  have hchunks : (db.chunks.replace row).rows.filter (fun r => decide (r.transferId = t)) =
      db.chunks.rows.filter fun r => decide (r.transferId = t) := by
    rw [Table.replace, List.filter_append, Table.delete, List.filter_filter]
    have hlast : [row].filter (fun r => decide (r.transferId = t)) = [] := by simp [hrow]
    rw [hlast, List.append_nil]
    refine List.filter_congr fun r _ => ?_
    by_cases hr : r.transferId = t
    · have hkey : r.key ≠ row.key := fun hk => hrow ((congrArg Prod.fst hk).symm.trans hr)
      simp [hr, hkey]
    · simp [hr]
  simp only [ManifestDb.rowsOf, ManifestDb.selectFiles, hchunks]

theorem rowsOf_modify {t' : String} {f : TransferRow → TransferRow}
    {hf : ∀ r, (f r).transferId = r.transferId} (hne : t' ≠ t) :
    ManifestDb.rowsOf { db with transfers := db.transfers.modify t' f hf } t = db.rowsOf t := by
  simp only [ManifestDb.rowsOf, ManifestDb.selectFiles, Table.find?_modify, if_neg hne.symm]

end rows

section exec

variable {o : Op} {s : Store} {w : Wire}

theorem tree_exec (h : o.writesTree = false) : (exec o s w).2.1.fs = s.fs := by
  cases o with
  | createDirAll | openWrite | writeAt | rename => cases h
  | recvExact n => rw [exec]; split_ifs <;> rfl
  | insertTransfer row files => rw [exec]; cases s.manifest.insertTransfer row files <;> rfl
  | replaceChunk row => rw [exec]; cases s.manifest.replaceChunk row <;> rfl
  | _ => rfl

theorem manifest_exec (h : o.writesManifest = false) : (exec o s w).2.1.manifest = s.manifest := by
  cases o with
  | insertTransfer | replaceChunk | touchTransfer | updateState => cases h
  | recvExact | writeAt => rw [exec]; split_ifs <;> rfl
  | createDirAll path => rw [exec]; cases s.fs.createDirAll path <;> rfl
  | openWrite path => rw [exec]; cases s.fs.openWrite path <;> rfl
  | rename source target => rw [exec]; cases s.fs.rename source target <;> rfl
  | _ => rfl

theorem wire_exec (hrecv : ∀ n, o ≠ .recvExact n) (hsend : ∀ bytes, o ≠ .sendAll bytes) :
    (exec o s w).2.2 = w := by
  cases o with
  | recvExact n => exact absurd rfl (hrecv n)
  | sendAll bytes => exact absurd rfl (hsend bytes)
  | writeAt => rw [exec]; split_ifs <;> rfl
  | createDirAll path => rw [exec]; cases s.fs.createDirAll path <;> rfl
  | openWrite path => rw [exec]; cases s.fs.openWrite path <;> rfl
  | rename source target => rw [exec]; cases s.fs.rename source target <;> rfl
  | insertTransfer row files => rw [exec]; cases s.manifest.insertTransfer row files <;> rfl
  | replaceChunk row => rw [exec]; cases s.manifest.replaceChunk row <;> rfl
  | _ => rfl

theorem exec_of_not_mutates (h : o.mutates = false) :
    (exec o s w).2.1.manifest = s.manifest ∧ (exec o s w).2.1.fs = s.fs := by
  have hwrites : o.writesManifest = false ∧ o.writesTree = false := by
    cases o <;> first | exact ⟨rfl, rfl⟩ | cases h
  exact ⟨manifest_exec hwrites.1, tree_exec hwrites.2⟩

/-- **Rows.**  A statement changes the rows of the transfers it names. -/
theorem rowsOf_exec {t : String} (h : ¬ o.WritesRows t) :
    (exec o s w).2.1.manifest.rowsOf t = s.manifest.rowsOf t := by
  cases o with
  | insertTransfer row files =>
    rw [exec]
    cases hdb : s.manifest.insertTransfer row files with
    | error e => rfl
    | ok db' =>
      exact rowsOf_insertTransfer hdb (fun he => h (.inl he)) fun file hfile he =>
        h (.inr ⟨file, hfile, he⟩)
  | replaceChunk row =>
    rw [exec]
    cases hdb : s.manifest.replaceChunk row with
    | error e => rfl
    | ok db' => exact rowsOf_replaceChunk hdb h
  | touchTransfer transferId now => exact rowsOf_modify h
  | updateState transferId state now => exact rowsOf_modify h
  | _ => rw [manifest_exec rfl]

/-- Rows of `transfer_files` are never deleted. -/
theorem files_exec {row : FileRow} (h : row ∈ s.manifest.files.rows) :
    row ∈ (exec o s w).2.1.manifest.files.rows := by
  cases o with
  | insertTransfer r files =>
    rw [exec]
    cases hins : s.manifest.insertTransfer r files with
    | error e => exact h
    | ok db' =>
      rw [ManifestDb.insertTransfer] at hins
      split at hins
      · cases hins
      split at hins
      · cases hins
      rename_i files' hfiles
      cases hins
      have hrows := (ManifestDb.insertFiles_eq_some_iff.mp hfiles).2.2
      show row ∈ files'.rows
      rw [hrows]
      exact List.mem_append_left _ h
  | replaceChunk r =>
    rw [exec]
    cases hrep : s.manifest.replaceChunk r with
    | error e => exact h
    | ok db' =>
      rw [ManifestDb.replaceChunk] at hrep
      split at hrep
      · cases hrep
      cases hrep
      exact h
  | touchTransfer | updateState => exact h
  | _ => rwa [manifest_exec rfl]

/-- **Files.**  Away from the paths it touches a call changes no file, and at most
adds directories above the one it creates. -/
theorem fs_exec {path : Path} (h : ¬ o.Touches s path) :
    (exec o s w).2.1.fs.contents path = s.fs.contents path ∧
      ((exec o s w).2.1.fs.lookup path = s.fs.lookup path ∨
        ∃ q, o = .createDirAll q ∧ s.fs.lookup path = none ∧
          (exec o s w).2.1.fs.lookup path = some .dir ∧ resolve path <+: resolve q) := by
  cases o with
  | createDirAll q =>
    rw [exec]
    cases hfs : s.fs.createDirAll q with
    | error e => exact ⟨rfl, .inl rfl⟩
    | ok fs' =>
      exact ⟨Fs.contents_createDirAll hfs path,
        (Fs.lookup_createDirAll hfs path).imp (fun hl => hl) fun hl => ⟨q, rfl, hl⟩⟩
  | openWrite q =>
    rw [exec]
    cases hfs : s.fs.openWrite q with
    | error e => exact ⟨rfl, .inl rfl⟩
    | ok r =>
      obtain ⟨file, fs'⟩ := r
      -- an open is a write of nothing
      have hsame := (Fs.contents_openWrite_writeAt 0 [] hfs).2.1 path h
      have hwrite : fs'.writeAt file 0 [] = fs' := by simp [Fs.writeAt, overwrite]
      rw [hwrite] at hsame
      exact ⟨hsame.2, .inl hsame.1⟩
  | writeAt file offset bytes =>
    rw [exec]
    split_ifs
    swap
    · exact ⟨rfl, .inl rfl⟩
    have hl : (s.fs.writeAt file offset bytes).lookup path = s.fs.lookup path := rfl
    refine ⟨?_, .inl hl⟩
    show (s.fs.writeAt file offset bytes).contents path = _
    rw [Fs.contents, hl, Fs.contents]
    cases hlook : s.fs.lookup path with
    | none => rfl
    | some node =>
      cases node with
      | dir => rfl
      | file i =>
        have hne : i ≠ file := fun he => h (he ▸ hlook)
        simp [Fs.writeAt, hne]
  | rename source target =>
    rw [exec]
    cases hfs : s.fs.rename source target with
    | error e => exact ⟨rfl, .inl rfl⟩
    | ok fs' =>
      obtain ⟨hsource, htarget⟩ := not_or.mp (show ¬ (_ ∨ _) from h)
      by_cases hst : resolve target = resolve source
      · obtain ⟨-, -, -, -, ⟨-, rfl⟩ | ⟨hne, -⟩⟩ := Fs.rename_spec hfs
        · exact ⟨rfl, .inl rfl⟩
        · exact absurd hst hne
      · obtain ⟨hl, hc⟩ := (Fs.contents_rename hfs hst).2.2.2 path hsource htarget
        exact ⟨hc, .inl hl⟩
  | _ =>
    rw [tree_exec rfl]
    exact ⟨rfl, .inl rfl⟩

/-- **Directories** come from `create_dir_all` only. -/
theorem dir_exec {path : Path} (hnone : s.fs.lookup path ≠ some .dir)
    (hdir : (exec o s w).2.1.fs.lookup path = some .dir) :
    ∃ q, o = .createDirAll q ∧ resolve path <+: resolve q := by
  by_cases htouch : o.Touches s path
  · -- what a call leaves at a path it touches is a file or nothing
    exfalso
    cases o with
    | openWrite q =>
      rw [exec] at hdir
      cases hfs : s.fs.openWrite q with
      | error e => rw [hfs] at hdir; exact hnone hdir
      | ok r =>
        obtain ⟨file, fs'⟩ := r
        rw [hfs] at hdir
        have hfile := (Fs.contents_openWrite_writeAt 0 [] hfs).2.2
        have hq : fs'.lookup q = some .dir := (congrArg fs'.entries htouch).symm.trans hdir
        exact absurd (hq.symm.trans hfile) (by simp)
    | writeAt =>
      rw [exec] at hdir
      split_ifs at hdir <;> exact hnone hdir
    | rename source target =>
      rw [exec] at hdir
      cases hfs : s.fs.rename source target with
      | error e => rw [hfs] at hdir; exact hnone hdir
      | ok fs' =>
        rw [hfs] at hdir
        obtain ⟨file, hi, -, -, ⟨-, rfl⟩ | ⟨-, -, he⟩⟩ := Fs.rename_spec hfs
        · exact hnone hdir
        · have hnode := (congrFun he (resolve path)).symm.trans hdir
          rcases htouch with htouch | htouch <;>
            simp [htouch, Function.update_apply] at hnode
    | _ => cases htouch
  · rcases (fs_exec (w := w) htouch).2 with hl | ⟨q, rfl, -, -, hq⟩
    · exact absurd (hl.symm.trans hdir) hnone
    · exact ⟨q, rfl, hq⟩

/-- **Inodes.**  A file that is at a path after a call was there before, was
created there by an open, or was renamed to there. -/
theorem file_exec {path : Path} {i : ℕ} (h : (exec o s w).2.1.fs.lookup path = some (.file i)) :
    s.fs.lookup path = some (.file i) ∨
      (∃ q, o = .openWrite q ∧ resolve path = resolve q ∧ i = s.fs.next) ∨
      ∃ source target, o = .rename source target ∧ resolve path = resolve target ∧
        s.fs.lookup source = some (.file i) := by
  by_cases htouch : o.Touches s path
  · cases o with
    | openWrite q =>
      rw [exec] at h
      cases hfs : s.fs.openWrite q with
      | error e => rw [hfs] at h; exact .inl h
      | ok r =>
        obtain ⟨file, fs'⟩ := r
        rw [hfs] at h
        rcases Fs.openWrite_spec hfs with ⟨rfl, -⟩ | ⟨-, rfl, -, he, -⟩
        · exact .inl h
        · have hnode := (congrFun he (resolve path)).symm.trans h
          rw [show resolve path = resolve q from htouch, Function.update_self] at hnode
          exact .inr (.inl ⟨q, rfl, htouch, (Node.file.inj (Option.some.inj hnode)).symm⟩)
    | writeAt =>
      rw [exec] at h
      split_ifs at h <;> exact .inl h
    | rename source target =>
      rw [exec] at h
      cases hfs : s.fs.rename source target with
      | error e => rw [hfs] at h; exact .inl h
      | ok fs' =>
        rw [hfs] at h
        obtain ⟨file, hi, -, -, ⟨-, rfl⟩ | ⟨-, -, he⟩⟩ := Fs.rename_spec hfs
        · exact .inl h
        · have hnode := (congrFun he (resolve path)).symm.trans h
          by_cases ht : resolve path = resolve target
          · rw [ht, Function.update_self] at hnode
            obtain rfl := Node.file.inj (Option.some.inj hnode)
            exact .inr (.inr ⟨source, target, rfl, ht, hi⟩)
          · rw [Function.update_of_ne ht, Function.update_apply] at hnode
            split_ifs at hnode
            exact .inl hnode
    | _ => cases htouch
  · rcases (fs_exec (w := w) htouch).2 with hl | ⟨q, -, -, hdir, -⟩
    · exact .inl (hl.symm.trans h)
    · exact absurd (hdir.symm.trans h) (by simp)

theorem next_exec : s.fs.next ≤ (exec o s w).2.1.fs.next := by
  cases o with
  | createDirAll q =>
    rw [exec]
    cases hfs : s.fs.createDirAll q with
    | error e => exact le_rfl
    | ok fs' => exact (Fs.createDirAll_spec hfs).2.1
  | openWrite q =>
    rw [exec]
    cases hfs : s.fs.openWrite q with
    | error e => exact le_rfl
    | ok r =>
      rcases Fs.openWrite_spec hfs with ⟨he, -⟩ | ⟨-, -, hnext, -⟩
      · exact (congrArg Fs.next he).ge
      · exact hnext ▸ Nat.le_succ _
  | rename source target =>
    rw [exec]
    cases hfs : s.fs.rename source target with
    | error e => exact le_rfl
    | ok fs' =>
      obtain ⟨-, -, -, hnext, -⟩ := Fs.rename_spec hfs
      exact hnext.ge
  | writeAt => rw [exec]; split_ifs <;> exact le_rfl
  | _ => rw [tree_exec rfl]

/-- Operations use the supply of UUIDs up, from the front. -/
theorem uuids_exec (k : ℕ) : ∃ j, (exec o s w).2.1.uuids k = s.uuids j := by
  cases o with
  | newUuid => exact ⟨k + 1, rfl⟩
  | recvExact | writeAt =>
    rw [exec]
    split_ifs <;> exact ⟨k, rfl⟩
  | createDirAll q =>
    rw [exec]
    cases s.fs.createDirAll q <;> exact ⟨k, rfl⟩
  | openWrite q =>
    rw [exec]
    cases s.fs.openWrite q <;> exact ⟨k, rfl⟩
  | rename source target =>
    rw [exec]
    cases s.fs.rename source target <;> exact ⟨k, rfl⟩
  | insertTransfer row files =>
    rw [exec]
    cases s.manifest.insertTransfer row files <;> exact ⟨k, rfl⟩
  | replaceChunk row =>
    rw [exec]
    cases s.manifest.replaceChunk row <;> exact ⟨k, rfl⟩
  | _ => exact ⟨k, rfl⟩

theorem uuids_run {ε α : Type} (p : Io ε α) (sw : Store × Wire) (k : ℕ) :
    ∃ j, (p.run handler sw).2.1.uuids k = sw.1.uuids j := by
  induction p generalizing sw with
  | ret a => exact ⟨k, rfl⟩
  | fail e => exact ⟨k, rfl⟩
  | call o rest ih =>
    obtain ⟨j, hj⟩ := ih _ (handler o sw).2
    obtain ⟨i, hi⟩ := uuids_exec (o := o) (s := sw.1) (w := sw.2) j
    exact ⟨i, hj.trans hi⟩

theorem lookup_of_opened {q : Path} {file : ℕ} (h : (exec (.openWrite q) s w).1 = .ok file) :
    (exec (.openWrite q) s w).2.1.fs.lookup q = some (.file file) := by
  rw [exec] at h ⊢
  cases hfs : s.fs.openWrite q with
  | error e => rw [hfs] at h; cases h
  | ok r =>
    rw [hfs] at h
    obtain rfl := Except.ok.inj h
    exact (Fs.contents_openWrite_writeAt 0 [] hfs).2.2

end exec

end NightBridge.Native
