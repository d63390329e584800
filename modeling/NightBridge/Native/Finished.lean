/-
# What a finished transfer has renamed

`finish_transfer` renames the files of the transfer one by one, in the order of
their ids.  `renamed_of_finished` says what its renames are when it returns,
from any store: the `i`th moves a staged file to a name that
`available_target_path` tries for the `i`th file, and that was free.
-/

import Mathlib.Data.List.Forall2
import NightBridge.Native.Race

namespace NightBridge.Native

open Data Effect NativeTransferReceiver ManifestStore

/-! ### Calls that only look -/

theorem renames_append (hist hist' : Calls) : renames (hist ++ hist') = renames hist ++ renames hist' :=
  List.filterMap_append

section looking

variable {t : String} {ε α β : Type} {s : Store} {w : Wire} {Q : Calls → α → Prop} {p : Io ε α}

theorem fs_of_looks (h : p.wp (fun _ o => Looks t o) Q []) :
    (p.run handler (s, w)).2.1.fs = s.fs := by
  refine Prog.run_inv_of_wp (I := fun sw : Store × Wire => sw.1.fs = s.fs) h (fun _ o sw ho hfs => ?_) rfl
  cases o with
  | nowUnix | newUuid | read | metadata | selectState | selectSize | selectFiles
  | selectFilesOrdered | selectRanges | updateState => exact hfs
  | _ => exact ho.elim

theorem renames_of_looks (h : p.wp (fun _ o => Looks t o) Q []) :
    renames (p.calls handler (s, w)) = [] := by
  refine List.filterMap_eq_nil_iff.mpr fun e he => ?_
  obtain ⟨_, ho⟩ := Prog.mem_calls_of_wp h he
  obtain ⟨o, r⟩ := e
  cases o with
  | rename => exact ho.elim
  | _ => rfl

theorem renames_bind_of_looks (h : p.wp (fun _ o => Looks t o) Q []) {f : α → Io ε β} {a : α}
    {s' : Store} {w' : Wire} (hrun : p.run handler (s, w) = (.ok a, (s', w'))) :
    renames ((p >>= f).calls handler (s, w)) = renames ((f a).calls handler (s', w')) := by
  rw [Prog.calls_bind_ok hrun, renames_append, renames_of_looks h, List.nil_append]

end looking

/-! ### The renames -/

section finished

variable {t : String} {s s' : Store} {w w' : Wire}

theorem run_allCovered_same (rows : List FileRow) :
    ∃ ok, (allCovered t rows).run handler (s, w) = (.ok ok, (s, w)) := by
  induction rows with
  | nil => exact ⟨true, rfl⟩
  | cons row rows ih =>
    obtain ⟨ranges, hranges⟩ :
        ∃ ranges, (verifiedRanges t row.fileId).run handler (s, w) = (.ok ranges, (s, w)) := ⟨_, rfl⟩
    rw [allCovered, Prog.run_bind_ok _ hranges]
    split_ifs
    · exact ih
    · exact ⟨false, rfl⟩

theorem run_transferComplete_same (t : String) (s : Store) (w : Wire) :
    ∃ ok, (transferComplete t).run handler (s, w) = (.ok ok, (s, w)) := by
  obtain ⟨ok, hrun⟩ := run_allCovered_same (t := t) (s := s) (w := w) (s.manifest.selectFiles t)
  refine ⟨ok && !(s.manifest.selectFiles t).isEmpty, ?_⟩
  rw [transferComplete, Prog.run_bind_ok _ (show (selectFiles t).run handler (s, w) =
    (.ok (s.manifest.selectFiles t), (s, w)) from rfl), Prog.run_bind_ok _ hrun]
  rfl

/-- What `finish_transfer` does to a file: it moves it from where it was staged
to a name that is tried for it. -/
def Moved (inboxDir : Path) (file : ManifestFile) (move : Path × Path) : Prop :=
  ∃ dir part name, move = (partPath inboxDir dir part, inboxDir ++ [name]) ∧
    name ∈ candidateNames (trim file.fileName) ∧ NormalName name ∧ name ≠ ".incoming"

theorem mem_candidateNames {taken : String → Bool} {fileName name : String}
    (h : pickName taken fileName = some name) : name ∈ candidateNames (trim fileName) := by
  unfold pickName at h
  split at h
  · cases h
  · rename_i safeName hsafe
    rw [← (safeFileName_spec hsafe).1]
    exact List.mem_of_find?_eq_some h

theorem lookup_incoming_of_staged (fs : Fs) {inboxDir : Path} {dir part : String}
    (h : (fs.lookup (partPath inboxDir dir part)).isSome = true) :
    fs.lookup (inboxDir ++ [".incoming"]) = some .dir := by
  obtain ⟨rest, hrest⟩ := resolve_partPath_below inboxDir dir part
  have hsplit : resolve inboxDir ++ ".incoming" :: (rest ++ [part ++ ".part"]) =
      resolve inboxDir ++ [".incoming"] ++ (rest ++ [part ++ ".part"]) := by simp
  rw [Fs.lookup, hrest, hsplit] at h
  rcases fs.entries_above h with hnil | hdir
  · simp at hnil
  · rw [Fs.lookup, resolve_append_normal _ (by decide)]
    exact hdir

variable (self : NativeTransferReceiver)

/-- **One file is published.** -/
theorem renamed_of_publishFile {file : ManifestFile} (hdir : s.fs.lookup self.inboxDir = some .dir)
    (hrun : (self.publishFile t file).run handler (s, w) = (.ok (), (s', w'))) :
    ∃ move, renames ((self.publishFile t file).calls handler (s, w)) = [move] ∧
      s.fs.lookup move.2 = none ∧ s.fs.rename move.1 move.2 = .ok s'.fs ∧
      Moved self.inboxDir file move ∧ s'.fs.lookup self.inboxDir = some .dir := by
  obtain ⟨dir, part, uuids, hpath, -⟩ := run_incomingFilePath self (s := s) (w := w) t file.fileId
  rw [publishFile, Prog.run_bind_ok _ hpath] at hrun
  rw [publishFile, renames_bind_of_looks
    (wp_incomingFilePath (t := t) (fun _ _ h => h) self file.fileId) hpath]
  rcases run_availableTargetPath self.inboxDir file.fileName { s with uuids } w with
    ⟨name, hname, htarget⟩ | ⟨-, e, htarget⟩
  swap
  · rw [Prog.run_bind_error _ htarget] at hrun
    cases hrun
  rw [Prog.run_bind_ok _ htarget] at hrun
  rw [renames_bind_of_looks
    (wp_availableTargetPath (t := t) (fun _ _ h => h) self.inboxDir file.fileName) htarget]
  cases hren : s.fs.rename (partPath self.inboxDir dir part) (self.inboxDir ++ [name]) with
  | error e =>
    simp [renameFile, handler, exec, onFs, hren, orIo, Except.mapError] at hrun
  | ok fs' =>
    obtain rfl : s' = { s with uuids, fs := fs' } := by
      simp [renameFile, handler, exec, onFs, hren, orIo, Except.mapError] at hrun
      exact hrun.1.symm
    have hfree := lookup_of_free (pickName_free hname)
    have hnormal := normalName_of_free hdir (pickName_free hname)
    obtain ⟨rest, hrest⟩ := resolve_partPath_below self.inboxDir dir part
    obtain ⟨file', hfile', -⟩ := Fs.rename_spec hren
    refine ⟨(partPath self.inboxDir dir part, self.inboxDir ++ [name]), ?_, hfree, hren,
      ⟨dir, part, name, rfl, mem_candidateNames hname, hnormal, ?_⟩, ?_⟩
    · simp [renameFile, Prog.calls, renames, handler, exec, onFs, hren, orIo, Except.mapError]
    · rintro rfl
      have hincoming := lookup_incoming_of_staged (s.fs) (by rw [hfile']; rfl)
      rw [hincoming] at hfree
      cases hfree
    · -- the inbox is neither the staged file nor its new name
      have hframe := (Fs.contents_rename hren (resolve_name_ne_partPath _ name dir part)).2.2.2
      rw [(hframe self.inboxDir (fun h => ?_) fun h => ?_).1, hdir]
      · rw [hrest] at h
        simp at h
      · rw [resolve_append_normal _ hnormal] at h
        simp at h

/-- **The loop of renames**: one for each file, in order. -/
theorem renamed_of_publishFiles (files : List ManifestFile)
    (hdir : s.fs.lookup self.inboxDir = some .dir)
    (hrun : (Prog.each files (self.publishFile t)).run handler (s, w) = (.ok (), (s', w'))) :
    s.fs.Renames (renames ((Prog.each files (self.publishFile t)).calls handler (s, w))) s'.fs ∧
      List.Forall₂ (Moved self.inboxDir) files
        (renames ((Prog.each files (self.publishFile t)).calls handler (s, w))) := by
  induction files generalizing s w with
  | nil =>
    obtain ⟨-, hs⟩ := Prod.mk.inj hrun
    obtain rfl : s = s' := congrArg Prod.fst hs
    exact ⟨.nil _, .nil⟩
  | cons file files ih =>
    rw [Prog.each_cons] at hrun ⊢
    obtain ⟨_, ⟨s₁, w₁⟩, hfile, hrest⟩ := (Prog.run_bind_eq_ok _).mp hrun
    obtain ⟨⟨source, target⟩, hmove, hfree, hren, hmoved, hdir₁⟩ :=
      renamed_of_publishFile self hdir hfile
    obtain ⟨hrenames, hall⟩ := ih hdir₁ hrest
    rw [Prog.calls_bind_ok hfile, renames_append, hmove, List.singleton_append]
    exact ⟨.cons hfree hren hrenames, .cons hmoved hall⟩

theorem createDirAll_of_run {path : Path}
    (hrun : (createDirAll path).run handler (s, w) = (.ok (), (s', w'))) :
    s.fs.createDirAll path = .ok s'.fs ∧ renames ((createDirAll path).calls handler (s, w)) = [] := by
  cases hmake : s.fs.createDirAll path with
  | error e => simp [createDirAll, handler, exec, onFs, hmake, orIo, Except.mapError] at hrun
  | ok fs' =>
    simp [createDirAll, handler, exec, onFs, hmake, orIo, Except.mapError] at hrun
    refine ⟨by rw [← hrun.1], ?_⟩
    simp [createDirAll, Prog.calls, renames, handler, exec, onFs, hmake, orIo, Except.mapError]

theorem wp_verifyFile_looks [Primitives] (file : ManifestFile) (hist : Calls) :
    (self.verifyFile t file).wp (fun _ o => Looks t o) (fun _ _ => True) hist := by
  refine Prog.wp_bind_of (wp_incomingFilePath (fun _ _ h => h) self file.fileId) fun h path _ _ => ?_
  refine ⟨trivial, fun r => Prog.wp_bind.mpr (wp_orIo.mpr fun bytes _ => ?_)⟩
  have hfail : ∀ message, (do
      setState t .failed
      transferError message : Io NativeError Unit).wp (fun _ o => Looks t o) (fun _ _ => True)
        (h ++ [⟨.read path, r⟩]) :=
    fun message => Prog.wp_bind_of (wp_setState (fun _ _ h => h) .failed) fun _ _ _ _ => trivial
  refine Prog.wp_ite (fun _ => hfail _) fun _ => ?_
  cases file.blake3 with
  | none => trivial
  | some expected => exact Prog.wp_ite (fun _ => hfail _) fun _ => trivial

/-- **What a finished transfer has renamed**: each of its files, in order. -/
theorem renamed_of_finished [Primitives]
    (hrun : (self.finishTransfer t).run handler (s, w) = (.ok (), (s', w'))) :
    ∃ fs₁, s.fs.createDirAll self.inboxDir = .ok fs₁ ∧
      fs₁.Renames (renames ((self.finishTransfer t).calls handler (s, w))) s'.fs ∧
      List.Forall₂ (Moved self.inboxDir) (filesOf s.manifest t)
        (renames ((self.finishTransfer t).calls handler (s, w))) := by
  obtain ⟨complete, hcomplete⟩ := run_transferComplete_same t s w
  rw [finishTransfer, Prog.run_bind_ok _ hcomplete] at hrun
  rw [finishTransfer, renames_bind_of_looks (wp_transferComplete (t := t) (fun _ _ h => h) t) hcomplete]
  cases complete with
  | false =>
    obtain ⟨_, _, -, herror⟩ := (Prog.run_bind_eq_ok _).mp hrun
    cases herror
  | true =>
    have hfiles : (files t).run handler (s, w) = (.ok (filesOf s.manifest t), (s, w)) := rfl
    have hlooks : (Prog.each (filesOf s.manifest t) (self.verifyFile t)).wp (fun _ o => Looks t o)
        (fun _ _ => True) [] :=
      Prog.wp_each (I := fun _ => True) (fun h file _ _ _ => wp_verifyFile_looks self file h) trivial
    simp only [Bool.not_true, Bool.false_eq_true, if_false] at hrun ⊢
    rw [Prog.run_bind_ok _ hfiles] at hrun
    rw [Prog.calls_bind_ok hfiles, renames_append,
      show renames ((files t).calls handler (s, w)) = [] from rfl, List.nil_append]
    obtain ⟨_, ⟨s₁, w₁⟩, hverify, hrun⟩ := (Prog.run_bind_eq_ok _).mp hrun
    rw [renames_bind_of_looks hlooks hverify]
    have hfs₁ : s₁.fs = s.fs := by
      have h := fs_of_looks (s := s) (w := w) hlooks
      rwa [hverify] at h
    obtain ⟨_, ⟨s₂, w₂⟩, hmake, hrun⟩ := (Prog.run_bind_eq_ok _).mp hrun
    obtain ⟨hfs₂, hnone⟩ := createDirAll_of_run hmake
    rw [Prog.calls_bind_ok hmake, renames_append, hnone, List.nil_append]
    obtain ⟨_, ⟨s₃, w₃⟩, hpublish, hset⟩ := (Prog.run_bind_eq_ok _).mp hrun
    have hdone : renames ((setState t .completed).calls handler (s₃, w₃)) = [] :=
      renames_of_looks (wp_setState (fun _ _ h => h) .completed)
    have hfs₃ : s'.fs = s₃.fs := by
      have h := fs_of_looks (s := s₃) (w := w₃) (wp_setState (t := t) (fun _ _ h => h) .completed)
      rwa [hset] at h
    rw [Prog.calls_bind_ok hpublish, renames_append, hdone, List.append_nil, hfs₃]
    obtain ⟨hrenames, hall⟩ := renamed_of_publishFiles self _ (Fs.createDirAll_spec hfs₂).2.2.1 hpublish
    exact ⟨s₂.fs, hfs₁ ▸ hfs₂, hrenames, hall⟩

end finished

end NightBridge.Native
