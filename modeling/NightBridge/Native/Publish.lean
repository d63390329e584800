/-
# Publishing a transfer

What `finish_transfer` does when it runs alone: every file is read and checked
(`run_verifyFiles`), names are picked and files renamed, one by one
(`run_publishFiles`), and the state is set.

`pickName` is the name `available_target_path` picks, given which names of the
inbox are taken.  It may be one that the rename refuses, so `chooseName` is the
name if there can be an entry with it; `allocate` chooses the names of a list of
files, each taking its name before the next is chosen.  The loop of renames
succeeds exactly when the names can be allocated and no two files are staged at
one path; otherwise it stops after the files before the first failure have been
renamed.
-/

import NightBridge.Data.Renames
import NightBridge.Native.Staging

namespace NightBridge.Native

open Data Effect NativeTransferReceiver ManifestStore

/-! ### Picking a name -/

/-- The names `available_target_path` tries, in order. -/
def candidateNames (safeName : String) : List String :=
  safeName :: (List.range' 1 9999).map (numberedName safeName)

/-- The name `available_target_path` picks when `taken` says which names exist. -/
def pickName (taken : String → Bool) (fileName : String) : Option String :=
  match safeFileName fileName with
  | .error _ => none
  | .ok safeName => (candidateNames safeName).find? fun name => !taken name

/-- The name a file is published under.  What is picked may have a NUL or be too
long, which `metadata` answers like a name that is free; the rename then
fails. -/
def chooseName (taken : String → Bool) (fileName : String) : Option String :=
  (pickName taken fileName).filter nameFits

/-- The names chosen for a list of files, each taken before the next is chosen. -/
def allocate (taken : String → Bool) : List String → Option (List String)
  | [] => some []
  | fileName :: rest =>
    (chooseName taken fileName).bind fun name =>
      (allocate (fun m => m = name || taken m) rest).map (name :: ·)

/-- Which names of a directory exist. -/
def takenIn (fs : Fs) (inboxDir : Path) (name : String) : Bool := fs.exists? (inboxDir ++ [name])

theorem pickName_free {taken : String → Bool} {fileName name : String}
    (h : pickName taken fileName = some name) : taken name = false := by
  unfold pickName at h
  split at h
  · cases h
  · simpa using List.find?_some h

theorem length_allocate {taken : String → Bool} {fileNames names : List String}
    (h : allocate taken fileNames = some names) : names.length = fileNames.length := by
  induction fileNames generalizing taken names with
  | nil =>
    obtain rfl : [] = names := by simpa [allocate] using h
    rfl
  | cons fileName rest ih =>
    simp only [allocate, Option.bind_eq_some_iff, Option.map_eq_some_iff] at h
    obtain ⟨name, -, names', h', rfl⟩ := h
    rw [List.length_cons, List.length_cons, ih h']

theorem run_firstFree (inboxDir : Path) (safeName : String) (s : Store) (w : Wire) (is : List ℕ) :
    (∃ name, (is.map (numberedName safeName)).find? (fun n => !takenIn s.fs inboxDir n) = some name ∧
      (firstFree inboxDir safeName is).run handler (s, w) = (.ok (inboxDir ++ [name]), (s, w))) ∨
    ((is.map (numberedName safeName)).find? (fun n => !takenIn s.fs inboxDir n) = none ∧
      ∃ e, (firstFree inboxDir safeName is).run handler (s, w) = (.error e, (s, w))) := by
  induction is with
  | nil => exact .inr ⟨rfl, _, rfl⟩
  | cons i is ih =>
    have hrun : (firstFree inboxDir safeName (i :: is)).run handler (s, w) =
        (if takenIn s.fs inboxDir (numberedName safeName i) then firstFree inboxDir safeName is
          else pure (inboxDir ++ [numberedName safeName i])).run handler (s, w) := rfl
    rw [List.map_cons, List.find?_cons, hrun]
    cases takenIn s.fs inboxDir (numberedName safeName i) with
    | true => exact ih
    | false => exact .inl ⟨_, rfl, rfl⟩

/-- **`available_target_path` picks the first free name**, and changes nothing. -/
theorem run_availableTargetPath (inboxDir : Path) (fileName : String) (s : Store) (w : Wire) :
    (∃ name, pickName (takenIn s.fs inboxDir) fileName = some name ∧
      (availableTargetPath inboxDir fileName).run handler (s, w) =
        (.ok (inboxDir ++ [name]), (s, w))) ∨
    (pickName (takenIn s.fs inboxDir) fileName = none ∧
      ∃ e, (availableTargetPath inboxDir fileName).run handler (s, w) = (.error e, (s, w))) := by
  unfold pickName availableTargetPath
  cases safeFileName fileName with
  | error e => exact .inr ⟨rfl, e, rfl⟩
  | ok safeName =>
    have hrun : ((do
          let safeName ← Prog.ofExcept (.ok safeName)
          let candidate := inboxDir ++ [safeName]
          if ← metadataIsOk candidate then firstFree inboxDir safeName (List.range' 1 9999)
          else pure candidate : Io NativeError Path)).run handler (s, w) =
        (if takenIn s.fs inboxDir safeName then firstFree inboxDir safeName (List.range' 1 9999)
          else pure (inboxDir ++ [safeName])).run handler (s, w) := rfl
    simp only [candidateNames, List.find?_cons]
    rw [hrun]
    cases takenIn s.fs inboxDir safeName with
    | true => exact run_firstFree inboxDir safeName s w _
    | false => exact .inl ⟨_, rfl, rfl⟩

/-! ### The inbox while files are renamed into it -/

section inbox

variable {fs fs' : Fs} {inboxDir : Path}

theorem takenIn_of_not_normal (hdir : fs.lookup inboxDir = some .dir) {name : String}
    (h : ¬ NormalName name) : takenIn fs inboxDir name = true := by
  rcases dot_or_dotdot h with rfl | rfl
  · have : resolve (inboxDir ++ ["."]) = resolve inboxDir := by simp [resolve]
    rw [takenIn, Fs.exists?, Fs.lookup, this, ← Fs.lookup, hdir]
    rfl
  · have hup : resolve (inboxDir ++ [".."]) = (resolve inboxDir).dropLast := by simp [resolve]
    have : fs.entries (resolve inboxDir).dropLast = some .dir := by
      by_cases hnil : resolve inboxDir = []
      · rw [hnil]
        exact fs.root
      · refine fs.parent _ ((resolve inboxDir).getLastD "") ?_
        rw [dropLast_append_getLastD hnil, ← Fs.lookup, hdir]
        rfl
    rw [takenIn, Fs.exists?, Fs.lookup, hup, this]
    rfl

theorem normalName_of_free (hdir : fs.lookup inboxDir = some .dir) {name : String}
    (h : takenIn fs inboxDir name = false) : NormalName name := by
  by_contra hn
  rw [takenIn_of_not_normal hdir hn] at h
  cases h

theorem lookup_of_free {name : String} (h : takenIn fs inboxDir name = false) :
    fs.lookup (inboxDir ++ [name]) = none := by
  simpa [takenIn, Fs.exists?] using h

theorem resolve_name_inj {n m : String} (hn : NormalName n)
    (h : resolve (inboxDir ++ [m]) = resolve (inboxDir ++ [n])) : m = n := by
  rw [resolve_append_normal _ hn] at h
  by_cases hm : NormalName m
  · rw [resolve_append_normal _ hm] at h
    simpa using h
  · have hlen := length_resolve_of_not_normal inboxDir hm
    rw [h, List.length_append] at hlen
    simp at hlen

/-- **One file renamed into the inbox**: the inbox stays, exactly its name is
taken in addition. -/
theorem inbox_rename (hdir : fs.lookup inboxDir = some .dir) {d f name : String}
    (hd : NormalName d) (hfree : takenIn fs inboxDir name = false)
    (h : fs.rename (partPath inboxDir d f) (inboxDir ++ [name]) = .ok fs') :
    fs'.lookup inboxDir = some .dir ∧
      takenIn fs' inboxDir = fun m => m = name || takenIn fs inboxDir m := by
  have hn := normalName_of_free hdir hfree
  have hne := resolve_name_ne_partPath inboxDir name d f
  obtain ⟨-, hsome, -, hframe⟩ := Fs.contents_rename h hne
  constructor
  · rw [(hframe inboxDir ?_ ?_).1, hdir]
    · intro he
      have := congrArg List.length he
      rw [resolve_partPath _ hd] at this
      simp at this
    · intro he
      have := congrArg List.length he
      rw [resolve_append_normal _ hn] at this
      simp at this
  · funext m
    by_cases hm : m = name
    · subst hm
      simpa [takenIn, Fs.exists?] using hsome
    · have hl := (hframe (inboxDir ++ [m]) (resolve_name_ne_partPath inboxDir m _ f)
        fun he => hm (resolve_name_inj hn he)).1
      simp [takenIn, Fs.exists?, hl, hm]

end inbox

/-! ### Only entries of the inbox are picked -/

theorem mem_fileStem {name : String} {c : Char} (h : c ∈ (fileStem name).toList) : c ∈ name.toList := by
  unfold fileStem at h
  split at h
  · rename_i dot c' cs hdrop
    split_ifs at h
    · exact h
    · rw [String.toList_ofList, List.mem_reverse] at h
      have hmem : c ∈ name.toList.reverse.dropWhile (· ≠ '.') := hdrop ▸ List.mem_cons_of_mem _ h
      exact List.mem_reverse.mp ((List.dropWhile_sublist _).subset hmem)
  · exact h

theorem slash_not_mem_numberedName {name : String} (h : '/' ∉ name.toList) (index : ℕ) :
    '/' ∉ (numberedName name index).toList := by
  have hstem : '/' ∉ (stemOrFile name).toList := by
    unfold stemOrFile
    split_ifs
    · decide
    · exact fun hc => h (mem_fileStem hc)
  have hindex : '/' ∉ Nat.toDigits 10 index := by
    intro hc
    have hdigit := Nat.isDigit_of_mem_toDigits (by decide) (by decide) hc
    cases hdigit
  rw [numberedName]
  cases hext : fileExtension name with
  | none => simp [hstem, hindex]
  | some ext =>
    have hafter : '/' ∉ ext.toList := fun hc => h (mem_of_fileExtension hext hc)
    simp [hstem, hindex, hafter]

theorem safeFileName_spec {fileName safeName : String} (h : safeFileName fileName = .ok safeName) :
    safeName = trim fileName ∧ safeName ≠ "" ∧ '/' ∉ safeName.toList := by
  rw [safeFileName] at h
  split_ifs at h with hunsafe hblank
  obtain rfl := Except.ok.inj h
  refine ⟨rfl, hblank, fun hc => hunsafe (.inl ?_)⟩
  exact List.contains_iff_mem.mpr (mem_of_mem_trim hc)

theorem pickName_spec {taken : String → Bool} {fileName name : String}
    (h : pickName taken fileName = some name) : name ≠ "" ∧ '/' ∉ name.toList := by
  unfold pickName at h
  split at h
  · cases h
  · rename_i safeName hsafe
    obtain ⟨-, hne, hslash⟩ := safeFileName_spec hsafe
    rcases List.mem_cons.mp (List.mem_of_find?_eq_some h) with rfl | hmem
    · exact ⟨hne, hslash⟩
    · obtain ⟨index, -, rfl⟩ := List.mem_map.mp hmem
      refine ⟨fun hempty => ?_, slash_not_mem_numberedName hslash index⟩
      have hparen : '(' ∈ (numberedName safeName index).toList := by
        rw [numberedName]
        cases fileExtension safeName <;> simp
      rw [hempty] at hparen
      cases hparen

/-- **A file is published inside the inbox.**  For every name a peer can send,
`available_target_path` fails or returns an entry of the inbox that does not
exist: a single component that is neither empty nor `.` nor `..` and has no
separator.  The checks run before the name is trimmed, so `" .."` passes them,
but `inbox/..` exists and the next name is `file (1)`. -/
theorem availableTargetPath_inside (inboxDir : Path) (fileName : String) (s : Store) (w : Wire)
    (hdir : s.fs.lookup inboxDir = some .dir) :
    (∃ e, (availableTargetPath inboxDir fileName).run handler (s, w) = (.error e, (s, w))) ∨
      ∃ name, (availableTargetPath inboxDir fileName).run handler (s, w) =
          (.ok (inboxDir ++ [name]), (s, w)) ∧
        name ≠ "" ∧ name ≠ "." ∧ name ≠ ".." ∧ '/' ∉ name.toList ∧
        resolve (inboxDir ++ [name]) = resolve inboxDir ++ [name] ∧
        s.fs.lookup (inboxDir ++ [name]) = none := by
  rcases run_availableTargetPath inboxDir fileName s w with ⟨name, hname, hrun⟩ | ⟨-, e, hrun⟩
  · have hfree := pickName_free hname
    have hnormal := normalName_of_free hdir hfree
    obtain ⟨hne, hslash⟩ := pickName_spec hname
    exact .inr ⟨name, hrun, hne, hnormal.1, hnormal.2, hslash, resolve_append_normal _ hnormal,
      lookup_of_free hfree⟩
  · exact .inl ⟨e, hrun⟩

/-- A store with an empty inbox, to run the model with. -/
def inboxStore : Store := ((createDirAll ["inbox"] : Io NativeError Unit).run handler (.fresh, .fresh)).2.1

/-- `" .."` is published as `file (1)`. -/
theorem availableTargetPath_inside_dots :
    ∃ name, (availableTargetPath ["inbox"] " ..").run handler (inboxStore, .fresh) =
        (.ok ["inbox", name], (inboxStore, .fresh)) ∧
      name = "file (1)" ∧ resolve ["inbox", name] = ["inbox", name] := by
  have hrun : ((availableTargetPath ["inbox"] " ..").run handler (inboxStore, .fresh)).1 =
      .ok ["inbox", "file (1)"] := by decide +kernel
  rcases availableTargetPath_inside ["inbox"] " .." inboxStore .fresh (by decide +kernel) with
    ⟨e, herror⟩ | ⟨name, hok, -, -, -, -, hresolve, -⟩
  · rw [herror] at hrun
    cases hrun
  · rw [hok] at hrun
    have hname : ["inbox"] ++ [name] = ["inbox", "file (1)"] := Except.ok.inj hrun
    exact ⟨name, hok, by simpa using hname, hresolve⟩

/-! ### The checks -/

/-- What the first loop of `finish_transfer` accepts: the ids are stable and the
staged file has the declared size and digest. -/
def Verified [Primitives] (fs : Fs) (inboxDir : Path) (t : String) (file : ManifestFile) : Prop :=
  Stable t ∧ Stable file.fileId ∧ ∃ bytes, fs.contents (part inboxDir t file.fileId) = some bytes ∧
    bytes.length = file.size ∧ ∀ expected, file.blake3 = some expected → blake3Hex bytes = expected

/-- No staged file has a future UUID in its path. -/
def FreshUuids (inboxDir : Path) (s : Store) : Prop :=
  ∀ k dir file, dir = s.uuids k ∨ file = s.uuids k →
    s.fs.contents (partPath inboxDir dir file) = none

/-- The staging paths of the files need no UUID. -/
def StableIds (t : String) (files : List ManifestFile) : Prop :=
  Stable t ∧ ∀ file ∈ files, Stable file.fileId

/-- What a refused `finish_transfer` may change: the state of its transfer, to
one other than `Completed`, and the supplies. -/
def Refused (t : String) (s s' : Store) : Prop :=
  s'.fs = s.fs ∧ s'.trust = s.trust ∧ (s'.manifest = s.manifest ∨
    ∃ state now, state ≠ .completed ∧ s'.manifest = (s.manifest.updateState t state now).2)

/-- `set_state` to anything but `Completed` writes the row of the transfer. -/
theorem run_setState_ne (t : String) {state : TransferState} (hne : state ≠ .completed) (s : Store)
    (w : Wire) : (setState t state).run handler (s, w) =
      (if (s.manifest.transfers.find? t).isSome then .ok () else .error (.manifest "unknown transfer"),
        ({ s with
          manifest := (s.manifest.updateState t state (s.clock 0)).2
          clock := advance s.clock }, w)) := by
  cases h : (s.manifest.transfers.find? t).isSome <;>
    simp [setState, hne, nowUnix, updateState, handler, exec, orManifest, Except.mapError,
      ManifestDb.updateState, h, manifestError]

theorem run_setState_completed {s : Store} (hwf : s.manifest.WellFormed) {t : String}
    (hc : s.manifest.Complete t) (w : Wire) : (setState t .completed).run handler (s, w) =
      (.ok (), ({ s with
        manifest := (s.manifest.updateState t .completed (s.clock 0)).2
        clock := advance s.clock }, w)) := by
  obtain ⟨ok, hrun, hok⟩ := run_transferComplete (w := w) hwf t
  obtain rfl := hok.mpr hc
  obtain ⟨fr, hfr, rfl⟩ := hc.1
  have hsome := hwf.files fr hfr
  rw [setState, if_pos rfl, Prog.run_bind_ok _ hrun]
  simp [nowUnix, updateState, handler, exec, orManifest, Except.mapError, ManifestDb.updateState,
    hsome]

section verify

variable (self : NativeTransferReceiver) {s : Store} {w : Wire}

/-- The staging path, whatever the ids: stable, or with a future UUID in it. -/
theorem run_incomingFilePath (t f : String) :
    ∃ d g uuids, (self.incomingFilePath t f).run handler (s, w) =
        (.ok (partPath self.inboxDir d g), ({ s with uuids := uuids }, w)) ∧
      ((Stable t ∧ Stable f ∧ d = cleanComponent t ∧ g = cleanComponent f) ∨
        ((¬ Stable t ∨ ¬ Stable f) ∧ ∃ k, d = s.uuids k ∨ g = s.uuids k)) := by
  unfold incomingFilePath safeComponent Stable
  by_cases ht : cleanComponent t = "" <;> by_cases hf : cleanComponent f = ""
  · exact ⟨s.uuids 0, s.uuids 1, advance (advance s.uuids), by
      simp [ht, hf, newUuid, handler, exec, advance], .inr ⟨.inl (by simp [ht]), 0, .inl rfl⟩⟩
  · exact ⟨s.uuids 0, cleanComponent f, advance s.uuids, by
      simp [ht, hf, newUuid, handler, exec], .inr ⟨.inl (by simp [ht]), 0, .inl rfl⟩⟩
  · exact ⟨cleanComponent t, s.uuids 0, advance s.uuids, by
      simp [ht, hf, newUuid, handler, exec], .inr ⟨.inr (by simp [hf]), 0, .inr rfl⟩⟩
  · exact ⟨_, _, s.uuids, by simp [ht, hf], .inl ⟨ht, hf, rfl, rfl⟩⟩

variable [Primitives] {t : String}

theorem run_verifyFile {file : ManifestFile} (h : Verified s.fs self.inboxDir t file) :
    (self.verifyFile t file).run handler (s, w) = (.ok (), (s, w)) := by
  obtain ⟨ht, hf, bytes, hc, hlen, hhash⟩ := h
  have hread : s.fs.read (partPath self.inboxDir (cleanComponent t) (cleanComponent file.fileId)) =
      .ok bytes := Fs.read_eq_ok_iff.mpr hc
  rw [verifyFile, incomingFilePath_eq self ht hf]
  cases hb : file.blake3 with
  | none => simp [readFile, handler, exec, orIo, Except.mapError, hread, hlen]
  | some expected =>
    simp [readFile, handler, exec, orIo, Except.mapError, hread, hlen, hhash expected hb]

theorem run_verifyFile_error {file : ManifestFile}
    (hu : FreshUuids self.inboxDir s ∨ (Stable t ∧ Stable file.fileId))
    (h : ¬ Verified s.fs self.inboxDir t file) :
    ∃ e s', (self.verifyFile t file).run handler (s, w) = (.error e, (s', w)) ∧
      Refused t s s' := by
  obtain ⟨d, g, uuids, hpath, hdg⟩ := run_incomingFilePath self (s := s) (w := w) t file.fileId
  have fails : ∀ message, ∃ e s', (do
        setState t .failed
        transferError message : Io NativeError Unit).run handler ({ s with uuids := uuids }, w) =
      (.error e, (s', w)) ∧ Refused t s s' := by
    intro message
    have hset := run_setState_ne t (show TransferState.failed ≠ .completed by decide)
      { s with uuids := uuids } w
    split_ifs at hset
    · exact ⟨_, _, Prog.run_bind_ok _ hset, rfl, rfl, .inr ⟨.failed, _, by decide, rfl⟩⟩
    · exact ⟨_, _, Prog.run_bind_error _ hset, rfl, rfl, .inr ⟨.failed, _, by decide, rfl⟩⟩
  rw [verifyFile, Prog.run_bind_ok _ hpath]
  cases hread : s.fs.read (partPath self.inboxDir d g) with
  | error e =>
    exact ⟨.io e, { s with uuids := uuids }, by
      simp [readFile, handler, exec, orIo, Except.mapError, hread], rfl, rfl, .inl rfl⟩
  | ok bytes =>
    have hc := Fs.read_eq_ok_iff.mp hread
    rcases hdg with ⟨ht, hf, rfl, rfl⟩ | ⟨hnot, k, hk⟩
    · rw [Prog.run_bind_ok _ (show (readFile _).run handler ({ s with uuids := uuids }, w) =
        (.ok bytes, ({ s with uuids := uuids }, w)) by
          simp [readFile, handler, exec, orIo, Except.mapError, hread])]
      split_ifs with hlen
      · exact fails _
      · cases hb : file.blake3 with
        | none =>
          exact absurd ⟨ht, hf, bytes, hc, not_not.mp hlen, by simp [hb]⟩ h
        | some expected =>
          by_cases hhash : blake3Hex bytes = expected
          · refine absurd ⟨ht, hf, bytes, hc, not_not.mp hlen, ?_⟩ h
            simpa [hb] using hhash
          · simpa only [ne_eq, hhash, not_false_eq_true, if_true] using fails _
    · rcases hu with hu | ⟨ht, hf⟩
      · rw [hu k d g hk] at hc
        cases hc
      · exact absurd hnot (by simp [ht, hf])

theorem run_verifyFiles {files : List ManifestFile}
    (h : ∀ file ∈ files, Verified s.fs self.inboxDir t file) :
    (Prog.each files (self.verifyFile t)).run handler (s, w) = (.ok (), (s, w)) := by
  induction files with
  | nil => rfl
  | cons file files ih =>
    rw [Prog.each_cons, Prog.run_bind_ok _ (run_verifyFile self (h file (by simp)))]
    exact ih fun file' h' => h file' (by simp [h'])

theorem run_verifyFiles_error (files : List ManifestFile)
    (hu : FreshUuids self.inboxDir s ∨ StableIds t files)
    (h : ¬ ∀ file ∈ files, Verified s.fs self.inboxDir t file) :
    ∃ e s', (Prog.each files (self.verifyFile t)).run handler (s, w) = (.error e, (s', w)) ∧
      Refused t s s' := by
  induction files with
  | nil => exact absurd (by simp) h
  | cons file files ih =>
    by_cases hv : Verified s.fs self.inboxDir t file
    · rw [Prog.each_cons, Prog.run_bind_ok _ (run_verifyFile self hv)]
      refine ih (hu.imp_right fun hs => ⟨hs.1, fun f hf => hs.2 f (by simp [hf])⟩) fun h' => h ?_
      simpa [hv] using h'
    · obtain ⟨e, s', hrun, hr⟩ := run_verifyFile_error self (w := w)
        (hu.imp_right fun hs => ⟨hs.1, hs.2 file (by simp)⟩) hv
      exact ⟨e, s', by rw [Prog.each_cons, Prog.run_bind_error _ hrun], hr⟩

end verify

end NightBridge.Native
