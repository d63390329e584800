/-
# The inbox as it is listed

`list_inbox_entries` of `crates/daemon/src/api/inbox.rs` answers the gRPC call,
and `inbox_entries` of `api/http.rs` the HTTP request.  Both walk through the
directory, pass over every name that ends in `.incoming`, which is meant for the
staging directory, and over what is no file, and sort the rest by name.  A
received file may have such a name too: the two receivers accept
`photo.incoming` (`received_not_listed`).

A listing is taken while no call is under way.  `Directory` is what `read_dir`
finds then: the names of the directory, in any order.
-/

import NightBridge.Daemon.Inbox
import NightBridge.LocalSend.Writer
import NightBridge.Native.Finished

namespace NightBridge.Daemon

open Data Effect

/-! ### Names that end in `.incoming` -/

section names

theorem endsWith_incoming_iff (name : String) : endsWith name ".incoming" = true ↔
    fileExtension name = some "incoming" ∨ name = ".incoming" :=
  endsWith_iff_fileExtension (show "incoming" ≠ "" by decide)
    (show '.' ∉ "incoming".toList by decide) name

/-- A number in brackets before the extension keeps the extension. -/
theorem endsWith_numbered {front extension : String} (h : '.' ∉ extension.toList) :
    endsWith (front ++ ")." ++ extension) ".incoming" = true ↔ extension = "incoming" := by
  have hdot : front ++ ")." ++ extension = front ++ ")" ++ "." ++ extension := by
    rw [show ")." = ")" ++ "." from rfl, ← String.append_assoc]
  have hsuffix : ".incoming" = "." ++ "incoming" := rfl
  rw [hdot, hsuffix]
  exact endsWith_extension_iff h (show '.' ∉ "incoming".toList by decide)

theorem endsWith_bracket (front : String) : endsWith (front ++ ")") ".incoming" = false := by
  rw [← Bool.not_eq_true, endsWith, List.isSuffixOf_iff_suffix]
  rintro ⟨rest, h⟩
  have hlast := congrArg List.getLast? h
  rw [List.getLast?_append, String.toList_append, List.getLast?_append,
    show ".incoming".toList.getLast? = some 'g' from rfl, show ")".toList.getLast? = some ')' from rfl,
    Option.some_or, Option.some_or, Option.some.injEq] at hlast
  exact absurd hlast (by decide)

theorem endsWith_numberedName (name : String) (index : ℕ) :
    endsWith (Native.numberedName name index) ".incoming" = true ↔
      fileExtension name = some "incoming" := by
  unfold Native.numberedName
  cases h : fileExtension name with
  | none => simp [endsWith_bracket]
  | some extension => rw [endsWith_numbered (not_mem_of_fileExtension h), Option.some.injEq]

theorem endsWith_suffixedName (name : String) (suffix : ℕ) :
    endsWith (LocalSend.suffixedName name suffix) ".incoming" = true ↔
      fileExtension name = some "incoming" := by
  unfold LocalSend.suffixedName
  cases h : fileExtension name with
  | none => simp [endsWith_bracket]
  | some extension => rw [endsWith_numbered (not_mem_of_fileExtension h), Option.some.injEq]

/-- **Numbering keeps the extension**: of the names that are tried for a file,
but for that of the staging directory, all end in `.incoming` or none does. -/
theorem endsWith_of_mem {accepted name : String} {numbered : ℕ → String} {indices : List ℕ}
    (hnumbered : ∀ index, endsWith (numbered index) ".incoming" = true ↔
      fileExtension accepted = some "incoming")
    (h : name ∈ accepted :: indices.map numbered) (hne : name ≠ ".incoming") :
    endsWith name ".incoming" = true ↔ fileExtension accepted = some "incoming" := by
  rcases List.mem_cons.mp h with rfl | h
  · rw [endsWith_incoming_iff, or_iff_left hne]
  · obtain ⟨index, -, rfl⟩ := List.mem_map.mp h
    exact hnumbered index

theorem endsWith_candidate {accepted name : String} (h : name ∈ Native.candidateNames accepted)
    (hne : name ≠ ".incoming") :
    endsWith name ".incoming" = true ↔ fileExtension accepted = some "incoming" :=
  endsWith_of_mem (endsWith_numberedName accepted) h hne

theorem endsWith_tried {accepted name : String} (h : name ∈ LocalSend.triedNames accepted)
    (hne : name ≠ ".incoming") :
    endsWith name ".incoming" = true ↔ fileExtension accepted = some "incoming" :=
  endsWith_of_mem (endsWith_suffixedName accepted) h hne

end names

/-! ### The two listings -/

/-- `InboxEntry`, and `InboxEntryDto`. -/
structure InboxEntry where
  fileName : String
  path : Path
  size : ℕ
  modifiedUnixSeconds : ℤ
  deriving DecidableEq

/-- What `read_dir` finds in a directory: its names, in any order. -/
structure Directory (fs : Fs) (dir : Path) where
  names : List String
  nodup : names.Nodup
  mem_iff : ∀ name, name ∈ names ↔ NormalName name ∧ (fs.lookup (dir ++ [name])).isSome = true

/-- What a listing makes of one name, when it passes over the names that
`hidden` says.  `modified` is the time a file was changed, in seconds of the
epoch, if there is one. -/
def inboxEntry (hidden : String → Bool) (fs : Fs) (inboxDir : Path) (modified : String → Option ℕ)
    (name : String) : Option InboxEntry :=
  if hidden name then none
  else (fs.contents (inboxDir ++ [name])).map fun bytes =>
    ⟨name, resolve (inboxDir ++ [name]), bytes.length, Native.asI64 ((modified name).getD 0)⟩

def listEntries (hidden : String → Bool) (fs : Fs) (inboxDir : Path) (modified : String → Option ℕ)
    (names : List String) : Except IoError (List InboxEntry) :=
  match fs.lookup inboxDir with
  | none => .ok []
  | some (.file _) => .error .notADirectory
  | some .dir =>
    .ok ((names.filterMap (inboxEntry hidden fs inboxDir modified)).insertionSort
      fun left right => left.fileName ≤ right.fileName)

def listInboxEntries : Fs → Path → (String → Option ℕ) → List String →
    Except IoError (List InboxEntry) :=
  listEntries fun fileName => endsWith fileName ".incoming"

def inboxEntries : Fs → Path → (String → Option ℕ) → List String → Except IoError (List InboxEntry) :=
  listEntries fun fileName => fileName = ".incoming" || endsWith fileName ".incoming"

theorem inboxEntries_eq : inboxEntries = listInboxEntries := by
  have hhidden : (fun fileName => decide (fileName = ".incoming") || endsWith fileName ".incoming") =
      fun fileName => endsWith fileName ".incoming" := by
    funext fileName
    by_cases h : fileName = ".incoming"
    · subst h
      decide
    · simp [h]
  rw [inboxEntries, listInboxEntries, hhidden]

section listing

variable {fs : Fs} {inboxDir : Path} {modified : String → Option ℕ} {hidden : String → Bool}

theorem listEntries_of_dir (hdir : fs.lookup inboxDir = some .dir) (names : List String) :
    listEntries hidden fs inboxDir modified names =
      .ok ((names.filterMap (inboxEntry hidden fs inboxDir modified)).insertionSort
        fun left right => left.fileName ≤ right.fileName) := by
  rw [listEntries, hdir]

theorem mem_listEntries {names : List String} {entries : List InboxEntry} {entry : InboxEntry}
    (h : listEntries hidden fs inboxDir modified names = .ok entries) (hentry : entry ∈ entries) :
    ∃ name ∈ names, inboxEntry hidden fs inboxDir modified name = some entry := by
  rw [listEntries] at h
  split at h
  · obtain rfl := Except.ok.inj h
    cases hentry
  · cases h
  · obtain rfl := Except.ok.inj h
    rw [List.mem_insertionSort, List.mem_filterMap] at hentry
    exact hentry

theorem inboxEntry_eq_some {name : String} {entry : InboxEntry}
    (h : inboxEntry hidden fs inboxDir modified name = some entry) :
    hidden name = false ∧ entry.fileName = name ∧ entry.path = resolve (inboxDir ++ [name]) ∧
      fs.contents (inboxDir ++ [name]) ≠ none := by
  rw [inboxEntry] at h
  split_ifs at h with hhidden
  obtain ⟨bytes, hbytes, rfl⟩ := Option.map_eq_some_iff.mp h
  exact ⟨by simpa using hhidden, rfl, rfl, by simp [hbytes]⟩

theorem map_fileName_filterMap (names : List String) :
    (names.filterMap (inboxEntry hidden fs inboxDir modified)).map InboxEntry.fileName =
      names.filter fun name => (inboxEntry hidden fs inboxDir modified name).isSome := by
  induction names with
  | nil => rfl
  | cons name names ih =>
    cases h : inboxEntry hidden fs inboxDir modified name with
    | none => simp [h, ih]
    | some entry => simp [h, ih, (inboxEntry_eq_some h).2.1]

/-- **The order of the directory does not show**: two listings have the same
names. -/
theorem map_fileName_listEntries (dir dir' : Directory fs inboxDir) :
    (listEntries hidden fs inboxDir modified dir.names).map (·.map InboxEntry.fileName) =
      (listEntries hidden fs inboxDir modified dir'.names).map (·.map InboxEntry.fileName) := by
  have hperm : dir.names.Perm dir'.names := by
    rw [List.perm_ext_iff_of_nodup dir.nodup dir'.nodup]
    intro name
    rw [dir.mem_iff, dir'.mem_iff]
  have hsorted : ∀ names : List String,
      ((names.filterMap (inboxEntry hidden fs inboxDir modified)).insertionSort
        fun left right => left.fileName ≤ right.fileName).map InboxEntry.fileName =
      (names.filter fun name => (inboxEntry hidden fs inboxDir modified name).isSome).insertionSort
        (· ≤ ·) := by
    intro names
    rw [List.map_insertionSort (s := (· ≤ ·)) _ _ _ fun _ _ _ _ => Iff.rfl, map_fileName_filterMap]
  rcases Fs.lookup_eq_dir_or_file_or_none fs inboxDir with hnone | hdir | ⟨file, hfile⟩
  · rw [listEntries, listEntries, hnone]
  · rw [listEntries_of_dir hdir, listEntries_of_dir hdir]
    refine congrArg Except.ok ((hsorted _).trans (Eq.trans ?_ (hsorted _).symm))
    refine List.Perm.eq_of_pairwise' (List.pairwise_insertionSort (· ≤ ·) _)
      (List.pairwise_insertionSort (· ≤ ·) _) ?_
    exact (List.perm_insertionSort _ _).trans
      ((hperm.filter _).trans (List.perm_insertionSort _ _).symm)
  · rw [listEntries, listEntries, hfile]

/-- **Nothing that is staged is listed.** -/
theorem not_staged_of_mem (dir : Directory fs inboxDir) {entries : List InboxEntry}
    (h : listInboxEntries fs inboxDir modified dir.names = .ok entries) {entry : InboxEntry}
    (hentry : entry ∈ entries) : ¬ resolve (LocalSend.incomingDir inboxDir) <+: entry.path := by
  obtain ⟨name, hname, heq⟩ := mem_listEntries h hentry
  obtain ⟨hhidden, -, hpath, -⟩ := inboxEntry_eq_some heq
  rw [hpath]
  refine (LocalSend.outside_name ((dir.mem_iff name).mp hname).1 ?_).2.2
  rintro rfl
  exact absurd hhidden (by decide)

end listing

/-! ### Files that were received -/

/-- A file that a receiver has published: the name it accepted, and where the
file is. -/
structure Publication where
  accepted : String
  target : Path
  bytes : Bytes

/-- What `finish_transfer` publishes: the `i`th file of the transfer is the
`i`th it renames. -/
def finishedFiles [Primitives] (receiver : Native.NativeTransferReceiver) (t : String) (s : Native.Store)
    (w : Native.Wire) : List Publication :=
  List.zipWith (fun file move =>
      ⟨trim file.fileName, move.2, (s.fs.contents move.1).getD []⟩)
    (Native.filesOf s.manifest t)
    (Native.renames ((receiver.finishTransfer t).calls Native.handler (s, w)))

/-- The stores after some successful calls of the two receivers, one after
another, and the files they have published that nobody has removed.  Between the
calls anything may happen; a file remains in the list as long as it is left
alone. -/
inductive Received [Primitives] (receiver : Native.NativeTransferReceiver) :
    Stores → List Publication → Prop
  | start (s : Stores) : Received receiver s []
  | upload {s : Stores} {files : List Publication} {authorized : LocalSend.AuthorizedUpload}
      {body rest : LocalSend.Body} {written : LocalSend.WrittenUpload} {after : LocalSend.Store}
      (before : Received receiver s files)
      (run : (LocalSend.InboxWriter.writeUpload ⟨receiver.inboxDir⟩ authorized).run LocalSend.handler
        (s.localSend, body) = (.ok written, (after, rest))) :
      Received receiver ⟨{ s.native with fs := after.fs }, after, rfl⟩
        (⟨authorized.fileMeta.fileName, written.path, body.bytes⟩ :: files)
  | finish {s : Stores} {files : List Publication} {t : String} {w w' : Native.Wire}
      {after : Native.Store} (before : Received receiver s files)
      (run : (receiver.finishTransfer t).run Native.handler (s.native, w) = (.ok (), (after, w'))) :
      Received receiver ⟨after, { s.localSend with fs := after.fs }, rfl⟩
        (finishedFiles receiver t s.native w ++ files)
  | other {s s' : Stores} {files files' : List Publication} (before : Received receiver s files)
      (kept : ∀ f ∈ files', f ∈ files ∧
        s'.native.fs.contents f.target = s.native.fs.contents f.target) :
      Received receiver s' files'

/-- The file is in the inbox, under a name that was tried for it. -/
structure Publication.There (inboxDir : Path) (fs : Fs) (f : Publication) : Prop where
  named : ∃ name, f.target = inboxDir ++ [name] ∧ NormalName name ∧ name ≠ ".incoming" ∧
    (endsWith name ".incoming" = true ↔ fileExtension f.accepted = some "incoming")
  contents : fs.contents f.target = some f.bytes

section received

variable {inboxDir : Path} {fs fs' : Fs} {f : Publication}

theorem Publication.There.kept (h : f.There inboxDir fs)
    (hkept : fs'.contents f.target = fs.contents f.target) : f.There inboxDir fs' :=
  ⟨h.named, hkept.trans h.contents⟩

theorem exists_moved {files : List Native.ManifestStore.ManifestFile} {moves : List (Path × Path)}
    (h : List.Forall₂ (Native.Moved inboxDir) files moves) {move : Path × Path} (hmove : move ∈ moves) :
    ∃ file, Native.Moved inboxDir file move := by
  induction h with
  | nil => cases hmove
  | cons hmoved _ ih =>
    rcases List.mem_cons.mp hmove with rfl | hmove
    · exact ⟨_, hmoved⟩
    · exact ih hmove

variable [Primitives]

theorem Publication.There.upload (h : f.There inboxDir fs) {bytes : Bytes} {target : String}
    {written : LocalSend.WrittenUpload}
    (hpublished : LocalSend.Published inboxDir fs fs' bytes target written) : f.There inboxDir fs' := by
  refine h.kept ?_
  obtain ⟨name, hname, hnormal, hne, -⟩ := h.named
  have hview : fs.view f.target = some (some f.bytes) := Fs.view_eq_file_iff.mpr h.contents
  have hsame : fs'.view f.target = fs.view f.target := by
    refine hpublished.frame _ (hname ▸ LocalSend.outside_name hnormal hne) fun heq => ?_
    have hfree := hpublished.free
    rw [Fs.view, Fs.lookup, ← heq, ← Fs.lookup, ← Fs.view, hview] at hfree
    cases hfree
  rw [h.contents, ← Fs.view_eq_file_iff, hsame, hview]

theorem there_of_upload {fileName target : String} {bytes : Bytes} {written : LocalSend.WrittenUpload}
    (htried : target ∈ LocalSend.triedNames fileName)
    (hpublished : LocalSend.Published inboxDir fs fs' bytes target written) :
    Publication.There inboxDir fs' ⟨fileName, written.path, bytes⟩ where
  named := ⟨target, by rw [hpublished.written_eq], hpublished.normal, hpublished.notIncoming,
    endsWith_tried htried hpublished.notIncoming⟩
  contents := by
    rw [hpublished.written_eq]
    exact Fs.view_eq_file_iff.mp hpublished.there

variable {receiver : Native.NativeTransferReceiver} {t : String} {s after : Native.Store}
  {w w' : Native.Wire}

/-- `finish_transfer` leaves the files of the inbox alone. -/
theorem Publication.There.finish (h : f.There receiver.inboxDir s.fs)
    (hrun : (receiver.finishTransfer t).run Native.handler (s, w) = (.ok (), (after, w'))) :
    f.There receiver.inboxDir after.fs := by
  obtain ⟨fs₁, hmake, hrenames, hall⟩ := Native.renamed_of_finished receiver hrun
  obtain ⟨name, hname, -⟩ := h.named
  have hcontents : fs₁.contents f.target = some f.bytes :=
    (Fs.contents_createDirAll hmake _).trans h.contents
  obtain ⟨file, hfile, -⟩ := Fs.lookup_of_contents hcontents
  have hapart : ∀ m ∈ Native.renames ((receiver.finishTransfer t).calls Native.handler (s, w)),
      resolve f.target ≠ resolve m.1 := by
    intro m hm
    obtain ⟨-, dir, part, -, rfl, -⟩ := exists_moved hall hm
    rw [hname]
    exact Native.resolve_name_ne_partPath _ name dir part
  refine h.kept ?_
  rw [(hrenames.kept hapart (by rw [hfile]; rfl)).2.2, hcontents, h.contents]

/-- **What `finish_transfer` publishes is there.** -/
theorem there_of_finish
    (hrun : (receiver.finishTransfer t).run Native.handler (s, w) = (.ok (), (after, w')))
    (hf : f ∈ finishedFiles receiver t s w) : f.There receiver.inboxDir after.fs := by
  obtain ⟨fs₁, hmake, hrenames, hall⟩ := Native.renamed_of_finished receiver hrun
  rw [finishedFiles, ← List.map_uncurry_zip_eq_zipWith, List.mem_map] at hf
  obtain ⟨⟨file, move⟩, hpair, rfl⟩ := hf
  have hmoves := (List.of_mem_zip hpair).2
  obtain ⟨dir, part, name, rfl, htried, hnormal, hne⟩ := (List.forall₂_iff_zip.mp hall).2 hpair
  -- no name in the inbox is a staging path
  obtain ⟨-, -, hmoved⟩ := hrenames.moved fun m hm m' hm' => by
    obtain ⟨-, dir, part, -, rfl, -⟩ := exists_moved hall hm
    obtain ⟨-, -, -, name, rfl, -⟩ := exists_moved hall hm'
    exact (Native.resolve_name_ne_partPath _ name dir part).symm
  obtain ⟨hsome, -, -, hcontents⟩ := hmoved _ hmoves
  refine ⟨⟨name, rfl, hnormal, hne, endsWith_candidate htried hne⟩, ?_⟩
  rw [Fs.contents_createDirAll hmake] at hcontents hsome
  obtain ⟨bytes, hbytes⟩ := Option.isSome_iff_exists.mp hsome
  have hgetD : (s.fs.contents (Native.NativeTransferReceiver.partPath receiver.inboxDir dir part)).getD [] =
      bytes := by
    rw [hbytes]
    rfl
  exact hcontents.trans (hbytes.trans (congrArg some hgetD.symm))

/-- **The files of a run are there**, whatever came after them. -/
theorem Received.there {s : Stores} {files : List Publication} (h : Received receiver s files) :
    ∀ f ∈ files, f.There receiver.inboxDir s.native.fs := by
  induction h with
  | start s => exact fun f hf => absurd hf List.not_mem_nil
  | @upload s files authorized body rest written after before run ih =>
    obtain ⟨-, target, htried, hpublished⟩ := LocalSend.published_of_ok _ authorized body run
    rw [s.same] at hpublished
    intro f hf
    rcases List.mem_cons.mp hf with rfl | hf
    · exact there_of_upload htried hpublished
    · exact (ih f hf).upload hpublished
  | finish before run ih =>
    intro f hf
    rcases List.mem_append.mp hf with hf | hf
    · exact there_of_finish run hf
    · exact (ih f hf).finish run
  | other before kept ih => exact fun f hf => (ih f (kept f hf).1).kept (kept f hf).2

end received

/-! ### Received files in the listings -/

/-- The listing has an entry for the file, with its size. -/
def Listed (inboxDir : Path) (listing : Except IoError (List InboxEntry)) (f : Publication) : Prop :=
  ∃ entries, listing = .ok entries ∧ ∃ entry ∈ entries, f.target = inboxDir ++ [entry.fileName] ∧
    entry.size = f.bytes.length

/-- **A file that is there is listed, unless its name is passed over.** -/
theorem Publication.There.listed_iff {inboxDir : Path} {fs : Fs} {f : Publication}
    (h : f.There inboxDir fs) (dir : Directory fs inboxDir) (modified : String → Option ℕ) :
    Listed inboxDir (listInboxEntries fs inboxDir modified dir.names) f ↔
      fileExtension f.accepted ≠ some "incoming" := by
  obtain ⟨name, hname, hnormal, -, hends⟩ := h.named
  have hcontents := h.contents
  rw [hname] at hcontents
  obtain ⟨file, hfile, -⟩ := Fs.lookup_of_contents hcontents
  rw [ne_eq, ← hends, Bool.not_eq_true]
  constructor
  · rintro ⟨entries, hentries, entry, hentry, htarget, -⟩
    obtain ⟨name', -, heq⟩ := mem_listEntries hentries hentry
    obtain ⟨hhidden, rfl, -⟩ := inboxEntry_eq_some heq
    obtain rfl : name = entry.fileName := by simpa [hname] using htarget
    exact hhidden
  · intro hvisible
    have hdir : fs.lookup inboxDir = some .dir := by
      refine fs.parent _ name ?_
      rw [← resolve_append_normal _ hnormal, ← Fs.lookup, hfile]
      rfl
    refine ⟨_, listEntries_of_dir hdir _, ?_⟩
    refine ⟨⟨name, resolve (inboxDir ++ [name]), f.bytes.length,
      Native.asI64 ((modified name).getD 0)⟩, ?_, hname, rfl⟩
    rw [List.mem_insertionSort, List.mem_filterMap]
    refine ⟨name, (dir.mem_iff name).mpr ⟨hnormal, by rw [hfile]; rfl⟩, ?_⟩
    simp [inboxEntry, hvisible, hcontents]

/-- **Received files in the listings.**  In every run of the two receivers, a
file that they have published and that nobody has removed is listed with its
size, by gRPC and by HTTP, exactly when the extension of the name it was
accepted under is not `incoming`.  Both listings have the same names, and
nothing in them is staged. -/
theorem received_listed_iff [Primitives] {receiver : Native.NativeTransferReceiver} {s : Stores}
    {files : List Publication} (h : Received receiver s files)
    (dir dir' : Directory s.native.fs receiver.inboxDir) (modified : String → Option ℕ) :
    (∀ f ∈ files,
        (Listed receiver.inboxDir
            (listInboxEntries s.native.fs receiver.inboxDir modified dir.names) f ↔
          fileExtension f.accepted ≠ some "incoming") ∧
        (Listed receiver.inboxDir (inboxEntries s.native.fs receiver.inboxDir modified dir'.names) f ↔
          fileExtension f.accepted ≠ some "incoming")) ∧
      (listInboxEntries s.native.fs receiver.inboxDir modified dir.names).map
          (·.map InboxEntry.fileName) =
        (inboxEntries s.native.fs receiver.inboxDir modified dir'.names).map
          (·.map InboxEntry.fileName) ∧
      ∀ entries,
        listInboxEntries s.native.fs receiver.inboxDir modified dir.names = .ok entries ∨
          inboxEntries s.native.fs receiver.inboxDir modified dir'.names = .ok entries →
        ∀ entry ∈ entries, ¬ resolve (LocalSend.incomingDir receiver.inboxDir) <+: entry.path := by
  rw [inboxEntries_eq]
  refine ⟨fun f hf => ?_, map_fileName_listEntries dir dir', ?_⟩
  · exact ⟨(h.there f hf).listed_iff dir modified, (h.there f hf).listed_iff dir' modified⟩
  · rintro entries (hentries | hentries) entry hentry
    · exact not_staged_of_mem dir hentries hentry
    · exact not_staged_of_mem dir' hentries hentry

/-- The inbox after the first upload to an empty tree. -/
def firstUpload [Primitives] {inboxDir : Path} {fs' : Fs} {bytes : Bytes} {target : String}
    {written : LocalSend.WrittenUpload}
    (h : LocalSend.Published inboxDir .empty fs' bytes target written) : Directory fs' inboxDir where
  names := [".incoming", target]
  nodup := by simp [h.notIncoming.symm]
  mem_iff name := by
    rw [← Fs.exists?, Fs.exists?_eq_view, List.mem_pair]
    constructor
    · rintro (rfl | rfl)
      · exact ⟨by decide, by rw [← LocalSend.incomingDir, h.incoming]; rfl⟩
      · exact ⟨h.normal, by rw [h.there]; rfl⟩
    · rintro ⟨hnormal, hsome⟩
      by_contra hnot
      obtain ⟨hne, hother⟩ := not_or.mp hnot
      have hempty : Fs.empty.view (inboxDir ++ [name]) = none := by
        rw [Fs.view_eq_none_iff, Fs.lookup, resolve_append_normal _ hnormal]
        simp [Fs.empty]
      rw [h.frame _ (LocalSend.outside_name hnormal hne)
        fun heq => hother (Native.resolve_name_inj h.normal heq), hempty] at hsome
      cases hsome

/-- A file of one byte with this name is uploaded. -/
def oneByteUpload (fileName : String) : LocalSend.AuthorizedUpload :=
  ⟨"session", "file-1", "token", { LocalSend.oneByteFile with fileName := fileName }⟩

/-- A successful upload is a run. -/
theorem exists_received (fileName : String)
    (hok : ((@LocalSend.InboxWriter.writeUpload .sample ⟨["inbox"]⟩ (oneByteUpload fileName)).run
      LocalSend.handler (.fresh 60, ⟨[[2]], false⟩)).1.isOk = true) :
    ∃ (s : Stores) (f : Publication) (_ : Directory s.native.fs ["inbox"]),
      @Received .sample Native.sampleReceiver s [f] ∧ f.accepted = fileName ∧ f.bytes = [2] := by
  let _ := Primitives.sample
  generalize hrun : (LocalSend.InboxWriter.writeUpload ⟨["inbox"]⟩ (oneByteUpload fileName)).run
    LocalSend.handler (.fresh 60, ⟨[[2]], false⟩) = result at hok
  obtain ⟨r, after, rest⟩ := result
  cases r with
  | error e => cases hok
  | ok written =>
    obtain ⟨-, target, -, hpublished⟩ := LocalSend.published_of_ok _ _ _ hrun
    have hstart : Received Native.sampleReceiver ⟨.fresh, .fresh 60, rfl⟩ [] := .start _
    exact ⟨⟨{ Native.Store.fresh with fs := after.fs }, after, rfl⟩, ⟨fileName, written.path, [2]⟩,
      firstUpload hpublished, hstart.upload hrun, rfl, rfl⟩

/-- `a.txt` is listed. -/
theorem received_listed_iff_text :
    ∃ (s : Stores) (f : Publication) (dir : Directory s.native.fs ["inbox"]),
      @Received .sample Native.sampleReceiver s [f] ∧ f.accepted = "a.txt" ∧
      Listed ["inbox"] (listInboxEntries s.native.fs ["inbox"] (fun _ => none) dir.names) f ∧
      Listed ["inbox"] (inboxEntries s.native.fs ["inbox"] (fun _ => none) dir.names) f := by
  obtain ⟨s, f, dir, hreceived, haccepted, -⟩ := exists_received "a.txt" (by decide +kernel)
  have hvisible : fileExtension f.accepted ≠ some "incoming" := by
    rw [haccepted]
    decide
  obtain ⟨hgrpc, hhttp⟩ := (@received_listed_iff .sample _ _ _ hreceived dir dir fun _ => none).1 f
    (List.mem_singleton.mpr rfl)
  exact ⟨s, f, dir, hreceived, haccepted, hgrpc.mpr hvisible, hhttp.mpr hvisible⟩

/-- **A received file that is not listed**: `photo.incoming` is accepted and
published, and both listings take it for the staging directory. -/
theorem received_not_listed :
    ∃ (s : Stores) (f : Publication) (dir : Directory s.native.fs ["inbox"]),
      @Received .sample Native.sampleReceiver s [f] ∧ f.accepted = "photo.incoming" ∧
      s.native.fs.contents f.target = some [2] ∧
      ¬ Listed ["inbox"] (listInboxEntries s.native.fs ["inbox"] (fun _ => none) dir.names) f ∧
      ¬ Listed ["inbox"] (inboxEntries s.native.fs ["inbox"] (fun _ => none) dir.names) f := by
  obtain ⟨s, f, dir, hreceived, haccepted, hbytes⟩ :=
    exists_received "photo.incoming" (by decide +kernel)
  have hthere := @Received.there .sample _ _ _ hreceived f (List.mem_singleton.mpr rfl)
  have hhidden : fileExtension f.accepted = some "incoming" := by
    rw [haccepted]
    decide
  have hnot := mt (hthere.listed_iff dir fun _ => none).mp (not_not.mpr hhidden)
  rw [inboxEntries_eq]
  exact ⟨s, f, dir, hreceived, haccepted, hbytes ▸ hthere.contents, hnot, hnot⟩

end NightBridge.Daemon
