/-
# An upload on its own

What `InboxWriter::write_upload` does when nobody else touches the inbox, from
any tree, for any upload and however its body comes in.

| step | statement |
| --- | --- |
| the body is copied, read by read | `run_copyBody` |
| a free name is looked for | `run_nextAvailableTarget` |
| up to the rename | `run_stage` |
| the whole call | `run_writeUpload` |

The call returns when the name is one normal component without a backslash, the
body has the declared size and digest, and one of the names it tries is free
(`writeUpload_iff`).  A backslash is an ordinary character of a name here, and
refused all the same (`backslash_refused`).
-/

import NightBridge.LocalSend.Integrity

namespace NightBridge.LocalSend

open Data Effect

/-! ### The inbox around the staged file -/

/-- A path inside the inbox and outside its staging directory. -/
def Outside (inboxDir path : Path) : Prop :=
  resolve inboxDir <+: resolve path ∧ resolve path ≠ resolve inboxDir ∧
    ¬ resolve (incomingDir inboxDir) <+: resolve path

section outside

variable {inboxDir path : Path}

theorem resolve_incomingDir (inboxDir : Path) :
    resolve (incomingDir inboxDir) = resolve inboxDir ++ [".incoming"] :=
  resolve_append_normal inboxDir (by decide)

theorem outside_name {name : String} (hname : NormalName name) (hne : name ≠ ".incoming") :
    Outside inboxDir (inboxDir ++ [name]) := by
  rw [Outside, resolve_incomingDir, resolve_append_normal _ hname]
  refine ⟨List.prefix_append _ _, by simp, fun h => ?_⟩
  rw [List.prefix_append_right_inj] at h
  exact hne (List.cons_prefix_cons.mp h).1.symm

theorem Outside.not_above (h : Outside inboxDir path) :
    ¬ resolve path <+: resolve (incomingDir inboxDir) := by
  obtain ⟨⟨rest, hrest⟩, hne, hnot⟩ := h
  rw [resolve_incomingDir, ← hrest] at hnot ⊢
  rw [List.prefix_append_right_inj] at hnot ⊢
  intro habove
  cases rest with
  | nil => exact hne (by rw [← hrest, List.append_nil])
  | cons c rest =>
    obtain ⟨rfl, -⟩ := List.cons_prefix_cons.mp habove
    exact hnot (List.cons_prefix_cons.mpr ⟨rfl, List.nil_prefix⟩)

theorem Outside.ne_below {staged : Path} (h : Outside inboxDir path)
    (hstaged : Below (incomingDir inboxDir) staged) : resolve path ≠ resolve staged := by
  obtain ⟨name, rfl, hname⟩ := hstaged
  intro heq
  rw [resolve_append_normal _ hname] at heq
  exact h.2.2 (heq ▸ List.prefix_append _ _)

end outside

/-- `fs'` has the bytes staged under the name, and the inbox around them is as
in `fs`. -/
structure StagedAs (inboxDir : Path) (fs fs' : Fs) (name : String) (bytes : Bytes) : Prop where
  inbox : fs'.view inboxDir = some none
  incoming : fs'.view (incomingDir inboxDir) = some none
  staged : fs'.view (incomingDir inboxDir ++ [name]) = some (some bytes)
  frame : ∀ path, Outside inboxDir path → fs'.view path = fs.view path

/-! ### The body -/

/-- **The copying loop**, however the body is split into reads.  What it has
copied is in the file, never more than the declared size, and no other path has
changed.  It returns the whole body, or stops because the body is longer than
declared or could not be read. -/
theorem run_copyBody {size file : ℕ} {path : Path} (rounds : ℕ) {copied : Bytes} {s : Store}
    (b : Body) (hfile : s.fs.lookup path = some (.file file)) (hdata : s.fs.data file = copied)
    (hle : copied.length ≤ size) (hrounds : size < copied.length + rounds) :
    ∃ r fs' b' bytes, (copyBody size file rounds copied).run handler (s, b) =
        (r, ({ s with fs := fs' }, b')) ∧
      fs'.view path = some (some bytes) ∧ bytes.length ≤ size ∧
      (∀ q, resolve q ≠ resolve path → fs'.view q = s.fs.view q) ∧
      ((r = .ok bytes ∧ bytes = copied ++ b.bytes) ∨
        (∃ message, r = .error (.http message) ∧ size < (copied ++ b.bytes).length) ∨
        ∃ e, r = .error (.io e)) := by
  induction rounds generalizing copied s b with
  | zero => omega
  | succ rounds ih =>
    have hview : s.fs.view path = some (some copied) := by
      rw [Fs.view_eq_file_iff, Fs.contents_of_file hfile, hdata]
    cases hread : (Body.read 8192 b.broken b.frames).1 with
    | error e =>
      have hrun : (readBody 8192).run handler (s, b) =
          (.error (.io e), (s, (Body.read 8192 b.broken b.frames).2)) := by
        simp [readBody, handler, exec, orIo, Except.mapError, hread]
      exact ⟨_, s.fs, _, copied, Prog.run_bind_error _ hrun, hview, hle, fun _ _ => rfl,
        .inr (.inr ⟨e, rfl⟩)⟩
    | ok bytes =>
      have hrun : (readBody 8192).run handler (s, b) =
          (.ok bytes, (s, (Body.read 8192 b.broken b.frames).2)) := by
        simp [readBody, handler, exec, orIo, Except.mapError, hread]
      obtain ⟨hbytes, hend⟩ := Body.read_bytes (by decide) b.frames hread
      rw [copyBody, Prog.run_bind_ok _ hrun]
      by_cases hnil : bytes = []
      · -- the body has ended
        have hempty : b.bytes = [] := by
          rw [Body.bytes, ← hbytes, hnil, hend hnil]
          rfl
        rw [if_pos hnil]
        exact ⟨_, s.fs, _, copied, rfl, hview, hle, fun _ _ => rfl,
          .inl ⟨rfl, by rw [hempty, List.append_nil]⟩⟩
      · rw [if_neg hnil]
        have hlen : b.bytes.length = bytes.length +
            (Body.read 8192 b.broken b.frames).2.bytes.length := by
          rw [Body.bytes, ← hbytes, List.length_append]
        split_ifs with hlong
        · refine ⟨_, s.fs, _, copied, rfl, hview, hle, fun _ _ => rfl, .inr (.inl ⟨_, rfl, ?_⟩)⟩
          rw [List.length_append]
          omega
        · have hpos : 0 < bytes.length := List.length_pos_iff.mpr hnil
          have hnext : (s.fs.writeAt file copied.length bytes).data file = copied ++ bytes := by
            rw [← hdata, ← overwrite_length]
            simp [Fs.writeAt]
          obtain ⟨r, fs', b', written, hgo, hstaged, hfits, hframe, hcases⟩ :=
            ih (s := { s with fs := s.fs.writeAt file copied.length bytes })
              (Body.read 8192 b.broken b.frames).2 hfile hnext
              (by rw [List.length_append]; omega) (by rw [List.length_append]; omega)
          have hwhole : copied ++ bytes ++ (Body.read 8192 b.broken b.frames).2.bytes =
              copied ++ b.bytes := by
            rw [List.append_assoc, hbytes]
            rfl
          rw [hwhole] at hcases
          refine ⟨r, fs', b', written, hgo, hstaged, hfits, fun q hq => ?_, hcases⟩
          rw [hframe q hq]
          exact Fs.view_eq_of rfl (Fs.contents_writeAt_of_ne _ _ hfile hq)

/-- The body has the declared size, and the declared digest if there is one. -/
def Declared [Primitives] (fileMeta : FileMeta) (bytes : Bytes) : Prop :=
  bytes.length = fileMeta.size ∧ ∀ expected, fileMeta.sha256 = some expected →
    eqIgnoreAsciiCase expected (sha256Hex bytes) = true

theorem checkBody_of_declared [Primitives] {fileMeta : FileMeta} {bytes : Bytes}
    (h : Declared fileMeta bytes) : checkBody fileMeta bytes = .ok (sha256Hex bytes) := by
  obtain ⟨hsize, hsha⟩ := h
  rw [checkBody, if_neg (not_not.mpr hsize), if_neg]
  cases hexpected : fileMeta.sha256 with
  | none => simp
  | some expected => simp [hsha expected hexpected]

theorem checkBody_of_not_declared [Primitives] {fileMeta : FileMeta} {bytes : Bytes}
    (h : ¬ Declared fileMeta bytes) :
    ∃ e, checkBody fileMeta bytes = .error e ∧ ∀ failure, e ≠ .io failure := by
  rw [checkBody]
  by_cases hsize : bytes.length = fileMeta.size
  · rw [if_neg (not_not.mpr hsize)]
    cases hexpected : fileMeta.sha256 with
    | none => exact absurd ⟨hsize, by simp [hexpected]⟩ h
    | some expected =>
      cases hsha : eqIgnoreAsciiCase expected (sha256Hex bytes) with
      | true =>
        refine absurd ⟨hsize, fun other hother => ?_⟩ h
        rw [hexpected] at hother
        exact Option.some.inj hother ▸ hsha
      | false => exact ⟨.crypto "upload sha256 mismatch", by simp [hsha], fun _ he => by cases he⟩
  · rw [if_pos hsize]
    exact ⟨_, rfl, fun _ he => by cases he⟩

/-! ### The names -/

/-- The names `next_available_target` tries, in order. -/
def triedNames (fileName : String) : List String :=
  fileName :: (List.range' 1 (2 ^ 32 - 2)).map (suffixedName fileName)

/-- The name it takes: the first that is free, unless one before it can be no
name. -/
def firstFree (fs : Fs) (inboxDir : Path) (names : List String) : Option String :=
  (names.takeWhile nameFits).find? fun name => !fs.exists? (inboxDir ++ [name])

/-- What it answers: without a name, the failure of `try_exists`, or a panic
after the last. -/
def nextOf (fs : Fs) (inboxDir : Path) (names : List String) : Except LocalSendError Path :=
  match firstFree fs inboxDir names, names.findSome? nameError? with
  | some name, _ => .ok (inboxDir ++ [name])
  | none, some e => .error (.io (.os e))
  | none, none => .error .panicked

/-- **One name is tried.** -/
theorem run_tryName (inboxDir : Path) (name : String) (names : List String) (s : Store) (b : Body)
    {rest : Io Path} (h : rest.run handler (s, b) = (nextOf s.fs inboxDir names, (s, b))) :
    (do
      if ← tryExists (inboxDir ++ [name]) then rest else pure (inboxDir ++ [name]) : Io Path).run handler
        (s, b) = (nextOf s.fs inboxDir (name :: names), (s, b)) := by
  rw [nextOf, firstFree, List.takeWhile_cons, List.findSome?_cons, nameFits]
  cases hname : nameError? name with
  | some e =>
    have hfound : foundAt s.fs (inboxDir ++ [name]) = .error (.os e) := by
      rw [foundAt, List.getLastD_concat, hname]
    simp [tryExists, handler, exec, hfound, orIo, Except.mapError]
  | none =>
    have hfound : foundAt s.fs (inboxDir ++ [name]) = .ok (s.fs.exists? (inboxDir ++ [name])) := by
      rw [foundAt, List.getLastD_concat, hname]
    rw [Prog.run_bind_ok _ (show (tryExists (inboxDir ++ [name])).run handler (s, b) =
      (.ok (s.fs.exists? (inboxDir ++ [name])), (s, b)) by
        simp [tryExists, handler, exec, hfound, orIo, Except.mapError])]
    rw [Option.isNone_none, if_pos rfl, List.find?_cons]
    cases s.fs.exists? (inboxDir ++ [name]) with
    | true => exact h
    | false => rfl

theorem run_firstAvailable (inboxDir : Path) (fileName : String) (s : Store) (b : Body)
    (suffixes : List ℕ) : (firstAvailable inboxDir fileName suffixes).run handler (s, b) =
      (nextOf s.fs inboxDir (suffixes.map (suffixedName fileName)), (s, b)) := by
  induction suffixes with
  | nil => rfl
  | cons suffix rest ih => exact run_tryName inboxDir _ _ s b ih

/-- **The first free name is taken**; when there is none the call panics. -/
theorem run_nextAvailableTarget (inboxDir : Path) (fileName : String) (s : Store) (b : Body) :
    (nextAvailableTarget inboxDir fileName).run handler (s, b) =
      (nextOf s.fs inboxDir (triedNames fileName), (s, b)) :=
  run_tryName inboxDir fileName _ s b (run_firstAvailable inboxDir fileName s b _)

theorem firstFree_spec {fs : Fs} {inboxDir : Path} {names : List String} {target : String}
    (h : firstFree fs inboxDir names = some target) :
    target ∈ names ∧ nameFits target ∧ fs.view (inboxDir ++ [target]) = none := by
  have hmem := List.mem_of_find?_eq_some h
  have hfound := List.find?_some h
  rw [Fs.exists?_eq_view] at hfound
  exact ⟨(List.takeWhile_sublist _).subset hmem, List.mem_takeWhile_imp hmem, by simpa using hfound⟩

theorem taken_of_firstFree_eq_none {fs : Fs} {inboxDir : Path} {names : List String}
    (h : firstFree fs inboxDir names = none) (hfit : names.findSome? nameError? = none) {name : String}
    (hname : name ∈ names) : fs.view (inboxDir ++ [name]) ≠ none := by
  have hall : names.takeWhile nameFits = names := by
    rw [List.takeWhile_eq_self_iff]
    exact fun other hother => Option.isNone_iff_eq_none.mpr (List.findSome?_eq_none_iff.mp hfit other hother)
  rw [firstFree, hall, List.find?_eq_none] at h
  have htaken := h name hname
  rw [Fs.exists?_eq_view] at htaken
  simpa using htaken

theorem normalName_of_mem_triedNames {fileName name : String} (hname : PlainName fileName)
    (h : name ∈ triedNames fileName) : NormalName name := by
  rcases List.mem_cons.mp h with rfl | h
  · exact hname.2.2.2
  · obtain ⟨suffix, -, rfl⟩ := List.mem_map.mp h
    exact normalName_suffixedName fileName suffix

theorem run_safeIdentifier (value : String) (s : Store) :
    ∃ name uuids, ∀ fs b, (safeIdentifier value).run handler ({ s with fs }, b) =
      (.ok name, ({ s with fs, uuids }, b)) := by
  unfold safeIdentifier
  by_cases hempty : sanitized value = ""
  · exact ⟨s.uuids 0, fun k => s.uuids (k + 1), fun fs b => by rw [if_pos hempty]; rfl⟩
  · exact ⟨sanitized value, s.uuids, fun fs b => by rw [if_neg hempty]; rfl⟩

/-- The staged file gets its name from the two ids and the random numbers alone. -/
theorem run_incomingFileName (upload : AuthorizedUpload) (s : Store) :
    ∃ name uuids, NormalName name ∧ ∀ fs b, (incomingFileName upload).run handler ({ s with fs }, b) =
      (.ok name, ({ s with fs, uuids }, b)) := by
  obtain ⟨session, uuids, hsession⟩ := run_safeIdentifier upload.sessionId s
  obtain ⟨file, uuids', hfile⟩ := run_safeIdentifier upload.fileId { s with uuids }
  refine ⟨session ++ "-" ++ file ++ ".part", uuids', normalName_part _, fun fs b => ?_⟩
  rw [incomingFileName, Prog.run_bind_ok _ (hsession fs b), Prog.run_bind_ok _ (hfile fs b)]
  rfl

/-! ### The call -/

/-- How a call of the writer ends: `s'` is the store it leaves, with the file
staged under `name`, and `Q` is what holds of a result. -/
inductive WriterOutcome [Primitives] {α : Type} (inboxDir : Path) (upload : AuthorizedUpload)
    (body : Body) (s s' : Store) (name : String) (Q : α → Prop) : Except LocalSendError α → Prop
  | failed (e : IoFailure) : WriterOutcome inboxDir upload body s s' name Q (.error (.io e))
  | refused (message : String) (invalid : ¬ PlainName upload.fileMeta.fileName) (same : s' = s) :
      WriterOutcome inboxDir upload body s s' name Q (.error (.http message))
  | mismatch {e : LocalSendError} {bytes : Bytes} (other : ∀ failure, e ≠ .io failure)
      (plain : PlainName upload.fileMeta.fileName)
      (wrong : ¬ Declared upload.fileMeta body.bytes)
      (staged : StagedAs inboxDir s.fs s'.fs name bytes) (fits : bytes.length ≤ upload.fileMeta.size) :
      WriterOutcome inboxDir upload body s s' name Q (.error e)
  | full (plain : PlainName upload.fileMeta.fileName) (declared : Declared upload.fileMeta body.bytes)
      (staged : StagedAs inboxDir s.fs s'.fs name body.bytes)
      (none : ∀ target ∈ triedNames upload.fileMeta.fileName,
        s'.fs.view (inboxDir ++ [target]) ≠ none) :
      WriterOutcome inboxDir upload body s s' name Q (.error .panicked)
  | done {a : α} (plain : PlainName upload.fileMeta.fileName)
      (declared : Declared upload.fileMeta body.bytes) (result : Q a) :
      WriterOutcome inboxDir upload body s s' name Q (.ok a)

/-- A staged file is below the inbox, and the inbox is there. -/
theorem stagedAs_of_create {inboxDir : Path} {fs fs₁ fs₂ fs' : Fs} {name : String} {file : ℕ}
    {bytes : Bytes} (hname : NormalName name)
    (hdirs : fs.createDirAll (incomingDir inboxDir) = .ok fs₁)
    (hcreate : fs₁.create (incomingDir inboxDir ++ [name]) = .ok (file, fs₂))
    (hstaged : fs'.view (incomingDir inboxDir ++ [name]) = some (some bytes))
    (hframe : ∀ q, resolve q ≠ resolve (incomingDir inboxDir ++ [name]) → fs'.view q = fs₂.view q) :
    StagedAs inboxDir fs fs' name bytes := by
  obtain ⟨hincoming, habove⟩ := Fs.view_createDirAll hdirs
  obtain ⟨-, hother⟩ := Fs.contents_create hcreate
  have hkept : ∀ q, resolve q ≠ resolve (incomingDir inboxDir ++ [name]) →
      fs'.view q = fs₁.view q := fun q hq =>
    (hframe q hq).trans (Fs.view_eq_of (hother q hq).1 (hother q hq).2)
  have hlength : (resolve (incomingDir inboxDir ++ [name])).length = (resolve inboxDir).length + 2 := by
    rw [resolve_append_normal _ hname, resolve_incomingDir]
    simp
  refine ⟨?_, ?_, hstaged, fun path hpath => ?_⟩
  · rw [hkept inboxDir fun h => ?_]
    · refine Fs.view_eq_dir_iff.mpr (Fs.entries_above_dir (Fs.view_eq_dir_iff.mp hincoming) ?_)
      rw [resolve_incomingDir]
      exact List.prefix_append _ _
    · have := congrArg List.length h
      omega
  · rw [hkept _ fun h => ?_, hincoming]
    have := congrArg List.length h
    rw [resolve_incomingDir, List.length_append, List.length_singleton] at this
    omega
  · rw [hkept path (hpath.ne_below ⟨name, rfl, hname⟩), habove path hpath.not_above]

/-! The operations on the tree, by what the tree answers. -/

section tree

variable {s : Store} {path source target : Path} {fs : Fs} {file : ℕ} {e : IoError} (b : Body)

theorem run_createDirAll (h : s.fs.createDirAll path = .ok fs) :
    (createDirAll path).run handler (s, b) = (.ok (), ({ s with fs }, b)) := by
  simp [createDirAll, handler, exec, onFs, h, orIo, Except.mapError]

theorem run_createDirAll_error (h : s.fs.createDirAll path = .error e) :
    (createDirAll path).run handler (s, b) = (.error (.io (.os e)), (s, b)) := by
  simp [createDirAll, handler, exec, onFs, h, orIo, Except.mapError]

theorem run_create (h : s.fs.create path = .ok (file, fs)) :
    (create path).run handler (s, b) = (.ok file, ({ s with fs }, b)) := by
  simp [create, handler, exec, h, orIo, Except.mapError]

theorem run_create_error (h : s.fs.create path = .error e) :
    (create path).run handler (s, b) = (.error (.io (.os e)), (s, b)) := by
  simp [create, handler, exec, h, orIo, Except.mapError]

theorem run_renameFile (h : s.fs.rename source target = .ok fs) :
    (renameFile source target).run handler (s, b) = (.ok (), ({ s with fs }, b)) := by
  simp [renameFile, handler, exec, onFs, h, orIo, Except.mapError]

theorem run_renameFile_error (h : s.fs.rename source target = .error e) :
    (renameFile source target).run handler (s, b) = (.error (.io (.os e)), (s, b)) := by
  simp [renameFile, handler, exec, onFs, h, orIo, Except.mapError]

end tree

section writer

variable [Primitives] (self : InboxWriter) (upload : AuthorizedUpload) {s : Store} (body : Body)

/-- **Up to the rename**: a call that has not stopped for another reason has the
body staged, and a name that is free. -/
theorem run_stage {name : String} {uuids : ℕ → String} (hname : NormalName name)
    (hincoming : ∀ fs b, (incomingFileName upload).run handler ({ s with fs }, b) =
      (.ok name, ({ s with fs, uuids }, b))) :
    ∃ r s' b', (self.stage upload).run handler (s, body) = (r, (s', b')) ∧
      WriterOutcome self.inboxDir upload body s s' name (fun staged => ∃ target,
        StagedAs self.inboxDir s.fs s'.fs name body.bytes ∧
        firstFree s'.fs self.inboxDir (triedNames upload.fileMeta.fileName) = some target ∧
        staged = ⟨incomingDir self.inboxDir ++ [name], self.inboxDir ++ [target], body.bytes,
          sha256Hex body.bytes⟩) r := by
  unfold InboxWriter.stage validateFileName
  by_cases hplain : PlainName upload.fileMeta.fileName
  swap
  · rw [if_neg hplain]
    exact ⟨_, s, body, rfl, .refused _ hplain rfl⟩
  rw [if_pos hplain, pure_bind]
  cases hdirs : s.fs.createDirAll (incomingDir self.inboxDir) with
  | error e => exact ⟨_, _, _, Prog.run_bind_error _ (run_createDirAll_error body hdirs), .failed _⟩
  | ok fs₁ =>
    have hinbox : fs₁.createDirAll self.inboxDir = .ok fs₁ := by
      refine Fs.createDirAll_of_dir (Fs.entries_above_dir (Fs.createDirAll_spec hdirs).2.2.1 ?_)
      rw [resolve_incomingDir]
      exact List.prefix_append _ _
    rw [Prog.run_bind_ok _ (run_createDirAll body hdirs),
      Prog.run_bind_ok _ (run_createDirAll (s := { s with fs := fs₁ }) body hinbox),
      Prog.run_bind_ok _ (hincoming fs₁ body)]
    cases hcreate : fs₁.create (incomingDir self.inboxDir ++ [name]) with
    | error e =>
      exact ⟨_, _, _, Prog.run_bind_error _ (run_create_error (s := { s with fs := fs₁, uuids }) body
        hcreate), .failed _⟩
    | ok created =>
      obtain ⟨file, fs₂⟩ := created
      obtain ⟨⟨hfile, hempty⟩, -⟩ := Fs.contents_create hcreate
      obtain ⟨r, fs', b', bytes, hcopy, hview, hfits, hframe, hcases⟩ :=
        run_copyBody (upload.fileMeta.size + 1) (s := { s with fs := fs₂, uuids }) body hfile hempty
          (Nat.zero_le _)
          (show upload.fileMeta.size < ([] : Bytes).length + (upload.fileMeta.size + 1) by simp)
      have hstaged := stagedAs_of_create hname hdirs hcreate hview hframe
      rw [Prog.run_bind_ok _ (run_create (s := { s with fs := fs₁, uuids }) body hcreate)]
      rcases hcases with ⟨rfl, hbytes⟩ | ⟨message, rfl, hlong⟩ | ⟨e, rfl⟩
      · rw [List.nil_append] at hbytes
        subst hbytes
        rw [Prog.run_bind_ok _ hcopy]
        by_cases hdeclared : Declared upload.fileMeta body.bytes
        · rw [checkBody_of_declared hdeclared, Prog.ofExcept_ok, Prog.ret_bind]
          have htarget := run_nextAvailableTarget self.inboxDir upload.fileMeta.fileName
            { s with fs := fs', uuids } b'
          rw [nextOf] at htarget
          cases hfree : firstFree fs' self.inboxDir (triedNames upload.fileMeta.fileName) with
          | none =>
            rw [hfree] at htarget
            cases hfit : (triedNames upload.fileMeta.fileName).findSome? nameError? with
            | none =>
              rw [hfit] at htarget
              exact ⟨_, _, _, Prog.run_bind_error _ htarget, .full hplain hdeclared hstaged
                fun target htried => taken_of_firstFree_eq_none hfree hfit htried⟩
            | some e =>
              rw [hfit] at htarget
              exact ⟨_, _, _, Prog.run_bind_error _ htarget, .failed _⟩
          | some target =>
            rw [hfree] at htarget
            exact ⟨_, _, _, Prog.run_bind_ok _ htarget,
              .done hplain hdeclared ⟨target, hstaged, hfree, rfl⟩⟩
        · obtain ⟨e, hcheck, hother⟩ := checkBody_of_not_declared hdeclared
          rw [hcheck]
          exact ⟨_, _, _, rfl, .mismatch hother hplain hdeclared hstaged hfits⟩
      · rw [List.nil_append] at hlong
        refine ⟨_, _, _, Prog.run_bind_error _ hcopy,
          .mismatch (fun _ he => by cases he) hplain (fun h => ?_) hstaged hfits⟩
        exact hlong.ne h.1.symm
      · exact ⟨_, _, _, Prog.run_bind_error _ hcopy, .failed e⟩

end writer

/-- The upload is in the inbox of `fs'` as `target`, where nothing was in `fs`,
and the rest of the inbox is as it was. -/
structure Published [Primitives] (inboxDir : Path) (fs fs' : Fs) (bytes : Bytes) (target : String)
    (written : WrittenUpload) : Prop where
  written_eq : written = ⟨inboxDir ++ [target], bytes.length, sha256Hex bytes⟩
  normal : NormalName target
  notIncoming : target ≠ ".incoming"
  incoming : fs'.view (incomingDir inboxDir) = some none
  free : fs.view (inboxDir ++ [target]) = none
  there : fs'.view (inboxDir ++ [target]) = some (some bytes)
  frame : ∀ path, Outside inboxDir path → resolve path ≠ resolve (inboxDir ++ [target]) →
    fs'.view path = fs.view path

/-- A name that is free while the upload is staged is not the staging
directory's. -/
theorem StagedAs.target {inboxDir : Path} {fs fs' : Fs} {name fileName target : String} {bytes : Bytes}
    (h : StagedAs inboxDir fs fs' name bytes) (hplain : PlainName fileName)
    (hfree : firstFree fs' inboxDir (triedNames fileName) = some target) :
    target ∈ triedNames fileName ∧ NormalName target ∧ target ≠ ".incoming" ∧
      fs'.view (inboxDir ++ [target]) = none := by
  obtain ⟨htried, -, hnone⟩ := firstFree_spec hfree
  refine ⟨htried, normalName_of_mem_triedNames hplain htried, ?_, hnone⟩
  rintro rfl
  rw [← incomingDir, h.incoming] at hnone
  cases hnone

theorem StagedAs.publish [Primitives] {inboxDir : Path} {fs fs₁ fs' : Fs} {name fileName target : String}
    {bytes : Bytes} (h : StagedAs inboxDir fs fs₁ name bytes) (hname : NormalName name)
    (hplain : PlainName fileName) (hfree : firstFree fs₁ inboxDir (triedNames fileName) = some target)
    (hrename : fs₁.rename (incomingDir inboxDir ++ [name]) (inboxDir ++ [target]) = .ok fs') :
    Published inboxDir fs fs' bytes target ⟨inboxDir ++ [target], bytes.length, sha256Hex bytes⟩ := by
  obtain ⟨-, hnormal, hne, hnone⟩ := h.target hplain hfree
  have hbelow : Below (incomingDir inboxDir) (incomingDir inboxDir ++ [name]) := ⟨name, rfl, hname⟩
  obtain ⟨hmoved, -, hother⟩ := Fs.view_rename hrename (hbelow.ne_name target)
  have houtside : Outside inboxDir (inboxDir ++ [target]) := outside_name hnormal hne
  refine ⟨rfl, hnormal, hne, ?_, ?_, hmoved.trans h.staged, fun path hpath hpathne => ?_⟩
  · rw [hother (incomingDir inboxDir) (hbelow.ne_name ".incoming") fun heq => ?_, h.incoming]
    exact houtside.2.2 (heq ▸ List.prefix_rfl)
  · rw [← h.frame _ houtside, hnone]
  · rw [hother path (hpath.ne_below hbelow) hpathne, h.frame path hpath]

section writer

variable [Primitives] (self : InboxWriter) (upload : AuthorizedUpload) {s : Store} (body : Body)

/-- **How `write_upload` ends**, when it runs alone. -/
theorem run_writeUpload {name : String} {uuids : ℕ → String} (hname : NormalName name)
    (hincoming : ∀ fs b, (incomingFileName upload).run handler ({ s with fs }, b) =
      (.ok name, ({ s with fs, uuids }, b))) :
    ∃ r s' b', (self.writeUpload upload).run handler (s, body) = (r, (s', b')) ∧
      WriterOutcome self.inboxDir upload body s s' name (fun written =>
        ∃ target ∈ triedNames upload.fileMeta.fileName,
          Published self.inboxDir s.fs s'.fs body.bytes target written) r := by
  obtain ⟨r, s₁, b₁, hstage, houtcome⟩ := run_stage self upload body hname hincoming
  unfold InboxWriter.writeUpload
  cases houtcome with
  | failed e => exact ⟨_, _, _, Prog.run_bind_error _ hstage, .failed e⟩
  | refused message hinvalid hsame =>
    exact ⟨_, _, _, Prog.run_bind_error _ hstage, .refused message hinvalid hsame⟩
  | mismatch hother hplain hwrong hstaged hfits =>
    exact ⟨_, _, _, Prog.run_bind_error _ hstage, .mismatch hother hplain hwrong hstaged hfits⟩
  | full hplain hdeclared hstaged hnone =>
    exact ⟨_, _, _, Prog.run_bind_error _ hstage, .full hplain hdeclared hstaged hnone⟩
  | done hplain hdeclared hresult =>
    obtain ⟨target, hstaged, hfree, rfl⟩ := hresult
    rw [Prog.run_bind_ok _ hstage]
    cases hrename : s₁.fs.rename (incomingDir self.inboxDir ++ [name]) (self.inboxDir ++ [target]) with
    | error e => exact ⟨_, _, _, Prog.run_bind_error _ (run_renameFile_error b₁ hrename), .failed _⟩
    | ok fs' =>
      exact ⟨_, _, _, Prog.run_bind_ok _ (run_renameFile b₁ hrename), .done hplain hdeclared
        ⟨target, (hstaged.target hplain hfree).1, hstaged.publish hname hplain hfree hrename⟩⟩

/-- **A call that returned**: the upload is in the inbox. -/
theorem published_of_ok {s' : Store} {b' : Body} {written : WrittenUpload}
    (hrun : (self.writeUpload upload).run handler (s, body) = (.ok written, (s', b'))) :
    PlainName upload.fileMeta.fileName ∧ ∃ target ∈ triedNames upload.fileMeta.fileName,
      Published self.inboxDir s.fs s'.fs body.bytes target written := by
  obtain ⟨name, uuids, hname, hincoming⟩ := run_incomingFileName upload s
  obtain ⟨r, s₁, b₁, hends, houtcome⟩ := run_writeUpload self upload body hname hincoming
  obtain ⟨rfl, rfl, rfl⟩ : r = .ok written ∧ s₁ = s' ∧ b₁ = b' := by
    simpa [Prod.ext_iff] using hends.symm.trans hrun
  cases houtcome with
  | done hplain _ hresult => exact ⟨hplain, hresult⟩

end writer

/-- One normal path component: `Path::components` yields it, and nothing else. -/
def NormalComponent (fileName : String) : Prop :=
  fileName ≠ "" ∧ '/' ∉ fileName.toList ∧ NormalName fileName

instance (fileName : String) : Decidable (NormalComponent fileName) := inferInstanceAs (Decidable (_ ∧ _))

theorem plainName_iff {fileName : String} :
    PlainName fileName ↔ NormalComponent fileName ∧ '\\' ∉ fileName.toList := by
  unfold PlainName NormalComponent
  tauto

theorem StagedAs.free {inboxDir : Path} {fs fs' : Fs} {name fileName other : String}
    {bytes : Bytes} (h : StagedAs inboxDir fs fs' name bytes) (hplain : PlainName fileName)
    (hother : other ∈ triedNames fileName) (hne : other ≠ ".incoming")
    (hfree : fs.view (inboxDir ++ [other]) = none) : fs'.view (inboxDir ++ [other]) = none := by
  rw [h.frame _ (outside_name (normalName_of_mem_triedNames hplain hother) hne), hfree]

/-- **What `write_upload` does on its own**, unless the disk or the reader
fails.  If one of the names it tries is free, it returns exactly when the name
is a normal component without a backslash and the body is the declared one.
Then there is one more entry in the inbox, with the body as it was reported.
Otherwise the inbox is as it was, and what is staged has at most the declared
size. -/
theorem writeUpload_iff [Primitives] (self : InboxWriter) (upload : AuthorizedUpload) (s : Store)
    (body : Body) {r : Except LocalSendError WrittenUpload} {s' : Store} {b' : Body}
    (hrun : (self.writeUpload upload).run handler (s, body) = (r, (s', b')))
    (hio : ∀ e, r ≠ .error (.io e))
    (hfree : ∃ name ∈ triedNames upload.fileMeta.fileName, name ≠ ".incoming" ∧
      s.fs.lookup (self.inboxDir ++ [name]) = none) :
    (r.isOk = true ↔ NormalComponent upload.fileMeta.fileName ∧
        '\\' ∉ upload.fileMeta.fileName.toList ∧ body.bytes.length = upload.fileMeta.size ∧
        ∀ expected, upload.fileMeta.sha256 = some expected →
          eqIgnoreAsciiCase expected (sha256Hex body.bytes) = true) ∧
      (∀ written, r = .ok written →
        ∃ target, Published self.inboxDir s.fs s'.fs body.bytes target written) ∧
      ∀ e, r = .error e →
        (∀ path, Outside self.inboxDir path → s'.fs.view path = s.fs.view path) ∧
        (PlainName upload.fileMeta.fileName →
          ∃ name bytes, ((incomingFileName upload).run handler (s, body)).1 = .ok name ∧
            s'.fs.contents (incomingDir self.inboxDir ++ [name]) = some bytes ∧
            bytes.length ≤ upload.fileMeta.size) ∧
        (¬ PlainName upload.fileMeta.fileName → s' = s) := by
  obtain ⟨name, uuids, hname, hincoming⟩ := run_incomingFileName upload s
  obtain ⟨r₁, s₁, b₁, hends, houtcome⟩ := run_writeUpload self upload body hname hincoming
  obtain ⟨rfl, rfl, rfl⟩ : r₁ = r ∧ s₁ = s' ∧ b₁ = b' := by
    simpa [Prod.ext_iff] using hends.symm.trans hrun
  have hnamed : ((incomingFileName upload).run handler (s, body)).1 = .ok name :=
    congrArg Prod.fst (hincoming s.fs body)
  have haccepts : (NormalComponent upload.fileMeta.fileName ∧
      '\\' ∉ upload.fileMeta.fileName.toList ∧ Declared upload.fileMeta body.bytes) ↔
      PlainName upload.fileMeta.fileName ∧ Declared upload.fileMeta body.bytes := by
    rw [plainName_iff, and_assoc]
  refine and_congr_left (fun _ => iff_congr Iff.rfl haccepts) |>.mpr ?_
  cases houtcome with
  | failed e => exact absurd rfl (hio e)
  | refused message hinvalid hsame =>
    subst hsame
    exact ⟨iff_of_false Bool.false_ne_true fun h => hinvalid h.1, fun _ h => (by cases h),
      fun _ _ => ⟨fun _ _ => rfl, fun h => absurd h hinvalid, fun _ => rfl⟩⟩
  | mismatch _ hplain hwrong hstaged hfits =>
    refine ⟨iff_of_false Bool.false_ne_true fun h => hwrong h.2, fun _ h => (by cases h),
      fun _ _ => ⟨hstaged.frame, fun _ => ⟨name, _, hnamed, ?_, hfits⟩, fun h => absurd hplain h⟩⟩
    exact Fs.view_eq_file_iff.mp hstaged.staged
  | full hplain _ hstaged hnone =>
    obtain ⟨other, hother, hne, hlookup⟩ := hfree
    exact absurd (hstaged.free hplain hother hne (Fs.view_eq_none_iff.mpr hlookup)) (hnone other hother)
  | done hplain hdeclared hresult =>
    obtain ⟨target, -, hpublished⟩ := hresult
    exact ⟨iff_of_true rfl ⟨hplain, hdeclared⟩,
      fun written h => ⟨target, Except.ok.inj h ▸ hpublished⟩, fun _ h => (by cases h)⟩

/-- A file of one byte is uploaded in two reads, the first of them empty. -/
theorem writeUpload_iff_oneByte :
    ∃ r s' b' target written, (@InboxWriter.writeUpload .sample ⟨["inbox"]⟩
        ⟨"session", "file-1", "token", oneByteFile⟩).run handler (.fresh 60, ⟨[[], [2]], false⟩) =
          (r, (s', b')) ∧ r = .ok written ∧
      @Published .sample ["inbox"] Fs.empty s'.fs [2] target written := by
  have hok : ((@InboxWriter.writeUpload .sample ⟨["inbox"]⟩
      ⟨"session", "file-1", "token", oneByteFile⟩).run handler (.fresh 60, ⟨[[], [2]], false⟩)).1.isOk =
        true := by decide +kernel
  generalize hrun : (@InboxWriter.writeUpload .sample ⟨["inbox"]⟩
    ⟨"session", "file-1", "token", oneByteFile⟩).run handler (.fresh 60, ⟨[[], [2]], false⟩) = result
    at hok
  obtain ⟨r, s', b'⟩ := result
  have hfree : ∃ name ∈ triedNames oneByteFile.fileName, name ≠ ".incoming" ∧
      (Store.fresh 60).fs.lookup (["inbox"] ++ [name]) = none :=
    ⟨"a.txt", List.mem_cons_self, by decide, by decide⟩
  cases r with
  | error e => cases hok
  | ok written =>
    obtain ⟨-, hpublished, -⟩ := @writeUpload_iff .sample ⟨["inbox"]⟩
      ⟨"session", "file-1", "token", oneByteFile⟩ (.fresh 60) ⟨[[], [2]], false⟩ _ _ _ hrun
      (fun e h => by cases h) hfree
    obtain ⟨target, hpublished⟩ := hpublished written rfl
    exact ⟨_, s', b', target, written, rfl, rfl, hpublished⟩

/-- A file of one byte with a backslash in its name. -/
def backslashFile : FileMeta := { oneByteFile with fileName := "a\\b.txt" }

/-- **A backslash is refused**, though it is an ordinary character of a name and
nothing else is wrong with the upload. -/
theorem backslash_refused :
    NormalComponent backslashFile.fileName ∧
      (⟨[[2]], false⟩ : Body).bytes.length = backslashFile.size ∧ backslashFile.sha256 = none ∧
      ((@InboxWriter.writeUpload .sample ⟨["inbox"]⟩
        ⟨"session", "file-1", "token", backslashFile⟩).run handler (.fresh 60, ⟨[[2]], false⟩)).1 =
          .error (.http "inbox: invalid upload filename") := by
  decide +kernel

end NightBridge.LocalSend
