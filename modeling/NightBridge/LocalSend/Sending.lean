/-
# A LocalSend client and a LocalSend server

The two ends of `crates/protocol-localsend-v2` together: `send_files_to_url` of
`client.rs` posts to the handlers of `server.rs`, which have no other client
meanwhile.  The bodies may arrive in frames of any size.

The argument goes along the answer of `prepare-upload`.  Its tokens wait
(`Waiting`), and each upload uses one of them and leaves the others
(`run_upload`).  What can go wrong is a name: the client takes any last
component of a path, and the inbox takes no backslash.  Then the files with a
smaller id have arrived, in the order of the ids as text, so that `file-10`
comes before `file-2`.
-/

import Mathlib.Data.Finset.Card
import NightBridge.LocalSend.Authorize
import NightBridge.LocalSend.Client
import NightBridge.LocalSend.Uploads
import NightBridge.LocalSend.Writer

namespace NightBridge.LocalSend

open Data Effect

/-! ### An inbox that can be written to -/

/-- Nothing is in the way of the staging directory, and there is no directory in
it. -/
structure Ready (inboxDir : Path) (fs : Fs) : Prop where
  dirs : fs.DirOk (incomingDir inboxDir)
  files : ∀ name, NormalName name → fs.view (incomingDir inboxDir ++ [name]) ≠ some none

/-- So many of the names the writer tries for a file are free, before one that
can be no name. -/
def Room (inboxDir : Path) (fs : Fs) (fileName : String) (count : ℕ) : Prop :=
  ∃ names : Finset String, count ≤ names.card ∧
    ∀ name ∈ names, name ∈ (triedNames fileName).takeWhile nameFits ∧
      name ≠ ".incoming" ∧ fs.view (inboxDir ++ [name]) = none

section inbox

variable {inboxDir : Path} {fs : Fs}

theorem Room.mono {fileName : String} {count count' : ℕ} (h : Room inboxDir fs fileName count)
    (hle : count' ≤ count) : Room inboxDir fs fileName count' := by
  obtain ⟨names, hcard, hnames⟩ := h
  exact ⟨names, hle.trans hcard, hnames⟩

/-- A file that is published takes one of the free names. -/
theorem Room.publish [Primitives] {fs' : Fs} {fileName target : String} {bytes : Bytes}
    {written : WrittenUpload} {count : ℕ} (h : Room inboxDir fs fileName (count + 1))
    (hplain : PlainName fileName) (hpublished : Published inboxDir fs fs' bytes target written) :
    Room inboxDir fs' fileName count := by
  obtain ⟨names, hcard, hnames⟩ := h
  refine ⟨names.erase target, ?_, fun name hname => ?_⟩
  · have := Finset.pred_card_le_card_erase (s := names) (a := target)
    omega
  · obtain ⟨hne, hmem⟩ := Finset.mem_erase.mp hname
    obtain ⟨htried, hincoming, hfree⟩ := hnames name hmem
    have hnormal := normalName_of_mem_triedNames hplain ((List.takeWhile_sublist _).subset htried)
    refine ⟨htried, hincoming, ?_⟩
    rw [hpublished.frame _ (outside_name hnormal hincoming) fun heq => hne ?_, hfree]
    rw [resolve_append_normal _ hnormal, resolve_append_normal _ hpublished.normal] at heq
    simpa using heq

/-- With room, the writer finds a name for what it has staged. -/
theorem Room.firstFree_ne_none {fs' : Fs} {fileName name : String} {bytes : Bytes}
    (h : Room inboxDir fs fileName 1) (hplain : PlainName fileName)
    (hstaged : StagedAs inboxDir fs fs' name bytes) :
    firstFree fs' inboxDir (triedNames fileName) ≠ none := by
  obtain ⟨names, hcard, hnames⟩ := h
  obtain ⟨other, hother⟩ := Finset.card_pos.mp hcard
  obtain ⟨htried, hne, hfree⟩ := hnames other hother
  intro hnone
  have htaken := List.find?_eq_none.mp hnone other htried
  rw [Fs.exists?_eq_view, hstaged.free hplain ((List.takeWhile_sublist _).subset htried) hne hfree]
    at htaken
  exact htaken rfl

theorem not_above_staged {name : String} (hname : NormalName name) :
    ¬ resolve (incomingDir inboxDir ++ [name]) <+: resolve (incomingDir inboxDir) := by
  intro hle
  have hlength := hle.length_le
  rw [resolve_append_normal _ hname, List.length_append] at hlength
  simp at hlength

/-- No call of the writer puts a directory into the staging directory. -/
theorem files_exec {hist : Calls} {o : Op} (ho : Writes inboxDir hist o) {s : Store} {b : Body}
    (h : ∀ name, NormalName name → s.fs.view (incomingDir inboxDir ++ [name]) ≠ some none)
    {name : String} (hname : NormalName name) :
    (exec o s b).2.1.fs.view (incomingDir inboxDir ++ [name]) ≠ some none := by
  have hbelow : Below (incomingDir inboxDir) (incomingDir inboxDir ++ [name]) := ⟨name, rfl, hname⟩
  cases o with
  | newUuid => exact h name hname
  | tryExists path => exact h name hname
  | readBody max => exact h name hname
  | createDirAll dir =>
    rw [exec]
    cases hfs : s.fs.createDirAll dir with
    | error e => exact h name hname
    | ok fs =>
      have habove : ¬ resolve (incomingDir inboxDir ++ [name]) <+: resolve dir := by
        rcases ho with rfl | rfl
        · exact not_above_staged hname
        · refine fun hle => not_above_staged hname (hle.trans ?_)
          rw [resolve_incomingDir]
          exact List.prefix_append _ _
      exact fun hdir => h name hname (((Fs.view_createDirAll hfs).2 _ habove).symm.trans hdir)
  | create path =>
    rw [exec]
    cases hfs : s.fs.create path with
    | error e => exact h name hname
    | ok created =>
      obtain ⟨⟨hfile, -⟩, hother⟩ := Fs.contents_create hfs
      intro hdir
      by_cases heq : resolve (incomingDir inboxDir ++ [name]) = resolve path
      · have hlookup := Fs.view_eq_dir_iff.mp hdir
        rw [Fs.lookup, heq, ← Fs.lookup, hfile] at hlookup
        cases hlookup
      · exact h name hname ((Fs.view_eq_of (hother _ heq).1 (hother _ heq).2).symm.trans hdir)
  | writeAll file offset bytes =>
    intro hdir
    have hlookup := Fs.view_eq_dir_iff.mp hdir
    exact h name hname (Fs.view_eq_dir_iff.mpr hlookup)
  | rename source target =>
    rw [exec]
    cases hfs : s.fs.rename source target with
    | error e => exact h name hname
    | ok fs =>
      obtain ⟨-, -, -, htarget, -⟩ := ho
      intro hdir
      have hne : resolve (incomingDir inboxDir ++ [name]) ≠ resolve target := (htarget.ne_staged hbelow).symm
      obtain ⟨i, -, -, -, ⟨-, rfl⟩ | ⟨hpq, -, hentries⟩⟩ := Fs.rename_spec hfs
      · exact h name hname hdir
      · obtain ⟨-, hgone, hother⟩ := Fs.view_rename hfs hpq
        by_cases heq : resolve (incomingDir inboxDir ++ [name]) = resolve source
        · have hlookup := Fs.view_eq_dir_iff.mp hdir
          have hnone := Fs.view_eq_none_iff.mp hgone
          rw [Fs.lookup, ← heq] at hnone
          cases hnone.symm.trans hlookup
        · exact h name hname ((hother _ heq hne).symm.trans hdir)
  | _ => exact ho.elim

theorem Ready.publish [Primitives] {s s' : Store} (h : Ready inboxDir s.fs) {upload : AuthorizedUpload}
    {b b' : Body} {r : Except LocalSendError WrittenUpload}
    (hrun : (InboxWriter.writeUpload ⟨inboxDir⟩ upload).run handler (s, b) = (r, (s', b')))
    (hincoming : s'.fs.view (incomingDir inboxDir) = some none) : Ready inboxDir s'.fs := by
  refine ⟨Fs.dirOk_of_dir (Fs.view_eq_dir_iff.mp hincoming), ?_⟩
  let Files (sb : Store × Body) : Prop :=
    ∀ name, NormalName name → sb.1.fs.view (incomingDir inboxDir ++ [name]) ≠ some none
  have hfiles : Files ((InboxWriter.writeUpload ⟨inboxDir⟩ upload).run handler (s, b)).2 :=
    Prog.run_inv_of_wp (I := Files) (wp_inboxWriter upload progress_nil)
      (fun _ _ _ ho hI _ hname => files_exec ho hI hname) h.files
  rw [hrun] at hfiles
  exact hfiles

/-! A call of the writer on such an inbox does not fail for the disk. -/

theorem Body.read_whole (max : ℕ) (frames : List Bytes) :
    (∀ e, (Body.read max false frames).1 ≠ .error e) ∧ (Body.read max false frames).2.broken = false := by
  fun_induction Body.read max false frames with
  | case1 =>
    refine ⟨fun e he => ?_, rfl⟩
    cases he
  | case2 rest ih => exact ih
  | case3 frame rest hne =>
    refine ⟨fun e he => ?_, rfl⟩
    cases he

theorem copyBody_ne_io (size file rounds : ℕ) (copied : Bytes) (s : Store) {b : Body}
    (hb : b.broken = false) (e : IoFailure) :
    ((copyBody size file rounds copied).run handler (s, b)).1 ≠ .error (.io e) := by
  induction rounds generalizing copied s b with
  | zero => exact fun he => by cases he
  | succ rounds ih =>
    obtain ⟨hread, hbroken⟩ := Body.read_whole 8192 b.frames
    rw [← hb] at hread hbroken
    cases hbytes : (Body.read 8192 b.broken b.frames).1 with
    | error e' => exact absurd hbytes (hread e')
    | ok bytes =>
      have hrun : (readBody 8192).run handler (s, b) =
          (.ok bytes, (s, (Body.read 8192 b.broken b.frames).2)) := by
        simp [readBody, handler, exec, orIo, Except.mapError, hbytes]
      rw [copyBody, Prog.run_bind_ok _ hrun]
      split_ifs with hnil hlong
      · exact fun he => by cases he
      · exact fun he => by cases he
      · exact ih (copied ++ bytes) _ (hbroken.trans hb)

theorem stage_ne_io [Primitives] (upload : AuthorizedUpload) {s : Store} {b : Body}
    (h : Ready inboxDir s.fs) (hb : b.broken = false)
    (hroom : PlainName upload.fileMeta.fileName → Room inboxDir s.fs upload.fileMeta.fileName 1)
    (e : IoFailure) :
    ((InboxWriter.stage ⟨inboxDir⟩ upload).run handler (s, b)).1 ≠ .error (.io e) := by
  obtain ⟨name, uuids, hname, hincoming⟩ := run_incomingFileName upload s
  unfold InboxWriter.stage validateFileName
  split_ifs with hplain
  swap
  · exact fun he => by cases he
  obtain ⟨fs₁, hdirs⟩ := Fs.createDirAll_isOk h.dirs
  obtain ⟨hdir, hother⟩ := Fs.view_createDirAll hdirs
  have hinbox : fs₁.createDirAll inboxDir = .ok fs₁ := by
    refine Fs.createDirAll_of_dir (Fs.entries_above_dir (Fs.view_eq_dir_iff.mp hdir) ?_)
    rw [resolve_incomingDir]
    exact List.prefix_append _ _
  obtain ⟨file, fs₂, hopen⟩ := Fs.openWrite_isOk (resolve_append_normal (incomingDir inboxDir) hname)
    (Fs.view_eq_dir_iff.mp hdir)
    (mt Fs.view_eq_dir_iff.mpr (by rw [hother _ (not_above_staged hname)]; exact h.files name hname))
  have hcreate : ∃ fs₃, fs₁.create (incomingDir inboxDir ++ [name]) = .ok (file, fs₃) := by
    rw [Fs.create, hopen]
    exact ⟨_, rfl⟩
  obtain ⟨fs₃, hcreate⟩ := hcreate
  rw [pure_bind, Prog.run_bind_ok _ (run_createDirAll b hdirs),
    Prog.run_bind_ok _ (run_createDirAll (s := { s with fs := fs₁ }) b hinbox),
    Prog.run_bind_ok _ (hincoming fs₁ b),
    Prog.run_bind_ok _ (run_create (s := { s with fs := fs₁, uuids }) b hcreate)]
  -- the copy and the checks fail for other reasons, and there is a name
  have hcopy := copyBody_ne_io upload.fileMeta.size file (upload.fileMeta.size + 1) []
    { s with fs := fs₃, uuids } hb e
  obtain ⟨⟨hfile, hempty⟩, -⟩ := Fs.contents_create hcreate
  obtain ⟨r, fs', b', staged, hcopied, hview, -, hframe, -⟩ :=
    run_copyBody (upload.fileMeta.size + 1) (s := { s with fs := fs₃, uuids }) b hfile hempty
      (Nat.zero_le _)
      (show upload.fileMeta.size < ([] : Bytes).length + (upload.fileMeta.size + 1) by simp)
  rw [hcopied] at hcopy
  cases r with
  | error e' =>
    rw [Prog.run_bind_error _ hcopied]
    exact fun he => hcopy (congrArg Except.error (Except.error.inj he))
  | ok bytes =>
    rw [Prog.run_bind_ok _ hcopied]
    by_cases hdeclared : Declared upload.fileMeta bytes
    · rw [checkBody_of_declared hdeclared, Prog.ofExcept_ok, Prog.ret_bind]
      have htarget := run_nextAvailableTarget inboxDir upload.fileMeta.fileName
        { s with fs := fs', uuids } b'
      obtain ⟨target, hfree⟩ := Option.ne_none_iff_exists'.mp
        ((hroom hplain).firstFree_ne_none hplain (stagedAs_of_create hname hdirs hcreate hview hframe))
      rw [nextOf, hfree] at htarget
      rw [Prog.run_bind_ok _ htarget]
      exact fun he => by cases he
    · obtain ⟨e', hcheck, hother⟩ := checkBody_of_not_declared hdeclared
      rw [hcheck]
      exact fun he => hother e (Except.error.inj he)

/-- **A call of the writer does not fail for the disk** when the inbox is ready,
with room for the file, and the body is whole. -/
theorem writeUpload_ne_io [Primitives] (upload : AuthorizedUpload) {s : Store} {b : Body}
    (h : Ready inboxDir s.fs) (hb : b.broken = false)
    (hroom : PlainName upload.fileMeta.fileName → Room inboxDir s.fs upload.fileMeta.fileName 1)
    (e : IoFailure) :
    ((InboxWriter.writeUpload ⟨inboxDir⟩ upload).run handler (s, b)).1 ≠ .error (.io e) := by
  obtain ⟨name, uuids, hname, hincoming⟩ := run_incomingFileName upload s
  obtain ⟨r, s₁, b₁, hstage, houtcome⟩ := run_stage ⟨inboxDir⟩ upload b hname hincoming
  unfold InboxWriter.writeUpload
  cases houtcome with
  | refused | mismatch | full =>
    rw [Prog.run_bind_error _ hstage]
    simp_all
  | failed e' =>
    have hstaged := stage_ne_io upload h hb hroom e'
    rw [hstage] at hstaged
    exact absurd rfl hstaged
  | done hplain _ hresult =>
    obtain ⟨target, hstaged, hfree, rfl⟩ := hresult
    obtain ⟨-, hnormal, -, hnone⟩ := hstaged.target hplain hfree
    have hfits : nameFits ((inboxDir ++ [target]).getLastD "") := by
      rw [List.getLastD_concat]
      exact (firstFree_spec hfree).2.1
    obtain ⟨fs', hrename⟩ := Fs.rename_isOk_of_view hstaged.staged hfits
      (resolve_append_normal inboxDir hnormal) hstaged.inbox (by rw [hnone]; simp)
    rw [Prog.run_bind_ok _ hstage, Prog.run_bind_ok _ (run_renameFile b₁ hrename)]
    exact fun he => by cases he

end inbox

/-! ### One upload -/

/-- The session is open until `expiresAt`, with a token for each of the entries,
and the clock does not get there before two more calls for each of them. -/
structure Waiting (s : Store) (sessionId : String) (expiresAt : ℕ) (fileMeta : String → Option FileMeta)
    (entries : List (String × String)) : Prop where
  session : ∃ session, s.sessions.sessions.get? sessionId = some session ∧
    session.expiresAt = expiresAt ∧ ∀ entry ∈ entries, ∃ offered, fileMeta entry.1 = some offered ∧
      session.files.get? entry.1 = some ⟨entry.2, offered, false⟩
  time : ∀ k < 2 * entries.length, s.instants.time k < expiresAt

/-- How an upload request ends, when its token waits and its body is what was
declared. -/
inductive UploadOutcome [Primitives] (inboxDir : Path) (fileName : String) (bytes : Bytes)
    (s s' : Store) : Except LocalSendError StatusCode → Prop
  | stored {target : String} {written : WrittenUpload} (plain : PlainName fileName)
      (tried : target ∈ triedNames fileName)
      (published : Published inboxDir s.fs s'.fs bytes target written) (ready : Ready inboxDir s'.fs) :
      UploadOutcome inboxDir fileName bytes s s' (.ok .ok)
  | refused (message : String) (invalid : ¬ PlainName fileName) (same : s'.fs = s.fs) :
      UploadOutcome inboxDir fileName bytes s s' (.error (.http message))

section upload

/-- `mark_uploaded` of a file of an open session. -/
theorem markUploaded_of_open {self : SessionManager} {now : ℕ} {sessionId fileId : String}
    {session : Session} {file : SessionFile} (hsession : self.sessions.get? sessionId = some session)
    (hopen : now < session.expiresAt) (hfile : session.files.get? fileId = some file) :
    (self.markUploaded now sessionId fileId).1 = .ok () ∧
      (self.markUploaded now sessionId fileId).2.sessions.get? sessionId = some { session with
        files := session.files.adjust fileId fun file => { file with uploaded := true } } := by
  have hlive : (live now self.sessions).get? sessionId = some session :=
    get?_live_eq_some_iff.mpr ⟨hsession, hopen⟩
  have hfound : findFile (live now self.sessions) sessionId fileId = .ok file :=
    findFile_eq_ok_iff.mpr ⟨session, hlive, hfile⟩
  simp only [SessionManager.markUploaded, hfound, BTreeMap.get?_adjust, if_true, hlive, Option.map_some,
    and_self]

variable [Primitives]

theorem run_inboxWriter_sessions (self : InboxWriter) (upload : AuthorizedUpload) (s : Store)
    (b : Body) :
    ((self.writeUpload upload).run handler (s, b)).2.1.sessions = s.sessions ∧
      ((self.writeUpload upload).run handler (s, b)).2.1.instants = s.instants := by
  refine Prog.run_inv_of_wp
    (I := fun sb : Store × Body => sb.1.sessions = s.sessions ∧ sb.1.instants = s.instants)
    (wp_inboxWriter upload progress_nil) (fun h o sb ho hI => ?_) ⟨rfl, rfl⟩
  obtain ⟨hsessions, hinstants⟩ := sessions_exec (fun o' => ho.ne_session o') sb.1 sb.2
  exact ⟨hsessions.trans hI.1, hinstants.trans hI.2⟩

/-- **One upload** uses its token and leaves the others waiting. -/
theorem run_upload (state : ServerState) {s : Store} {sessionId : String} {expiresAt : ℕ}
    {fileMeta : String → Option FileMeta} {entry : String × String} {entries : List (String × String)}
    (h : Waiting s sessionId expiresAt fileMeta (entry :: entries))
    (hnodup : entry.1 ∉ entries.map Prod.fst) {offered : FileMeta}
    (hoffered : fileMeta entry.1 = some offered) (body : Body) (hdeclared : Declared offered body.bytes)
    (hbody : body.broken = false) (hready : Ready state.inboxDir s.fs)
    (hroom : PlainName offered.fileName → Room state.inboxDir s.fs offered.fileName 1) :
    ∃ r s' b', (writeUpload state ⟨sessionId, entry.1, entry.2⟩).run handler (s, body) = (r, (s', b')) ∧
      UploadOutcome state.inboxDir offered.fileName body.bytes s s' r ∧
      (r = .ok .ok → Waiting s' sessionId expiresAt fileMeta entries) := by
  obtain ⟨session, hsession, hexpires, hfiles⟩ := h.session
  obtain ⟨offered', hoffered', hfile⟩ := hfiles entry List.mem_cons_self
  obtain rfl : offered' = offered := Option.some.inj (hoffered'.symm.trans hoffered)
  -- the token waits, so the upload is authorized
  set upload : AuthorizedUpload := ⟨sessionId, entry.1, entry.2, offered'⟩
  have hauthorized : (s.sessions.authorizeUpload (s.instants.time 0) sessionId entry.1 entry.2).1 =
      .ok upload :=
    authorizeUpload_eq_ok_iff.mpr ⟨offered', rfl, session, hsession, hexpires ▸ h.time 0 (by simp), hfile⟩
  set s₁ : Store := { s with
    sessions := (s.sessions.authorizeUpload (s.instants.time 0) sessionId entry.1 entry.2).2
    instants := s.instants.advance } with hs₁
  have hrun₁ : (authorizeUpload sessionId entry.1 entry.2).run handler (s, body) =
      (.ok upload, (s₁, body)) := by
    rw [← hauthorized]
    exact Prog.run_ofExcept ..
  rw [writeUpload, Prog.run_bind_ok _ hrun₁]
  obtain ⟨name, uuids, hname, hincoming⟩ := run_incomingFileName upload s₁
  obtain ⟨r, s₂, b₂, hrun₂, houtcome⟩ := run_writeUpload ⟨state.inboxDir⟩ upload body hname hincoming
  obtain ⟨hsessions, hinstants⟩ := run_inboxWriter_sessions ⟨state.inboxDir⟩ upload s₁ body
  rw [hrun₂] at hsessions hinstants
  cases houtcome with
  | failed e =>
    have hne := writeUpload_ne_io upload (s := s₁) hready hbody hroom e
    rw [hrun₂] at hne
    exact absurd rfl hne
  | refused message hinvalid hsame =>
    have hfs : s₂.fs = s.fs := by rw [hsame]
    exact ⟨_, _, _, Prog.run_bind_error _ hrun₂, .refused message hinvalid hfs, fun he => by cases he⟩
  | mismatch _ _ hwrong => exact absurd hdeclared hwrong
  | full hplain _ hstaged hnone =>
    obtain ⟨target, hfree⟩ :=
      Option.ne_none_iff_exists'.mp ((hroom hplain).firstFree_ne_none hplain hstaged)
    obtain ⟨htried, -, hfound⟩ := firstFree_spec hfree
    exact absurd hfound (hnone target htried)
  | done hplain _ hresult =>
    obtain ⟨target, htried, hpublished⟩ := hresult
    -- the session is still open, and the file is marked
    have hsession₂ : s₂.sessions.sessions.get? sessionId = some session := by
      rw [hsessions]
      exact get?_live_eq_some_iff.mpr ⟨hsession, hexpires ▸ h.time 0 (by simp)⟩
    have hopen : s₂.instants.time 0 < session.expiresAt := by
      rw [hinstants, hexpires]
      exact h.time 1 (by rw [List.length_cons]; omega)
    obtain ⟨hmarked, hsession₃⟩ := markUploaded_of_open hsession₂ hopen hfile
    set s₃ : Store := { s₂ with
      sessions := (s₂.sessions.markUploaded (s₂.instants.time 0) sessionId entry.1).2
      instants := s₂.instants.advance }
    have hrun₃ : (markUploaded sessionId entry.1).run handler (s₂, b₂) = (.ok (), (s₃, b₂)) := by
      rw [← hmarked]
      exact Prog.run_ofExcept ..
    have hready₂ : Ready state.inboxDir s₂.fs := Ready.publish (s := s₁) hready hrun₂ hpublished.incoming
    refine ⟨_, s₃, b₂, ?_, .stored hplain htried hpublished hready₂, fun _ =>
      ⟨⟨_, hsession₃, hexpires, ?_⟩, ?_⟩⟩
    · rw [Prog.run_bind_ok _ hrun₂, Prog.run_bind_ok _ hrun₃]
      rfl
    · intro other hother
      obtain ⟨due, hdue, hwaiting⟩ := hfiles other (List.mem_cons_of_mem _ hother)
      have hne : other.1 ≠ entry.1 := fun he => hnodup (he ▸ List.mem_map_of_mem hother)
      exact ⟨due, hdue, by rw [BTreeMap.get?_adjust, if_neg hne, hwaiting]⟩
    · intro k hk
      have htime : s₃.instants.time k = s.instants.time (k + 2) := by
        change s₂.instants.time (k + 1) = _
        rw [hinstants]
        rfl
      rw [htime]
      exact h.time (k + 2) (by rw [List.length_cons]; omega)

end upload

/-! ### What is in the inbox afterwards -/

/-- The files are in the inbox of `fs'`, each under a name of its own that was
free in `fs`, and the rest of the inbox is as it was. -/
structure Stored {ι : Type} (inboxDir : Path) (fs fs' : Fs) (name : ι → String) (bytes : ι → Bytes)
    (files : Set ι) (target : ι → String) : Prop where
  distinct : Set.InjOn target files
  plain : ∀ i ∈ files, PlainName (name i)
  tried : ∀ i ∈ files, target i ∈ triedNames (name i)
  free : ∀ i ∈ files, fs.view (inboxDir ++ [target i]) = none
  there : ∀ i ∈ files, fs'.view (inboxDir ++ [target i]) = some (some (bytes i))
  frame : ∀ path, Outside inboxDir path →
    (∀ i ∈ files, resolve path ≠ resolve (inboxDir ++ [target i])) → fs'.view path = fs.view path

section stored

variable {ι : Type} {inboxDir : Path} {fs fs₁ fs' : Fs} {name : ι → String} {bytes : ι → Bytes}
  {files : Set ι} {target : ι → String}

theorem stored_empty (target : ι → String) : Stored inboxDir fs fs name bytes ∅ target :=
  ⟨Set.injOn_empty _, fun _ h => h.elim, fun _ h => h.elim, fun _ h => h.elim, fun _ h => h.elim,
    fun _ _ _ => rfl⟩

theorem resolve_name_ne {a b : String} (ha : NormalName a) (hb : NormalName b) (hne : a ≠ b) :
    resolve (inboxDir ++ [a]) ≠ resolve (inboxDir ++ [b]) := by
  rw [resolve_append_normal _ ha, resolve_append_normal _ hb]
  simpa using hne

/-- One file more, published before the others. -/
theorem Stored.insert [Primitives] [DecidableEq ι] {i : ι} {published : String} {written : WrittenUpload}
    (hplain : PlainName (name i)) (htried : published ∈ triedNames (name i))
    (hpublished : Published inboxDir fs fs₁ (bytes i) published written) (hi : i ∉ files)
    (h : Stored inboxDir fs₁ fs' name bytes files target) :
    Stored inboxDir fs fs' name bytes (Insert.insert i files) (Function.update target i published) := by
  have hold : ∀ j ∈ files, Function.update target i published j = target j := fun j hj =>
    Function.update_of_ne (show j ≠ i from fun he => hi (he ▸ hj)) ..
  have hnormal : ∀ j ∈ files, NormalName (target j) := fun j hj =>
    normalName_of_mem_triedNames (h.plain j hj) (h.tried j hj)
  -- the name is taken when the others are looked for, and so is the staging directory's
  have hne : ∀ j ∈ files, target j ≠ published := by
    intro j hj he
    have hfree := h.free j hj
    rw [he, hpublished.there] at hfree
    cases hfree
  have hincoming : ∀ j ∈ files, target j ≠ ".incoming" := by
    intro j hj he
    have hfree := h.free j hj
    rw [he, ← incomingDir, hpublished.incoming] at hfree
    cases hfree
  refine ⟨?_, ?_, ?_, ?_, ?_, fun path hpath hother => ?_⟩
  · refine (Set.injOn_insert hi).mpr ⟨h.distinct.congr fun j hj => (hold j hj).symm, ?_⟩
    rintro ⟨j, hj, he⟩
    rw [hold j hj, Function.update_self] at he
    exact hne j hj he
  · exact Set.forall_insert_of_forall h.plain hplain
  · refine Set.forall_insert_of_forall (fun j hj => ?_) ?_
    · rw [hold j hj]
      exact h.tried j hj
    · rwa [Function.update_self]
  · refine Set.forall_insert_of_forall (fun j hj => ?_) ?_
    · rw [hold j hj, ← hpublished.frame _ (outside_name (hnormal j hj) (hincoming j hj))
        (resolve_name_ne (hnormal j hj) hpublished.normal (hne j hj))]
      exact h.free j hj
    · rw [Function.update_self]
      exact hpublished.free
  · refine Set.forall_insert_of_forall (fun j hj => ?_) ?_
    · rw [hold j hj]
      exact h.there j hj
    · rw [Function.update_self, h.frame _ (outside_name hpublished.normal hpublished.notIncoming)
        fun j hj => resolve_name_ne hpublished.normal (hnormal j hj) (hne j hj).symm]
      exact hpublished.there
  · have hlast := hother i (Set.mem_insert _ _)
    rw [Function.update_self] at hlast
    rw [h.frame path hpath fun j hj => ?_, hpublished.frame path hpath hlast]
    have hj' := hother j (Set.mem_insert_of_mem _ hj)
    rwa [hold j hj] at hj'

theorem Stored.comp {κ : Type} {f : κ → ι} {names : Set κ} (hf : Function.Injective f)
    (h : Stored inboxDir fs fs' name bytes (f '' names) target) :
    Stored inboxDir fs fs' (name ∘ f) (bytes ∘ f) names (target ∘ f) where
  distinct := h.distinct.comp hf.injOn (Set.mapsTo_image f names)
  plain _ hi := h.plain _ (Set.mem_image_of_mem f hi)
  tried _ hi := h.tried _ (Set.mem_image_of_mem f hi)
  free _ hi := h.free _ (Set.mem_image_of_mem f hi)
  there _ hi := h.there _ (Set.mem_image_of_mem f hi)
  frame path hpath hother := h.frame path hpath (Set.forall_mem_image.mpr hother)

end stored

/-! ### The two ends -/

/-- What lies between the two: the frames a body arrives in, the offers that fit
the limit of the `Json` extractor, the address the server sees, and the text the
client shows of a status, or of a connection that ended without one. -/
structure Transport where
  frames : Bytes → List Bytes
  whole : ∀ bytes, (frames bytes).flatten = bytes
  fits : PrepareUploadRequest → Bool
  payloadTooLarge : String
  sourceIp : Option String
  shown : Option StatusCode → String

/-- The disk of the sender, and the receiver. -/
structure Talk where
  disk : Fs
  store : Store

def metadataOf (disk : Fs) (path : Path) : Except IoFailure Metadata :=
  match disk.view path with
  | none => .error (.os .notFound)
  | some none => .ok ⟨false, 0⟩
  | some (some bytes) => .ok ⟨true, .ofNat bytes.length⟩

/-- The client reads from its disk and posts to the handlers of the server. -/
def talk [Primitives] (net : Transport) (state : ServerState) : Prog.Handler SendOp SendOp.Resp Talk
  | .metadata path, t => (metadataOf t.disk path, t)
  | .read path, t => ((t.disk.read path).mapError .os, t)
  | .prepareUpload request, t =>
    if net.fits request then
      let ended := (prepareUpload state request net.sourceIp).run handler (t.store, .empty)
      (ended.1.mapError fun e => net.shown (apiError e), { t with store := ended.2.1 })
    else (.error net.payloadTooLarge, t)
  | .upload query _ body, t =>
    let ended := (writeUpload state query).run handler (t.store, ⟨net.frames body, false⟩)
    ((ended.1.map fun _ => ()).mapError fun e => net.shown (apiError e), { t with store := ended.2.1 })

/-! The answer to `prepare-upload`. -/

/-- The policy check touches the tables of peers only. -/
theorem run_authorized {state : ServerState} {s : Store} {b : Body} {peer : DeviceInfo}
    {sourceIp : Option String}
    (h : Authorized state s b peer sourceIp) :
    ∃ peers clock, (authorizePrepareUpload state peer sourceIp).run handler (s, b) =
      (.ok (), ({ s with peers, clock }, b)) := by
  rw [Authorized] at h
  cases hpolicy : state.receivePolicy with
  | auto =>
    rw [authorizePrepareUpload, hpolicy]
    exact ⟨s.peers, s.clock, rfl⟩
  | prompt =>
    rw [authorizePrepareUpload, hpolicy] at h
    cases h
  | trusted =>
    have hcases : (∃ e, (authorizePrepareUpload state peer sourceIp).run handler (s, b) =
      (.error e, (s, b)) ∧ _) ∨ _ := run_authorizePrepareUpload hpolicy
    rcases hcases with ⟨e, hrun, -⟩ | ⟨-, listed, -, ⟨-, hrun⟩ | ⟨-, e, s', hrun, -⟩⟩
    · rw [hrun] at h
      cases h
    · rw [hrun] at h ⊢
      by_cases hdb : state.trustDbPath.isSome
      · rw [run_recordTrusted hdb] at h ⊢
        exact ⟨_, _, Prod.ext h rfl⟩
      · rw [run_recordTrusted_none hdb]
        exact ⟨s.peers, s.clock, rfl⟩
    · rw [hrun] at h
      cases h

/-- The ids of an offer are valid when each file is under its own id. -/
theorem validateIds_of_own {entries : List (String × FileMeta)} {seen : List String}
    (hown : ∀ e ∈ entries, e.1 = e.2.id) (hnodup : (entries.map Prod.fst).Nodup)
    (hseen : ∀ e ∈ entries, e.1 ∉ seen) : validateIds entries seen = .ok () := by
  induction entries generalizing seen with
  | nil => rfl
  | cons e entries ih =>
    obtain ⟨hid, hrest⟩ := List.forall_mem_cons.mp hown
    rw [List.map_cons, List.nodup_cons] at hnodup
    rw [validateIds, if_neg (not_not.mpr hid), if_neg (hid ▸ hseen e List.mem_cons_self)]
    refine ih hrest hnodup.2 fun e' he' hmem => ?_
    rcases List.mem_cons.mp hmem with he | hmem
    · exact hnodup.1 (hid ▸ he ▸ List.mem_map_of_mem he')
    · exact hseen e' (List.mem_cons_of_mem _ he') hmem

section talk

variable [Primitives] (net : Transport) (state : ServerState)

/-- The upload of a file whose bytes are on the disk. -/
theorem run_uploadOne {pending : BTreeMap String PendingFile} {sessionId : String}
    {entry : String × String} {t : Talk} {file : PendingFile} (hfile : pending.get? entry.1 = some file)
    {bytes : Bytes} (hcontents : t.disk.contents file.path = some bytes)
    {r : Except LocalSendError StatusCode} {s' : Store} {b' : Body}
    (hrun : (writeUpload state ⟨sessionId, entry.1, entry.2⟩).run handler
      (t.store, ⟨net.frames bytes, false⟩) = (r, (s', b'))) :
    (uploadOne (.ok ()) pending sessionId entry).run (talk net state) t =
      ((r.map fun _ => ()).mapError fun e => .http (net.shown (apiError e)), { t with store := s' }) := by
  have hread : (readSource file.path).run (talk net state) t = (.ok bytes, t) := by
    simp [readSource, talk, Fs.read_eq_ok_iff.mpr hcontents, Except.mapError]
  have hpost : ∀ contentType, (postUpload ⟨sessionId, entry.1, entry.2⟩ contentType bytes).run
    (talk net state) t =
      ((r.map fun _ => ()).mapError fun e => .http (net.shown (apiError e)), { t with store := s' }) := by
    intro contentType
    simp only [postUpload, Prog.run_call, talk, hrun, Prog.run_ofExcept]
    cases r <;> rfl
  rw [uploadOne, hfile]
  exact (Prog.run_bind_ok _ hread).trans (hpost _)

/-- **The uploads of a client**, along the answer.  Each of them stores its
file, up to one the inbox does not take for its name. -/
theorem run_uploads {pending : BTreeMap String PendingFile} {sessionId : String} {expiresAt : ℕ}
    (name : String → String) (bytes : String → Bytes) {entries : List (String × String)} {t : Talk}
    (hfiles : ∀ entry ∈ entries, ∃ file, pending.get? entry.1 = some file ∧
      file.fileMeta.fileName = name entry.1 ∧ t.disk.contents file.path = some (bytes entry.1) ∧
      Declared file.fileMeta (bytes entry.1))
    (hnodup : (entries.map Prod.fst).Nodup)
    (hwaiting : Waiting t.store sessionId expiresAt (fun id => (pending.get? id).map PendingFile.fileMeta)
      entries)
    (hready : Ready state.inboxDir t.store.fs)
    (hroom : ∀ entry ∈ entries, PlainName (name entry.1) →
      Room state.inboxDir t.store.fs (name entry.1) entries.length) :
    ∃ r t' target, (Prog.each entries (uploadOne (.ok ()) pending sessionId)).run (talk net state) t =
        (r, t') ∧
      ((r = .ok () ∧
          Stored state.inboxDir t.store.fs t'.store.fs name bytes {id | id ∈ entries.map Prod.fst} target) ∨
        ∃ done entry todo, entries = done ++ entry :: todo ∧ ¬ PlainName (name entry.1) ∧
          r = .error (.http (net.shown (some .badRequest))) ∧
          Stored state.inboxDir t.store.fs t'.store.fs name bytes {id | id ∈ done.map Prod.fst} target) := by
  induction entries generalizing t with
  | nil =>
    refine ⟨.ok (), t, fun _ => "", rfl, .inl ⟨rfl, ?_⟩⟩
    simpa using stored_empty _
  | cons entry entries ih =>
    rw [List.map_cons, List.nodup_cons] at hnodup
    obtain ⟨file, hfile, hname, hcontents, hdeclared⟩ := hfiles entry List.mem_cons_self
    have hbytes : (⟨net.frames (bytes entry.1), false⟩ : Body).bytes = bytes entry.1 := net.whole _
    obtain ⟨r, s', b', hrun, houtcome, hnext⟩ := run_upload state hwaiting hnodup.1
      (show (pending.get? entry.1).map PendingFile.fileMeta = some file.fileMeta by rw [hfile]; rfl)
      ⟨net.frames (bytes entry.1), false⟩ (hbytes.symm ▸ hdeclared) rfl hready fun hplain => by
        rw [hname] at hplain ⊢
        exact (hroom entry List.mem_cons_self hplain).mono (by simp)
    rw [hname, hbytes] at houtcome
    have hone := run_uploadOne net state hfile hcontents hrun
    rw [Prog.each_cons]
    cases houtcome with
    | refused message hinvalid hsame =>
      refine ⟨_, _, fun _ => "", Prog.run_bind_error _ hone, .inr ⟨[], entry, entries, rfl, hinvalid, rfl, ?_⟩⟩
      rw [hsame]
      simpa using stored_empty _
    | @stored published written hplain htried hpublished hready' =>
      obtain ⟨r, t', target, hrest, hends⟩ := ih (t := { t with store := s' })
        (fun e he => hfiles e (List.mem_cons_of_mem _ he)) hnodup.2 (hnext rfl) hready' fun e he hplain' =>
          (hroom e (List.mem_cons_of_mem _ he) hplain').publish hplain' hpublished
      have hset : ∀ done : List (String × String), {id | id ∈ (entry :: done).map Prod.fst} =
          insert entry.1 {id | id ∈ done.map Prod.fst} := fun done => Set.ext fun id => by simp
      refine ⟨r, t', Function.update target entry.1 published, (Prog.run_bind_ok _ hone).trans hrest,
        hends.imp ?_ ?_⟩
      · rintro ⟨rfl, hstored⟩
        rw [hset]
        exact ⟨rfl, hstored.insert hplain htried hpublished hnodup.1⟩
      · rintro ⟨done, refused, todo, rfl, hinvalid, rfl, hstored⟩
        have hnot : entry.1 ∉ done.map Prod.fst := fun hmem =>
          hnodup.1 (by rw [List.map_append]; exact List.mem_append_left _ hmem)
        refine ⟨entry :: done, refused, todo, rfl, hinvalid, rfl, ?_⟩
        rw [hset]
        exact hstored.insert hplain htried hpublished hnot

/-- **The offer is accepted**: the answer has a token for every file, and the
tokens wait. -/
theorem run_prepare {t : Talk} (request : PrepareUploadRequest) (hfits : net.fits request = true)
    (hauthorized : Authorized state t.store .empty request.info net.sourceIp)
    (hown : ∀ id offered, request.files.get? id = some offered → id = offered.id)
    (hclock : t.store.instants.time (2 * request.files.len) <
      t.store.instants.time 0 + t.store.sessions.ttl) :
    ∃ prepared store, (postPrepareUpload request).run (talk net state) t =
        (.ok prepared, { t with store }) ∧ store.fs = t.store.fs ∧
      prepared.files.entries.map Prod.fst = request.files.entries.map Prod.fst ∧
      Waiting store prepared.sessionId (t.store.instants.time 0 + t.store.sessions.ttl)
        request.files.get? prepared.files.entries := by
  obtain ⟨peers, clock, hrun⟩ := run_authorized hauthorized
  have hvalid : validateFileIds request = .ok () := by
    refine validateIds_of_own (fun e he => hown _ _ (BTreeMap.get?_eq_some_iff.mpr he)) ?_ (by simp)
    exact request.files.sorted.imp ne_of_lt
  set session : Session :=
    ⟨t.store.instants.time 0 + t.store.sessions.ttl, issue t.store.uuids request.files⟩ with hsession
  set prepared : PreparedSession := ⟨t.store.uuids 0, session.files.map SessionFile.token⟩
  set store : Store := { t.store with
    peers, clock
    sessions := ⟨t.store.sessions.ttl, t.store.sessions.sessions.insert (t.store.uuids 0) session⟩
    uuids := fun k => t.store.uuids (k + (SessionOp.prepare request).draws)
    instants := t.store.instants.advance }
  have hprepare : (prepareUpload state request net.sourceIp).run handler (t.store, .empty) =
      (.ok prepared, (store, .empty)) := by
    rw [prepareUpload, Prog.run_bind_ok _ hrun, Prog.run_call, handler, exec, SessionManager.exec,
      SessionManager.prepare, hvalid]
    rfl
  have hkeys : prepared.files.entries.map Prod.fst = request.files.entries.map Prod.fst :=
    BTreeMap.keys_mapIdx.trans BTreeMap.keys_mapIdx
  refine ⟨prepared, store, ?_, rfl, hkeys, ⟨⟨session, ?_, rfl, fun entry hentry => ?_⟩, fun k hk => ?_⟩⟩
  · rw [postPrepareUpload, Prog.run_call, talk, if_pos hfits, hprepare]
    rfl
  · exact BTreeMap.get?_insert.trans (if_pos rfl)
  · have htoken : prepared.files.get? entry.1 = some entry.2 := BTreeMap.get?_eq_some_iff.mpr hentry
    rw [BTreeMap.get?_map, Option.map_eq_some_iff] at htoken
    obtain ⟨file, hfile, htoken⟩ := htoken
    obtain ⟨i, offered, hoffered, rfl⟩ := BTreeMap.get?_mapIdx.mp hfile
    refine ⟨offered, BTreeMap.get?_eq_some_iff.mpr (List.mem_of_getElem? hoffered), ?_⟩
    rw [hfile, ← htoken]
  · have hlength := congrArg List.length hkeys
    rw [List.length_map, List.length_map] at hlength
    refine lt_of_le_of_lt (t.store.instants.mono ?_) hclock
    rw [BTreeMap.len, ← hlength]
    omega

end talk

/-! ### A whole transfer -/

section transfer

variable [Primitives] [MimeGuess] {net : Transport} {state : ServerState} {paths : List Path}
  {name : ℕ → String} {bytes : ℕ → Bytes} {t : Talk}

/-- The files of the sender, by their place in the list. -/
structure Source (disk : Fs) (path : Path) (name : String) (bytes : Bytes) : Prop where
  named : sourceName path = .ok name
  contents : disk.contents path = some bytes
  size : bytes.length < 2 ^ 64

def offeredFile (index : ℕ) (path : Path) (name : String) (bytes : Bytes) : PendingFile :=
  ⟨path, pendingMeta index path ⟨true, .ofNat bytes.length⟩ bytes name⟩

/-- The first files of the list are offered. -/
def Offers (paths : List Path) (name : ℕ → String) (bytes : ℕ → Bytes) (count : ℕ)
    (pending : BTreeMap String PendingFile) : Prop :=
  ∀ id file, pending.get? id = some file ↔ ∃ i < count, ∃ path, paths[i]? = some path ∧
    id = pendingId i ∧ file = offeredFile i path (name i) (bytes i)

theorem Offers.insert {count : ℕ} {pending : BTreeMap String PendingFile}
    (h : Offers paths name bytes count pending) {path : Path} (hpath : paths[count]? = some path) :
    Offers paths name bytes (count + 1)
      (pending.insert (pendingId count) (offeredFile count path (name count) (bytes count))) := by
  intro id file
  rw [BTreeMap.get?_insert]
  split_ifs with hid
  · constructor
    · intro hfile
      exact ⟨count, Nat.lt_succ_self _, path, hpath, hid, (Option.some.inj hfile).symm⟩
    · rintro ⟨i, -, path', hpath', hid', rfl⟩
      obtain rfl := pendingId_injective (hid'.symm.trans hid)
      rw [Option.some.inj (hpath'.symm.trans hpath)]
  · rw [h id file]
    refine exists_congr fun i => and_congr_left fun ⟨_, _, hid', _⟩ => ?_
    have hne : i ≠ count := fun he => hid (he ▸ hid')
    omega

theorem Offers.mem_keys {count : ℕ} {pending : BTreeMap String PendingFile}
    (h : Offers paths name bytes count pending) (hcount : count ≤ paths.length) {id : String} :
    id ∈ pending.entries.map Prod.fst ↔ ∃ i < count, id = pendingId i := by
  rw [List.mem_map]
  constructor
  · rintro ⟨⟨id, file⟩, hentry, rfl⟩
    obtain ⟨i, hi, path, -, hid, -⟩ := (h id file).mp (BTreeMap.get?_eq_some_iff.mpr hentry)
    exact ⟨i, hi, hid⟩
  · rintro ⟨i, hi, rfl⟩
    have hpath := List.getElem?_eq_getElem (hi.trans_le hcount)
    exact ⟨_, BTreeMap.get?_eq_some_iff.mp ((h _ _).mpr ⟨i, hi, _, hpath, rfl, rfl⟩), rfl⟩

theorem Offers.len_le {count : ℕ} {pending : BTreeMap String PendingFile}
    (h : Offers paths name bytes count pending) (hcount : count ≤ paths.length) : pending.len ≤ count := by
  have hnodup : (pending.entries.map Prod.fst).Nodup := pending.sorted.imp ne_of_lt
  have hsub : pending.entries.map Prod.fst ⊆ (List.range count).map pendingId := by
    intro id hid
    obtain ⟨i, hi, rfl⟩ := (h.mem_keys hcount).mp hid
    exact List.mem_map_of_mem (List.mem_range.mpr hi)
  simpa [BTreeMap.len] using (hnodup.subperm hsub).length_le

theorem declared_offeredFile {index : ℕ} {path : Path} {name : String} {bytes : Bytes}
    (h : bytes.length < 2 ^ 64) : Declared (offeredFile index path name bytes).fileMeta bytes := by
  refine ⟨?_, fun expected hexpected => ?_⟩
  · exact (UInt64.toNat_ofNat_of_lt' h).symm
  · obtain rfl := Option.some.inj hexpected
    simp [eqIgnoreAsciiCase]

/-- **The files are offered** as they are on the disk. -/
theorem run_pendingFrom (net : Transport) (state : ServerState)
    (hsource : ∀ i path, paths[i]? = some path → Source t.disk path (name i) (bytes i))
    {index : ℕ} {rest : List Path} (hrest : paths.drop index = rest)
    (files : BTreeMap String PendingFile) (hfiles : Offers paths name bytes index files) :
    ∃ pending, (pendingFrom index rest files).run (talk net state) t = (.ok pending, t) ∧
      Offers paths name bytes paths.length pending := by
  induction rest generalizing index files with
  | nil =>
    refine ⟨files, rfl, fun id file => (hfiles id file).trans ?_⟩
    have hle : paths.length ≤ index := List.drop_eq_nil_iff.mp hrest
    refine exists_congr fun i => and_congr_left fun ⟨path, hpath, _⟩ => ?_
    have := (List.getElem?_eq_some_iff.mp hpath).1
    omega
  | cons path rest ih =>
    have hindex : paths[index]? = some path := by
      rw [← List.head?_drop, hrest]
      rfl
    have hnext : paths.drop (index + 1) = rest := by
      rw [← List.tail_drop, hrest]
      rfl
    obtain ⟨hname, hcontents, hsize⟩ := hsource index path hindex
    have hmetadata : (metadata path).run (talk net state) t =
        (.ok ⟨true, .ofNat (bytes index).length⟩, t) := by
      simp [metadata, talk, metadataOf, Fs.view_eq_file_iff.mpr hcontents, Except.mapError]
    have hread : (readSource path).run (talk net state) t = (.ok (bytes index), t) := by
      simp [readSource, talk, Fs.read_eq_ok_iff.mpr hcontents, Except.mapError]
    obtain ⟨pending, hrun, hoffers⟩ := ih hnext _ (hfiles.insert hindex)
    refine ⟨pending, ?_, hoffers⟩
    rw [pendingFrom, Prog.run_bind_ok _ hmetadata, if_pos rfl, Prog.run_bind_ok _ hread, hname]
    exact hrun

/-- The uploads, with the files by their place in the list. -/
theorem run_offered (net : Transport) (state : ServerState)
    (hsource : ∀ i path, paths[i]? = some path → Source t.disk path (name i) (bytes i))
    {pending : BTreeMap String PendingFile} (hoffers : Offers paths name bytes paths.length pending)
    {prepared : PreparedSession} {expiresAt : ℕ}
    (hkeys : prepared.files.entries.map Prod.fst = pending.entries.map Prod.fst)
    (hwaiting : Waiting t.store prepared.sessionId expiresAt
      (fun id => (pending.get? id).map PendingFile.fileMeta) prepared.files.entries)
    (hready : Ready state.inboxDir t.store.fs)
    (hroom : ∀ i < paths.length, PlainName (name i) →
      Room state.inboxDir t.store.fs (name i) paths.length) :
    ∃ r t' target, (Prog.each prepared.files.entries (uploadOne (.ok ()) pending prepared.sessionId)).run
        (talk net state) t = (r, t') ∧
      ((r = .ok () ∧
          Stored state.inboxDir t.store.fs t'.store.fs name bytes {i | i < paths.length} target) ∨
        ∃ i < paths.length, ¬ PlainName (name i) ∧
          r = .error (.http (net.shown (some .badRequest))) ∧
          Stored state.inboxDir t.store.fs t'.store.fs name bytes
            {j | j < paths.length ∧ pendingId j < pendingId i} target) := by
  -- the place of a file, by its id
  let index : String → ℕ := Function.invFun pendingId
  have hindex : index ∘ pendingId = id := (Function.leftInverse_invFun pendingId_injective).id
  have hentry : ∀ entry ∈ prepared.files.entries, ∃ i < paths.length,
      entry.1 = pendingId i ∧ index entry.1 = i := by
    intro entry hentry
    obtain ⟨i, hi, hid⟩ := (hoffers.mem_keys le_rfl).mp (hkeys ▸ List.mem_map_of_mem hentry)
    exact ⟨i, hi, hid, hid ▸ congrFun hindex i⟩
  have hlength : prepared.files.entries.length ≤ paths.length := by
    have heq : prepared.files.entries.length = pending.len := by
      simpa [BTreeMap.len] using congrArg List.length hkeys
    exact heq ▸ hoffers.len_le le_rfl
  -- what is stored by its id is stored by its place
  have hplaces : ∀ {t' : Talk} {ids : Set String} {places : Set ℕ} {target : String → String},
      ids = pendingId '' places →
      Stored state.inboxDir t.store.fs t'.store.fs (name ∘ index) (bytes ∘ index) ids target →
      Stored state.inboxDir t.store.fs t'.store.fs name bytes places (target ∘ pendingId) := by
    rintro t' ids places target rfl hstored
    have hcomp := hstored.comp pendingId_injective
    rwa [Function.comp_assoc, Function.comp_assoc, hindex] at hcomp
  obtain ⟨r, t', target, hrun, hends⟩ := run_uploads net state (name ∘ index) (bytes ∘ index)
    (fun entry he => by
      obtain ⟨i, hi, hid, hi'⟩ := hentry entry he
      have hpath := List.getElem?_eq_getElem hi
      refine ⟨_, (hoffers _ _).mpr ⟨i, hi, _, hpath, hid, rfl⟩, ?_⟩
      simp only [Function.comp, hi']
      exact ⟨rfl, (hsource i _ hpath).contents, declared_offeredFile (hsource i _ hpath).size⟩)
    (hkeys ▸ pending.sorted.imp ne_of_lt) hwaiting hready (fun entry he hplain => by
      obtain ⟨i, hi, hid, hi'⟩ := hentry entry he
      simp only [Function.comp, hi'] at hplain ⊢
      exact (hroom i hi hplain).mono hlength)
  refine ⟨r, t', target ∘ pendingId, hrun, hends.imp ?_ ?_⟩
  · rintro ⟨rfl, hstored⟩
    refine ⟨rfl, hplaces (Set.ext fun id => ?_) hstored⟩
    rw [Set.mem_ofPred_eq, hkeys, hoffers.mem_keys le_rfl]
    simp [eq_comm]
  · rintro ⟨done, entry, todo, heq, hinvalid, rfl, hstored⟩
    obtain ⟨i, hi, hid, hi'⟩ := hentry entry (by rw [heq]; simp)
    rw [Function.comp, hi'] at hinvalid
    refine ⟨i, hi, hinvalid, rfl, hplaces (Set.ext fun id => ?_) hstored⟩
    rw [Set.mem_ofPred_eq, BTreeMap.mem_keys_before heq, hkeys, hoffers.mem_keys le_rfl, hid]
    constructor
    · rintro ⟨⟨j, hj, rfl⟩, hlt⟩
      exact ⟨j, ⟨hj, hlt⟩, rfl⟩
    · rintro ⟨j, ⟨hj, hlt⟩, rfl⟩
      exact ⟨⟨j, hj, rfl⟩, hlt⟩

/-- **What is sent arrives.**  The receiver takes the offer and lets the sender
in, its inbox can be written to and has room, and its clock does not reach the
end of the session.  Then the files of the sender are in the inbox, each with
its bytes and under a name of its own that was free before, and the rest of the
inbox is as it was; or one of the names is not plain.  In this case the client
fails with the answer 400, and the files that are in the inbox are those with a
smaller id. -/
theorem send_delivers (hpaths : paths ≠ []) (sender : DeviceInfo)
    (hsource : ∀ i path, paths[i]? = some path → Source t.disk path (name i) (bytes i))
    (hfits : ∀ pending, Offers paths name bytes paths.length pending →
      net.fits ⟨sender, pending.map PendingFile.fileMeta⟩ = true)
    (hauthorized : Authorized state t.store .empty sender net.sourceIp)
    (hready : Ready state.inboxDir t.store.fs)
    (hroom : ∀ i < paths.length, PlainName (name i) →
      Room state.inboxDir t.store.fs (name i) paths.length)
    (hclock : t.store.instants.time (2 * paths.length) <
      t.store.instants.time 0 + t.store.sessions.ttl) :
    ∃ r t' target, (sendFilesToUrl (.ok ()) paths sender).run (talk net state) t = (r, t') ∧
      ((r = .ok () ∧
          Stored state.inboxDir t.store.fs t'.store.fs name bytes {i | i < paths.length} target) ∨
        ∃ i < paths.length, ¬ PlainName (name i) ∧
          r = .error (.http (net.shown (some .badRequest))) ∧
          Stored state.inboxDir t.store.fs t'.store.fs name bytes
            {j | j < paths.length ∧ pendingId j < pendingId i} target) := by
  have hnone : Offers paths name bytes 0 .empty := fun id file =>
    iff_of_false (by simp) fun ⟨_, hi, _⟩ => absurd hi (Nat.not_lt_zero _)
  obtain ⟨pending, hpending, hoffers⟩ := run_pendingFrom net state hsource List.drop_zero _ hnone
  have hlen : pending.len ≤ paths.length := hoffers.len_le le_rfl
  set request : PrepareUploadRequest := ⟨sender, pending.map PendingFile.fileMeta⟩ with hrequest
  have hrequestKeys : request.files.entries.map Prod.fst = pending.entries.map Prod.fst := BTreeMap.keys_mapIdx
  have hrequestLen : request.files.len = pending.len := by
    simpa [BTreeMap.len] using congrArg List.length hrequestKeys
  obtain ⟨prepared, store, hprepare, hfs, hkeys, hwaiting⟩ :=
    run_prepare net state request (hfits pending hoffers)
    hauthorized
    (fun id offered hoffered => by
      rw [BTreeMap.get?_map, Option.map_eq_some_iff] at hoffered
      obtain ⟨file, hfile, rfl⟩ := hoffered
      obtain ⟨i, -, path, -, rfl, rfl⟩ := (hoffers id file).mp hfile
      rfl)
    (lt_of_le_of_lt (t.store.instants.mono (by omega)) hclock)
  rw [hrequestKeys] at hkeys
  have hgoes : (sendFilesToUrl (.ok ()) paths sender).run (talk net state) t =
      (Prog.each prepared.files.entries (uploadOne (.ok ()) pending prepared.sessionId)).run (talk net state)
        { t with store } := by
    rw [sendFilesToUrl, if_neg hpaths, pendingFiles, Prog.run_bind_ok _ hpending]
    exact Prog.run_bind_ok _ hprepare
  have hmetas : request.files.get? = fun id => (pending.get? id).map PendingFile.fileMeta :=
    funext fun id => BTreeMap.get?_map
  have hends := run_offered (t := { t with store }) net state hsource hoffers hkeys (hmetas ▸ hwaiting)
    (hfs.symm ▸ hready) (hfs.symm ▸ hroom)
  rw [hgoes]
  rwa [hfs] at hends

end transfer

/-- A connection that delivers a body in one frame. -/
def Transport.plain : Transport where
  frames bytes := [bytes]
  whole := List.append_nil
  fits _ := true
  payloadTooLarge := ""
  sourceIp := none
  shown _ := ""

/-- A sender with one file, and a receiver that has just started. -/
def oneFileTalk : Talk where
  disk := (Fs.empty.write ["a.txt"] [7]).toOption.getD .empty
  store := .fresh 60

theorem ready_empty (inboxDir : Path) : Ready inboxDir .empty := by
  refine ⟨Fs.dirOk_empty _, fun name hname hdir => ?_⟩
  have hlookup := Fs.view_eq_dir_iff.mp hdir
  rw [Fs.lookup, resolve_append_normal _ hname] at hlookup
  simp [Fs.empty] at hlookup

/-- A file that is sent twice arrives twice. -/
theorem send_delivers_twice : ∃ r t' target,
    (@sendFilesToUrl .sample ⟨fun _ => none⟩ (.ok ()) [["a.txt"], ["a.txt"]] oneFileOffer.info).run
      (@talk .sample .plain openServer) oneFileTalk = (r, t') ∧ r = .ok () ∧
    Stored ["inbox"] .empty t'.store.fs (fun _ => "a.txt") (fun _ => [7]) {i | i < 2} target := by
  have hsource : ∀ (i : ℕ) (path : Path), [["a.txt"], ["a.txt"]][i]? = some path →
      Source oneFileTalk.disk path "a.txt" [7] := by
    intro i path hpath
    obtain rfl : path = ["a.txt"] := by simpa using List.mem_of_getElem? hpath
    exact ⟨by decide +kernel, by decide +kernel, by decide⟩
  have hroom : Room ["inbox"] .empty "a.txt" 2 := by
    have hnames : ∀ name ∈ ["a.txt", "a (1).txt"], nameFits name ∧ name ≠ ".incoming" ∧
        Fs.empty.view (["inbox"] ++ [name]) = none := by decide +kernel
    obtain ⟨rest, htried⟩ : ∃ rest, triedNames "a.txt" = ["a.txt", "a (1).txt"] ++ rest := by
      refine ⟨(List.range' 2 (2 ^ 32 - 3)).map (suffixedName "a.txt"), ?_⟩
      have hfirst : suffixedName "a.txt" 1 = "a (1).txt" := by decide +kernel
      rw [triedNames, show 2 ^ 32 - 2 = 2 ^ 32 - 3 + 1 from rfl, List.range'_succ, List.map_cons, hfirst]
      rfl
    refine ⟨{"a.txt", "a (1).txt"}, by decide, fun name hname => ?_⟩
    have hmem : name ∈ ["a.txt", "a (1).txt"] := by simpa using hname
    rw [htried, List.takeWhile_append_of_pos fun other hother => (hnames other hother).1]
    exact ⟨List.mem_append_left _ hmem, (hnames name hmem).2⟩
  obtain ⟨r, t', target, hrun, ⟨hr, hstored⟩ | ⟨i, -, hinvalid, -⟩⟩ :=
    @send_delivers .sample ⟨fun _ => none⟩ .plain openServer [["a.txt"], ["a.txt"]] (fun _ => "a.txt")
      (fun _ => [7]) oneFileTalk (by simp) oneFileOffer.info hsource (fun _ _ => rfl) rfl (ready_empty _)
      (fun _ _ _ => hroom) (by decide)
  · exact ⟨r, t', target, hrun, hr, hstored⟩
  · exact absurd (by decide) hinvalid

end NightBridge.LocalSend
