/-
# What an upload does

`Progress` sums up the calls an upload has made: the file it has created, the
bytes it has read and written, whether the body has ended, and what it has
renamed.  `Writes` says which call may come next: the body is copied to the file
read by read, each write at the end of the writes before it, and the rename
comes once, last, when all that was read has been written.
`InboxWriter::write_upload` keeps to it whatever its calls are answered
(`wp_inboxWriter`), so it holds under any interleaving with other requests.

`wp_writeUpload` adds the calls of the session manager around it, and says what
the outcome of the handler tells about its calls.
-/

import NightBridge.Effect.Trace
import NightBridge.LocalSend.Server

namespace NightBridge.LocalSend

open Data Effect

abbrev Calls := History Op Resp

/-- What an upload has done. -/
@[ext]
structure Progress where
  created : List (Path × ℕ)
  read : Bytes
  written : Bytes
  finished : Bool
  renamed : List (Path × Path)

def Progress.after (d : Progress) : Event Op Resp → Progress
  | ⟨.create path, .ok file⟩ => { d with created := d.created ++ [(path, file)] }
  | ⟨.readBody _, .ok bytes⟩ => { d with
    read := d.read ++ bytes
    finished := d.finished || bytes.isEmpty }
  | ⟨.writeAll _ _ bytes, .ok ()⟩ => { d with written := d.written ++ bytes }
  | ⟨.rename source target, .ok ()⟩ => { d with renamed := d.renamed ++ [(source, target)] }
  | _ => d

def progress (hist : Calls) : Progress := hist.foldl Progress.after ⟨[], [], [], false, []⟩

@[simp] theorem progress_nil : progress [] = ⟨[], [], [], false, []⟩ := rfl

@[simp] theorem progress_concat (hist : Calls) (e : Event Op Resp) :
    progress (hist ++ [e]) = (progress hist).after e := by
  rw [progress, List.foldl_append]
  rfl

/-- A path directly below the inbox, or below its staging directory. -/
def Below (dir path : Path) : Prop := ∃ name, path = dir ++ [name] ∧ NormalName name

theorem Below.ne_name {inboxDir staged : Path} (h : Below (incomingDir inboxDir) staged)
    (name : String) :
    resolve (inboxDir ++ [name]) ≠ resolve staged := by
  obtain ⟨part, rfl, hpart⟩ := h
  intro he
  have hlen := length_resolve_append_le inboxDir name
  rw [he, resolve_append_normal _ hpart, incomingDir, resolve_append_normal inboxDir (by decide)] at hlen
  simp only [List.length_append, List.length_singleton] at hlen
  omega

theorem Below.ne_staged {inboxDir path staged : Path} (h : Below inboxDir path)
    (hs : Below (incomingDir inboxDir) staged) : resolve path ≠ resolve staged := by
  obtain ⟨name, rfl, -⟩ := h
  exact hs.ne_name name

/-- The calls of the inbox writer, by what it has done before. -/
def Progress.Allows (inboxDir : Path) (d : Progress) : Op → Prop
  | .newUuid | .tryExists _ => True
  | .createDirAll path => path = incomingDir inboxDir ∨ path = inboxDir
  | .create path => d = ⟨[], [], [], false, []⟩ ∧ Below (incomingDir inboxDir) path
  | .readBody max => 0 < max ∧ d.written = d.read ∧ d.finished = false ∧ d.renamed = []
  | .writeAll file offset bytes => (∃ path, d.created = [(path, file)]) ∧ offset = d.written.length ∧
    bytes ≠ [] ∧ d.read = d.written ++ bytes ∧ d.renamed = []
  | .rename source target => (∃ file, d.created = [(source, file)]) ∧ d.written = d.read ∧
    d.finished = true ∧ Below inboxDir target ∧ d.renamed = []
  | _ => False

def Writes (inboxDir : Path) (hist : Calls) (o : Op) : Prop := (progress hist).Allows inboxDir o

def Stages (inboxDir : Path) (hist : Calls) (o : Op) : Prop :=
  Writes inboxDir hist o ∧ ∀ source target, o ≠ .rename source target

theorem stages_of {inboxDir : Path} {hist : Calls} {o : Op} {d : Progress} (hd : progress hist = d)
    (ho : d.Allows inboxDir o) (hne : ∀ source target, o ≠ .rename source target) :
    Stages inboxDir hist o :=
  ⟨by rw [Writes, hd]; exact ho, hne⟩

theorem renamed_after {d : Progress} {o : Op} (hne : ∀ source target, o ≠ .rename source target)
    (r : Resp o) : (d.after ⟨o, r⟩).renamed = d.renamed := by
  cases o with
  | rename source target => exact absurd rfl (hne source target)
  | create path => cases r <;> rfl
  | readBody max => cases r <;> rfl
  | writeAll file offset bytes => cases r <;> rfl
  | _ => rfl

/-- A call creates a file, or the created files are as before. -/
theorem created_after (d : Progress) (o : Op) (r : Resp o) : (d.after ⟨o, r⟩).created = d.created ∨
    ∃ path file, o = .create path ∧ (d.after ⟨o, r⟩).created = d.created ++ [(path, file)] := by
  cases o with
  | create path =>
    cases r with
    | error e => exact .inl rfl
    | ok file => exact .inr ⟨path, file, rfl, rfl⟩
  | readBody max => cases r <;> exact .inl rfl
  | writeAll file offset bytes => cases r <;> exact .inl rfl
  | rename source target => cases r <;> exact .inl rfl
  | _ => exact .inl rfl

theorem Writes.below {inboxDir : Path} {hist : Calls} {o : Op} (ho : Writes inboxDir hist o) (r : Resp o)
    (h : ∀ e ∈ (progress hist).created, Below (incomingDir inboxDir) e.1) :
    ∀ e ∈ (progress (hist ++ [⟨o, r⟩])).created, Below (incomingDir inboxDir) e.1 := by
  rw [progress_concat]
  rcases created_after (progress hist) o r with heq | ⟨path, file, rfl, heq⟩
  · rwa [heq]
  · rw [heq]
    intro e he
    rcases List.mem_append.mp he with he | he
    · exact h e he
    · rw [List.mem_singleton.mp he]
      exact ho.2

/-! ### The calls one by one -/

section calls

variable {G : Calls → Op → Prop} {hist : Calls}

@[simp] theorem wp_orIo {α : Type} {r : Except IoFailure α} {Q : Calls → α → Prop} :
    (orIo r).wp G Q hist ↔ ∀ a, r = .ok a → Q hist a :=
  Prog.wp_ofExcept_mapError

end calls

-- `wp` unfolds along its program, which is not to compute names
attribute [local irreducible] sanitized

section writer

variable {inboxDir : Path} {d : Progress} {hist : Calls}

theorem wp_safeIdentifier (value : String) (hd : progress hist = d) :
    (safeIdentifier value).wp (Stages inboxDir) (fun h _ => progress h = d) hist := by
  refine Prog.wp_ite (fun _ => ⟨stages_of hd trivial nofun, fun r => ?_⟩) fun _ => hd
  rw [Prog.wp_ret, progress_concat, hd]
  rfl

theorem wp_incomingFileName (upload : AuthorizedUpload) (hd : progress hist = d) :
    (incomingFileName upload).wp (Stages inboxDir)
      (fun h name => progress h = d ∧ NormalName name) hist := by
  refine Prog.wp_bind_of (wp_safeIdentifier upload.sessionId hd) fun h session _ hd => ?_
  refine Prog.wp_bind_of (wp_safeIdentifier upload.fileId hd) fun h' file _ hd => ?_
  exact ⟨hd, normalName_part _⟩

theorem wp_createDirAll {path : Path} (hpath : path = incomingDir inboxDir ∨ path = inboxDir)
    (hd : progress hist = d) :
    (createDirAll path).wp (Stages inboxDir) (fun h _ => progress h = d) hist := by
  refine ⟨stages_of hd hpath nofun, fun r => wp_orIo.mpr fun _ _ => ?_⟩
  rw [progress_concat, hd]
  rfl

/-- The copying loop: what was read has been written, and the body has ended when it
returns. -/
theorem wp_copyBody {size file : ℕ} {path : Path} (rounds : ℕ) {copied : Bytes}
    (hd : progress hist = ⟨[(path, file)], copied, copied, false, []⟩) :
    (copyBody size file rounds copied).wp (Stages inboxDir)
      (fun h bytes => progress h = ⟨[(path, file)], bytes, bytes, true, []⟩) hist := by
  induction rounds generalizing hist copied with
  | zero => trivial
  | succ rounds ih =>
    refine ⟨stages_of hd ⟨by decide, rfl, rfl, rfl⟩ nofun, fun r => ?_⟩
    refine Prog.wp_bind.mpr (wp_orIo.mpr fun bytes hr => ?_)
    subst hr
    by_cases hend : bytes = []
    · subst hend
      rw [if_pos rfl, Prog.wp_pure, progress_concat, hd]
      simp [Progress.after]
    · rw [if_neg hend]
      refine Prog.wp_ite (fun _ => trivial) fun _ => ?_
      -- the read has not been written yet
      have hread : progress (hist ++ [⟨.readBody 8192, .ok bytes⟩]) =
          ⟨[(path, file)], copied ++ bytes, copied, false, []⟩ := by
        rw [progress_concat, hd]
        simp [Progress.after, hend]
      refine ⟨stages_of hread ⟨⟨path, rfl⟩, rfl, hend, rfl, rfl⟩ nofun, fun r => ?_⟩
      refine Prog.wp_bind.mpr (wp_orIo.mpr fun u hr => ih ?_)
      subst hr
      rw [progress_concat, hread]
      rfl

theorem normalName_suffixedName (fileName : String) (suffix : ℕ) :
    NormalName (suffixedName fileName suffix) := by
  refine normalName_of_mem '(' ?_ (by decide)
  unfold suffixedName
  cases fileExtension fileName <;> simp [String.toList_append]

theorem progress_tryExists {path : Path} {r : Except IoFailure Bool} (hd : progress hist = d) :
    progress (hist ++ [⟨.tryExists path, r⟩]) = d := by
  rw [progress_concat, hd]
  rfl

/-- The name was free just now. -/
def Probed (hist : Calls) (target : Path) : Prop := hist.getLast? = some ⟨.tryExists target, .ok false⟩

theorem wp_firstAvailable (fileName : String) (suffixes : List ℕ) (hd : progress hist = d) :
    (firstAvailable inboxDir fileName suffixes).wp (Stages inboxDir)
      (fun h target => progress h = d ∧ Below inboxDir target ∧ Probed h target) hist := by
  induction suffixes generalizing hist with
  | nil => trivial
  | cons suffix suffixes ih =>
    refine ⟨stages_of hd trivial nofun, fun r => Prog.wp_bind.mpr (wp_orIo.mpr fun found hr => ?_)⟩
    refine Prog.wp_ite (fun _ => ih (progress_tryExists hd)) fun hfree => ?_
    exact ⟨progress_tryExists hd, ⟨_, rfl, normalName_suffixedName fileName suffix⟩,
      by simp [Probed, hr, Bool.eq_false_of_not_eq_true hfree]⟩

theorem wp_nextAvailableTarget {fileName : String} (hname : NormalName fileName)
    (hd : progress hist = d) :
    (nextAvailableTarget inboxDir fileName).wp (Stages inboxDir)
      (fun h target => progress h = d ∧ Below inboxDir target ∧ Probed h target) hist := by
  refine ⟨stages_of hd trivial nofun, fun r => Prog.wp_bind.mpr (wp_orIo.mpr fun found hr => ?_)⟩
  refine Prog.wp_ite (fun _ => wp_firstAvailable fileName _ (progress_tryExists hd)) fun hfree => ?_
  exact ⟨progress_tryExists hd, ⟨fileName, rfl, hname⟩,
    by simp [Probed, hr, Bool.eq_false_of_not_eq_true hfree]⟩

/-- **Staging**: the body is on the disk, all of it, and nothing has been
renamed. -/
theorem wp_stage [Primitives] (upload : AuthorizedUpload)
    (hd : progress hist = ⟨[], [], [], false, []⟩) :
    (InboxWriter.stage ⟨inboxDir⟩ upload).wp (Stages inboxDir)
      (fun h staged => (∃ file, progress h =
          ⟨[(staged.incomingPath, file)], staged.bytes, staged.bytes, true, []⟩) ∧
        Below inboxDir staged.targetPath ∧ Probed h staged.targetPath ∧
        staged.sha256 = sha256Hex staged.bytes) hist := by
  unfold InboxWriter.stage validateFileName
  refine Prog.wp_bind.mpr (Prog.wp_ite (fun hname => ?_) fun _ => trivial)
  refine Prog.wp_bind_of (wp_createDirAll (.inl rfl) hd) fun h _ _ hd => ?_
  refine Prog.wp_bind_of (wp_createDirAll (.inr rfl) hd) fun h _ _ hd => ?_
  refine Prog.wp_bind_of (wp_incomingFileName upload hd) fun h name _ ⟨hd, hpart⟩ => ?_
  refine ⟨stages_of hd ⟨rfl, name, rfl, hpart⟩ nofun, fun r => ?_⟩
  refine Prog.wp_bind.mpr (wp_orIo.mpr fun file hr => ?_)
  subst hr
  have hcreated : progress (h ++ [⟨.create (incomingDir inboxDir ++ [name]), .ok file⟩]) =
      ⟨[(incomingDir inboxDir ++ [name], file)], [], [], false, []⟩ := by
    rw [progress_concat, hd]
    rfl
  refine Prog.wp_bind_of (wp_copyBody _ hcreated) fun h bytes _ hd => ?_
  refine Prog.wp_bind.mpr (Prog.wp_ofExcept.mpr fun sha256 hcheck => ?_)
  refine Prog.wp_bind_of (wp_nextAvailableTarget hname.2.2.2 hd)
    fun h target _ ⟨hd, hbelow, hprobed⟩ => ?_
  exact ⟨⟨file, hd⟩, hbelow, hprobed, checkBody_ok hcheck⟩

theorem writes_rename {source target : Path} {file : ℕ} {bytes : Bytes}
    (hd : progress hist = ⟨[(source, file)], bytes, bytes, true, []⟩) (hbelow : Below inboxDir target) :
    Writes inboxDir hist (.rename source target) := by
  rw [Writes, hd]
  exact ⟨⟨file, rfl⟩, rfl, rfl, hbelow, rfl⟩

/-- **What `InboxWriter::write_upload` does.**  It renames to a name that it has
just found free. -/
theorem wp_inboxWriter_probed [Primitives] (upload : AuthorizedUpload)
    (hd : progress hist = ⟨[], [], [], false, []⟩) :
    (InboxWriter.writeUpload ⟨inboxDir⟩ upload).wp
      (fun h o => Writes inboxDir h o ∧ ∀ source target, o = .rename source target → Probed h target)
      (fun h w => ∃ source file bytes, progress h =
          ⟨[(source, file)], bytes, bytes, true, [(source, w.path)]⟩ ∧
        w.bytesWritten = bytes.length ∧ w.sha256 = sha256Hex bytes) hist := by
  refine Prog.wp_bind_of (Prog.wp_mono (wp_stage upload hd)
    (fun _ _ _ ho => ⟨ho.1, fun source target he => absurd he (ho.2 source target)⟩) fun _ _ _ hQ => hQ)
    fun h staged _ ⟨⟨file, hd⟩, hbelow, hprobed, hsha⟩ => ?_
  refine ⟨⟨writes_rename hd hbelow, fun _ _ he => (Op.rename.inj he).2 ▸ hprobed⟩, fun r => ?_⟩
  refine Prog.wp_bind.mpr (wp_orIo.mpr fun u hr => ?_)
  subst hr
  refine ⟨staged.incomingPath, file, staged.bytes, ?_, rfl, hsha⟩
  rw [progress_concat, hd]
  rfl

theorem wp_inboxWriter [Primitives] (upload : AuthorizedUpload)
    (hd : progress hist = ⟨[], [], [], false, []⟩) :
    (InboxWriter.writeUpload ⟨inboxDir⟩ upload).wp (Writes inboxDir)
      (fun h w => ∃ source file bytes, progress h =
          ⟨[(source, file)], bytes, bytes, true, [(source, w.path)]⟩ ∧
        w.bytesWritten = bytes.length ∧ w.sha256 = sha256Hex bytes) hist :=
  Prog.wp_mono (wp_inboxWriter_probed upload hd) (fun _ _ _ ho => ho.1) fun _ _ _ hQ => hQ

/-- An error of `InboxWriter::write_upload` comes before anything is renamed;
when it returns, one file has been. -/
theorem wp_inboxWriter_attempt [Primitives] {ε : Type} (upload : AuthorizedUpload)
    (hd : progress hist = ⟨[], [], [], false, []⟩) :
    ((InboxWriter.writeUpload ⟨inboxDir⟩ upload).attempt : Prog Op Resp ε _).wp (Writes inboxDir)
      (fun h r => (progress h).renamed.length = if r.isOk then 1 else 0) hist := by
  have hstage : ((InboxWriter.stage ⟨inboxDir⟩ upload).attempt : Prog Op Resp ε _).wp
      (Writes inboxDir) _ hist :=
    Prog.wp_mono (Prog.wp_inv (I := fun h => (progress h).renamed = [])
      (Prog.wp_attempt (wp_stage upload hd))
      (fun h o r ho hI => by rw [progress_concat, renamed_after ho.2, hI]) (by rw [hd]))
      (fun _ _ _ ho => ho.1.1) fun _ _ _ hQ => hQ
  refine Prog.wp_attempt_bind_of hstage (fun h staged _ ⟨hstaged, _⟩ => ?_) fun h e _ ⟨_, hnone⟩ => ?_
  · obtain ⟨⟨file, hd⟩, hbelow, -⟩ := hstaged staged rfl
    refine ⟨writes_rename hd hbelow, fun r => ?_⟩
    cases r with
    | ok u =>
      show (progress _).renamed.length = 1
      rw [progress_concat, hd]
      rfl
    | error e =>
      show (progress _).renamed.length = 0
      rw [progress_concat, hd]
      rfl
  · rw [hnone]
    rfl

end writer

/-! ### The handler -/

/-- The files a request has published. -/
def published (hist : Calls) : List Path := (progress hist).renamed.map Prod.snd

/-- The session and the file the request was authorized for. -/
def authorized (hist : Calls) : List (String × String) :=
  hist.filterMap fun
    | ⟨.session (.authorizeUpload s f _), .ok _⟩ => some (s, f)
    | _ => none

def Uploads (inboxDir : Path) (hist : Calls) : Op → Prop
  | .session (.sessionIdForFile _) => True
  | .session (.authorizeUpload ..) => authorized hist = [] ∧ published hist = []
  | .session (.markUploaded s f) => authorized hist = [(s, f)] ∧ (published hist).length = 1
  | o => Writes inboxDir hist o ∧ authorized hist ≠ []

/-- What the outcome of an upload tells about its calls. -/
def Outcome (hist : Calls) : Except LocalSendError StatusCode → Prop
  | .ok .ok => (published hist).length = 1 ∧
    ∃ s f, authorized hist = [(s, f)] ∧ ⟨.session (.markUploaded s f), .ok ()⟩ ∈ hist
  | .ok _ => published hist = []
  | .error _ => published hist = [] ∨ ((published hist).length = 1 ∧
    ∃ s f e, authorized hist = [(s, f)] ∧ ⟨.session (.markUploaded s f), .error e⟩ ∈ hist)

theorem length_published (hist : Calls) : (published hist).length = (progress hist).renamed.length :=
  List.length_map _

theorem published_mono {hist hist' : Calls} (h : hist <+: hist') :
    published hist <+: published hist' := by
  obtain ⟨later, rfl⟩ := h
  induction later using List.reverseRecOn with
  | nil => rw [List.append_nil]
  | append_singleton later e ih =>
    refine ih.trans ?_
    rw [← List.append_assoc, published, published, progress_concat]
    refine List.IsPrefix.map Prod.snd ?_
    by_cases hrename : ∃ source target, e.op = .rename source target
    · obtain ⟨o, r⟩ := e
      obtain ⟨source, target, rfl⟩ := hrename
      cases r with
      | ok u => exact List.prefix_append _ _
      | error e => exact List.prefix_rfl
    · rw [renamed_after fun source target he => hrename ⟨source, target, he⟩]

theorem published_concat {o : Op} (hne : ∀ source target, o ≠ .rename source target) (hist : Calls)
    (r : Resp o) : published (hist ++ [⟨o, r⟩]) = published hist := by
  rw [published, published, progress_concat, renamed_after hne]

theorem authorized_concat {o : Op} (hne : ∀ s f token, o ≠ .session (.authorizeUpload s f token))
    (hist : Calls) (r : Resp o) : authorized (hist ++ [⟨o, r⟩]) = authorized hist := by
  rw [authorized, authorized, List.filterMap_append]
  cases o with
  | session o => cases o with
    | authorizeUpload s f token => exact absurd rfl (hne s f token)
    | _ => exact List.append_nil _
  | _ => exact List.append_nil _

theorem mem_authorized {hist : Calls} {s f : String} : (s, f) ∈ authorized hist ↔
    ∃ token upload, ⟨.session (.authorizeUpload s f token), .ok upload⟩ ∈ hist := by
  rw [authorized, List.mem_filterMap]
  constructor
  · rintro ⟨e, he, hkey⟩
    split at hkey
    · obtain ⟨rfl, rfl⟩ := Prod.mk.inj (Option.some.inj hkey)
      exact ⟨_, _, he⟩
    · cases hkey
  · rintro ⟨token, upload, he⟩
    exact ⟨_, he, rfl⟩

theorem Writes.ne_session {inboxDir : Path} {hist : Calls} {o : Op} (h : Writes inboxDir hist o)
    (o' : SessionOp) : o ≠ .session o' := by
  rintro rfl
  exact h

theorem Writes.uploads {inboxDir : Path} {hist : Calls} {o : Op} (h : Writes inboxDir hist o)
    (hauth : authorized hist ≠ []) : Uploads inboxDir hist o := by
  cases o with
  | session o => exact absurd rfl (h.ne_session o)
  | _ => exact ⟨h, hauth⟩

theorem Uploads.length_published_le {inboxDir : Path} {hist : Calls} {o : Op}
    (h : Uploads inboxDir hist o) (hle : (published hist).length ≤ 1) (r : Resp o) :
    (published (hist ++ [⟨o, r⟩])).length ≤ 1 := by
  by_cases hrename : ∃ source target, o = .rename source target
  · obtain ⟨source, target, rfl⟩ := hrename
    have hnone : (progress hist).renamed = [] := h.1.2.2.2.2
    rw [length_published, progress_concat]
    cases r with
    | error e => simp [Progress.after, hnone]
    | ok u => simp [Progress.after, hnone]
  · rwa [published_concat fun source target he => hrename ⟨source, target, he⟩]

/-- **What an upload request does**, and what its outcome tells. -/
theorem wp_writeUpload [Primitives] {ε : Type} (state : ServerState) (query : UploadQuery) {hist : Calls}
    (hd : progress hist = ⟨[], [], [], false, []⟩) (hauth : authorized hist = []) :
    ((writeUpload state query).attempt : Prog Op Resp ε _).wp (Uploads state.inboxDir) Outcome hist := by
  refine ⟨⟨hauth, by rw [published, hd]; rfl⟩, fun r => ?_⟩
  have hd' : progress (hist ++
      [⟨.session (.authorizeUpload query.sessionId query.fileId query.token), r⟩]) =
      ⟨[], [], [], false, []⟩ := by
    rw [progress_concat, hd]
    rfl
  cases r with
  | error e =>
    refine .inl ?_
    rw [published, hd']
    rfl
  | ok upload =>
    -- the writer makes no call of the session manager, so what was authorized stays
    have hkey : authorized (hist ++
        [⟨.session (.authorizeUpload query.sessionId query.fileId query.token), .ok upload⟩]) =
        [(query.sessionId, query.fileId)] := by
      rw [authorized, List.filterMap_append, ← authorized, hauth]
      rfl
    have hkeep : ((InboxWriter.writeUpload ⟨state.inboxDir⟩ upload).attempt :
      Prog Op Resp ε _).wp _ _ _ :=
      Prog.wp_inv (I := fun h => authorized h = [(query.sessionId, query.fileId)])
        (wp_inboxWriter_attempt upload hd')
        (fun h o r ho hI => by rw [authorized_concat (fun _ _ _ => ho.ne_session _), hI]) hkey
    have hwrite : Prog.wp (Uploads state.inboxDir) _ _ _ := Prog.wp_mono hkeep
      (fun h o _ ho => ho.1.uploads (by rw [ho.2]; exact List.cons_ne_nil _ _)) fun _ _ _ hQ => hQ
    show ((InboxWriter.writeUpload ⟨state.inboxDir⟩ upload >>= fun _ =>
      markUploaded query.sessionId query.fileId >>= fun _ => pure StatusCode.ok).attempt).wp _ _ _
    refine Prog.wp_attempt_bind_of hwrite (fun h w _ ⟨hlen, hkey⟩ => ?_) fun h e _ ⟨hlen, _⟩ => ?_
    · have hone : (published h).length = 1 := (length_published h).trans hlen
      refine ⟨⟨hkey, hone⟩, fun r => ?_⟩
      rw [← published_concat (o := .session _) nofun h r] at hone
      rw [← authorized_concat (o := .session (.markUploaded _ _)) nofun h r] at hkey
      cases r with
      | ok u => exact ⟨hone, _, _, hkey, by simp⟩
      | error e => exact .inr ⟨hone, _, _, e, hkey, by simp⟩
    · exact .inl (List.length_eq_zero_iff.mp ((length_published h).trans hlen))

/-- The requests that upload a file. -/
def Request.IsUpload : Request → Bool
  | .upload _ | .legacySend .. => true
  | _ => false

/-- **Both kinds of upload**: a legacy one looks up its session first. -/
theorem wp_handle [Primitives] {ε : Type} (state : ServerState) {request : Request}
    (h : request.IsUpload = true) :
    ((request.handle state).attempt : Prog Op Resp ε _).wp (Uploads state.inboxDir) Outcome [] := by
  cases request with
  | upload query => exact wp_writeUpload state query rfl rfl
  | legacySend fileId token =>
    refine ⟨trivial, fun r => ?_⟩
    cases r with
    | error e => exact .inl rfl
    | ok found => cases found with
      | none => exact rfl
      | some sessionId => exact wp_writeUpload state ⟨sessionId, fileId, token⟩ rfl rfl
  | cancel => cases h
  | legacyCancel => cases h
  | prepareUpload => cases h
  | legacySendRequest => cases h

end NightBridge.LocalSend
