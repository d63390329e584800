/-
# The LocalSend client

`crates/protocol-localsend-v2/src/client.rs`.  `send_files_to_url` offers a list
of files under the ids `file-0`, `file-1`, …, and uploads those for which the
server returns a token, in the order of the ids.  A file is read twice, once for
its digest and once to be sent.  A server that returns no token for a file gets
the file offered and not sent, and the client returns without an error.

`reqwest` is the two operations that post; a failure, of the connection or by
the status, is the text it shows.  `Url::parse` of the base is an argument, and
so is the table of `mime_guess`.
-/

import NightBridge.Effect.Log
import NightBridge.LocalSend.Server
import NightBridge.Native.Prepare

namespace NightBridge.LocalSend

open Data Effect

structure PendingFile where
  path : Path
  fileMeta : FileMeta

/-- `std::fs::Metadata`, as far as it is looked at. -/
structure Metadata where
  isFile : Bool
  len : UInt64

/-- One place where the client reaches outside its memory. -/
inductive SendOp
  | metadata (path : Path)
  | read (path : Path)
  /-- `POST /api/localsend/v2/prepare-upload`. -/
  | prepareUpload (request : PrepareUploadRequest)
  /-- `POST /api/localsend/v2/upload`. -/
  | upload (query : UploadQuery) (contentType : String) (body : Bytes)

@[reducible] def SendOp.Resp : SendOp → Type
  | .metadata _ => Except IoFailure Metadata
  | .read _ => Except IoFailure Bytes
  | .prepareUpload _ => Except String PreparedSession
  | .upload .. => Except String Unit

abbrev SendIo : Type → Type := Prog SendOp SendOp.Resp LocalSendError

/-- `fs::metadata(path).await?`. -/
def metadata (path : Path) : SendIo Metadata := .call (.metadata path) fun r => .ofExcept (r.mapError .io)

/-- `fs::read(path).await?`. -/
def readSource (path : Path) : SendIo Bytes := .call (.read path) fun r => .ofExcept (r.mapError .io)

/-- The prepare-upload request, up to the decoded answer. -/
def postPrepareUpload (request : PrepareUploadRequest) : SendIo PreparedSession :=
  .call (.prepareUpload request) fun r => .ofExcept (r.mapError .http)

/-- The upload request, up to its status. -/
def postUpload (query : UploadQuery) (contentType : String) (body : Bytes) : SendIo Unit :=
  .call (.upload query contentType body) fun r => .ofExcept (r.mapError .http)

/-- `Path::display`. -/
def displayPath (path : Path) : String := "/".intercalate path

/-- `mime_guess::from_path(path).first_raw()`. -/
class MimeGuess where
  firstRaw : Path → Option String

/-- `file_name`. -/
def sourceName (path : Path) : Except LocalSendError String :=
  match (path.filter (· ≠ ".")).getLast? with
  | none => .error (.http ("invalid file path " ++ displayPath path))
  | some name =>
    if name = ".." ∨ name = "" then .error (.http ("invalid file path " ++ displayPath path)) else .ok name

/-- `format!("file-{index}")`. -/
def pendingId (index : ℕ) : String := "file-" ++ toString index

theorem pendingId_injective : Function.Injective pendingId := Native.preparedId_injective

section client

variable [Primitives] [MimeGuess]

/-- The `FileMeta` of a source file. -/
def pendingMeta (index : ℕ) (path : Path) (metadata : Metadata) (bytes : Bytes) (name : String) :
    FileMeta where
  id := pendingId index
  fileName := name
  size := metadata.len.toNat
  fileType := MimeGuess.firstRaw path
  sha256 := some (sha256Hex bytes)
  preview := none
  metadata := none
  size_lt := metadata.len.toNat_lt

/-- The loop of `pending_files`, from an index on. -/
def pendingFrom : ℕ → List Path → BTreeMap String PendingFile → SendIo (BTreeMap String PendingFile)
  | _, [], files => pure files
  | index, path :: paths, files => do
    let metadata ← metadata path
    if metadata.isFile then
      let bytes ← readSource path
      let name ← .ofExcept (sourceName path)
      pendingFrom (index + 1) paths
        (files.insert (pendingId index) ⟨path, pendingMeta index path metadata bytes name⟩)
    else .fail (.http (displayPath path ++ " is not a file"))

def pendingFiles (paths : List Path) : SendIo (BTreeMap String PendingFile) := pendingFrom 0 paths .empty

/-- The loop of `send_files_to_url`, for one id of the answer and its token. -/
def uploadOne (baseUrl : Except String Unit) (pending : BTreeMap String PendingFile) (sessionId : String)
    (entry : String × String) : SendIo Unit :=
  match pending.get? entry.1 with
  | none => .fail (.http ("server returned unknown file id " ++ entry.1))
  | some file => do
    let bytes ← readSource file.path
    let _ ← .ofExcept (baseUrl.mapError .http)
    postUpload ⟨sessionId, entry.1, entry.2⟩ (file.fileMeta.fileType.getD "application/octet-stream") bytes

/-- `send_files_to_url`, with the outcome of `Url::parse(base_url)`. -/
def sendFilesToUrl (baseUrl : Except String Unit) (paths : List Path) (sender : DeviceInfo) :
    SendIo Unit :=
  if paths = [] then .fail (.http "at least one file is required")
  else do
    let pending ← pendingFiles paths
    let _ ← .ofExcept (baseUrl.mapError .http)
    let prepared ← postPrepareUpload ⟨sender, pending.map PendingFile.fileMeta⟩
    Prog.each prepared.files.entries (uploadOne baseUrl pending prepared.sessionId)

end client

/-! ### Whatever the server answers -/

abbrev SendCalls := History SendOp SendOp.Resp

/-- The upload a call makes, if it makes one. -/
def uploadOf : Event SendOp SendOp.Resp → Option UploadQuery
  | ⟨.upload query _ _, _⟩ => some query
  | _ => none

def uploads (hist : SendCalls) : List UploadQuery := hist.filterMap uploadOf

theorem uploads_concat (hist : SendCalls) (e : Event SendOp SendOp.Resp) :
    uploads (hist ++ [e]) = uploads hist ++ (uploadOf e).toList := filterMap_concat _ _ _

/-- The uploads a client makes of an answer. -/
def PreparedSession.queries (prepared : PreparedSession) (entries : List (String × String)) :
    List UploadQuery :=
  entries.map fun entry => ⟨prepared.sessionId, entry.1, entry.2⟩

/-- An id of the answer that comes later has not been uploaded. -/
theorem not_mem_queries {prepared : PreparedSession} {done todo : List (String × String)}
    {entry : String × String} (h : prepared.files.entries = done ++ entry :: todo) :
    entry.1 ∉ (prepared.queries done).map UploadQuery.fileId := by
  have hsorted := prepared.files.sorted
  rw [h, List.map_append, List.pairwise_append] at hsorted
  intro hmem
  rw [PreparedSession.queries, List.map_map] at hmem
  exact absurd (hsorted.2.2 _ hmem _ (by simp)) (lt_irrefl _)

section sending

variable [Primitives] [MimeGuess]

/-- What is offered under an id: a path of the caller at the index of the id,
with what its metadata said and the digest of what was read from it. -/
def Offered (paths : List Path) (hist : SendCalls) (id : String) (file : PendingFile) : Prop :=
  ∃ index metadata bytes name, paths[index]? = some file.path ∧ id = pendingId index ∧
    ⟨.metadata file.path, .ok metadata⟩ ∈ hist ∧ ⟨.read file.path, .ok bytes⟩ ∈ hist ∧
    sourceName file.path = .ok name ∧ file.fileMeta = pendingMeta index file.path metadata bytes name

/-- The pending files are the files of the caller, each under its own id. -/
def Pending (paths : List Path) (hist : SendCalls) (pending : BTreeMap String PendingFile) : Prop :=
  ∀ id file, pending.get? id = some file → Offered paths hist id file

theorem Offered.mono {paths : List Path} {hist hist' : SendCalls} {id : String} {file : PendingFile}
    (h : Offered paths hist id file) (hhist : hist ⊆ hist') : Offered paths hist' id file := by
  obtain ⟨index, metadata, bytes, name, hindex, hid, hmetadata, hread, hname⟩ := h
  exact ⟨index, metadata, bytes, name, hindex, hid, hhist hmetadata, hhist hread, hname⟩

/-- What an upload sends: the bytes just read from a file of the caller, under
the id under which the server was offered this very file, with the session and
the token of the answer, and not again. -/
structure Sends (paths : List Path) (hist : SendCalls) (query : UploadQuery) (body : Bytes) : Prop where
  offered : ∃ request prepared path fileMeta, ⟨.prepareUpload request, .ok prepared⟩ ∈ hist ∧
    request.files.get? query.fileId = some fileMeta ∧ Offered paths hist query.fileId ⟨path, fileMeta⟩ ∧
    hist.getLast? = some ⟨.read path, .ok body⟩ ∧
    query.sessionId = prepared.sessionId ∧ prepared.files.get? query.fileId = some query.token
  once : query.fileId ∉ (uploads hist).map UploadQuery.fileId

/-- What the client may call. -/
def MaySend (paths : List Path) (hist : SendCalls) (o : SendOp) : Prop :=
  ∀ query contentType body, o = .upload query contentType body → Sends paths hist query body

theorem maySend_of_ne {paths : List Path} {hist : SendCalls} {o : SendOp}
    (h : ∀ query contentType body, o ≠ .upload query contentType body) : MaySend paths hist o :=
  fun query contentType body ho => absurd ho (h query contentType body)

/-- **The files a client offers.** -/
theorem wp_pendingFrom {all : List Path} {index : ℕ} {paths : List Path}
    (hpaths : all.drop index = paths) {files : BTreeMap String PendingFile} {hist : SendCalls}
    (hfiles : Pending all hist files) (hnone : uploads hist = []) :
    (pendingFrom index paths files).wp (MaySend all)
      (fun h pending => Pending all h pending ∧ uploads h = []) hist := by
  induction paths generalizing index files hist with
  | nil => exact ⟨hfiles, hnone⟩
  | cons path paths ih =>
    have hindex : all[index]? = some path := by
      rw [← List.head?_drop, hpaths]
      rfl
    have hrest : all.drop (index + 1) = paths := by
      rw [← List.tail_drop, hpaths]
      rfl
    refine ⟨maySend_of_ne (by simp), fun r => Prog.wp_bind.mpr (Prog.wp_ofExcept_mapError.mpr ?_)⟩
    rintro metadata rfl
    refine Prog.wp_ite (fun _ => ?_) fun _ => trivial
    refine ⟨maySend_of_ne (by simp), fun r => Prog.wp_bind.mpr (Prog.wp_ofExcept_mapError.mpr ?_)⟩
    rintro bytes rfl
    refine Prog.wp_bind.mpr (Prog.wp_ofExcept.mpr fun name hname => ih hrest ?_ ?_)
    · intro id file hfile
      rw [BTreeMap.get?_insert] at hfile
      split_ifs at hfile with hid
      · obtain rfl := Option.some.inj hfile
        exact ⟨index, metadata, bytes, name, hindex, hid, by simp, by simp, hname, rfl⟩
      · exact (hfiles id file hfile).mono fun _ he => by simp [he]
    · rw [uploads_concat, uploads_concat, hnone]
      rfl

/-- **The uploads**, from some entry of the answer on. -/
theorem wp_uploadAll {baseUrl : Except String Unit} {all : List Path} {sender : DeviceInfo}
    {pending : BTreeMap String PendingFile} {request : PrepareUploadRequest}
    (hrequest : request = ⟨sender, pending.map PendingFile.fileMeta⟩) {prepared : PreparedSession}
    {done todo : List (String × String)} (hentries : prepared.files.entries = done ++ todo)
    {hist : SendCalls} (hpending : Pending all hist pending)
    (hprepared : ⟨.prepareUpload request, .ok prepared⟩ ∈ hist)
    (hdone : uploads hist = prepared.queries done) :
    (Prog.each todo (uploadOne baseUrl pending prepared.sessionId)).wp (MaySend all)
      (fun h _ => ⟨.prepareUpload request, .ok prepared⟩ ∈ h ∧
        uploads h = prepared.queries prepared.files.entries) hist := by
  induction todo generalizing done hist with
  | nil =>
    rw [List.append_nil] at hentries
    exact ⟨hprepared, hentries ▸ hdone⟩
  | cons entry todo ih =>
    rw [Prog.each_cons, uploadOne]
    cases hfile : pending.get? entry.1 with
    | none => trivial
    | some file =>
      have hoffered := hpending entry.1 file hfile
      refine ⟨maySend_of_ne (by simp), fun r => ?_⟩
      cases r with
      | error e => trivial
      | ok bytes =>
        cases baseUrl with
        | error e => trivial
        | ok u =>
          have huploads : uploads (hist ++ [⟨.read file.path, .ok bytes⟩]) = prepared.queries done := by
            rw [uploads_concat, hdone]
            exact List.append_nil _
          refine ⟨?_, fun r => ?_⟩
          · rintro query contentType body ⟨⟩
            refine ⟨⟨request, prepared, file.path, file.fileMeta, by simp [hprepared], ?_,
              hoffered.mono fun _ he => by simp [he], by simp, rfl, ?_⟩, ?_⟩
            · simp [hrequest, BTreeMap.get?_map, hfile]
            · exact BTreeMap.get?_eq_some_iff.mpr (by rw [hentries]; simp)
            · rw [huploads]
              exact not_mem_queries hentries
          · cases r with
            | error e => trivial
            | ok u =>
              have hnext : prepared.files.entries = (done ++ [entry]) ++ todo := by simp [hentries]
              refine ih hnext (fun id file hfile => (hpending id file hfile).mono fun _ he => by simp [he])
                (by simp [hprepared]) ?_
              rw [uploads_concat, huploads]
              simp [PreparedSession.queries, uploadOf]

/-- **A client sends what it was asked to send.**  Whatever the disk and the
server answer, every upload carries the bytes just read from a path of the
caller, under the id this path was offered under and with the session and the
token of the server's answer, and no id is uploaded twice.  When the client
returns without an error, it has uploaded every file of the answer, in the order
of the ids, and nothing else. -/
theorem client_sends_offered (baseUrl : Except String Unit) (paths : List Path)
    (sender : DeviceInfo) :
    (sendFilesToUrl baseUrl paths sender).wp (MaySend paths)
      (fun h _ => ∃ request prepared, ⟨.prepareUpload request, .ok prepared⟩ ∈ h ∧
        uploads h = prepared.queries prepared.files.entries) [] := by
  refine Prog.wp_ite (fun _ => trivial) fun _ => ?_
  have hempty : Pending paths [] .empty := fun id file hfile => by cases hfile
  refine Prog.wp_bind_of (wp_pendingFrom (show paths.drop 0 = paths from rfl) hempty rfl)
    fun h pending _ ⟨hpending, hnone⟩ => ?_
  cases baseUrl with
  | error e => trivial
  | ok u =>
    refine ⟨maySend_of_ne (by simp), fun r => ?_⟩
    cases r with
    | error e => trivial
    | ok prepared =>
      refine Prog.wp_mono (wp_uploadAll rfl (List.nil_append _).symm
        (fun id file hfile => (hpending id file hfile).mono fun _ he => by simp [he])
        (List.mem_append_right _ (List.mem_singleton_self _)) ?_) (fun _ _ _ h => h)
        fun h _ _ hq => ⟨_, prepared, hq⟩
      rw [uploads_concat, hnone]
      rfl

end sending

end NightBridge.LocalSend
