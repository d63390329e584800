/-
# Publishing while chunks arrive

Calls of one receiver that run side by side: nothing in the source keeps a chunk
from being written while `finish_transfer` of the same transfer is under way.
Three things are looked at and used later:

| looked at | used |
| --- | --- |
| the staged path, by `open` | the write, through the handle |
| the bytes of the staged file, by `read` | the rename of that path |
| the free name in the inbox, by `metadata` | the rename to that name |

`Undisturbed` says that what a call finds when it acts is still what it saw.
Then a published file is as declared and nothing changes it any more
(`published_intact`).  Without it, a handle that outlives the rename writes into
the inbox (`published_overwritten`).
-/

import NightBridge.Effect.Pool
import NightBridge.Native.Effects
import NightBridge.Native.Footprint
import NightBridge.Native.Terminal

namespace NightBridge.Native

open Data Effect NativeTransferReceiver ManifestStore

/-- Calls of a receiver that run side by side, with the store they share. -/
abbrev Receivers (ι : Type) := Pool Op Resp NativeError Unit Store Wire ι

def Call.transferId : Call → String
  | .accept _ request => request.transferId
  | .chunk t _ _ _ _ => t
  | .finish t => t

/-- The paths at which the inode was opened. -/
def opened (file : ℕ) (hist : Calls) : List Path :=
  hist.filterMap fun
    | ⟨.openWrite path, .ok f⟩ => if f = file then some path else none
    | _ => none

theorem mem_opened {file : ℕ} {hist : Calls} {path : Path}
    (h : ⟨.openWrite path, .ok file⟩ ∈ hist) : path ∈ opened file hist :=
  List.mem_filterMap.mpr ⟨_, h, by simp⟩

/-- The bytes that were read at the path. -/
def bytesRead (path : Path) (hist : Calls) : List Bytes :=
  hist.filterMap fun
    | ⟨.read q, .ok bytes⟩ => if q = path then some bytes else none
    | _ => none

theorem mem_bytesRead {path : Path} {hist : Calls} {bytes : Bytes}
    (h : ⟨.read path, .ok bytes⟩ ∈ hist) : bytes ∈ bytesRead path hist :=
  List.mem_filterMap.mpr ⟨_, h, by simp⟩

def renames (hist : Calls) : List (Path × Path) :=
  hist.filterMap fun
    | ⟨.rename source target, .ok ()⟩ => some (source, target)
    | _ => none

theorem mem_of_renames {hist : Calls} {source target : Path} (h : (source, target) ∈ renames hist) :
    ⟨.rename source target, .ok ()⟩ ∈ hist := by
  obtain ⟨e, he, hrename⟩ := List.mem_filterMap.mp h
  split at hrename
  · obtain ⟨rfl, rfl⟩ := Prod.mk.inj (Option.some.inj hrename)
    exact he
  · cases hrename

theorem renames_concat {hist : Calls} {o : Op} (hne : ∀ source target, o ≠ .rename source target)
    (r : Resp o) : renames (hist ++ [⟨o, r⟩]) = renames hist := by
  rw [renames, List.filterMap_append]
  cases o with
  | rename source target => exact absurd rfl (hne source target)
  | _ => exact List.append_nil _

/-- What a call acts on is what it saw. -/
def StillSeen (s : Store) (hist : Calls) : Op → Bool
  -- the path it opened still names the file it writes
  | .writeAt file _ _ => (opened file hist).all fun path => s.fs.lookup path = some (.file file)
  -- if there is a file to rename, it has the bytes that were read, and the name is free
  | .rename source target =>
    match s.fs.lookup source with
    | some (.file file) =>
      s.fs.lookup target = none && (bytesRead source hist).all fun bytes => s.fs.data file = bytes
    | _ => true
  | _ => true

/-- The next call of `i` acts on what it saw. -/
def Undisturbed {ι : Type} (pool : Receivers ι) (i : ι) : Prop :=
  (pool.rest i).next?.all (StillSeen pool.shared (pool.calls i)) = true

instance {ι : Type} (pool : Receivers ι) (i : ι) : Decidable (Undisturbed pool i) :=
  inferInstanceAs (Decidable (_ = true))

section seen

variable {ι : Type} {pool : Receivers ι} {i : ι}

theorem Undisturbed.write {file offset : ℕ} {bytes : Bytes}
    {k : Resp (.writeAt file offset bytes) → Io NativeError Unit} (h : Undisturbed pool i)
    (hi : pool.rest i = .call (.writeAt file offset bytes) k) {path : Path}
    (hopened : ⟨.openWrite path, .ok file⟩ ∈ pool.calls i) :
    pool.shared.fs.lookup path = some (.file file) := by
  rw [Undisturbed, hi] at h
  have hall : ∀ path ∈ opened file (pool.calls i), pool.shared.fs.lookup path = some (.file file) := by
    simpa [Prog.next?, StillSeen] using h
  exact hall path (mem_opened hopened)

theorem Undisturbed.rename {source target : Path}
    {k : Resp (.rename source target) → Io NativeError Unit} (h : Undisturbed pool i)
    (hi : pool.rest i = .call (.rename source target) k) {file : ℕ}
    (hfile : pool.shared.fs.lookup source = some (.file file)) :
    pool.shared.fs.lookup target = none ∧
      ∀ bytes, ⟨.read source, .ok bytes⟩ ∈ pool.calls i → pool.shared.fs.data file = bytes := by
  rw [Undisturbed, hi] at h
  have hall : pool.shared.fs.lookup target = none ∧
      ∀ bytes ∈ bytesRead source (pool.calls i), pool.shared.fs.data file = bytes := by
    simpa [Prog.next?, StillSeen, hfile] using h
  exact ⟨hall.1, fun bytes hbytes => hall.2 bytes (mem_bytesRead hbytes)⟩

end seen

/-- Both ids of the row leave something for a path. -/
def FileRow.Stable (row : FileRow) : Prop := Native.Stable row.transferId ∧ Native.Stable row.fileId

instance (row : FileRow) : Decidable row.Stable := inferInstanceAs (Decidable (_ ∧ _))

theorem component_of_stable {id name : String} {hist : Calls} (hid : Stable id)
    (h : Component id hist name) : name = cleanComponent id := by
  rcases h with ⟨-, h⟩ | ⟨h, -⟩
  · exact h
  · exact absurd h hid

theorem stagingPath_of_stable {inboxDir : Path} {t f : String} {hist : Calls} {path : Path}
    (ht : Stable t) (hf : Stable f) (h : StagingPath inboxDir t f hist path) :
    path = part inboxDir t f := by
  obtain ⟨dir, file, hdir, hfile, rfl⟩ := h
  rw [component_of_stable ht hdir, component_of_stable hf hfile, part]

theorem StagingPath.ne_name {inboxDir : Path} {t f : String} {hist : Calls} {path : Path}
    (h : StagingPath inboxDir t f hist path) (name : String) :
    resolve (inboxDir ++ [name]) ≠ resolve path := by
  obtain ⟨dir, file, -, -, rfl⟩ := h
  exact resolve_name_ne_partPath inboxDir name dir file

theorem mem_of_selected {s : Store} {w : Wire} {t : String} {rows : List FileRow}
    (h : (exec (.selectFilesOrdered t) s w).1 = .ok rows) {row : FileRow} (hrow : row ∈ rows) :
    row ∈ s.manifest.files.rows ∧ row.transferId = t := by
  obtain rfl := Except.ok.inj h
  rw [ManifestDb.selectFilesOrdered, List.mem_insertionSort, ManifestDb.selectFiles] at hrow
  simpa using hrow

section race

variable [Primitives]

/-- The bytes are what the row declares. -/
def FileRow.Declares (row : FileRow) (bytes : Bytes) : Prop :=
  bytes.length = asU64 row.size ∧
    ∀ expected, row.blake3 = some expected → blake3Hex bytes = expected

theorem wp_callExec (self : NativeTransferReceiver) (call : Call) :
    (call.exec self).wp (Concerns self.inboxDir call.transferId) (fun _ _ => True) [] := by
  cases call with
  | accept peer request =>
    refine Prog.wp_bind_of (Prog.wp_mono (wp_acceptTransfer self peer request)
      (fun _ _ _ ho => ho.2) fun _ _ _ _ => trivial) fun _ _ _ _ => trivial
  | chunk t f offset bytes blake3 => exact wp_receiveChunkWithHash self f offset bytes blake3
  | finish t => exact wp_finishTransfer self

variable {ι : Type} [DecidableEq ι]

/-- The calls before any of them has done anything. -/
def receivers (self : NativeTransferReceiver) (s : Store) (call : ι → Call) : Receivers ι :=
  .start s (fun i => (call i).exec self) fun _ => .fresh

variable {self : NativeTransferReceiver} {s : Store} {call : ι → Call}

theorem receivers_concern {schedule : List ι} {i : ι} {o : Op} {k : Resp o → Io NativeError Unit}
    (h : ((receivers self s call).run exec schedule).rest i = .call o k) :
    Concerns self.inboxDir (call i).transferId (((receivers self s call).run exec schedule).calls i) o :=
  Pool.guarded (wp_callExec self (call i)) h

omit [DecidableEq ι] in
/-- **Nothing reaches a published file.**  An undisturbed call leaves what is in
the inbox. -/
theorem contents_undisturbed {pool : Receivers ι} {i : ι} {o : Op} {k : Resp o → Io NativeError Unit}
    {inboxDir : Path} {t name : String} {bytes : Bytes} {w : Wire} (hi : pool.rest i = .call o k)
    (hconcerns : Concerns inboxDir t (pool.calls i) o) (hok : Undisturbed pool i)
    (hb : pool.shared.fs.contents (inboxDir ++ [name]) = some bytes) :
    (exec o pool.shared w).2.1.fs.contents (inboxDir ++ [name]) = some bytes := by
  by_cases htouch : o.Touches pool.shared (inboxDir ++ [name])
  · cases o with
    | openWrite q =>
      obtain ⟨f, hq⟩ := hconcerns
      exact absurd htouch (hq.ne_name name)
    | writeAt file offset bs =>
      obtain ⟨q, f, hopened, hq⟩ := hconcerns
      exact absurd (Fs.unique _ _ _ _ htouch (hok.write hi hopened)) (hq.ne_name name)
    | rename source target =>
      obtain ⟨file, name', -, hsource, rfl, -⟩ := hconcerns
      rcases htouch with htouch | htouch
      · exact absurd htouch (hsource.ne_name name)
      · -- the name was free when the file was renamed to it, so the rename did not happen
        rw [exec]
        cases hfs : pool.shared.fs.rename source (inboxDir ++ [name']) with
        | error e => exact hb
        | ok fs' =>
          obtain ⟨j, hj, -⟩ := Fs.rename_spec hfs
          obtain ⟨hfree, -⟩ := hok.rename hi hj
          rw [Fs.contents_congr _ htouch, Fs.contents, hfree] at hb
          cases hb
    | _ => cases htouch
  · rw [(fs_exec (w := w) htouch).1, hb]

/-- What the calls have seen and done: rows that were listed are in the table,
and what was renamed is in the inbox as its row declares. -/
structure Faithful (inboxDir : Path) (call : ι → Call) (pool : Receivers ι) : Prop where
  listed : ∀ i t rows, ⟨.selectFilesOrdered t, .ok rows⟩ ∈ pool.calls i → ∀ row ∈ rows,
    row ∈ pool.shared.manifest.files.rows ∧ row.transferId = t
  published : (∀ row ∈ pool.shared.manifest.files.rows, row.Stable) →
    ∀ i source target, ⟨.rename source target, .ok ()⟩ ∈ pool.calls i →
      ∃ row ∈ pool.shared.manifest.files.rows, row.transferId = (call i).transferId ∧
        source = part inboxDir row.transferId row.fileId ∧
        (∃ name, target = inboxDir ++ [name]) ∧
        ∃ bytes, pool.shared.fs.contents target = some bytes ∧ row.Declares bytes

omit [DecidableEq ι] in
/-- **A rename publishes what was checked.** -/
theorem declares_of_renamed {pool : Receivers ι} {i : ι} {source target : Path}
    {k : Resp (.rename source target) → Io NativeError Unit} {w : Wire}
    (h : Faithful self.inboxDir call pool)
    (hi : pool.rest i = .call (.rename source target) k)
    (hconcerns : Concerns self.inboxDir (call i).transferId (pool.calls i) (.rename source target))
    (hok : Undisturbed pool i) (hstable : ∀ row ∈ pool.shared.manifest.files.rows, row.Stable)
    (hanswer : (exec (.rename source target) pool.shared w).1 = .ok ()) :
    ∃ row ∈ pool.shared.manifest.files.rows, row.transferId = (call i).transferId ∧
      source = part self.inboxDir row.transferId row.fileId ∧
      (∃ name, target = self.inboxDir ++ [name]) ∧
      ∃ bytes, (exec (.rename source target) pool.shared w).2.1.fs.contents target = some bytes ∧
        row.Declares bytes := by
  obtain ⟨file, name, ⟨⟨rows, hrows, hfile⟩, path, bytes, hpath, hread, hlen, hhash⟩, hsource, rfl, -⟩ :=
    hconcerns
  obtain ⟨row, hrow, rfl⟩ := List.mem_map.mp hfile
  obtain ⟨hmem, hid⟩ := h.listed i _ rows hrows row hrow
  obtain ⟨ht, hf⟩ := hstable row hmem
  rw [← hid] at hpath hsource
  have hs : source = part self.inboxDir row.transferId row.fileId := stagingPath_of_stable ht hf hsource
  rw [show path = source from (stagingPath_of_stable ht hf hpath).trans hs.symm] at hread
  rw [exec] at hanswer ⊢
  cases hfs : pool.shared.fs.rename source (self.inboxDir ++ [name]) with
  | error e => rw [hfs] at hanswer; cases hanswer
  | ok fs' =>
    obtain ⟨j, hj, -⟩ := Fs.rename_spec hfs
    have hdata := (hok.rename hi hj).2 bytes hread
    refine ⟨row, hmem, hid, hs, ⟨name, rfl⟩, bytes, ?_, hlen, hhash⟩
    show fs'.contents _ = _
    rw [(Fs.contents_rename hfs (hsource.ne_name name)).1, Fs.contents_of_file hj, hdata]

theorem faithful_run {schedule : List ι}
    (hok : Pool.Orderly exec Undisturbed (receivers self s call) schedule) :
    Faithful self.inboxDir call ((receivers self s call).run exec schedule) := by
  refine Pool.orderly_inv (fun schedule i o k ih hi hok => ?_) ?_ hok
  · have hconcerns : Concerns self.inboxDir (call i).transferId _ o := receivers_concern hi
    constructor
    · intro j t rows hlisted row hrow
      rw [Pool.shared_step hi]
      rcases Pool.mem_calls_step hi hlisted with hbefore | ⟨rfl, hevent⟩
      · obtain ⟨hmem, hid⟩ := ih.listed j t rows hbefore row hrow
        exact ⟨files_exec hmem, hid⟩
      · obtain ⟨rfl, hanswer⟩ := Event.mk.inj hevent
        obtain ⟨hmem, hid⟩ := mem_of_selected (eq_of_heq hanswer).symm hrow
        exact ⟨files_exec hmem, hid⟩
    · intro hstable j source target hrenamed
      rw [Pool.shared_step hi] at hstable ⊢
      have hstable' := fun row hrow => hstable row (files_exec hrow)
      rcases Pool.mem_calls_step hi hrenamed with hbefore | ⟨rfl, hevent⟩
      · obtain ⟨row, hmem, hid, hsource, ⟨name, rfl⟩, bytes, hbytes, hdeclares⟩ :=
          ih.published hstable' j source target hbefore
        exact ⟨row, files_exec hmem, hid, hsource, ⟨name, rfl⟩, bytes,
          contents_undisturbed hi hconcerns hok hbytes, hdeclares⟩
      · obtain ⟨rfl, hanswer⟩ := Event.mk.inj hevent
        obtain ⟨row, hmem, hrow⟩ := declares_of_renamed ih hi hconcerns hok hstable'
          (eq_of_heq hanswer).symm
        exact ⟨row, files_exec hmem, hrow⟩
  · exact ⟨fun _ _ _ h => (nomatch h), fun _ _ _ _ h => (nomatch h)⟩

theorem contents_run {before after : List ι}
    (hok : Pool.Orderly exec Undisturbed (receivers self s call) (before ++ after)) {name : String}
    {bytes : Bytes} (hb : ((receivers self s call).run exec before).shared.fs.contents
      (self.inboxDir ++ [name]) = some bytes) :
    ((receivers self s call).run exec (before ++ after)).shared.fs.contents (self.inboxDir ++ [name]) =
      some bytes := by
  refine Pool.orderly_inv_from (I := fun pool => pool.shared.fs.contents (self.inboxDir ++ [name]) =
    some bytes) (fun schedule i o k ih hi hlast => ?_) before hb hok
  rw [Pool.shared_step hi]
  exact contents_undisturbed hi (receivers_concern hi) hlast ih

/-- **Published files are as declared and stay so**, when every call acts on
what it saw.  Once a call has renamed a file into the inbox, the file there has
the size and the digest of a row of the transfer that is staged where it came
from; and it keeps its bytes whatever the calls do from then on. -/
theorem published_intact {before after : List ι}
    (hok : Pool.Orderly exec Undisturbed (receivers self s call) (before ++ after))
    (hstable : ∀ row ∈ ((receivers self s call).run exec before).shared.manifest.files.rows, row.Stable)
    {i : ι} {source target : Path}
    (hrenamed : (source, target) ∈ renames (((receivers self s call).run exec before).calls i)) :
    ∃ row ∈ ((receivers self s call).run exec before).shared.manifest.files.rows,
      row.transferId = (call i).transferId ∧ source = part self.inboxDir row.transferId row.fileId ∧
      ∃ bytes, row.Declares bytes ∧
        ((receivers self s call).run exec before).shared.fs.contents target = some bytes ∧
        ((receivers self s call).run exec (before ++ after)).shared.fs.contents target = some bytes := by
  have hfaithful := faithful_run (Pool.orderly_append.mp hok).1
  obtain ⟨row, hmem, hid, hsource, ⟨name, rfl⟩, bytes, hbytes, hdeclares⟩ :=
    hfaithful.published hstable i source target (mem_of_renames hrenamed)
  exact ⟨row, hmem, hid, hsource, bytes, hdeclares, hbytes, contents_run hok hbytes⟩

end race

/-! ### A handle that outlives the rename -/

/-- A transfer of one byte, with its digest. -/
def digestRequest : RequestTransfer :=
  ⟨"tx", [.small "file-1" "a.txt" 1 (some (@blake3Hex .sample [1]))]⟩

/-- Its byte has arrived. -/
def digestStore : Store :=
  @replay .sample sampleReceiver [.accept samplePeer digestRequest, oneByteChunk] .fresh

/-- One call finishes the transfer, another one sends a byte to it. -/
def lateCalls : Bool → Call
  | false => .finish "tx"
  | true => .chunk "tx" "file-1" 0 [2] (@blake3Hex .sample [2])

def twoCalls : Receivers Bool := @receivers .sample Bool sampleReceiver digestStore lateCalls

/-- One call after the other disturbs nothing. -/
theorem published_intact_twoCalls :
    ∃ row ∈ (twoCalls.run exec (List.replicate 12 false)).shared.manifest.files.rows,
      row.transferId = "tx" ∧ part ["inbox"] "tx" "file-1" = part ["inbox"] row.transferId row.fileId ∧
      ∃ bytes, @FileRow.Declares .sample row bytes ∧
        (twoCalls.run exec (List.replicate 12 false)).shared.fs.contents
          ["inbox", "a.txt"] = some bytes ∧
        (twoCalls.run exec (List.replicate 12 false ++ List.replicate 12 true)).shared.fs.contents
          ["inbox", "a.txt"] = some bytes := by
  have horderly : Pool.Orderly exec Undisturbed twoCalls
      (List.replicate 12 false ++ List.replicate 12 true) := by decide +kernel
  have hstable : ∀ row ∈ (twoCalls.run exec (List.replicate 12 false)).shared.manifest.files.rows,
      row.Stable := by decide +kernel
  have hrenamed : (part ["inbox"] "tx" "file-1", ["inbox", "a.txt"]) ∈
      renames ((twoCalls.run exec (List.replicate 12 false)).calls false) := by decide +kernel
  exact @published_intact .sample Bool _ sampleReceiver digestStore lateCalls _ _ horderly hstable
    _ _ _ hrenamed

/-- The second call gets as far as its open, the first one runs, and then the
second one goes on for a number of steps. -/
def overtaken (n : ℕ) : Receivers Bool :=
  twoCalls.run exec (List.replicate 2 true ++ List.replicate 12 false ++ List.replicate n true)

/-- **A published file is overwritten.**  The first call has renamed the file,
which has the digest its row declares; one more step of the second call puts
other bytes there. -/
theorem published_overwritten :
    (part ["inbox"] "tx" "file-1", ["inbox", "a.txt"]) ∈ renames ((overtaken 0).calls false) ∧
      (overtaken 0).shared.manifest.files.rows.map FileRow.blake3 = [some (@blake3Hex .sample [1])] ∧
      (overtaken 0).shared.fs.contents ["inbox", "a.txt"] = some [1] ∧
      (overtaken 1).shared.fs.contents ["inbox", "a.txt"] = some [2] ∧
      @blake3Hex .sample [2] ≠ @blake3Hex .sample [1] := by
  decide +kernel

end NightBridge.Native
