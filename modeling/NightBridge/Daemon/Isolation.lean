/-
# What one peer can do to the transfers of another

The connections of a daemon run side by side on one store.  The manifest and the
staging tree know a transfer by its id, or by what `safe_component` leaves of
it; who sent the request is recorded and never looked at again.  So two peers
are isolated as long as their ids tell their transfers apart (`peer_isolation`);
and a peer that names the transfer of another writes into it and publishes it
(`foreign_publish`).

An inode that a connection has opened never turns up at a staging path of a
transfer named apart (`Foreign`), since files are renamed into the inbox only.
-/

import NightBridge.Daemon.Gate
import NightBridge.Effect.Pool

namespace NightBridge.Daemon

open Data Effect Native NativeTransferReceiver

/-- Connections that run side by side, with the store they share. -/
abbrev Connections (ι : Type) := Pool Op Resp AnyError Unit Store Wire ι

/-- The connections of a daemon before any of them has done anything; `wire i` holds
all that the remote will send on the connection `i`. -/
def Endpoint.connections [Primitives] [Serde] {ι : Type} (daemon : Endpoint) (s : Store)
    (wire : ι → Wire) : Connections ι :=
  .start s (fun _ => handleNativeConnection daemon.nodeAlias daemon.pubkey daemon.inboxDir
    daemon.trustDbPath daemon.manifestPath) wire

/-- A place for a staged file of the transfer, when the connections that made it
have been answered `past`. -/
def PartOf (inboxDir : Path) (t : String) (past : Calls) (path : Path) : Prop :=
  ∃ dir file, Component t past dir ∧ path = partPath inboxDir dir file

/-- What belongs to the transfer is in `s'` as it was in `s`: its rows, the
bytes and the existence of its staged files; and none of these has gone anywhere
else. -/
structure Intact (inboxDir : Path) (t : String) (past : Calls) (s s' : Store) : Prop where
  rows : s'.manifest.rowsOf t = s.manifest.rowsOf t
  parts : ∀ path, PartOf inboxDir t past path →
    s'.fs.contents path = s.fs.contents path ∧ s'.fs.lookup path = s.fs.lookup path
  unpublished : ∀ path, PartOf inboxDir t past path → ∀ file, s.fs.lookup path = some (.file file) →
    ∀ q, s'.fs.lookup q = some (.file file) → resolve q = resolve path

theorem intact_of_parts {inboxDir : Path} {t : String} {past : Calls} {s s' : Store}
    (hrows : s'.manifest.rowsOf t = s.manifest.rowsOf t)
    (hparts : ∀ path, PartOf inboxDir t past path →
      s'.fs.contents path = s.fs.contents path ∧ s'.fs.lookup path = s.fs.lookup path) :
    Intact inboxDir t past s s' :=
  ⟨hrows, hparts, fun path hpath file hfile _ hq =>
    s'.fs.unique _ _ file hq ((hparts path hpath).2.trans hfile)⟩

/-- The connection that has been answered `hist` asks for another transfer, which is
staged in another directory. -/
def NamesApart [Serde] (t : String) (past hist : Calls) : Prop :=
  ∀ hello request, Requested hist hello request → request.transferId ≠ t ∧
    ∀ dir, Component request.transferId hist dir → ¬ Component t past dir

theorem NamesApart.mono [Serde] {t : String} {past hist hist' : Calls} (h : hist <+: hist')
    (ha : NamesApart t past hist') : NamesApart t past hist := fun hello request hr =>
  ⟨(ha hello request (hr.mono h)).1, fun dir hd =>
    (ha hello request (hr.mono h)).2 dir (hd.mono h)⟩

/-! ### Handles -/

/-- The inode is in use, but not at any of the paths. -/
def Foreign (fs : Fs) (paths : Path → Prop) (file : ℕ) : Prop :=
  file < fs.next ∧ ∀ path, paths path → fs.lookup path ≠ some (.file file)

section handles

variable {o : Op} {s : Store} {w : Wire} {paths : Path → Prop}

/-- An inode stays off the paths while nothing is renamed to them. -/
theorem Foreign.exec {file : ℕ} (h : Foreign s.fs paths file)
    (hrename : ∀ source target, o = .rename source target →
      ∀ path, paths path → resolve path ≠ resolve target) :
    Foreign (Native.exec o s w).2.1.fs paths file := by
  refine ⟨h.1.trans_le next_exec, fun path hpath hfile => ?_⟩
  rcases file_exec hfile with hbefore | ⟨q, -, -, hnext⟩ | ⟨source, target, ho, htarget, -⟩
  · exact h.2 path hpath hbefore
  · exact h.1.ne hnext
  · exact hrename source target ho path hpath htarget

theorem foreign_of_opened {q : Path} {file : ℕ} (h : (Native.exec (.openWrite q) s w).1 = .ok file)
    (hq : ∀ path, paths path → resolve path ≠ resolve q) :
    Foreign (Native.exec (.openWrite q) s w).2.1.fs paths file := by
  have hlook := lookup_of_opened h
  exact ⟨Fs.fresh _ _ _ hlook, fun path hpath hfile =>
    hq path hpath (Fs.unique _ _ _ _ hfile hlook)⟩

end handles

section isolation

variable {inboxDir : Path} {t : String} {past : Calls}

/-- UUIDs are file names. -/
def Named (t : String) (past : Calls) : Prop := ∀ dir, Component t past dir → NormalName dir

theorem length_resolve_stagingDir_le (inboxDir : Path) (dir : String) :
    (resolve (stagingRoot inboxDir ++ [dir])).length ≤ (resolve inboxDir).length + 3 := by
  have h := length_resolve_append_le (stagingRoot inboxDir) dir
  rw [resolve_stagingRoot] at h
  simp only [List.length_append, List.length_cons, List.length_nil] at h
  omega

theorem PartOf.length (hnamed : Named t past) {path : Path} (h : PartOf inboxDir t past path) :
    (resolve path).length = (resolve inboxDir).length + 4 := by
  obtain ⟨dir, file, hdir, rfl⟩ := h
  rw [resolve_partPath _ (hnamed dir hdir)]
  simp

theorem PartOf.ne_name {path : Path} (h : PartOf inboxDir t past path) (name : String) :
    resolve path ≠ resolve (inboxDir ++ [name]) := by
  obtain ⟨dir, file, -, rfl⟩ := h
  exact (resolve_name_ne_partPath inboxDir name dir file).symm

theorem PartOf.ne_staging (hnamed : Named t past) {path q : Path} (h : PartOf inboxDir t past path)
    {t' f : String} {hist : Calls} (hq : StagingPath inboxDir t' f hist q)
    (hapart : ∀ dir, Component t' hist dir → ¬ Component t past dir) : resolve path ≠ resolve q := by
  obtain ⟨dir, file, hdir, rfl⟩ := h
  obtain ⟨dir', file', hdir', -, rfl⟩ := hq
  intro he
  obtain ⟨rfl, -⟩ := resolve_partPath_inj (hnamed dir hdir) he.symm
  exact hapart dir' hdir' hdir

variable [Primitives]

/-- **One call.**  A call for another transfer, through a handle that is not on
a staged file of this one, leaves this one intact. -/
theorem intact_of_concerns {t' : String} {hist : Calls} {o : Op} {s : Store} {w : Wire}
    (hnamed : Named t past) (ho : Concerns inboxDir t' hist o) (ht : t' ≠ t)
    (hapart : ∀ dir, Component t' hist dir → ¬ Component t past dir)
    (hhandles : ∀ path file, ⟨.openWrite path, .ok file⟩ ∈ hist →
      Foreign s.fs (PartOf inboxDir t past) file) :
    Intact inboxDir t past s (exec o s w).2.1 := by
  refine intact_of_parts ((about_of_concerns ho s w).rows t ht.symm) fun path hpath => ?_
  have huntouched : ¬ o.Touches s path := by
    intro htouch
    cases o with
    | openWrite q =>
      obtain ⟨f, hq⟩ := ho
      exact hpath.ne_staging hnamed hq hapart htouch
    | writeAt file offset bytes =>
      obtain ⟨q, f, hopened, -⟩ := ho
      exact (hhandles q file hopened).2 path hpath htouch
    | rename source target =>
      obtain ⟨file, name, -, hsource, rfl, -⟩ := ho
      rcases htouch with htouch | htouch
      · exact hpath.ne_staging hnamed hsource hapart htouch
      · exact hpath.ne_name name htouch
    | _ => cases htouch
  obtain ⟨hcontents, hlookup⟩ := fs_exec (w := w) huntouched
  refine ⟨hcontents, hlookup.resolve_right ?_⟩
  -- a staging path lies deeper than any directory the receiver makes
  rintro ⟨q, rfl, -, -, hdeep⟩
  have hlen := hdeep.length_le
  rw [hpath.length hnamed] at hlen
  rcases ho with rfl | ⟨dir, -, rfl⟩
  · omega
  · have := length_resolve_stagingDir_le inboxDir dir
    omega

variable [Serde] {ι : Type} [DecidableEq ι] {daemon : Endpoint} {s : Store} {wire : ι → Wire}

theorem Endpoint.guarded {schedule : List ι} {i : ι} {o : Op} {k : Resp o → Io AnyError Unit}
    (h : ((daemon.connections s wire).run exec schedule).rest i = .call o k) :
    Guarded daemon.inboxDir (((daemon.connections s wire).run exec schedule).calls i) o :=
  Pool.guarded (wp_handleNativeConnection _ _ _ _ _) h

/-- **Handles stay apart.**  What a connection has opened is never at a staging
path of a transfer named apart from its own. -/
theorem handles_foreign (hnamed : Named t past) (schedule : List ι) (i : ι)
    (hapart : NamesApart t past (((daemon.connections s wire).run exec schedule).calls i)) :
    ∀ path file, ⟨.openWrite path, .ok file⟩ ∈ ((daemon.connections s wire).run exec schedule).calls i →
      Foreign ((daemon.connections s wire).run exec schedule).shared.fs
        (PartOf daemon.inboxDir t past) file := by
  revert hapart
  refine Pool.run_inv (I := fun pool : Connections ι => NamesApart t past (pool.calls i) → ∀ path file,
    ⟨.openWrite path, .ok file⟩ ∈ pool.calls i →
      Foreign pool.shared.fs (PartOf daemon.inboxDir t past) file) ?_ ?_ schedule
  · intro schedule j o k ih hj hapart path file hopened
    have hguarded : Guarded daemon.inboxDir _ o := Endpoint.guarded hj
    have hapart' := hapart.mono Pool.calls_prefix_step
    rw [Pool.shared_step hj]
    rcases Pool.mem_calls_step hj hopened with hbefore | ⟨rfl, hevent⟩
    · refine (ih hapart' path file hbefore).exec ?_
      rintro source target rfl p hp
      obtain ⟨hello, request, -, f, name, -, -, rfl, -⟩ := hguarded.2 rfl
      exact hp.ne_name name
    · obtain ⟨rfl, hanswer⟩ := Event.mk.inj hevent
      obtain ⟨hello, request, hadmitted, f, hstaging⟩ := hguarded.2 rfl
      refine foreign_of_opened (eq_of_heq hanswer).symm fun p hp => ?_
      exact hp.ne_staging hnamed hstaging (hapart' hello request hadmitted.requested).2
  · intro _ path file hopened
    cases hopened

/-- **Peer isolation**, for peers that name their transfers apart.  Whatever the
connections of a daemon do, in whatever order, a step of a connection whose
request names another id than `t`, staged in another directory, leaves the rows
and the staged files of `t` as they are, and publishes none of them. -/
theorem peer_isolation (hnamed : Named t past) (schedule : List ι) (i : ι)
    (hapart : NamesApart t past (((daemon.connections s wire).run exec schedule).calls i)) :
    Intact daemon.inboxDir t past ((daemon.connections s wire).run exec schedule).shared
      ((daemon.connections s wire).run exec (schedule ++ [i])).shared := by
  rw [Pool.run_concat]
  rcases Pool.step_cases exec ((daemon.connections s wire).run exec schedule) i with hs | ⟨o, k, hi⟩
  · rw [hs]
    exact intact_of_parts rfl fun _ _ => ⟨rfl, rfl⟩
  · rw [Pool.shared_step hi]
    cases hm : o.mutates with
    | false =>
      obtain ⟨hmanifest, hfs⟩ := exec_of_not_mutates (w := ((daemon.connections s wire).run exec
        schedule).own i) (s := ((daemon.connections s wire).run exec schedule).shared) hm
      exact intact_of_parts (by rw [hmanifest]) fun path _ => by rw [hfs]; exact ⟨rfl, rfl⟩
    | true =>
      obtain ⟨hello, request, hadmitted, hconcerns⟩ := (Endpoint.guarded hi).2 hm
      obtain ⟨ht, hdirs⟩ := hapart hello request hadmitted.requested
      exact intact_of_concerns hnamed hconcerns ht hdirs (handles_foreign hnamed schedule i hapart)

end isolation

/-! ### Two peers

The peer with the key `7` sends a request and its one byte, and is cut off.  The
peer with the key `8` sends a request and another byte, and finishes. -/

/-- The chunk that is the whole file. -/
def byteChunk (byte : UInt8) : TransferChunk := ⟨"file-1", 0, @blake3Hex .sample [byte], [byte]⟩

/-- What the two peers send, the second one for this transfer. -/
def twoPeers (transferId : String) : Bool → Wire
  | false => ⟨sentBytes [.hello (helloOf (.pad [7])), .requestTransfer (byteRequest "tx")] ++
      (chunkBlocks (byteChunk 1)).flatten, [], .pad [1]⟩
  | true => ⟨sentBytes [.hello (helloOf (.pad [8])), .requestTransfer (byteRequest transferId)] ++
      (chunkBlocks (byteChunk 2)).flatten ++ sentBytes [.done ⟨transferId⟩], [], .pad [2]⟩

/-- All of the first connection, and then the given number of calls of the
second. -/
def intruded (transferId : String) (n : ℕ) : Connections Bool :=
  (@Endpoint.connections .sample byteSerde Bool sampleEndpoint (trustingStore [.pad [7], .pad [8]])
    (twoPeers transferId)).run exec (List.replicate 40 false ++ List.replicate n true)

theorem component_tx {dir : String} (h : Component "tx" [] dir) : dir = "tx" := by
  rcases h with ⟨-, rfl⟩ | ⟨-, hm⟩
  · decide +kernel
  · cases hm

theorem namesApart_intruded : @NamesApart byteSerde "tx" [] ((intruded "ty" 43).calls true) := by
  let _ : Serde := byteSerde
  rintro hello request ⟨blocks, blocks', ⟨head, frame, rfl, -⟩,
    ⟨head', frame', rfl, -, -, hdecode⟩, rest,
    hrest⟩
  -- the fourth block the connection has read is its request
  have hreceived : ((received ((intruded "ty" 43).calls true))[3]?.map fun block => decodeFrame block.2) =
      some (.ok (.requestTransfer (byteRequest "ty"))) := by decide +kernel
  rw [← hrest] at hreceived
  have hread : decodeFrame frame' = .ok (.requestTransfer (byteRequest "ty")) := Option.some.inj hreceived
  rw [hread] at hdecode
  obtain rfl := ControlMessage.requestTransfer.inj (Except.ok.inj hdecode)
  refine ⟨by decide, fun dir hdir hother => ?_⟩
  rw [component_tx hother] at hdir
  rcases hdir with ⟨-, h⟩ | ⟨h, -⟩
  · exact absurd h (by decide +kernel)
  · exact absurd h (by decide +kernel)

/-- The second peer publishes its own transfer.  The row and the byte that the
first one has staged stay. -/
theorem peer_isolation_staged :
    ((intruded "ty" 43).shared.manifest.transfers.find? "tx").isSome ∧
      (intruded "ty" 43).shared.fs.contents (partPath ["inbox"] "tx" "file-1") = some [1] ∧
      (intruded "ty" 44).shared.fs.contents ["inbox", "a.txt"] = some [2] ∧
      Intact ["inbox"] "tx" [] (intruded "ty" 43).shared (intruded "ty" 44).shared := by
  rw [← and_assoc, ← and_assoc]
  exact ⟨by decide +kernel, @peer_isolation "tx" [] .sample byteSerde Bool _ sampleEndpoint
    (trustingStore [.pad [7], .pad [8]])
      (twoPeers "ty") (fun dir hdir => component_tx hdir ▸ by decide)
      (List.replicate 40 false ++ List.replicate 43 true) true namesApart_intruded⟩

/-- **A peer publishes the transfer of another.**  The manifest says that the
transfer is of the peer `7`, whose byte is staged; the calls of the peer `8`
alone overwrite it, change its rows, and publish it. -/
theorem foreign_publish :
    ((intruded "tx" 0).shared.manifest.transfers.find? "tx").map TransferRow.peerFingerprint =
        some (@Core.Fingerprint.fromPubkey .sample (.pad [7])).display ∧
      @Core.Fingerprint.fromPubkey .sample (.pad [8]) ≠ @Core.Fingerprint.fromPubkey .sample (.pad [7]) ∧
      (intruded "tx" 0).shared.fs.contents (partPath ["inbox"] "tx" "file-1") = some [1] ∧
      (intruded "tx" 60).shared.manifest.rowsOf "tx" ≠ (intruded "tx" 0).shared.manifest.rowsOf "tx" ∧
      (intruded "tx" 60).shared.fs.contents (partPath ["inbox"] "tx" "file-1") = none ∧
      (intruded "tx" 60).shared.fs.contents ["inbox", "a.txt"] = some [2] := by
  decide +kernel

end NightBridge.Daemon
