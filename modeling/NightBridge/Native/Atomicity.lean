/-
# Publication is not all-or-nothing

`finish_transfer` checks the staged files before it renames the first one, but
picks each name, and finds out whether `safe_file_name` and the rename accept
it, only when the file's turn comes.  `validate_transfer_request` does not look
at names beyond their being non-blank, so a failure can come after earlier files
have been published.
-/

import NightBridge.Native.Calls
import NightBridge.Native.Effects

namespace NightBridge.Native

open Data Effect NativeTransferReceiver ManifestStore

/-- A chunk that is staged under its ids uses no future UUID. -/
theorem FreshUuids.chunk [Primitives] (self : NativeTransferReceiver) {s : Store} {t f : String}
    (h : FreshUuids self.inboxDir s) (ht : Stable t) (hf : Stable f)
    (hids : ∀ k, s.uuids k ≠ cleanComponent t ∧ s.uuids k ≠ cleanComponent f) (w : Wire) (offset : ℕ)
    (bytes : Bytes) : FreshUuids self.inboxDir
      ((self.receiveChunk t f offset bytes).run handler (s, w)).2.1 := by
  obtain ⟨r, s', hrun, -, -, hcases⟩ :=
    run_receiveChunkWithHash_any self (s := s) (w := w) t f offset bytes (blake3Hex bytes)
  intro k dir file hk
  obtain ⟨j, hj⟩ := uuids_run (self.receiveChunk t f offset bytes) (s, w) k
  rw [hj] at hk
  have hold := h j dir file hk
  rw [receiveChunk, hrun]
  rcases hcases with ⟨-, -, hfs⟩ | ⟨-, -, d, g, hstaged, hother, -⟩
  · exact hfs ▸ hold
  · obtain ⟨-, -, rfl, rfl⟩ := hstaged.resolve_right fun hno => hno.1.elim (· ht) (· hf)
    refine (hother _ fun he => ?_).trans hold
    obtain ⟨rfl, rfl⟩ := resolve_partPath_inj (normalName_cleanComponent t) he
    exact hk.elim (fun h => (hids j).1 h.symm) fun h => (hids j).2 h.symm

/-- A failed `finish_transfer` leaves the files of the inbox and the staged
files of the transfer as they were. -/
def AllOrNothing [Primitives] (self : NativeTransferReceiver) (s : Store) (w : Wire) (t : String) :
    Prop :=
  ∀ e s' w', (self.finishTransfer t).run handler (s, w) = (.error e, (s', w')) →
    (∀ name, s'.fs.contents (self.inboxDir ++ [name]) = s.fs.contents (self.inboxDir ++ [name])) ∧
      ∀ file ∈ filesOf s.manifest t,
        s'.fs.contents (part self.inboxDir t file.fileId) =
          s.fs.contents (part self.inboxDir t file.fileId)

/-- No name that there can be is left for the first file of the transfer. -/
def FirstUnnamed (inboxDir : Path) (s : Store) (t : String) : Prop :=
  ∃ file ∈ (filesOf s.manifest t).head?, chooseName (takenIn s.fs inboxDir) file.fileName = none

/-- Every file of the transfer gets a name and has a staging path of its own. -/
def Publishable (inboxDir : Path) (s : Store) (t : String) : Prop :=
  (allocate (takenIn s.fs inboxDir) ((filesOf s.manifest t).map (·.fileName))).isSome ∧
    DistinctParts (filesOf s.manifest t)

/-- A loop that stopped later has published its first file. -/
theorem Stopped.later {t : String} {first : ManifestFile} {before : List ManifestFile}
    {file : ManifestFile}
    {names : List String} {files : List ManifestFile} {fs fs' : Fs} {inboxDir : Path}
    (hstop : Stopped inboxDir t fs files (first :: before) file names fs') :
    (∃ after, files = first :: after) ∧
      ∃ name, fs.contents (inboxDir ++ [name]) = none ∧
        (fs'.contents (inboxDir ++ [name])).isSome := by
  obtain ⟨⟨after, hsplit⟩, hnamed, hren, -⟩ := hstop
  have hlen := length_allocate hnamed
  cases names with
  | nil => cases hlen
  | cons name names =>
    obtain ⟨hsome, hfree, -, hmoved⟩ := (hren.moved moves_apart).2.2
      (part inboxDir t first.fileId, inboxDir ++ [name]) (by simp [moves])
    refine ⟨⟨_, hsplit⟩, name, by rw [Fs.contents, hfree], ?_⟩
    rw [hmoved]
    exact hsome

section atomicity

variable [Primitives] (self : NativeTransferReceiver) {s : Store} {w : Wire} {t : String}

/-- A loop that stopped at its first file has renamed nothing, and that file has
no name. -/
theorem Stopped.first (h : Ready self.inboxDir s t) {file : ManifestFile} {names : List String}
    {fs' : Fs} (hstop : Stopped self.inboxDir t s.fs (filesOf s.manifest t) [] file names fs') :
    fs' = s.fs ∧ FirstUnnamed self.inboxDir s t := by
  obtain ⟨⟨after, hsplit⟩, -, hren, hwhy⟩ := hstop
  obtain rfl : s.fs = fs' := by
    cases hren
    rfl
  refine ⟨rfl, file, by simp [hsplit], ?_⟩
  rcases hwhy with ⟨hnone, -⟩ | hgone
  · exact hnone
  · obtain ⟨-, -, bytes, hpart, -⟩ := h.2 file (by simp [hsplit])
    rw [hpart] at hgone
    cases hgone

/-- **When `finish_transfer` is all-or-nothing**: exactly when the checks refuse
the transfer, no name is left for its first file, or all its files get names and
are staged at different paths. -/
theorem finish_allOrNothing_iff (hwf : s.manifest.WellFormed) (hu : FreshUuids self.inboxDir s) :
    AllOrNothing self s w t ↔
      ¬ Ready self.inboxDir s t ∨ FirstUnnamed self.inboxDir s t ∨
        Publishable self.inboxDir s t := by
  by_cases hready : Ready self.inboxDir s t
  · have hno : ¬ ¬ Ready self.inboxDir s t := not_not.mpr hready
    obtain ⟨fs', ⟨names, -, -, hrun⟩ | ⟨e, before, file, names, hstop, hrun⟩⟩ :=
      run_finishTransfer_ready self (w := w) hwf hready
    · refine ⟨fun _ => .inr (.inr ((finish_ok_iff self hwf hready).mp ⟨_, hrun⟩)), fun _ => ?_⟩
      intro e s' w' herr
      rw [hrun] at herr
      cases herr
    · have hnp : ¬ Publishable self.inboxDir s t := fun hp =>
        not_stopped self hready hp.1 hp.2 hstop
      cases before with
      | nil =>
        obtain ⟨rfl, hfirst⟩ := hstop.first self hready
        refine ⟨fun _ => .inr (.inl hfirst), fun _ => ?_⟩
        intro e' s' w' herr
        rw [hrun] at herr
        cases herr
        exact ⟨fun _ => rfl, fun _ _ => rfl⟩
      | cons first before =>
        obtain ⟨⟨after, hfiles⟩, name, hnone, hsome⟩ := hstop.later
        constructor
        · intro hall
          have hsame := (hall _ _ _ hrun).1 name
          rw [hnone] at hsame
          rw [show fs'.contents (self.inboxDir ++ [name]) = none from hsame] at hsome
          cases hsome
        · rintro (h | ⟨file', hhead, hunnamed⟩ | h)
          · exact absurd h hno
          · -- the first file has been renamed, so a name was found for it
            rw [hfiles] at hhead
            obtain rfl : first = file' := by simpa using hhead
            have hnamed := hstop.named
            rw [List.map_cons, allocate, hunnamed] at hnamed
            cases hnamed
          · exact absurd h hnp
  · refine ⟨fun _ => .inl hready, fun _ => ?_⟩
    obtain ⟨e, s₁, hrun, hfs, -⟩ := run_finishTransfer_refused self (w := w) hwf (.inl hu) hready
    intro e' s' w' herr
    rw [hrun] at herr
    cases herr
    exact ⟨fun _ => by rw [hfs], fun _ _ => by rw [hfs]⟩

end atomicity

/-! ### A transfer that is published in part -/

/-- Two files, the second with a name that `safe_file_name` refuses. -/
def slashRequest : RequestTransfer :=
  ⟨"tx", [.small "file-1" "a.txt" 1 none, .small "file-2" "b/c.txt" 1 none]⟩

/-- Accept the request and receive both files. -/
def deliverSlash [Primitives] (receiver : NativeTransferReceiver) (peer : NativePeerInfo) :
    Io NativeError Unit := do
  let _ ← receiver.acceptTransfer peer slashRequest
  receiver.receiveChunk "tx" "file-1" 0 [1]
  receiver.receiveChunk "tx" "file-2" 0 [2]

/-- Acceptance of the request in a store where nothing has happened: the
manifest is well formed and no staged file exists. -/
theorem accepted_slash : ∃ s,
    (sampleReceiver.acceptTransfer samplePeer slashRequest).run handler (.fresh, .fresh) =
        (.ok ⟨"tx", defaultChunkSize⟩, (s, .fresh)) ∧
      s.manifest.WellFormed ∧ FreshUuids sampleReceiver.inboxDir s := by
  have hwf : Store.fresh.manifest.WellFormed := ⟨nofun, nofun⟩
  obtain ⟨fs', hmk⟩ := Fs.createDirAll_isOk
    (Fs.dirOk_empty (partDir sampleReceiver.inboxDir slashRequest.transferId))
  obtain ⟨db', hrun, hcreated⟩ := run_acceptTransfer_fresh sampleReceiver (s := .fresh)
    (w := .fresh) samplePeer slashRequest hwf rfl rfl (by decide)
    ((validateTransferRequest_eq_ok_iff _).mp (by decide)) (by decide) rfl hmk
  refine ⟨_, hrun, hcreated.wellFormed hwf, fun k dir file _ => ?_⟩
  show fs'.contents _ = none
  rw [Fs.contents_createDirAll hmk]
  by_cases hnil : resolve (partPath sampleReceiver.inboxDir dir file) = [] <;>
    simp [Fs.contents, Fs.lookup, Fs.empty, hnil]

/-- The store after the delivery. -/
def slashStore : Store :=
  ((@deliverSlash .sample sampleReceiver samplePeer).run handler (.fresh, .fresh)).2.1

theorem freshUuids_slashStore : FreshUuids ["inbox"] slashStore := by
  let _ : Primitives := .sample
  have hids : ∀ k, Store.fresh.uuids k ≠ "tx" ∧ Store.fresh.uuids k ≠ "file-1" ∧
      Store.fresh.uuids k ≠ "file-2" := by
    intro k
    refine ⟨?_, ?_, ?_⟩ <;> intro h <;> simpa [Store.fresh] using congrArg (·.toList.head?) h
  have hrun : (deliverSlash sampleReceiver samplePeer).run handler (.fresh, .fresh) =
    (.ok (), (slashStore, .fresh)) := Prod.ext (by decide +kernel) rfl
  -- the three calls, one by one
  obtain ⟨s, haccept, -, hu⟩ := accepted_slash
  obtain ⟨_, _, haccept', hrest⟩ := (Prog.run_bind_eq_ok handler).mp hrun
  obtain ⟨-, rfl⟩ := Prod.mk.inj (haccept'.symm.trans haccept)
  obtain ⟨_, ⟨s₁, w₁⟩, hfirst, hsecond⟩ := (Prog.run_bind_eq_ok handler).mp hrest
  have hdrawn : ∀ k, ∃ i, s.uuids k = Store.fresh.uuids i := by
    simpa only [haccept] using
      uuids_run (sampleReceiver.acceptTransfer samplePeer slashRequest) (.fresh, .fresh)
  have hdrawn₁ : ∀ k, ∃ i, s₁.uuids k = s.uuids i := by
    simpa only [hfirst] using uuids_run (sampleReceiver.receiveChunk "tx" "file-1" 0 [1]) (s, .fresh)
  have hu₁ := hu.chunk sampleReceiver (t := "tx") (f := "file-1") (by decide) (by decide) (fun k => by
    obtain ⟨i, hi⟩ := hdrawn k
    exact ⟨hi.trans_ne (hids i).1, hi.trans_ne (hids i).2.1⟩) .fresh 0 [1]
  rw [hfirst] at hu₁
  have hu₂ := hu₁.chunk sampleReceiver (t := "tx") (f := "file-2") (by decide) (by decide) (fun k => by
    obtain ⟨j, hj⟩ := hdrawn₁ k
    obtain ⟨i, hi⟩ := hdrawn j
    exact ⟨(hj.trans hi).trans_ne (hids i).1, (hj.trans hi).trans_ne (hids i).2.2⟩) w₁ 0 [2]
  rwa [hsecond] at hu₂

/-- The delivered transfer is ready, and `finish_transfer` is not all-or-nothing
on it: the first file has a name, and the second has none. -/
theorem finish_allOrNothing_delivered :
    @Ready .sample ["inbox"] slashStore "tx" ∧ ¬ FirstUnnamed ["inbox"] slashStore "tx" ∧
      ¬ Publishable ["inbox"] slashStore "tx" ∧
      ¬ @AllOrNothing .sample sampleReceiver slashStore .fresh "tx" := by
  let _ : Primitives := .sample
  have hwf : slashStore.manifest.WellFormed := ⟨by decide +kernel, by decide +kernel⟩
  have hu := freshUuids_slashStore
  have hready : Ready ["inbox"] slashStore "tx" := by
    by_contra hnot
    obtain ⟨e, s', hrun, hfs, -⟩ :=
      run_finishTransfer_refused sampleReceiver (w := .fresh) hwf (.inl hu) hnot
    have hfree : slashStore.fs.contents ["inbox", "a.txt"] = none := by decide +kernel
    have hthere : ((sampleReceiver.finishTransfer "tx").run handler
      (slashStore, .fresh)).2.1.fs.contents ["inbox", "a.txt"] = some [1] := by decide +kernel
    rw [hrun, hfs, hfree] at hthere
    cases hthere
  have hfirst : ¬ FirstUnnamed ["inbox"] slashStore "tx" := by
    rintro ⟨file, hfile, hnone⟩
    obtain rfl : ⟨"file-1", "a.txt", 1, none⟩ = file :=
      Option.some.inj ((show (filesOf slashStore.manifest "tx").head? =
        some ⟨"file-1", "a.txt", 1, none⟩ by decide +kernel).symm.trans hfile)
    revert hnone
    decide +kernel
  have hall : ¬ Publishable ["inbox"] slashStore "tx" := fun h => absurd h.1 (by decide +kernel)
  refine ⟨hready, hfirst, hall, fun h => ?_⟩
  rcases (finish_allOrNothing_iff sampleReceiver hwf hu).mp h with h | h | h
  · exact h hready
  · exact hfirst h
  · exact hall h

/-- The request is valid, accepted and delivered, and `finish_transfer` fails
after it has published the first file. -/
theorem finish_publishes_in_part :
    validateTransferRequest slashRequest = .ok () ∧
      ((@deliverSlash .sample sampleReceiver samplePeer).run handler (.fresh, .fresh)).1 = .ok () ∧
      ¬ @AllOrNothing .sample sampleReceiver slashStore .fresh "tx" := by
  refine ⟨by decide, by decide +kernel, fun hall => ?_⟩
  have hfail : ((@finishTransfer sampleReceiver .sample "tx").run handler (slashStore, .fresh)).1 =
      .error (.protocol "unsafe file name") := by decide +kernel
  have hsame := (hall _ _ _ (Prod.ext hfail rfl)).1 "a.txt"
  revert hsame
  decide +kernel

end NightBridge.Native
