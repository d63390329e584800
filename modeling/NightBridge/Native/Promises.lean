/-
# What the callers of the receiver may rely on

Four promises one would read off the receiver's interface, and what each needs
to be kept:

| promise | kept when |
| --- | --- |
| a staging path identifies its file | `safe_component` keeps the ids apart, and something of each |
| an accepted request is what the manifest holds | the transfer id is new, or was bound to it before |
| a recorded chunk adds to what is covered | no longer row stands at its offset |
| a rejected chunk leaves no trace | it is rejected before it is written |

Each theorem is followed by a run in which the promise is broken.
-/

import NightBridge.Native.Ranges
import NightBridge.Native.Rows
import NightBridge.Native.Footprint

namespace NightBridge.Native

open Data Effect NativeTransferReceiver ManifestStore

/-! ### Staging paths -/

/-- The pair of ids has this staging path, on every evaluation. -/
def HasPath (self : NativeTransferReceiver) (t f : String) (path : Path) : Prop :=
  ∀ sw : Store × Wire, ((self.incomingFilePath t f).run handler sw).1 = .ok path

theorem hasPath_of_stable (self : NativeTransferReceiver) {t f : String} (ht : Stable t) (hf : Stable f) :
    HasPath self t f (partPath self.inboxDir (cleanComponent t) (cleanComponent f)) := by
  intro sw
  rw [incomingFilePath_eq self ht hf, Prog.run_ret]

/-- An id of which nothing is left is staged under the next UUID, and this may
be any. -/
theorem HasPath.stable {self : NativeTransferReceiver} {t f : String} {path : Path}
    (h : HasPath self t f path) : Stable t ∧ Stable f := by
  have hdrawn : ∀ uuid, ((self.incomingFilePath t f).run handler
      ({ Store.fresh with uuids := fun _ => uuid }, .fresh)).1 = .ok path := fun uuid => h _
  have hpath := (hdrawn "a").trans (hdrawn "b").symm
  unfold incomingFilePath safeComponent at hpath
  by_cases ht : cleanComponent t = "" <;> by_cases hf : cleanComponent f = ""
  · simp [ht, hf, newUuid, handler, exec, partPath] at hpath
  · simp [ht, hf, newUuid, handler, exec, partPath] at hpath
  · simp [ht, hf, newUuid, handler, exec, partPath] at hpath
  · exact ⟨ht, hf⟩

/-- **Staging paths identify files** exactly if `safe_component` leaves something
of every id and does not make two pairs of ids one: then each pair has one path
on all evaluations, and two pairs have paths that lead to different places. -/
theorem staging_paths_identify (self : NativeTransferReceiver) (t f t' f' : String) :
    (∃ path path', HasPath self t f path ∧ HasPath self t' f' path' ∧
      ((t, f) ≠ (t', f') → resolve path ≠ resolve path')) ↔
    (Stable t ∧ Stable f) ∧ (Stable t' ∧ Stable f') ∧
      (cleanComponent t = cleanComponent t' → cleanComponent f = cleanComponent f' →
        (t, f) = (t', f')) := by
  constructor
  · rintro ⟨path, path', h, h', hne⟩
    refine ⟨h.stable, h'.stable, fun ht hf => ?_⟩
    by_contra hpairs
    refine hne hpairs ?_
    have hpath := (h (.fresh, .fresh)).symm.trans (hasPath_of_stable self h.stable.1 h.stable.2 _)
    have hpath' := (h' (.fresh, .fresh)).symm.trans (hasPath_of_stable self h'.stable.1 h'.stable.2 _)
    rw [Except.ok.inj hpath, Except.ok.inj hpath', ht, hf]
  · rintro ⟨hstable, hstable', hapart⟩
    refine ⟨_, _, hasPath_of_stable self hstable.1 hstable.2, hasPath_of_stable self hstable'.1 hstable'.2,
      fun hne he => ?_⟩
    obtain ⟨hd, hg⟩ := resolve_partPath_inj (normalName_cleanComponent _) he
    exact hne (hapart hd hg)

/-- Two files of one transfer. -/
theorem staging_paths_identify_two :
    ∃ path path', HasPath sampleReceiver "tx" "file-1" path ∧ HasPath sampleReceiver "tx" "file-2" path' ∧
      resolve path ≠ resolve path' := by
  obtain ⟨path, path', h, h', hne⟩ := (staging_paths_identify sampleReceiver "tx" "file-1" "tx" "file-2").mpr
    (by decide)
  exact ⟨path, path', h, h', hne (by decide)⟩

/-- Two files of one accepted request with one staging path, and a file with two. -/
theorem staging_paths_collide :
    let request : RequestTransfer :=
      ⟨"tx", [⟨"a.b", "a.txt", 1, none, by decide⟩, ⟨"ab", "b.txt", 1, none, by decide⟩]⟩
    validateTransferRequest request = .ok () ∧
      ((sampleReceiver.incomingFilePath "tx" "a.b").run handler (.fresh, .fresh)).1 =
        ((sampleReceiver.incomingFilePath "tx" "ab").run handler (.fresh, .fresh)).1 ∧
      validateTransferRequest ⟨"tx", [⟨"!", "a.txt", 1, none, by decide⟩]⟩ = .ok () ∧
      ((sampleReceiver.incomingFilePath "tx" "!").run handler (.fresh, .fresh)).1 ≠
        ((sampleReceiver.incomingFilePath "tx" "!").run handler
          ((sampleReceiver.incomingFilePath "tx" "!").run handler (.fresh, .fresh)).2).1 := by
  decide +kernel

/-! ### Accepted requests -/

/-- The manifest has the transfer of the request: as the transfer of this peer,
with the files of the request and no others. -/
structure Binds (db : ManifestDb) (peer : NativePeerInfo) (request : RequestTransfer) : Prop where
  peer : (db.transfers.find? request.transferId).map TransferRow.peerFingerprint =
    some peer.fingerprint
  files : ∀ file, file ∈ filesOf db request.transferId ↔
    ∃ offer ∈ request.files, ⟨offer.fileId, offer.fileName, offer.size, offer.blake3⟩ = file

theorem binds_updateState {db : ManifestDb} {peer : NativePeerInfo} {request : RequestTransfer}
    (t : String) (state : TransferState) (now : ℤ) :
    Binds (db.updateState t state now).2 peer request ↔ Binds db peer request := by
  have hpeer : ((db.updateState t state now).2.transfers.find? request.transferId).map
      TransferRow.peerFingerprint =
        (db.transfers.find? request.transferId).map TransferRow.peerFingerprint := by
    simp only [ManifestDb.updateState, Table.find?_modify]
    split_ifs
    · simp [Option.map_map, Function.comp_def]
    · rfl
  exact ⟨fun h => ⟨hpeer ▸ h.peer, h.files⟩, fun h => ⟨hpeer.trans h.peer, h.files⟩⟩

theorem Created.binds {db db' : ManifestDb} {peer : NativePeerInfo} {request : RequestTransfer}
    {state : TransferState} (hwf : db.WellFormed)
    (h : Created db request.transferId request.files state db')
    (hpeer : (db'.transfers.find? request.transferId).map TransferRow.peerFingerprint =
      some peer.fingerprint) : Binds db' peer request where
  peer := hpeer
  files file := by
    rw [mem_filesOf]
    constructor
    · rintro ⟨fr, hfr, ht, rfl⟩
      obtain ⟨offer, hoffer, rfl⟩ := (h.mem_own hwf).mp ⟨hfr, ht⟩
      exact ⟨offer, hoffer, by rw [ManifestFile.ofRow, asU64_offeredRow]; rfl⟩
    · rintro ⟨offer, hoffer, rfl⟩
      obtain ⟨hfr, ht⟩ := (h.mem_own hwf).mpr ⟨offer, hoffer, rfl⟩
      exact ⟨_, hfr, ht, by rw [ManifestFile.ofRow, asU64_offeredRow]; rfl⟩

/-- **Acceptance binds the offer** exactly when the transfer id is new, or was
bound to the same offer before. -/
theorem accept_binds (self : NativeTransferReceiver) {s s' : Store} {w w' : Wire}
    {peer : NativePeerInfo} {request : RequestTransfer} {accepted : AcceptTransfer}
    (hreach : s.manifest.Reachable)
    (hrun : (self.acceptTransfer peer request).run handler (s, w) = (.ok accepted, (s', w'))) :
    Binds s'.manifest peer request ↔
      s.manifest.transfers.find? request.transferId = none ∨ Binds s.manifest peer request := by
  obtain ⟨r, s₁, hspec, -, -, hcases⟩ := run_acceptTransfer_spec self (s := s) (w := w) peer request
  obtain ⟨rfl, hsw⟩ := Prod.mk.inj (hspec.symm.trans hrun)
  obtain ⟨rfl, rfl⟩ := Prod.mk.inj hsw
  rcases hcases with ⟨⟨e, he⟩, -⟩ | ⟨-, ⟨db', now, hcreated, hpeer, hdb⟩ | ⟨hknown, now, hdb⟩⟩
  · cases he
  · -- the rows are new, so they are those of the request
    rw [hdb, binds_updateState]
    exact iff_of_true (hcreated.binds hreach.wellFormed hpeer) (.inl hcreated.fresh)
  · -- a known id keeps the rows it has
    rw [hdb, binds_updateState, or_iff_right (Option.isSome_iff_ne_none.mp hknown)]

/-- A request that is sent again when its transfer is in the manifest, and the
request of another peer under the same id. -/
theorem accept_binds_again :
    let first := ((sampleReceiver.acceptTransfer samplePeer oneByteRequest).run handler
      (.fresh, .fresh)).2
    let other : NativePeerInfo := { samplePeer with fingerprint := "other" }
    Binds first.1.manifest samplePeer oneByteRequest ∧
      Binds ((sampleReceiver.acceptTransfer samplePeer oneByteRequest).run handler
        first).2.1.manifest samplePeer oneByteRequest ∧
      ¬ Binds ((NativeTransferReceiver.acceptTransfer (.trusted ["inbox"] "other") other
        oneByteRequest).run handler first).2.1.manifest other oneByteRequest := by
  intro first other
  have hreach : first.1.manifest.Reachable :=
    ⟨[.create "tx" "peer" .receive oneByteRequest.files, .setState "tx" .active], .fresh, .fresh,
      rfl⟩
  have hok : ((sampleReceiver.acceptTransfer samplePeer oneByteRequest).run handler
      (.fresh, .fresh)).1 = .ok ⟨"tx", defaultChunkSize⟩ := by decide +kernel
  have hagain : ((sampleReceiver.acceptTransfer samplePeer oneByteRequest).run handler
      first).1 = .ok ⟨"tx", defaultChunkSize⟩ := by decide +kernel
  have hother : ((NativeTransferReceiver.acceptTransfer (.trusted ["inbox"] "other") other
      oneByteRequest).run handler first).1 = .ok ⟨"tx", defaultChunkSize⟩ := by decide +kernel
  have hbinds : Binds first.1.manifest samplePeer oneByteRequest :=
    (accept_binds sampleReceiver (s := .fresh) (w := .fresh) ⟨[], .fresh, .fresh, rfl⟩
      (Prod.ext hok rfl)).mpr (.inl rfl)
  refine ⟨hbinds, (accept_binds sampleReceiver hreach (Prod.ext hagain rfl)).mpr (.inr hbinds),
    fun h => ?_⟩
  rcases (accept_binds _ hreach (Prod.ext hother rfl)).mp h with hnone | hother
  · exact absurd hnone (by decide +kernel)
  · exact absurd hother.peer (by decide +kernel)

/-- A peer asks for the transfer of another peer under the same id, with another
file, and is accepted; the manifest keeps the first peer and the first file. -/
theorem accept_ignores_offer :
    let other : NativeTransferReceiver := .trusted ["inbox"] "other"
    let peer : NativePeerInfo := { samplePeer with fingerprint := "other" }
    let request : RequestTransfer := ⟨"tx", [⟨"file-9", "b.txt", 7, none, by decide⟩]⟩
    let first := ((sampleReceiver.acceptTransfer samplePeer oneByteRequest).run handler
      (.fresh, .fresh)).2
    let second := (other.acceptTransfer peer request).run handler first
    second.1 = .ok ⟨"tx", defaultChunkSize⟩ ∧
      (second.2.1.manifest.transfers.find? "tx").map TransferRow.peerFingerprint = some "peer" ∧
      filesOf second.2.1.manifest "tx" = [⟨"file-1", "a.txt", 1, none⟩] := by
  decide +kernel

/-! ### Recorded chunks -/

namespace ManifestDb

/-- What the row at this offset covers beyond the end of the chunk, other rows
cover too. -/
def Extends (db : ManifestDb) (t f : String) (offset length : ℕ) : Prop :=
  ∀ r ∈ db.chunks.rows, r.key = (t, f, asI64 offset) →
    ∀ b, offset + length ≤ b → b < r.span.stop → db.CoveredBeside t f offset b

variable {db : ManifestDb} {t f : String} {offset length : ℕ}

theorem covered_iff_beside (offset b : ℕ) : db.Covered t f b ↔ db.CoveredBeside t f offset b ∨
    ∃ r ∈ db.chunks.rows, r.key = (t, f, asI64 offset) ∧ r.span.Has b := by
  constructor
  · rintro ⟨c, hc, hb⟩
    obtain ⟨r, hr, ht, hf, rfl⟩ := mem_spans.mp hc
    by_cases hk : r.key = (t, f, asI64 offset)
    · exact .inr ⟨r, hr, hk, hb⟩
    · exact .inl ⟨r, hr, ht, hf, hk, hb⟩
  · rintro (⟨r, hr, ht, hf, -, hb⟩ | ⟨r, hr, hk, hb⟩)
    · exact ⟨_, mem_spans.mpr ⟨r, hr, ht, hf, rfl⟩, hb⟩
    · obtain ⟨ht, hk⟩ := Prod.mk.inj hk
      exact ⟨_, mem_spans.mpr ⟨r, hr, ht, (Prod.mk.inj hk).1, rfl⟩, hb⟩

/-- **Recording adds the chunk** to what is covered, exactly when it extends the
row it replaces. -/
theorem covered_record_iff_extends (blake3 : String) (now : ℤ) (ho : offset < 2 ^ 64)
    (hl : length < 2 ^ 64) :
    (∀ b, (db.record t f offset length blake3 now).Covered t f b ↔
      db.Covered t f b ∨ (offset ≤ b ∧ b < offset + length)) ↔ db.Extends t f offset length := by
  simp only [covered_record_iff blake3 now ho hl]
  have hoffset {r : ChunkRow} (hk : r.key = (t, f, asI64 offset)) : r.span.offset = offset := by
    rw [ChunkRow.span, (Prod.mk.inj (Prod.mk.inj hk).2).2, asU64_asI64 ho]
  constructor
  · intro h r hr hk b hb hstop
    have hoff := hoffset hk
    have hcov : db.Covered t f b :=
      (covered_iff_beside offset b).mpr (.inr ⟨r, hr, hk, by omega, hstop⟩)
    exact ((h b).mpr (.inl hcov)).resolve_right (by omega)
  · intro h b
    rw [covered_iff_beside offset b]
    constructor
    · rintro (hb | hb)
      · exact .inl (.inl hb)
      · exact .inr hb
    · rintro ((hb | ⟨r, hr, hk, hb⟩) | hb)
      · exact .inl hb
      · have hoff := hoffset hk
        by_cases hlt : b < offset + length
        · exact .inr ⟨hoff ▸ hb.1, hlt⟩
        · exact .inl (h r hr hk b (by omega) hb.2)
      · exact .inr hb

/-- Recording a chunk of one file says nothing about another. -/
theorem covered_record_other {t' f' : String} (blake3 : String) (now : ℤ) (ho : offset < 2 ^ 64)
    (hl : length < 2 ^ 64) (hne : (t', f') ≠ (t, f)) (b : ℕ) :
    (db.record t f offset length blake3 now).Covered t' f' b ↔ db.Covered t' f' b := by
  constructor
  · intro h
    rcases covered_record ho hl h with h | ⟨rfl, rfl, -⟩
    · exact h
    · exact absurd rfl hne
  · rintro ⟨c, hc, hb⟩
    obtain ⟨r, hr, rfl, rfl, rfl⟩ := mem_spans.mp hc
    refine ⟨_, mem_spans.mpr ⟨r, mem_record_chunks.mpr (.inl ⟨hr, fun hk => ?_⟩), rfl, rfl, rfl⟩, hb⟩
    obtain ⟨ht, hk⟩ := Prod.mk.inj hk
    exact hne (by rw [ht, (Prod.mk.inj hk).1])

end ManifestDb

/-- **Recording a chunk only adds coverage**, when what the row at its offset
covers beyond its end is covered by other rows.  Then no missing range appears
for any file and any chunk size. -/
theorem record_adds_coverage {s s' : Store} {w w' : Wire} {t f : String} {offset length : ℕ}
    {blake3 : String} (hreach : s.manifest.Reachable)
    (hrun : (recordVerifiedChunk t f offset length blake3).run handler (s, w) = (.ok (), (s', w')))
    (hextends : s.manifest.Extends t f offset length) :
    (∀ b, s'.manifest.Covered t f b ↔
      s.manifest.Covered t f b ∨ (offset ≤ b ∧ b < offset + length)) ∧
    (∀ t' f', (t', f') ≠ (t, f) → ∀ b,
      s'.manifest.Covered t' f' b ↔ s.manifest.Covered t' f' b) ∧
    ∀ fr ∈ s.manifest.files.rows, ∀ chunkSize, 0 < chunkSize → ∃ before after,
      (missingRanges fr.transferId fr.fileId chunkSize).run handler (s, w) =
        (.ok before, (s, w)) ∧
      (missingRanges fr.transferId fr.fileId chunkSize).run handler (s', w') =
        (.ok after, (s', w')) ∧ after ⊆ before := by
  have hwf := hreach.wellFormed
  obtain ⟨r, s₁, hany, -, -, -, hdone⟩ :=
    run_recordVerifiedChunk_any (s := s) (w := w) t f offset length blake3
  obtain ⟨rfl, hsw⟩ := Prod.mk.inj (hrun.symm.trans hany)
  obtain ⟨rfl, rfl⟩ := Prod.mk.inj hsw
  obtain ⟨⟨fr₀, hfr₀, hkey, hpos, hend⟩, hm⟩ := hdone rfl
  obtain ⟨rfl, rfl⟩ := Prod.mk.inj hkey
  have hlt := ManifestDb.asU64_lt fr₀.size
  have ho : offset < 2 ^ 64 := by omega
  have hl : length < 2 ^ 64 := by omega
  have hown := (ManifestDb.covered_record_iff_extends blake3 (s.clock 0) ho hl).mpr hextends
  have hother : ∀ t' f', (t', f') ≠ (fr₀.transferId, fr₀.fileId) → ∀ b,
      s'.manifest.Covered t' f' b ↔ s.manifest.Covered t' f' b := by
    intro t' f' hne b
    rw [hm]
    exact ManifestDb.covered_record_other blake3 _ ho hl hne b
  rw [← hm] at hown
  refine ⟨hown, hother, fun fr hfr chunkSize hchunk => ?_⟩
  have hwf' : s'.manifest.WellFormed := hm ▸ hwf.record ho hl hfr₀ hpos hend
  have hfr' : fr ∈ s'.manifest.files.rows := by rw [hm]; exact hfr
  obtain ⟨before, hbefore, hmem⟩ := run_missingRanges (w := w') hwf hfr hchunk
  obtain ⟨after, hafter, hmem'⟩ := run_missingRanges (w := w') hwf' hfr' hchunk
  refine ⟨before, after, hbefore, hafter, fun c hc => (hmem c).mpr ?_⟩
  obtain ⟨hchunks, huncovered⟩ := (hmem' c).mp hc
  refine ⟨hchunks, fun hall => huncovered fun b hb => ?_⟩
  by_cases hsame : (fr.transferId, fr.fileId) = (fr₀.transferId, fr₀.fileId)
  · obtain ⟨ht, hf⟩ := Prod.mk.inj hsame
    rw [ht, hf] at hall ⊢
    exact (hown b).mpr (.inl (hall b hb))
  · exact (hother _ _ hsame b).mpr (hall b hb)

/-- The store with a file of two bytes of which these chunks were recorded. -/
def twoByteStore (chunks : List (ℕ × ℕ)) : Store :=
  (ManifestCall.after (twoByteCalls.take 1 ++ chunks.map fun (offset, length) =>
    .record "tx" "file-1" offset length "hash") (.fresh, .fresh)).1

theorem reachable_twoByteStore (chunks : List (ℕ × ℕ)) :
    (twoByteStore chunks).manifest.Reachable := ⟨_, .fresh, .fresh, rfl⟩

/-- Both bytes are recorded over the row of the first, and the second is then
covered. -/
theorem record_adds_coverage_longer :
    (twoByteStore [(0, 1), (0, 2)]).manifest.Covered "tx" "file-1" 1 := by
  have hextends : (twoByteStore [(0, 1)]).manifest.Extends "tx" "file-1" 0 2 := by
    intro r hr hk b hend hstop
    have hrows : (twoByteStore [(0, 1)]).manifest.chunks.rows =
        [⟨"tx", "file-1", 0, 1, "hash"⟩] := by decide +kernel
    rw [hrows, List.mem_singleton] at hr
    subst hr
    exact absurd (hend.trans_lt hstop) (by decide)
  have hrecords : (recordVerifiedChunk "tx" "file-1" 0 2 "hash").run handler
    (twoByteStore [(0, 1)], .fresh) =
      (.ok (), (twoByteStore [(0, 1), (0, 2)], .fresh)) := Prod.ext (by decide +kernel) rfl
  have hcovered := (record_adds_coverage (w := .fresh) (reachable_twoByteStore [(0, 1)])
    hrecords hextends).1
  exact (hcovered 1).mpr (.inr ⟨by decide, by decide⟩)

/-- One byte recorded at the offset of a row of two: the other one is missing
again. -/
theorem record_loses_coverage :
    let again := (recordVerifiedChunk "tx" "file-1" 0 1 "one").run handler
      (twoByteStore [(0, 2)], .fresh)
    again.1 = .ok () ∧
      ((missingRanges "tx" "file-1" 1).run handler (twoByteStore [(0, 2)], .fresh)).1 = .ok [] ∧
      ((missingRanges "tx" "file-1" 1).run handler again.2).1 = .ok [⟨1, 1⟩] := by
  decide +kernel

/-! ### Rejected chunks -/

section rejected

variable [Primitives]

/-- A chunk that is refused before it is written, or is a part of a file of the
manifest. -/
def Call.Within (s : Store) : Call → Prop
  | .chunk t f offset bytes blake3 => bytes = [] ∨ blake3Hex bytes ≠ blake3 ∨
    s.manifest.Takes t f offset bytes.length
  | _ => True

/-- Any calls on the inbox in which all chunks are within their files. -/
inductive WithinSteps (inboxDir : Path) : Store → Store → Prop
  | refl (s : Store) : WithinSteps inboxDir s s
  | tail {s s₁ s₂ : Store} {self : NativeTransferReceiver} {call : Call} {w w' : Wire}
      {r : Except NativeError Unit} (before : WithinSteps inboxDir s s₁)
      (dir : self.inboxDir = inboxDir) (within : call.Within s₁)
      (last : (call.exec self).run handler (s₁, w) = (r, (s₂, w'))) : WithinSteps inboxDir s s₂

omit [Primitives] in
/-- Every staged file is no longer than a file of the manifest that is staged
there. -/
def Declared (inboxDir : Path) (s : Store) : Prop :=
  ∀ d g bytes, NormalName d → s.fs.contents (partPath inboxDir d g) = some bytes →
    ∃ fr ∈ s.manifest.files.rows, bytes.length ≤ asU64 fr.size ∧
      (Stable fr.transferId → Stable fr.fileId →
        d = cleanComponent fr.transferId ∧ g = cleanComponent fr.fileId)

/-- **A chunk within its file** keeps the staged files within theirs, whether it
is stored or not. -/
theorem Declared.chunk (self : NativeTransferReceiver) {s s' : Store} {w w' : Wire}
    {t f : String} {offset : ℕ} {bytes : Bytes} {blake3 : String} {r : Except NativeError Unit}
    (h : Declared self.inboxDir s) (hwithin : (Call.chunk t f offset bytes blake3).Within s)
    (hrun : (self.receiveChunkWithHash t f offset bytes blake3).run handler (s, w) =
      (r, (s', w'))) : Declared self.inboxDir s' := by
  by_cases hcheck : bytes = [] ∨ blake3Hex bytes ≠ blake3
  · obtain ⟨e, hrun'⟩ := run_receiveChunkWithHash_unchecked self (s := s) (w := w) t f offset hcheck
    obtain ⟨rfl, -⟩ := Prod.mk.inj (Prod.mk.inj (hrun.symm.trans hrun')).2
    exact h
  obtain ⟨hne, hhash⟩ := not_or.mp hcheck
  rw [not_not] at hhash
  have htakes : s.manifest.Takes t f offset bytes.length :=
    (hwithin.resolve_left hne).resolve_left (not_not.mpr hhash)
  obtain ⟨fr, hfr, hkey, hpos, hend⟩ := htakes
  obtain ⟨rfl, rfl⟩ := Prod.mk.inj hkey
  obtain ⟨d, g, uuids, fs', hdg, -, hother, ⟨e, hio, hcont⟩ | ⟨hrec, hwritten⟩⟩ :=
    run_receiveChunkWithHash_write self (s := s) (w := w) fr.transferId fr.fileId offset hne hhash
  · obtain ⟨rfl, -⟩ := Prod.mk.inj (Prod.mk.inj (hrun.symm.trans hio)).2
    intro d' g' staged hd' hstaged
    rcases hcont (partPath self.inboxDir d' g') with hsame | ⟨hpath, hempty⟩
    · exact h d' g' staged hd' (hsame.symm.trans hstaged)
    · -- a file that was opened, and not written
      obtain ⟨rfl, rfl⟩ := resolve_partPath_inj hd' hpath.symm
      obtain rfl := Option.some.inj (hempty.symm.trans hstaged)
      refine ⟨fr, hfr, Nat.zero_le _, fun ht hf => ?_⟩
      exact (hdg.resolve_right fun hno => hno.1.elim (· ht) (· hf)).2.2
  · rw [hrec, run_recordVerifiedChunk (s := { s with uuids := uuids, fs := fs' }) hfr hpos hend]
      at hrun
    obtain ⟨rfl, -⟩ := Prod.mk.inj (Prod.mk.inj hrun).2
    intro d' g' staged hd' hstaged
    have hstaged' : fs'.contents (partPath self.inboxDir d' g') = some staged := hstaged
    by_cases hsame : resolve (partPath self.inboxDir d' g') = resolve (partPath self.inboxDir d g)
    · -- the path that was written: it is as long as before, or ends with the chunk
      obtain ⟨rfl, rfl⟩ := resolve_partPath_inj hd' hsame.symm
      obtain rfl := Option.some.inj (hwritten.symm.trans hstaged')
      rw [length_overwrite hne]
      rcases hold : s.fs.contents (partPath self.inboxDir d g) with _ | old
      · refine ⟨fr, hfr, by simp only [Option.getD_none, List.length_nil]; omega, fun ht hf => ?_⟩
        exact (hdg.resolve_right fun hno => hno.1.elim (· ht) (· hf)).2.2
      · obtain ⟨fr', hfr', hlen, hat⟩ := h d g old hd' hold
        rw [Option.getD_some]
        by_cases hlonger : offset + bytes.length ≤ old.length
        · exact ⟨fr', hfr', by omega, hat⟩
        · refine ⟨fr, hfr, by omega, fun ht hf => ?_⟩
          exact (hdg.resolve_right fun hno => hno.1.elim (· ht) (· hf)).2.2
    · rw [hother _ hsame] at hstaged'
      exact h d' g' staged hd' hstaged'

omit [Primitives] in
/-- With more files in the manifest and no new staged bytes, nothing is too long. -/
theorem Declared.mono {inboxDir : Path} {s s' : Store} (h : Declared inboxDir s)
    (hfiles : ∀ fr ∈ s.manifest.files.rows, fr ∈ s'.manifest.files.rows)
    (hstaged : ∀ d g bytes, s'.fs.contents (partPath inboxDir d g) = some bytes →
      s.fs.contents (partPath inboxDir d g) = some bytes) : Declared inboxDir s' := by
  intro d g bytes hd hbytes
  obtain ⟨fr, hfr, hrest⟩ := h d g bytes hd (hstaged d g bytes hbytes)
  exact ⟨fr, hfiles fr hfr, hrest⟩

/-- **Publishing** stages nothing and declares nothing: an operation of
`finish_transfer`. -/
theorem Declared.publishes {inboxDir : Path} {t : String} {hist : Calls} {o : Op} {s : Store}
    {w : Wire} (h : Declared inboxDir s) (ho : Publishes inboxDir t hist o) :
    Declared inboxDir (exec o s w).2.1 := by
  rcases ho with hlooks | rfl | ⟨source, target, rfl, file, name, -, ⟨dir, part, -, -, rfl⟩, rfl, -⟩
  · cases o with
    | nowUnix | newUuid | read | metadata | selectState | selectSize | selectFiles
    | selectFilesOrdered | selectRanges | updateState => exact h
    | _ => exact hlooks.elim
  · rw [exec]
    cases hfs : s.fs.createDirAll inboxDir with
    | error e => exact h
    | ok fs' =>
      refine h.mono (fun _ hfr => hfr) fun d g bytes hbytes => ?_
      rw [← Fs.contents_createDirAll hfs]
      exact hbytes
  · rw [exec]
    cases hfs : s.fs.rename (partPath inboxDir dir part) (inboxDir ++ [name]) with
    | error e => exact h
    | ok fs' =>
      obtain ⟨-, -, hgone, hother⟩ :=
        Fs.contents_rename hfs (resolve_name_ne_partPath inboxDir name dir part)
      refine h.mono (fun _ hfr => hfr) fun d g bytes hbytes => ?_
      have hbytes' : fs'.contents (partPath inboxDir d g) = some bytes := hbytes
      by_cases hsame : resolve (partPath inboxDir d g) = resolve (partPath inboxDir dir part)
      · -- the path the file was moved away from
        rw [Fs.contents, show fs'.lookup (partPath inboxDir d g) = none by
          rw [Fs.lookup, hsame]; exact hgone] at hbytes'
        cases hbytes'
      · rw [← (hother _ hsame (resolve_name_ne_partPath inboxDir name d g).symm).2]
        exact hbytes'

/-- **One call** in which a chunk is within its file keeps the staged files
within theirs. -/
theorem Declared.step (self : NativeTransferReceiver) {s s' : Store} {w w' : Wire} {call : Call}
    {r : Except NativeError Unit} (h : Declared self.inboxDir s) (hwithin : call.Within s)
    (hrun : (call.exec self).run handler (s, w) = (r, (s', w'))) : Declared self.inboxDir s' := by
  cases call with
  | accept peer request =>
    obtain ⟨ra, s₁, hany, -, hcont, heff, -⟩ :=
      run_acceptTransfer_any self (s := s) (w := w) peer request
    have hs' : s' = s₁ := by
      rw [Call.exec, Prog.run_bind, hany] at hrun
      cases ra with
      | error e => exact (congrArg (fun x => x.2.1) hrun).symm
      | ok a => exact (congrArg (fun x => x.2.1) hrun).symm
    subst hs'
    exact h.mono heff.rows.2 fun d g bytes hbytes => by rw [← hcont]; exact hbytes
  | chunk t f offset bytes blake3 => exact h.chunk self hwithin hrun
  | finish t =>
    have hwp : (self.finishTransfer t).wp (Publishes self.inboxDir t) (fun _ _ => True) [] :=
      wp_finishTransfer_publishes self
    have hafter : Declared self.inboxDir ((self.finishTransfer t).run handler (s, w)).2.1 :=
      Prog.run_inv_of_wp (I := fun sw : Store × Wire => Declared self.inboxDir sw.1) hwp
        (fun _ _ _ ho hI => hI.publishes ho) h
    rw [Call.exec] at hrun
    rwa [hrun] at hafter

theorem WithinSteps.replay (self : NativeTransferReceiver) {s : Store} (calls : List Call)
    (call : Call) (h : WithinSteps self.inboxDir s (Native.replay self calls s))
    (hwithin : call.Within (Native.replay self calls s)) :
    WithinSteps self.inboxDir s (Native.replay self (calls ++ [call]) s) := by
  rw [replay_concat]
  exact h.tail rfl hwithin rfl

end rejected

end NightBridge.Native
