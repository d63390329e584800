/-
# Staging a chunk

What `receive_chunk_with_hash` does when it runs alone.  An id is stable when
`safe_component` leaves something of it; then the staging path of a file is the
same on every evaluation (`incomingFilePath_eq`), and two files share it exactly
when both components agree (`resolve_partPath_inj`).

`ManifestDb.record` is the effect on the manifest; `covered_record` and
`covered_record_of_le` say which bytes are covered afterwards.
-/

import NightBridge.Native.Coverage
import NightBridge.Native.Transfer

namespace NightBridge.Native

open Data Effect NativeTransferReceiver

/-! ### Staging paths -/

/-- `safe_component` keeps some character of the id. -/
def Stable (id : String) : Prop := cleanComponent id ≠ ""

instance (id : String) : Decidable (Stable id) := inferInstanceAs (Decidable (_ ≠ _))

theorem isWhitespace_of_kept {c : Char} (h : (c.isAlphanum || c = '-' || c = '_') = true) :
    isWhitespace c = false := by
  have hrange : (48 ≤ c.toNat ∧ c.toNat ≤ 57) ∨ (65 ≤ c.toNat ∧ c.toNat ≤ 90) ∨
      (97 ≤ c.toNat ∧ c.toNat ≤ 122) ∨ c.toNat = 45 ∨ c.toNat = 95 := by
    unfold Char.isAlphanum Char.isAlpha Char.isUpper Char.isLower Char.isDigit at h
    simp only [Bool.or_eq_true, Bool.and_eq_true, decide_eq_true_eq, ge_iff_le,
      UInt32.le_iff_toNat_le] at h
    rcases h with ((((h | h) | h) | rfl) | rfl)
    · exact .inr (.inl h)
    · exact .inr (.inr (.inl h))
    · exact .inl h
    · decide
    · decide
  simp only [isWhitespace, Bool.or_eq_false_iff, Bool.and_eq_false_imp, decide_eq_true_eq,
    decide_eq_false_iff_not, beq_eq_false_iff_ne]
  omega

theorem Stable.isBlank {id : String} (h : Stable id) : Data.isBlank id = false := by
  obtain ⟨c, hc⟩ := List.exists_mem_of_ne_nil _ (show id.toList.filter _ ≠ [] from fun hnil =>
    h (by rw [cleanComponent, hnil]))
  obtain ⟨hmem, hkept⟩ := List.mem_filter.mp hc
  rw [Data.isBlank, List.all_eq_false]
  exact ⟨c, hmem, by rw [isWhitespace_of_kept hkept]; decide⟩

theorem normalName_cleanComponent (value : String) : NormalName (cleanComponent value) := by
  have hdot : '.' ∉ (cleanComponent value).toList := by
    rw [cleanComponent, String.toList_ofList, List.mem_filter]
    rintro ⟨-, h⟩
    exact absurd h (by decide)
  constructor
  · intro h
    rw [h] at hdot
    exact hdot (by decide)
  · intro h
    rw [h] at hdot
    exact hdot (by decide)

theorem append_part_inj {f f' : String} (h : f ++ ".part" = f' ++ ".part") : f = f' := by
  have := congrArg String.toList h
  rw [String.toList_append, String.toList_append] at this
  exact String.ext (List.append_cancel_right this)

theorem resolve_stagingRoot (inboxDir : Path) :
    resolve (stagingRoot inboxDir) = resolve inboxDir ++ [".incoming"] ++ ["native"] := by
  rw [stagingRoot, show inboxDir ++ [".incoming", "native"] =
    inboxDir ++ [".incoming"] ++ ["native"] by simp, resolve_append_normal _ (by decide),
    resolve_append_normal _ (by decide)]

theorem resolve_stagingDir (inboxDir : Path) {dir : String} (hd : NormalName dir) :
    resolve (stagingRoot inboxDir ++ [dir]) =
      resolve inboxDir ++ [".incoming"] ++ ["native"] ++ [dir] := by
  rw [resolve_append_normal _ hd, resolve_stagingRoot]

theorem resolve_partPath (inboxDir : Path) {dir : String} (hd : NormalName dir) (file : String) :
    resolve (partPath inboxDir dir file) =
      resolve inboxDir ++ [".incoming"] ++ ["native"] ++ [dir] ++ [file ++ ".part"] := by
  rw [partPath, resolve_append_normal _ (normalName_part file), resolve_stagingDir _ hd]

/-- Whatever the two components are, the path is below `.incoming`. -/
theorem resolve_partPath_below (inboxDir : Path) (dir file : String) :
    ∃ rest, resolve (partPath inboxDir dir file) =
      resolve inboxDir ++ ".incoming" :: (rest ++ [file ++ ".part"]) := by
  have hroot := resolve_stagingRoot inboxDir
  have hdir : ∃ rest, resolve (stagingRoot inboxDir ++ [dir]) =
      resolve inboxDir ++ ".incoming" :: rest := by
    by_cases hd : NormalName dir
    · exact ⟨["native", dir], by rw [resolve_stagingDir _ hd]; simp⟩
    · rcases dot_or_dotdot hd with rfl | rfl
      · exact ⟨["native"], by simpa [resolve] using hroot⟩
      · have hup : resolve (stagingRoot inboxDir ++ [".."]) =
            (resolve (stagingRoot inboxDir)).dropLast := by simp [resolve]
        exact ⟨[], by rw [hup, hroot, List.dropLast_concat]⟩
  obtain ⟨rest, hrest⟩ := hdir
  refine ⟨rest, ?_⟩
  rw [partPath, resolve_append_normal _ (normalName_part file), hrest]
  simp

/-- A staged file lies below the inbox, so the inbox is a directory. -/
theorem lookup_inbox_of_staged {fs : Fs} {inboxDir : Path} {dir file : String}
    (h : (fs.lookup (partPath inboxDir dir file)).isSome = true) : fs.lookup inboxDir = some .dir := by
  obtain ⟨rest, hrest⟩ := resolve_partPath_below inboxDir dir file
  rw [Fs.lookup, hrest] at h
  rcases fs.entries_above h with hnil | hdir
  · cases hnil
  · exact hdir

theorem partPath_dropLast (inboxDir : Path) (dir file : String) :
    (partPath inboxDir dir file).dropLast = stagingRoot inboxDir ++ [dir] :=
  List.dropLast_concat

/-- A path that is the staging path of a proper component has both components of
it. -/
theorem resolve_partPath_inj {inboxDir : Path} {d d' f f' : String} (hd' : NormalName d')
    (h : resolve (partPath inboxDir d f) = resolve (partPath inboxDir d' f')) :
    d = d' ∧ f = f' := by
  by_cases hd : NormalName d
  · rw [resolve_partPath _ hd, resolve_partPath _ hd'] at h
    obtain ⟨h1, h2⟩ := List.append_inj' h rfl
    obtain ⟨-, h3⟩ := List.append_inj' h1 rfl
    exact ⟨by simpa using h3, append_part_inj (by simpa using h2)⟩
  · have hlen := length_resolve_of_not_normal (stagingRoot inboxDir) hd
    rw [partPath, resolve_append_normal _ (normalName_part f), resolve_partPath _ hd'] at h
    have hlen' := congrArg List.length h
    rw [resolve_stagingRoot] at hlen
    simp only [List.length_append, List.length_cons, List.length_nil] at hlen hlen'
    omega

theorem resolve_name_ne_partPath (inboxDir : Path) (c d f : String) :
    resolve (inboxDir ++ [c]) ≠ resolve (partPath inboxDir d f) := by
  intro h
  have hname := length_resolve_append_le inboxDir c
  have hdir := le_length_resolve_append (stagingRoot inboxDir) d
  rw [h, partPath, resolve_append_normal _ (normalName_part f)] at hname
  rw [resolve_stagingRoot] at hdir
  simp only [List.length_append, List.length_cons, List.length_nil] at hname hdir
  omega

theorem safeComponent_eq {id : String} (h : Stable id) :
    safeComponent id = .ret (cleanComponent id) := if_neg h

/-- **Staging paths are stable**: two stable ids always give the same path. -/
theorem incomingFilePath_eq (self : NativeTransferReceiver) {t f : String} (ht : Stable t)
    (hf : Stable f) : self.incomingFilePath t f =
      .ret (partPath self.inboxDir (cleanComponent t) (cleanComponent f)) := by
  rw [incomingFilePath, safeComponent_eq ht, safeComponent_eq hf]
  rfl

theorem incomingDir_eq (self : NativeTransferReceiver) {t : String} (ht : Stable t) :
    self.incomingDir t = .ret (stagingRoot self.inboxDir ++ [cleanComponent t]) := by
  rw [incomingDir, safeComponent_eq ht]
  rfl

/-- The staging path of a file with stable ids. -/
def part (inboxDir : Path) (t f : String) : Path :=
  partPath inboxDir (cleanComponent t) (cleanComponent f)

/-- The staging directory of a transfer with a stable id. -/
def partDir (inboxDir : Path) (t : String) : Path := stagingRoot inboxDir ++ [cleanComponent t]

theorem resolve_part (inboxDir : Path) (t f : String) : resolve (part inboxDir t f) =
    resolve (partDir inboxDir t) ++ [cleanComponent f ++ ".part"] := by
  have hclean := normalName_cleanComponent t
  rw [part, resolve_partPath _ hclean, partDir, resolve_stagingDir _ hclean]

theorem not_part_prefix (inboxDir : Path) (t f : String) :
    ¬ resolve (part inboxDir t f) <+: resolve (partDir inboxDir t) := by
  intro h
  have := h.length_le
  rw [resolve_part, List.length_append] at this
  simp at this

theorem resolve_partDir_ne_part (inboxDir : Path) (t f : String) :
    resolve (partDir inboxDir t) ≠ resolve (part inboxDir t f) :=
  fun h => not_part_prefix inboxDir t f (h ▸ List.prefix_rfl)

theorem lookup_part_of_createDirAll {inboxDir : Path} {t : String} {fs fs' : Fs}
    (h : fs.createDirAll (partDir inboxDir t) = .ok fs') (f : String) :
    fs'.lookup (part inboxDir t f) = fs.lookup (part inboxDir t f) :=
  (Fs.lookup_createDirAll h _).resolve_right fun hnew => not_part_prefix inboxDir t f hnew.2.2

/-! ### Recording a chunk -/

namespace ManifestDb

/-- The manifest after `record_verified_chunk`. -/
def record (db : ManifestDb) (t f : String) (offset length : ℕ) (blake3 : String) (now : ℤ) :
    ManifestDb :=
  ({ db with chunks := db.chunks.replace ⟨t, f, asI64 offset, asI64 length, blake3⟩ } :
    ManifestDb).touchTransfer t now

variable {db : ManifestDb} {t f : String} {offset length : ℕ} {blake3 : String} {now : ℤ}

@[simp] theorem record_files : (db.record t f offset length blake3 now).files = db.files := rfl

theorem mem_record_chunks {r : ChunkRow} :
    r ∈ (db.record t f offset length blake3 now).chunks.rows ↔
      (r ∈ db.chunks.rows ∧ r.key ≠ (t, f, asI64 offset)) ∨
        r = ⟨t, f, asI64 offset, asI64 length, blake3⟩ := by
  rw [record, touchTransfer_chunks, Table.mem_replace]
  rfl

theorem find?_record_transfers (t' : String) :
    ((db.record t f offset length blake3 now).transfers.find? t').isSome =
      (db.transfers.find? t').isSome := by
  simp only [record, touchTransfer, Table.find?_modify]
  split_ifs <;> simp

variable (ho : offset < 2 ^ 64) (hl : length < 2 ^ 64)
include ho hl

/-- **Recording adds at most the chunk** to what is covered. -/
theorem covered_record {t' f' : String} {b : ℕ}
    (h : (db.record t f offset length blake3 now).Covered t' f' b) :
    db.Covered t' f' b ∨ (t' = t ∧ f' = f ∧ offset ≤ b ∧ b < offset + length) := by
  obtain ⟨c, hc, hb⟩ := h
  obtain ⟨r, hr, rfl, rfl, rfl⟩ := mem_spans.mp hc
  rcases mem_record_chunks.mp hr with ⟨hr, -⟩ | rfl
  · exact .inl ⟨_, mem_spans.mpr ⟨r, hr, rfl, rfl, rfl⟩, hb⟩
  · simp only [ChunkRow.span, Span.Has, Span.stop, asU64_asI64 ho, asU64_asI64 hl] at hb
    exact .inr ⟨rfl, rfl, hb⟩

theorem covered_record_self {b : ℕ} (h1 : offset ≤ b) (h2 : b < offset + length) :
    (db.record t f offset length blake3 now).Covered t f b := by
  refine ⟨⟨offset, length⟩, mem_spans.mpr ⟨_, mem_record_chunks.mpr (.inr rfl), rfl, rfl, ?_⟩,
    h1, h2⟩
  simp only [ChunkRow.span, asU64_asI64 ho, asU64_asI64 hl]

/-- **Recording loses nothing** unless it replaces a longer row: what was covered
stays covered when the row at that offset, if any, is no longer than the chunk. -/
theorem covered_record_of_le {t' f' : String} {b : ℕ}
    (hle : ∀ r ∈ db.chunks.rows, r.key = (t, f, asI64 offset) → r.span.length ≤ length)
    (h : db.Covered t' f' b) : (db.record t f offset length blake3 now).Covered t' f' b := by
  obtain ⟨c, hc, hb⟩ := h
  obtain ⟨r, hr, rfl, rfl, rfl⟩ := mem_spans.mp hc
  by_cases hk : r.key = (t, f, asI64 offset)
  · have hlen := hle r hr hk
    simp only [ChunkRow.key, Prod.mk.injEq] at hk
    obtain ⟨rfl, rfl, hoff⟩ := hk
    have h1 := hb.1
    have h2 := hb.2
    simp only [ChunkRow.span, Span.stop, hoff, asU64_asI64 ho] at h1 h2 hlen
    exact covered_record_self ho hl h1 (by omega)
  · exact ⟨_, mem_spans.mpr ⟨r, mem_record_chunks.mpr (.inl ⟨hr, hk⟩), rfl, rfl, rfl⟩, hb⟩

theorem WellFormed.record (hwf : db.WellFormed) {fr : FileRow} (hfr : fr ∈ db.files.rows)
    (hpos : 0 < length) (hend : offset + length ≤ asU64 fr.size) :
    (db.record fr.transferId fr.fileId offset length blake3 now).WellFormed where
  files r hr := by
    rw [find?_record_transfers]
    exact hwf.files r hr
  chunks r hr := by
    rcases mem_record_chunks.mp hr with ⟨hr, -⟩ | rfl
    · exact hwf.chunks r hr
    · refine ⟨fr, hfr, rfl, ?_⟩
      simp only [ChunkRow.span, Span.stop, asU64_asI64 ho, asU64_asI64 hl]
      exact ⟨hpos, hend⟩

end ManifestDb

theorem mem_spans_record (db : ManifestDb) (t f : String) {offset length : ℕ} (blake3 : String)
    (now : ℤ) (ho : offset < 2 ^ 64) (hl : length < 2 ^ 64) (t' f' : String) (c : Span) :
    c ∈ (db.record t f offset length blake3 now).spans t' f' ↔
      (∃ r ∈ db.chunks.rows, r.key ≠ (t, f, asI64 offset) ∧ r.transferId = t' ∧ r.fileId = f' ∧
        r.span = c) ∨ (t' = t ∧ f' = f ∧ c = ⟨offset, length⟩) := by
  rw [ManifestDb.mem_spans]
  constructor
  · rintro ⟨r, hr, rfl, rfl, rfl⟩
    rcases ManifestDb.mem_record_chunks.mp hr with ⟨hr, hk⟩ | rfl
    · exact .inl ⟨r, hr, hk, rfl, rfl, rfl⟩
    · exact .inr ⟨rfl, rfl, by simp only [ChunkRow.span, asU64_asI64 ho, asU64_asI64 hl]⟩
  · rintro (⟨r, hr, hk, rfl, rfl, rfl⟩ | ⟨rfl, rfl, rfl⟩)
    · exact ⟨r, ManifestDb.mem_record_chunks.mpr (.inl ⟨hr, hk⟩), rfl, rfl, rfl⟩
    · exact ⟨_, ManifestDb.mem_record_chunks.mpr (.inr rfl), rfl, rfl, by
        simp only [ChunkRow.span, asU64_asI64 ho, asU64_asI64 hl]⟩

/-- `record_verified_chunk` of a non-empty part of a known file. -/
theorem run_recordVerifiedChunk {s : Store} {w : Wire} {fr : FileRow}
    (hfr : fr ∈ s.manifest.files.rows) {offset length : ℕ} (hpos : 0 < length)
    (hend : offset + length ≤ asU64 fr.size) (blake3 : String) :
    (ManifestStore.recordVerifiedChunk fr.transferId fr.fileId offset length blake3).run handler
        (s, w) =
      (.ok (), ({ s with
        manifest := s.manifest.record fr.transferId fr.fileId offset length blake3 (s.clock 0)
        clock := advance s.clock }, w)) := by
  have hlt := ManifestDb.asU64_lt fr.size
  have hf : s.manifest.files.find? (fr.transferId, fr.fileId) = some fr :=
    Table.find?_eq_some_iff.mpr ⟨hfr, rfl⟩
  rw [ManifestStore.recordVerifiedChunk, if_neg (by omega),
    Prog.run_bind_ok _ (ManifestStore.run_fileSize hfr), if_neg (by omega), if_neg (by omega)]
  simp [replaceChunk, nowUnix, touchTransfer, handler, exec, orManifest, onManifest,
    ManifestDb.replaceChunk, hf, Except.mapError, ManifestDb.record]

/-- **A chunk received alone.**  On a stable file whose row contains the chunk,
with nothing in the way of the staging directory, the call succeeds: the staged
file is overwritten at the offset, the chunk is recorded, and no other path and
no other part of the store but the clock changes. -/
theorem run_receiveChunkWithHash [Primitives] (self : NativeTransferReceiver) {s : Store} {w : Wire}
    {fr : FileRow} (hfr : fr ∈ s.manifest.files.rows) (ht : Stable fr.transferId)
    (hf : Stable fr.fileId) {offset : ℕ} {bytes : Bytes} (hne : bytes ≠ [])
    (hseek : offset < 2 ^ 63) (hend : offset + bytes.length ≤ asU64 fr.size)
    (hdir : s.fs.DirOk (partDir self.inboxDir fr.transferId))
    (hpart : s.fs.lookup (part self.inboxDir fr.transferId fr.fileId) ≠ some .dir) :
    ∃ fs', (self.receiveChunkWithHash fr.transferId fr.fileId offset bytes
          (blake3Hex bytes)).run handler (s, w) =
        (.ok (), ({ s with
          manifest := s.manifest.record fr.transferId fr.fileId offset bytes.length
            (blake3Hex bytes) (s.clock 0)
          fs := fs'
          clock := advance s.clock }, w)) ∧
      fs'.contents (part self.inboxDir fr.transferId fr.fileId) = some (overwrite
        ((s.fs.contents (part self.inboxDir fr.transferId fr.fileId)).getD []) offset bytes) ∧
      fs'.lookup (partDir self.inboxDir fr.transferId) = some .dir ∧
      ∀ q, resolve q ≠ resolve (part self.inboxDir fr.transferId fr.fileId) →
        fs'.contents q = s.fs.contents q ∧ (fs'.lookup q = s.fs.lookup q ∨
          (s.fs.lookup q = none ∧ fs'.lookup q = some .dir ∧
            resolve q <+: resolve (partDir self.inboxDir fr.transferId))) := by
  obtain ⟨fs₁, h1⟩ := Fs.createDirAll_isOk hdir
  have hlook := Fs.lookup_createDirAll h1
  have hd1 : fs₁.lookup (partDir self.inboxDir fr.transferId) = some .dir :=
    (Fs.createDirAll_spec h1).2.2.1
  have hp1 : fs₁.lookup (part self.inboxDir fr.transferId fr.fileId) ≠ some .dir := by
    rw [lookup_part_of_createDirAll h1]
    exact hpart
  obtain ⟨i, fs₂, h2⟩ := Fs.openWrite_isOk (resolve_part _ _ _) hd1 hp1
  obtain ⟨hc, hother, -⟩ := Fs.contents_openWrite_writeAt offset bytes h2
  refine ⟨fs₂.writeAt i offset bytes, ?_, ?_, ?_, fun q hq => ?_⟩
  · rw [receiveChunkWithHash, if_neg hne, if_neg (by simp), incomingFilePath_eq self ht hf]
    have hdrop : (partPath self.inboxDir (cleanComponent fr.transferId)
        (cleanComponent fr.fileId)).dropLast = partDir self.inboxDir fr.transferId :=
      partPath_dropLast _ _ _
    have hrec := run_recordVerifiedChunk (s := { s with fs := fs₂.writeAt i offset bytes }) (w := w)
      hfr (List.length_pos_iff.mpr hne) hend (blake3Hex bytes)
    rw [part] at h2
    simpa [createDirAll, openWrite, writeAt, handler, exec, onFs, orIo, Except.mapError, hdrop, h1,
      h2, hseek, -Nat.reducePow] using hrec
  · rw [hc, Fs.contents_createDirAll h1]
  · rw [(hother _ (resolve_partDir_ne_part _ _ _)).1, hd1]
  · rw [(hother q hq).2, (hother q hq).1, Fs.contents_createDirAll h1]
    exact ⟨rfl, hlook q⟩

end NightBridge.Native
