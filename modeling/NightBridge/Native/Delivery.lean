/-
# Delivering true bytes

A delivery is a transfer whose files have a known content: `content` gives the
bytes of each file id, and every chunk the receiver gets is a slice of them.
`Staged` is what holds of the store at every moment of a delivery.  Receiving a
slice keeps it (`Staged.receive`), whatever was received before and in whatever
order; rows of `verified_chunks` are replaced when an offset is received again,
so coverage may shrink.

Once every byte is covered and no file is empty, the transfer is ready
(`Staged.ready`), and publishing it adds exactly the true files to the inbox
(`Staged.finish`).
-/

import NightBridge.Native.Accept
import NightBridge.Native.Finish

namespace NightBridge.Native

open Data Effect NativeTransferReceiver ManifestStore

/-- The offered files have the contents `content`, by file id, and are staged at
stable and distinct paths. -/
structure Offer [Primitives] (t : String) (offers : List FileOffer) (content : String → Bytes) :
    Prop where
  stable : Stable t
  fileStable : ∀ o ∈ offers, Stable o.fileId
  distinct : (offers.map fun o => cleanComponent o.fileId).Nodup
  size : ∀ o ∈ offers, (content o.fileId).length = o.size
  seekable : ∀ o ∈ offers, o.size ≤ 2 ^ 63
  digest : ∀ o ∈ offers, ∀ h, o.blake3 = some h → blake3Hex (content o.fileId) = h

/-- What holds of the store while true slices of the files are received. -/
structure Staged (inboxDir : Path) (t : String) (offers : List FileOffer)
    (content : String → Bytes) (s : Store) : Prop where
  wellFormed : s.manifest.WellFormed
  rows : ∀ fr, (fr ∈ s.manifest.files.rows ∧ fr.transferId = t) ↔
    ∃ o ∈ offers, offeredRow t o = fr
  dir : s.fs.lookup (partDir inboxDir t) = some .dir
  notDir : ∀ o ∈ offers, s.fs.lookup (part inboxDir t o.fileId) ≠ some .dir
  short : ∀ o ∈ offers, ∀ bs, s.fs.contents (part inboxDir t o.fileId) = some bs →
    bs.length ≤ o.size
  bytes : ∀ o ∈ offers, ∀ b, s.manifest.Covered t o.fileId b →
    ∃ bs, s.fs.contents (part inboxDir t o.fileId) = some bs ∧ bs[b]? = (content o.fileId)[b]?

/-- The inbox gained the offered files, each under a new name, and nothing else. -/
def Gained (inboxDir : Path) (offers : List FileOffer) (content : String → Bytes) (fs fs' : Fs) :
    Prop :=
  ∃ name : String → String,
    (∀ o ∈ offers, ∀ o' ∈ offers, name o.fileId = name o'.fileId → o.fileId = o'.fileId) ∧
    (∀ o ∈ offers, fs.lookup (inboxDir ++ [name o.fileId]) = none ∧
      fs'.contents (inboxDir ++ [name o.fileId]) = some (content o.fileId)) ∧
    ∀ n, (∀ o ∈ offers, n ≠ name o.fileId) →
      fs'.contents (inboxDir ++ [n]) = fs.contents (inboxDir ++ [n])

/-- Writing a true slice over true bytes leaves them true. -/
theorem getElem?_overwrite_slice {old src : Bytes} {off len : ℕ} (hpos : 0 < len)
    (hend : off + len ≤ src.length) {b : ℕ}
    (hb : old[b]? = src[b]? ∨ (off ≤ b ∧ b < off + len)) (hlt : b < src.length) :
    (overwrite old off (slice src off len))[b]? = src[b]? := by
  have hlen := slice_length hend
  have hne : slice src off len ≠ [] := by
    intro h
    rw [h, List.length_nil] at hlen
    omega
  rw [getElem?_overwrite hne, hlen]
  by_cases hin : off ≤ b ∧ b < off + len
  · rw [if_neg (by omega), if_pos (by omega), getElem?_slice, if_pos (by omega)]
    congr 1
    omega
  · have hold := hb.resolve_right hin
    have hbold : b < old.length := by
      rw [List.getElem?_eq_getElem hlt] at hold
      exact (List.getElem?_eq_some_iff.mp hold).1
    split_ifs with h1 h2
    · exact hold
    · omega
    · exact hold

section store

variable {t : String} {offers : List FileOffer} {s : Store}

/-- A delivery depends on the tree, the rows of files and chunks, and on which
transfers there are. -/
theorem Staged.congr {content : String → Bytes} {inboxDir : Path} {s' : Store}
    (h : Staged inboxDir t offers content s) (hfs : s'.fs = s.fs)
    (hfiles : s'.manifest.files = s.manifest.files) (hchunks : s'.manifest.chunks = s.manifest.chunks)
    (htransfers : ∀ t', (s.manifest.transfers.find? t').isSome →
      (s'.manifest.transfers.find? t').isSome) : Staged inboxDir t offers content s' where
  wellFormed := ⟨fun r hr => htransfers _ (h.wellFormed.files r (hfiles ▸ hr)), fun r hr => by
    rw [hfiles]
    exact h.wellFormed.chunks r (hchunks ▸ hr)⟩
  rows := by rw [hfiles]; exact h.rows
  dir := by rw [hfs]; exact h.dir
  notDir := by rw [hfs]; exact h.notDir
  short := by rw [hfs]; exact h.short
  bytes o ho b hb := by
    rw [hfs]
    exact h.bytes o ho b (by rw [ManifestDb.Covered, ManifestDb.spans, hchunks] at hb; exact hb)

theorem Staged.updateState {content : String → Bytes} {inboxDir : Path}
    (h : Staged inboxDir t offers content s)
    (state : TransferState) (now : ℤ) (clock : ℕ → ℤ) :
    Staged inboxDir t offers content
      { s with manifest := (s.manifest.updateState t state now).2, clock := clock } :=
  h.congr rfl rfl rfl fun t' ht' => by
    simp only [ManifestDb.updateState, Table.find?_modify]
    split_ifs <;> simpa using ht'

/-- A delivery begins when the transfer is created and nothing is staged yet. -/
theorem Staged.of_created (content : String → Bytes) {inboxDir : Path} {db : ManifestDb}
    {state : TransferState} (hwf : db.WellFormed) (hcreated : Created db t offers state s.manifest)
    (hdir : s.fs.lookup (partDir inboxDir t) = some .dir)
    (hnone : ∀ f, s.fs.lookup (part inboxDir t f) = none) : Staged inboxDir t offers content s where
  wellFormed := hcreated.wellFormed hwf
  rows _ := hcreated.mem_own hwf
  dir := hdir
  notDir o _ := by
    rw [hnone]
    nofun
  short o _ bs hbs := by
    rw [Fs.contents, hnone] at hbs
    cases hbs
  bytes o _ b hb := absurd hb (hcreated.not_covered hwf _ _)

/-- A delivery begins when the transfer is created and its staging directory,
which did not exist, is made. -/
theorem Staged.begin (content : String → Bytes) {inboxDir : Path} {db' : ManifestDb} {fs' : Fs}
    {state : TransferState}
    (hwf : s.manifest.WellFormed) (hcreated : Created s.manifest t offers state db')
    (hnew : s.fs.lookup (partDir inboxDir t) = none)
    (hmk : s.fs.createDirAll (partDir inboxDir t) = .ok fs') (clock : ℕ → ℤ) :
    Staged inboxDir t offers content { s with manifest := db', fs := fs', clock := clock } ∧
      ∀ f, fs'.lookup (part inboxDir t f) = none := by
  have hnone : ∀ f, fs'.lookup (part inboxDir t f) = none := by
    intro f
    rw [lookup_part_of_createDirAll hmk]
    by_contra hsome
    have hdir := s.fs.parent _ _ (by
      rw [← resolve_part]
      exact Option.isSome_iff_ne_none.mpr hsome)
    rw [Fs.lookup, hdir] at hnew
    cases hnew
  exact ⟨.of_created content hwf hcreated (Fs.createDirAll_spec hmk).2.2.1 hnone, hnone⟩

theorem Staged.mem_filesOf {content : String → Bytes} {inboxDir : Path}
    (h : Staged inboxDir t offers content s)
    {file : ManifestFile} : file ∈ filesOf s.manifest t ↔
      ∃ o ∈ offers, file = ⟨o.fileId, o.fileName, o.size, o.blake3⟩ := by
  rw [Native.mem_filesOf]
  constructor
  · rintro ⟨fr, hfr, ht, rfl⟩
    obtain ⟨o, ho, rfl⟩ := (h.rows fr).mp ⟨hfr, ht⟩
    exact ⟨o, ho, by rw [ManifestFile.ofRow, asU64_offeredRow]; rfl⟩
  · rintro ⟨o, ho, rfl⟩
    obtain ⟨hfr, ht⟩ := (h.rows (offeredRow t o)).mpr ⟨o, ho, rfl⟩
    exact ⟨_, hfr, ht, by rw [ManifestFile.ofRow, asU64_offeredRow]; rfl⟩

end store

section delivery

variable [Primitives] {t : String} {offers : List FileOffer} {content : String → Bytes}

theorem Offer.fileIds (h : Offer t offers content) {o o' : FileOffer} (ho : o ∈ offers)
    (ho' : o' ∈ offers) (hid : cleanComponent o.fileId = cleanComponent o'.fileId) : o = o' :=
  List.inj_on_of_nodup_map h.distinct ho ho' hid

theorem Offer.part_ne (h : Offer t offers content) (inboxDir : Path) {o o' : FileOffer}
    (ho : o ∈ offers) (ho' : o' ∈ offers) (hne : o ≠ o') :
    resolve (part inboxDir t o.fileId) ≠ resolve (part inboxDir t o'.fileId) := by
  intro he
  have hclean := normalName_cleanComponent t
  exact hne (h.fileIds ho ho' (resolve_partPath_inj hclean he).2)

variable (self : NativeTransferReceiver) {s : Store} {w : Wire}

/-- The staged file of an offer gets other bytes, which are true wherever the
manifest says so. -/
theorem Staged.rewrite {inboxDir : Path} (hoffer : Offer t offers content)
    (h : Staged inboxDir t offers content s) {o : FileOffer} (ho : o ∈ offers) {fs' : Fs} {bs : Bytes}
    (hpart : fs'.contents (part inboxDir t o.fileId) = some bs) (hlen : bs.length ≤ o.size)
    (htrue : ∀ b, s.manifest.Covered t o.fileId b → bs[b]? = (content o.fileId)[b]?)
    (hother : ∀ q, resolve q ≠ resolve (part inboxDir t o.fileId) →
      fs'.contents q = s.fs.contents q ∧ fs'.lookup q = s.fs.lookup q) :
    Staged inboxDir t offers content { s with fs := fs' } where
  wellFormed := h.wellFormed
  rows := h.rows
  dir := (hother _ (resolve_partDir_ne_part inboxDir t o.fileId)).2.trans h.dir
  notDir o' ho' := by
    by_cases heq : o' = o
    · subst heq
      obtain ⟨i, hi, -⟩ := Fs.lookup_of_contents hpart
      simp [hi]
    · rw [(hother _ (hoffer.part_ne inboxDir ho' ho heq)).2]
      exact h.notDir o' ho'
  short o' ho' bs' hbs' := by
    by_cases heq : o' = o
    · subst heq
      obtain rfl := Option.some.inj (hpart.symm.trans hbs')
      exact hlen
    · rw [(hother _ (hoffer.part_ne inboxDir ho' ho heq)).1] at hbs'
      exact h.short o' ho' bs' hbs'
  bytes o' ho' b hb := by
    by_cases heq : o' = o
    · subst heq
      exact ⟨bs, hpart, htrue b hb⟩
    · rw [(hother _ (hoffer.part_ne inboxDir ho' ho heq)).1]
      exact h.bytes o' ho' b hb

/-- Staged bytes that are true are recorded. -/
theorem Staged.record {inboxDir : Path} (hoffer : Offer t offers content)
    (h : Staged inboxDir t offers content s) {o : FileOffer} (ho : o ∈ offers) {offset len : ℕ}
    (hpos : 0 < len) (hend : offset + len ≤ o.size) {bs : Bytes}
    (hpart : s.fs.contents (part inboxDir t o.fileId) = some bs)
    (htrue : ∀ b, offset ≤ b → b < offset + len → bs[b]? = (content o.fileId)[b]?)
    (blake3 : String) (now : ℤ) (clock : ℕ → ℤ) :
    Staged inboxDir t offers content { s with
      manifest := s.manifest.record t o.fileId offset len blake3 now, clock := clock } := by
  have hlt := o.size_lt
  obtain ⟨hfr, -⟩ := (h.rows (offeredRow t o)).mpr ⟨o, ho, rfl⟩
  refine ⟨?_, h.rows, h.dir, h.notDir, h.short, fun o' ho' b hb => ?_⟩
  · refine h.wellFormed.record (by omega) (by omega) hfr hpos ?_
    rw [asU64_offeredRow]
    exact hend
  · rcases ManifestDb.covered_record (by omega) (by omega) hb with hold | ⟨-, hid, h1, h2⟩
    · exact h.bytes o' ho' b hold
    · obtain rfl := hoffer.fileIds ho' ho (congrArg cleanComponent hid)
      exact ⟨bs, hpart, htrue b h1 h2⟩

/-- The staged file of an offer after a true slice has been written over it. -/
theorem Staged.overwritten {inboxDir : Path} (hoffer : Offer t offers content)
    (h : Staged inboxDir t offers content s) {o : FileOffer} (ho : o ∈ offers) {offset len : ℕ}
    (hpos : 0 < len) (hend : offset + len ≤ o.size) {bs : Bytes}
    (hbs : bs = overwrite ((s.fs.contents (part inboxDir t o.fileId)).getD []) offset
      (slice (content o.fileId) offset len)) :
    bs.length ≤ o.size ∧
      (∀ b, s.manifest.Covered t o.fileId b → bs[b]? = (content o.fileId)[b]?) ∧
      ∀ b, offset ≤ b → b < offset + len → bs[b]? = (content o.fileId)[b]? := by
  have hsize := hoffer.size o ho
  have hsrc : offset + len ≤ (content o.fileId).length := by omega
  have hlen := slice_length hsrc
  have hne : slice (content o.fileId) offset len ≠ [] := List.length_pos_iff.mp (by omega)
  obtain ⟨hfr, -⟩ := (h.rows (offeredRow t o)).mpr ⟨o, ho, rfl⟩
  subst hbs
  refine ⟨?_, fun b hb => ?_, fun b h1 h2 => ?_⟩
  · rw [length_overwrite hne, hlen]
    cases hold : s.fs.contents (part inboxDir t o.fileId) with
    | none => simpa using hend
    | some old =>
      have := h.short o ho old hold
      simp only [Option.getD_some]
      omega
  · obtain ⟨old, hcold, hbold⟩ := h.bytes o ho b hb
    rw [hcold, Option.getD_some]
    obtain ⟨c, hc, hhas⟩ := hb
    have hstop := (h.wellFormed.spans hfr c hc).2
    rw [asU64_offeredRow] at hstop
    exact getElem?_overwrite_slice hpos hsrc (.inl hbold) (by have := hhas.2; omega)
  · exact getElem?_overwrite_slice hpos hsrc (.inr ⟨h1, h2⟩) (by omega)

/-- **A true slice received** is stored and recorded, and the delivery goes on.
No path but the staging path of the file changes. -/
theorem Staged.receive (hoffer : Offer t offers content)
    (h : Staged self.inboxDir t offers content s) {o : FileOffer} (ho : o ∈ offers)
    {offset len : ℕ} (hpos : 0 < len) (hend : offset + len ≤ o.size) :
    ∃ fs', (self.receiveChunkWithHash t o.fileId offset (slice (content o.fileId) offset len)
          (blake3Hex (slice (content o.fileId) offset len))).run handler (s, w) =
        (.ok (), ({ s with
          manifest := s.manifest.record t o.fileId offset len
            (blake3Hex (slice (content o.fileId) offset len)) (s.clock 0)
          fs := fs'
          clock := advance s.clock }, w)) ∧
      Staged self.inboxDir t offers content { s with
        manifest := s.manifest.record t o.fileId offset len
          (blake3Hex (slice (content o.fileId) offset len)) (s.clock 0)
        fs := fs'
        clock := advance s.clock } ∧
      ∀ q, resolve q ≠ resolve (part self.inboxDir t o.fileId) →
        fs'.contents q = s.fs.contents q ∧ fs'.lookup q = s.fs.lookup q := by
  have hsize := hoffer.size o ho
  have hlen := slice_length (show offset + len ≤ (content o.fileId).length by omega)
  have hne : slice (content o.fileId) offset len ≠ [] := List.length_pos_iff.mp (by omega)
  obtain ⟨hfr, -⟩ := (h.rows (offeredRow t o)).mpr ⟨o, ho, rfl⟩
  have hseek : offset < 2 ^ 63 := by
    have := hoffer.seekable o ho
    omega
  obtain ⟨fs', hrun, hpart, -, hframe⟩ := run_receiveChunkWithHash self (w := w) hfr
    hoffer.stable (hoffer.fileStable o ho) hne hseek
    (by rw [hlen, asU64_offeredRow]; exact hend) (Fs.dirOk_of_dir h.dir) (h.notDir o ho)
  rw [hlen] at hrun
  change fs'.contents (part self.inboxDir t o.fileId) = some (overwrite
    ((s.fs.contents (part self.inboxDir t o.fileId)).getD []) offset _) at hpart
  -- the staging directory exists, so no directory is added
  have hother : ∀ q, resolve q ≠ resolve (part self.inboxDir t o.fileId) →
      fs'.contents q = s.fs.contents q ∧ fs'.lookup q = s.fs.lookup q := by
    intro q hq
    obtain ⟨hc, hl | ⟨hnone, -, hpre⟩⟩ := hframe q hq
    · exact ⟨hc, hl⟩
    · rw [Fs.lookup, Fs.entries_above_dir h.dir hpre] at hnone
      cases hnone
  obtain ⟨hshort, hkept, hnew⟩ := h.overwritten hoffer ho hpos hend rfl
  exact ⟨fs', hrun, (h.rewrite hoffer ho hpart hshort hkept hother).record hoffer ho hpos hend hpart
    hnew _ _ _, hother⟩

theorem Staged.contents_eq {inboxDir : Path} (hoffer : Offer t offers content)
    (h : Staged inboxDir t offers content s) {o : FileOffer} (ho : o ∈ offers) (hpos : 0 < o.size)
    (hcov : ∀ b < o.size, s.manifest.Covered t o.fileId b) :
    s.fs.contents (part inboxDir t o.fileId) = some (content o.fileId) := by
  obtain ⟨bs, hbs, -⟩ := h.bytes o ho 0 (hcov 0 hpos)
  have hsize := hoffer.size o ho
  have hshort := h.short o ho bs hbs
  rw [hbs, Option.some.injEq]
  refine List.ext_getElem? fun b => ?_
  by_cases hb : b < o.size
  · obtain ⟨bs', hbs', heq⟩ := h.bytes o ho b (hcov b hb)
    obtain rfl := Option.some.inj (hbs.symm.trans hbs')
    exact heq
  · rw [List.getElem?_eq_none (by omega), List.getElem?_eq_none (by omega)]

/-- **A complete delivery without empty files is ready.** -/
theorem Staged.ready {inboxDir : Path} (hoffer : Offer t offers content)
    (h : Staged inboxDir t offers content s) (hc : s.manifest.Complete t)
    (hpos : ∀ o ∈ offers, 0 < o.size) : Ready inboxDir s t := by
  refine ⟨hc, fun file hfile => ?_⟩
  obtain ⟨o, ho, rfl⟩ := h.mem_filesOf.mp hfile
  obtain ⟨hfr, ht⟩ := (h.rows (offeredRow t o)).mpr ⟨o, ho, rfl⟩
  have hcov := hc.2 _ hfr ht
  rw [asU64_offeredRow] at hcov
  exact ⟨hoffer.stable, hoffer.fileStable o ho, content o.fileId,
    h.contents_eq hoffer ho (hpos o ho) hcov, hoffer.size o ho, hoffer.digest o ho⟩

theorem Staged.distinctParts {inboxDir : Path} (hoffer : Offer t offers content)
    (h : Staged inboxDir t offers content s) : DistinctParts (filesOf s.manifest t) := by
  have hnd : (s.manifest.selectFilesOrdered t).Nodup := by
    refine (List.perm_insertionSort _ _).nodup_iff.mpr ?_
    exact (List.Nodup.of_map _ s.manifest.files.nodup).filter _
  rw [DistinctParts, filesOf, List.map_map]
  refine hnd.map_on fun r hr r' hr' heq => ?_
  have hown : ∀ r ∈ s.manifest.selectFilesOrdered t, ∃ o ∈ offers, offeredRow t o = r := by
    intro r hr
    refine (h.rows r).mp ?_
    simpa [ManifestDb.selectFilesOrdered, ManifestDb.selectFiles,
      (List.perm_insertionSort _ _).mem_iff] using hr
  obtain ⟨o, ho, rfl⟩ := hown r hr
  obtain ⟨o', ho', rfl⟩ := hown r' hr'
  rw [hoffer.fileIds ho ho' heq]

/-- Renames of staged files whose contents are the true ones publish them. -/
theorem Staged.gained {inboxDir : Path} (hoffer : Offer t offers content)
    (h : Staged inboxDir t offers content s) (hdir : s.fs.lookup inboxDir = some .dir)
    (htrue : ∀ o ∈ offers, s.fs.contents (part inboxDir t o.fileId) = some (content o.fileId))
    {names : List String} (hlen : names.length = (filesOf s.manifest t).length) {fs' : Fs}
    (hren : s.fs.Renames (moves inboxDir t (filesOf s.manifest t) names) fs') :
    Gained inboxDir offers content s.fs fs' := by
  obtain ⟨hsrc, htgt, hall⟩ := hren.moved moves_apart
  have hname : ∀ id, ∃ name, (∃ o ∈ offers, o.fileId = id) →
      (part inboxDir t id, inboxDir ++ [name]) ∈
        moves inboxDir t (filesOf s.manifest t) names := by
    intro id
    by_cases hid : ∃ o ∈ offers, o.fileId = id
    · obtain ⟨o, ho, rfl⟩ := hid
      obtain ⟨name, hm⟩ := exists_mem_moves inboxDir t hlen
        (h.mem_filesOf.mpr ⟨o, ho, rfl⟩)
      exact ⟨name, fun _ => hm⟩
    · exact ⟨"", fun hex => absurd hex hid⟩
  choose name hmem using hname
  refine ⟨name, ?_, ?_, ?_⟩
  · intro o ho o' ho' heq
    have hm := hmem _ ⟨o, ho, rfl⟩
    have hm' := hmem _ ⟨o', ho', rfl⟩
    have hpair := List.inj_on_of_nodup_map htgt hm hm' (by rw [heq])
    by_contra hne
    refine hoffer.part_ne inboxDir ho ho' (fun he => hne (by rw [he])) ?_
    exact congrArg (fun m => resolve m.1) hpair
  · intro o ho
    obtain ⟨-, hfree, -, hmoved⟩ := hall _ (hmem _ ⟨o, ho, rfl⟩)
    exact ⟨hfree, hmoved.trans (htrue o ho)⟩
  · intro n hn
    refine (hren.frame fun m hm => ?_).2
    obtain ⟨file, hfile, nm, -, rfl⟩ := mem_moves hm
    obtain ⟨o, ho, rfl⟩ := h.mem_filesOf.mp hfile
    refine ⟨resolve_name_ne_partPath inboxDir n _ _, fun he => ?_⟩
    have hfree : takenIn s.fs inboxDir nm = false := by
      rw [takenIn, Fs.exists?, (hall _ hm).2.1]
      rfl
    have hnm := resolve_name_inj (normalName_of_free hdir hfree) he
    have hpair := List.inj_on_of_nodup_map hsrc hm (hmem _ ⟨o, ho, rfl⟩) rfl
    have htarget : inboxDir ++ [nm] = inboxDir ++ [name o.fileId] := congrArg Prod.snd hpair
    exact hn o ho (hnm.trans (by simpa using htarget))

/-- **A complete delivery without empty files is published**, when the names can
be allocated: the transfer ends `Completed` and the inbox gains its files. -/
theorem Staged.finish (hoffer : Offer t offers content)
    (h : Staged self.inboxDir t offers content s) (hc : s.manifest.Complete t)
    (hpos : ∀ o ∈ offers, 0 < o.size)
    (halloc : (allocate (takenIn s.fs self.inboxDir)
      ((filesOf s.manifest t).map (·.fileName))).isSome) :
    ∃ s', (self.finishTransfer t).run handler (s, w) = (.ok (), (s', w)) ∧
      s'.manifest.selectState t = some .completed ∧
      Gained self.inboxDir offers content s.fs s'.fs := by
  have hready := h.ready hoffer hc hpos
  obtain ⟨fs', ⟨names, ha, hren, hrun⟩ | ⟨e, before, file, names, hstop, -⟩⟩ :=
    run_finishTransfer_ready self (w := w) h.wellFormed hready
  · refine ⟨_, hrun, ?_, ?_⟩
    · obtain ⟨fr, hfr, rfl⟩ := hc.1
      obtain ⟨row, hrow⟩ := Option.isSome_iff_exists.mp (h.wellFormed.files fr hfr)
      rw [ManifestDb.selectState_updateState, if_pos rfl, ManifestDb.selectState, hrow]
      rfl
    · have hcov : ∀ o ∈ offers, ∀ b < o.size, s.manifest.Covered t o.fileId b := by
        intro o ho
        obtain ⟨hfr, ht⟩ := (h.rows (offeredRow t o)).mpr ⟨o, ho, rfl⟩
        have := hc.2 _ hfr ht
        rwa [asU64_offeredRow] at this
      have htrue : ∀ o ∈ offers, s.fs.contents (part self.inboxDir t o.fileId) =
          some (content o.fileId) := fun o ho => h.contents_eq hoffer ho (hpos o ho) (hcov o ho)
      obtain ⟨fr, hfr, hfrt⟩ := hc.1
      obtain ⟨o, ho, -⟩ := (h.rows fr).mp ⟨hfr, hfrt⟩
      refine h.gained hoffer (lookup_inbox_of_part (htrue o ho)) htrue ?_ hren
      rw [length_allocate ha, List.length_map]
  · exact absurd hstop (not_stopped self hready halloc (h.distinctParts hoffer))

end delivery

end NightBridge.Native
