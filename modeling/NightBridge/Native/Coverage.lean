/-
# What the manifest says is missing

The range arithmetic of `manifest.rs` read as statements about bytes.  As long as
the ends of the ranges fit in `u64`, the wrapping `merge_ranges` is the merge of
`NightBridge.Data.Span` (`mergeRanges_eq`), so `ranges_cover` and
`missing_ranges_for` decide which bytes the rows of `verified_chunks` cover
(`rangesCover_iff`, `mem_missingRangesFor`).

`ManifestDb.WellFormed` is what keeps the ends in range: every recorded chunk is
a non-empty part of its file.  Under it the two questions the receiver asks have
their intended answers: `transfer_complete` whether every byte of every file is
covered (`run_transferComplete`), `missing_ranges` which chunks are not
(`run_missingRanges`).
-/

import NightBridge.Native.Manifest

namespace NightBridge.Native

open Data Effect

/-- All ranges are non-empty and end within `u64`. -/
def InRange (rs : List Span) : Prop := ∀ r ∈ rs, 0 < r.length ∧ r.stop < 2 ^ 64

theorem mergeRange_eq {kept : List Span} {r : Span} (hk : InRange kept) (hr : 0 < r.length)
    (hr' : r.stop < 2 ^ 64) : mergeRange kept r = Span.mergeInto kept r := by
  unfold mergeRange
  rw [if_neg (by omega)]
  cases kept with
  | nil => rfl
  | cons last rest =>
    obtain ⟨h1, h2⟩ := hk last (by simp)
    have hl : addU64 last.offset last.length = last.stop := Nat.mod_eq_of_lt h2
    have hs : addU64 r.offset r.length = r.stop := Nat.mod_eq_of_lt hr'
    have hm : subU64 (max r.stop last.stop) last.offset = max r.stop last.stop - last.offset := by
      have : last.offset ≤ last.stop := Nat.le_add_right _ _
      rw [subU64]
      omega
    simp only [Span.mergeInto, hl, hs, hm]

theorem mergeInto_inRange {kept : List Span} {r : Span} (hk : InRange kept) (hr : 0 < r.length)
    (hr' : r.stop < 2 ^ 64) : InRange (Span.mergeInto kept r) := by
  cases kept with
  | nil =>
    intro s hs
    obtain rfl : s = r := by simpa [Span.mergeInto] using hs
    exact ⟨hr, hr'⟩
  | cons last rest =>
    obtain ⟨h1, h2⟩ := hk last (by simp)
    have hrest : InRange rest := fun s hs => hk s (List.mem_cons_of_mem _ hs)
    intro s hs
    rw [Span.mergeInto] at hs
    split_ifs at hs with h
    · rcases List.mem_cons.mp hs with rfl | hs
      · simp only [Span.stop] at *
        omega
      · exact hrest s hs
    · rcases List.mem_cons.mp hs with rfl | hs
      · exact ⟨hr, hr'⟩
      · exact hk s hs

/-- **`merge_ranges` does not overflow** on ranges that fit, and merges. -/
theorem mergeRanges_eq {rs : List Span} (h : InRange rs) : mergeRanges rs = Span.merge rs := by
  have fold : ∀ (l kept : List Span), InRange l → InRange kept →
      l.foldl mergeRange kept = l.foldl Span.mergeInto kept := by
    intro l
    induction l with
    | nil => intro kept _ _; rfl
    | cons r l ih =>
      intro kept hl hk
      obtain ⟨h1, h2⟩ := hl r (by simp)
      rw [List.foldl_cons, List.foldl_cons, mergeRange_eq hk h1 h2,
        ih _ (fun s hs => hl s (List.mem_cons_of_mem _ hs)) (mergeInto_inRange hk h1 h2)]
  rw [mergeRanges, Span.merge,
    fold _ _ (fun r hr => h r (Span.mem_sortByOffset.mp hr)) (by simp [InRange])]

theorem merge_inRange {rs : List Span} (h : InRange rs) : InRange (Span.merge rs) := by
  intro r hr
  have hpos := (Span.merge_normal fun s hs => (h s hs).1).1 r hr
  refine ⟨hpos, ?_⟩
  have hc : Span.Covers rs (r.stop - 1) := by
    rw [← Span.covers_merge fun s hs => (h s hs).1]
    exact ⟨r, hr, by unfold Span.stop; omega, by unfold Span.stop; omega⟩
  obtain ⟨s, hs, h1⟩ := hc
  have h2 := (h s hs).2
  have h3 := h1.2
  omega

theorem rangeFullyCovered_iff {verified : List Span} (hv : Span.Normal verified)
    (hr : InRange verified) {c : Span} (hc : 0 < c.length) (hc' : c.stop < 2 ^ 64) :
    rangeFullyCovered c verified = true ↔ ∀ b, c.Has b → Span.Covers verified b := by
  rw [← hv.within_iff hc]
  have hs : addU64 c.offset c.length = c.stop := Nat.mod_eq_of_lt hc'
  simp only [rangeFullyCovered, List.any_eq_true, Bool.and_eq_true, decide_eq_true_eq, hs]
  constructor
  · rintro ⟨v, hv, h1, h2⟩
    rw [show addU64 v.offset v.length = v.stop from Nat.mod_eq_of_lt (hr v hv).2] at h2
    exact ⟨v, hv, h1, h2⟩
  · rintro ⟨v, hv, h1, h2⟩
    refine ⟨v, hv, h1, ?_⟩
    rwa [show addU64 v.offset v.length = v.stop from Nat.mod_eq_of_lt (hr v hv).2]

theorem missingFrom_eq (fileSize chunkSize : ℕ) (verified : List Span) (offset : ℕ) :
    missingFrom fileSize chunkSize verified offset =
      (chunksFrom fileSize chunkSize offset).filter fun c => !rangeFullyCovered c verified := by
  induction offset using chunksFrom.induct fileSize chunkSize with
  | case1 offset h ih =>
    rw [missingFrom, if_pos h, chunksFrom, if_pos h, List.filter_cons]
    simp only [ih]
    cases rangeFullyCovered ⟨offset, min chunkSize (fileSize - offset)⟩ verified <;> rfl
  | case2 offset h => rw [missingFrom, if_neg h, chunksFrom, if_neg h, List.filter_nil]

/-- **`missing_ranges_for` returns the chunks with an uncovered byte.** -/
theorem mem_missingRangesFor {fileSize chunkSize : ℕ} {rs : List Span} (hr : InRange rs)
    (hsize : fileSize < 2 ^ 64) (c : Span) :
    c ∈ missingRangesFor fileSize chunkSize rs ↔
      c ∈ chunksFrom fileSize chunkSize 0 ∧ ¬ ∀ b, c.Has b → Span.Covers rs b := by
  rw [missingRangesFor, missingFrom_eq, List.mem_filter, mergeRanges_eq hr]
  refine and_congr_right fun hc => ?_
  obtain ⟨-, h1, -, h2⟩ := mem_chunksFrom hc
  rw [Bool.not_eq_true', ← Bool.not_eq_true,
    rangeFullyCovered_iff (Span.merge_normal fun r h => (hr r h).1) (merge_inRange hr) h1
      (h2.trans_lt hsize)]
  simp only [Span.covers_merge fun r h => (hr r h).1]

/-- **`ranges_cover` decides whether the file is covered.** -/
theorem rangesCover_iff {size : ℕ} {rs : List Span} (hr : InRange rs)
    (hin : ∀ r ∈ rs, r.stop ≤ size) :
    rangesCover size rs = true ↔ ∀ b < size, Span.Covers rs b := by
  rw [rangesCover, decide_eq_true_eq, mergeRanges_eq hr]
  rcases Nat.eq_zero_or_pos size with rfl | hpos
  · simp
  · rw [Span.merge_eq_singleton_iff (fun r h => (hr r h).1) hpos hin]
    exact ⟨fun h => h.resolve_left (by omega), .inr⟩

/-! ### The rows of a file -/

/-- The bytes a row of `verified_chunks` stands for. -/
def ChunkRow.span (r : ChunkRow) : Span := ⟨asU64 r.offset, asU64 r.length⟩

namespace ManifestDb

/-- The recorded chunks of a file. -/
def spans (db : ManifestDb) (t f : String) : List Span :=
  (db.chunks.rows.filter fun r => r.transferId = t ∧ r.fileId = f).map ChunkRow.span

/-- Byte `b` of a file lies in a recorded chunk. -/
def Covered (db : ManifestDb) (t f : String) (b : ℕ) : Prop := Span.Covers (db.spans t f) b

/-- Every file belongs to a transfer, and every recorded chunk is a non-empty
part of a file. -/
structure WellFormed (db : ManifestDb) : Prop where
  files : ∀ r ∈ db.files.rows, (db.transfers.find? r.transferId).isSome
  chunks : ∀ r ∈ db.chunks.rows, ∃ fr ∈ db.files.rows,
    fr.key = (r.transferId, r.fileId) ∧ 0 < r.span.length ∧ r.span.stop ≤ asU64 fr.size

theorem asU64_lt (x : ℤ) : asU64 x < 2 ^ 64 := by
  unfold asU64
  omega

theorem mem_spans {db : ManifestDb} {t f : String} {c : Span} :
    c ∈ db.spans t f ↔ ∃ r ∈ db.chunks.rows, r.transferId = t ∧ r.fileId = f ∧ r.span = c := by
  simp [spans, and_assoc]

theorem WellFormed.spans {db : ManifestDb} (h : db.WellFormed) {fr : FileRow}
    (hfr : fr ∈ db.files.rows) : ∀ c ∈ db.spans fr.transferId fr.fileId,
      0 < c.length ∧ c.stop ≤ asU64 fr.size := by
  intro c hc
  obtain ⟨r, hr, ht, hf, rfl⟩ := mem_spans.mp hc
  obtain ⟨fr', hfr', hk, h1, h2⟩ := h.chunks r hr
  rw [ht, hf] at hk
  obtain rfl : fr' = fr := db.files.eq_of_key hfr' hfr hk
  exact ⟨h1, h2⟩

theorem WellFormed.inRange {db : ManifestDb} (h : db.WellFormed) (t f : String) :
    InRange (db.spans t f) := by
  intro c hc
  obtain ⟨r, hr, ht, hf, rfl⟩ := mem_spans.mp hc
  obtain ⟨fr, hfr, hk, h1, h2⟩ := h.chunks r hr
  exact ⟨h1, h2.trans_lt (asU64_lt _)⟩

/-- The transfer has files and every byte of them is covered. -/
def Complete (db : ManifestDb) (t : String) : Prop :=
  (∃ fr ∈ db.files.rows, fr.transferId = t) ∧
    ∀ fr ∈ db.files.rows, fr.transferId = t → ∀ b < asU64 fr.size, db.Covered t fr.fileId b

end ManifestDb

/-- What `verified_ranges_locked` merges: the chunks of the file, sorted. -/
def orderedSpans (db : ManifestDb) (t f : String) : List Span :=
  (db.selectRanges t f).map fun (offset, length) => ⟨asU64 offset, asU64 length⟩

theorem mem_orderedSpans {db : ManifestDb} {t f : String} {c : Span} :
    c ∈ orderedSpans db t f ↔ c ∈ db.spans t f := by
  simp only [orderedSpans, ManifestDb.selectRanges, ManifestDb.spans, List.map_map, List.mem_map,
    (List.perm_insertionSort _ _).mem_iff]
  rfl

theorem covers_orderedSpans {db : ManifestDb} {t f : String} {b : ℕ} :
    Span.Covers (orderedSpans db t f) b ↔ db.Covered t f b := by
  simp only [ManifestDb.Covered, Span.Covers, mem_orderedSpans]

namespace ManifestStore

theorem run_verifiedRanges (t f : String) (s : Store) (w : Wire) :
    (verifiedRanges t f).run handler (s, w) =
      (.ok (mergeRanges (orderedSpans s.manifest t f)), (s, w)) := rfl

variable {s : Store} {w : Wire}

theorem covers_verifiedRanges (hwf : s.manifest.WellFormed) (t f : String) :
    InRange (mergeRanges (orderedSpans s.manifest t f)) ∧
      ∀ b, Span.Covers (mergeRanges (orderedSpans s.manifest t f)) b ↔
        s.manifest.Covered t f b := by
  have hr : InRange (orderedSpans s.manifest t f) := fun c hc =>
    hwf.inRange t f c (mem_orderedSpans.mp hc)
  rw [mergeRanges_eq hr]
  exact ⟨merge_inRange hr, fun b => by
    rw [Span.covers_merge fun r h => (hr r h).1, covers_orderedSpans]⟩

theorem rangesCover_verifiedRanges (hwf : s.manifest.WellFormed) {fr : FileRow}
    (hfr : fr ∈ s.manifest.files.rows) :
    rangesCover (asU64 fr.size)
        (mergeRanges (orderedSpans s.manifest fr.transferId fr.fileId)) = true ↔
      ∀ b < asU64 fr.size, s.manifest.Covered fr.transferId fr.fileId b := by
  obtain ⟨hr, hc⟩ := covers_verifiedRanges hwf fr.transferId fr.fileId
  rw [rangesCover_iff hr fun r h => ?_]
  · simp only [hc]
  · have hpos := (hr r h).1
    obtain ⟨c, hc', hb⟩ := (hc (r.stop - 1)).mp
      ⟨r, h, by unfold Span.stop; omega, by unfold Span.stop; omega⟩
    have h1 := (hwf.spans hfr c hc').2
    have h2 := hb.2
    omega

theorem run_allCovered (hwf : s.manifest.WellFormed) (t : String) (rows : List FileRow)
    (hrows : ∀ r ∈ rows, r ∈ s.manifest.files.rows ∧ r.transferId = t) :
    ∃ ok, (allCovered t rows).run handler (s, w) = (.ok ok, (s, w)) ∧
      (ok = true ↔ ∀ r ∈ rows, ∀ b < asU64 r.size, s.manifest.Covered t r.fileId b) := by
  induction rows with
  | nil => exact ⟨true, rfl, by simp⟩
  | cons r rows ih =>
    obtain ⟨hr, rfl⟩ := hrows r (by simp)
    obtain ⟨ok, h1, h2⟩ := ih fun r' h' => hrows r' (List.mem_cons_of_mem _ h')
    have hcov := rangesCover_verifiedRanges hwf hr
    rw [allCovered, Prog.run_bind_ok _ (run_verifiedRanges _ _ s w)]
    split_ifs with hc
    · exact ⟨ok, h1, by rw [h2]; simpa using fun _ => hcov.mp hc⟩
    · refine ⟨false, rfl, ?_⟩
      simp only [Bool.false_eq_true, List.mem_cons, forall_eq_or_imp, false_iff, not_and]
      exact fun h => absurd (hcov.mpr h) hc

/-- **`transfer_complete` decides completeness.** -/
theorem run_transferComplete (hwf : s.manifest.WellFormed) (t : String) :
    ∃ ok, (transferComplete t).run handler (s, w) = (.ok ok, (s, w)) ∧
      (ok = true ↔ s.manifest.Complete t) := by
  have hmem : ∀ r, r ∈ s.manifest.selectFiles t ↔ r ∈ s.manifest.files.rows ∧ r.transferId = t :=
    fun r => by simp [ManifestDb.selectFiles]
  obtain ⟨ok, h1, h2⟩ := run_allCovered (w := w) hwf t (s.manifest.selectFiles t)
    fun r hr => (hmem r).mp hr
  refine ⟨ok && !(s.manifest.selectFiles t).isEmpty, ?_, ?_⟩
  · rw [transferComplete, Prog.run_bind_ok _ (show (selectFiles t).run handler (s, w) =
      (.ok (s.manifest.selectFiles t), (s, w)) from rfl), Prog.run_bind_ok _ h1]
    rfl
  · rw [Bool.and_eq_true, h2, Bool.not_eq_true', List.isEmpty_eq_false_iff_exists_mem,
      ManifestDb.Complete, and_comm]
    simp only [hmem, and_imp]

theorem run_fileSize {fr : FileRow} (hfr : fr ∈ s.manifest.files.rows) :
    (fileSize fr.transferId fr.fileId).run handler (s, w) = (.ok (asU64 fr.size), (s, w)) := by
  have hf : s.manifest.files.find? (fr.transferId, fr.fileId) = some fr :=
    Table.find?_eq_some_iff.mpr ⟨hfr, rfl⟩
  have hs : s.manifest.selectSize fr.transferId fr.fileId = some fr.size := by
    rw [ManifestDb.selectSize, hf]
    rfl
  simp [fileSize, selectSize, handler, exec, hs, orManifest, Except.mapError]

/-- **`missing_ranges` returns the chunks with an uncovered byte.** -/
theorem run_missingRanges (hwf : s.manifest.WellFormed) {fr : FileRow}
    (hfr : fr ∈ s.manifest.files.rows) {chunkSize : ℕ} (hc : 0 < chunkSize) :
    ∃ missing, (missingRanges fr.transferId fr.fileId chunkSize).run handler (s, w) =
        (.ok missing, (s, w)) ∧
      ∀ c, c ∈ missing ↔ c ∈ chunksFrom (asU64 fr.size) chunkSize 0 ∧
        ¬ ∀ b, c.Has b → s.manifest.Covered fr.transferId fr.fileId b := by
  obtain ⟨hr, hcov⟩ := covers_verifiedRanges hwf fr.transferId fr.fileId
  refine ⟨missingRangesFor (asU64 fr.size) chunkSize
    (mergeRanges (orderedSpans s.manifest fr.transferId fr.fileId)), ?_, fun c => ?_⟩
  · rw [missingRanges, if_neg (by omega), Prog.run_bind_ok _ (run_fileSize hfr),
      Prog.run_bind_ok _ (run_verifiedRanges _ _ s w)]
    rfl
  · rw [mem_missingRangesFor hr (ManifestDb.asU64_lt _)]
    simp only [hcov]

end ManifestStore
end NightBridge.Native
