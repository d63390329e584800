/-
# The two range engines

`chunk.rs` and `manifest.rs` each merge ranges, test whether a chunk is covered
and list what is missing.  `chunk.rs` checks its input and its additions,
`manifest.rs` checks neither.  On ranges that `validate_verified_ranges` accepts
both are the merge of `NightBridge.Data.Span`, so they agree element for
element.

The additions of `manifest.rs` wrap in a release build and stop the program in a
build with overflow checks.  `Debug` is that second build.
-/

import NightBridge.Native.Completed

namespace NightBridge.Native

open Data Effect ManifestStore

/-! ### The engine of `chunk.rs` -/

theorem chunkEnd_of_lt {r : Span} (h : r.stop < 2 ^ 64) : chunkEnd r = .ok r.stop := if_pos h

/-- **`validate_verified_ranges`** accepts the non-empty ranges within the file. -/
theorem validateVerifiedRanges_eq_ok {fileSize : ℕ} (hsize : fileSize < 2 ^ 64) {rs : List Span} :
    validateVerifiedRanges fileSize rs = .ok () ↔ ∀ r ∈ rs, 0 < r.length ∧ r.stop ≤ fileSize := by
  induction rs with
  | nil => simp [validateVerifiedRanges]
  | cons r rs ih =>
    rw [validateVerifiedRanges, List.forall_mem_cons]
    by_cases hlen : r.length = 0
    · rw [if_pos hlen]
      exact ⟨nofun, fun h => absurd hlen (by omega)⟩
    rw [if_neg hlen]
    by_cases hlt : r.stop < 2 ^ 64
    · rw [chunkEnd_of_lt hlt, ← ih]
      show (if r.stop > fileSize then .error (.protocol "verified range extends past file size")
        else validateVerifiedRanges fileSize rs) = Except.ok () ↔ _
      split_ifs with hend
      · exact ⟨nofun, fun h => absurd hend (by omega)⟩
      · exact ⟨fun h => ⟨by omega, h⟩, fun h => h.2⟩
    · have hover : chunkEnd r = .error (.protocol "chunk range overflows u64") := if_neg hlt
      rw [hover]
      exact ⟨nofun, fun h => absurd hlt (by omega)⟩

theorem inRange_of_within {fileSize : ℕ} (hsize : fileSize < 2 ^ 64) {rs : List Span}
    (h : ∀ r ∈ rs, 0 < r.length ∧ r.stop ≤ fileSize) : InRange rs :=
  fun r hr => ⟨(h r hr).1, (h r hr).2.trans_lt hsize⟩

theorem inRange_sortByOffset {rs : List Span} (h : InRange rs) : InRange (Span.sortByOffset rs) :=
  fun r hr => h r (Span.mem_sortByOffset.mp hr)

/-- A loop whose steps fold each range into the ranges kept so far. -/
theorem foldlM_mergeInto {m : Type → Type} [Monad m] [LawfulMonad m]
    {step : List Span → Span → m (List Span)} (hstep : ∀ kept r, InRange kept → 0 < r.length →
      r.stop < 2 ^ 64 → step kept r = pure (Span.mergeInto kept r)) {rs : List Span}
    (hrs : InRange rs) : rs.foldlM step [] = pure (rs.foldl Span.mergeInto []) := by
  suffices H : ∀ kept, InRange kept → rs.foldlM step kept = pure (rs.foldl Span.mergeInto kept) from
    H [] nofun
  induction rs with
  | nil => exact fun _ _ => rfl
  | cons r rs ih =>
    intro kept hk
    obtain ⟨hpos, hstop⟩ := hrs r (by simp)
    rw [List.foldlM_cons, List.foldl_cons, hstep kept r hk hpos hstop, pure_bind]
    exact ih (fun s hs => hrs s (List.mem_cons_of_mem _ hs)) _ (mergeInto_inRange hk hpos hstop)

namespace Chunk

theorem mergeRange_eq {kept : List Span} {r : Span} (hk : InRange kept) (hr : r.stop < 2 ^ 64) :
    mergeRange kept r = .ok (Span.mergeInto kept r) := by
  cases kept with
  | nil => rfl
  | cons last rest =>
    have hlast := (hk last (by simp)).2
    rw [mergeRange, Span.mergeInto, chunkEnd_of_lt hlast, chunkEnd_of_lt hr]
    show (if r.offset ≤ last.stop then _ else _) = _
    split_ifs
    · rfl
    · rfl

/-- **The checked `merge_ranges` succeeds** on ranges that fit, and merges. -/
theorem mergeRanges_eq {rs : List Span} (h : InRange rs) : mergeRanges rs = .ok (Span.merge rs) := by
  rw [mergeRanges, foldlM_mergeInto (fun _ _ hk _ hr => mergeRange_eq hk hr)
    (inRange_sortByOffset h)]
  rfl

theorem rangeFullyCovered_eq {verified : List Span} (hv : InRange verified) {c : Span}
    (hc : c.stop < 2 ^ 64) : rangeFullyCovered c verified = Native.rangeFullyCovered c verified := by
  have hs : addU64 c.offset c.length = c.stop := Nat.mod_eq_of_lt hc
  rw [rangeFullyCovered, chunkEnd_of_lt hc, Native.rangeFullyCovered, hs, Bool.eq_iff_iff,
    List.any_eq_true, List.any_eq_true]
  refine exists_congr fun v => and_congr_right fun hmem => ?_
  have hv' := (hv v hmem).2
  rw [chunkEnd_of_lt hv', show addU64 v.offset v.length = v.stop from Nat.mod_eq_of_lt hv']

end Chunk

/-- **The plan of `chunk.rs`** is what `manifest.rs` calls missing. -/
theorem planMissingChunks_eq {fileSize chunkSize : ℕ} (hsize : fileSize < 2 ^ 64)
    (hchunk : 0 < chunkSize) {rs : List Span}
    (hvalid : validateVerifiedRanges fileSize rs = .ok ()) :
    planMissingChunks fileSize chunkSize rs = .ok (missingRangesFor fileSize chunkSize rs) := by
  have hr := inRange_of_within hsize ((validateVerifiedRanges_eq_ok hsize).mp hvalid)
  rw [planMissingChunks, hvalid, Chunk.mergeRanges_eq hr, planChunks_of_pos hchunk,
    missingRangesFor, missingFrom_eq, mergeRanges_eq hr]
  refine congrArg Except.ok (List.filter_congr fun c hc => ?_)
  obtain ⟨-, -, -, hstop⟩ := mem_chunksFrom hc
  rw [Chunk.rangeFullyCovered_eq (merge_inRange hr) (hstop.trans_lt hsize)]

/-- **The cover test of `chunk.rs`** is that of `manifest.rs`. -/
theorem rangesCoverFile_eq {fileSize : ℕ} (hsize : fileSize < 2 ^ 64) {rs : List Span}
    (hvalid : validateVerifiedRanges fileSize rs = .ok ()) :
    rangesCoverFile fileSize rs = .ok (rangesCover fileSize rs) := by
  have hr := inRange_of_within hsize ((validateVerifiedRanges_eq_ok hsize).mp hvalid)
  rw [rangesCoverFile, hvalid, Chunk.mergeRanges_eq hr, rangesCover, mergeRanges_eq hr]
  by_cases hzero : fileSize = 0
  · simp [hzero, bind, Except.bind]
  · simp [hzero, bind, Except.bind, pure, Except.pure]

/-! ### The engine of `manifest.rs` with overflow checks -/

namespace Debug

/-- `a + b` on `u64`, with no result on overflow. -/
def addU64 (a b : ℕ) : Option ℕ := if a + b < 2 ^ 64 then some (a + b) else none

/-- `a - b` on `u64`, with no result below zero. -/
def subU64 (a b : ℕ) : Option ℕ := if b ≤ a then some (a - b) else none

/-- The body of the loop of `merge_ranges`. -/
def mergeRange (merged : List ResumeRange) (range : ResumeRange) : Option (List ResumeRange) :=
  if range.length = 0 then some merged
  else match merged with
    | [] => some [range]
    | last :: rest => do
      let lastEnd ← addU64 last.offset last.length
      let rangeEnd ← addU64 range.offset range.length
      if range.offset ≤ lastEnd then do
        let length ← subU64 (max rangeEnd lastEnd) last.offset
        some (⟨last.offset, length⟩ :: rest)
      else some (range :: last :: rest)

def mergeRanges (ranges : List ResumeRange) : Option (List ResumeRange) := do
  let merged ← (Span.sortByOffset ranges).foldlM mergeRange []
  some merged.reverse

/-- The loop of `range_fully_covered`, which stops at the first range that
covers. -/
def anyCovers (range : ResumeRange) (rangeEnd : ℕ) : List ResumeRange → Option Bool
  | [] => some false
  | v :: verified =>
    if v.offset ≤ range.offset then do
      if rangeEnd ≤ (← addU64 v.offset v.length) then some true
      else anyCovers range rangeEnd verified
    else anyCovers range rangeEnd verified

def rangeFullyCovered (range : ResumeRange) (verified : List ResumeRange) : Option Bool := do
  let rangeEnd ← addU64 range.offset range.length
  anyCovers range rangeEnd verified

/-- The loop of `missing_ranges_for`, from `offset`. -/
def missingFrom (fileSize chunkSize : ℕ) (verified : List ResumeRange) (offset : ℕ) :
    Option (List ResumeRange) :=
  if offset < fileSize ∧ 0 < chunkSize then
    let length := min chunkSize (fileSize - offset)
    match rangeFullyCovered ⟨offset, length⟩ verified with
    | none => none
    | some covered =>
      if offset + length < 2 ^ 64 then
        (missingFrom fileSize chunkSize verified (offset + length)).map fun rest =>
          if covered then rest else ⟨offset, length⟩ :: rest
      else none
  else some []
termination_by fileSize - offset
decreasing_by omega

def missingRangesFor (fileSize chunkSize : ℕ) (verified : List ResumeRange) :
    Option (List ResumeRange) := do
  let verified ← mergeRanges verified
  missingFrom fileSize chunkSize verified 0

def rangesCover (size : ℕ) (ranges : List ResumeRange) : Option Bool :=
  if size = 0 then some true
  else do
    let merged ← mergeRanges ranges
    some (merged = [⟨0, size⟩])

theorem addU64_of_lt {r : Span} (h : r.stop < 2 ^ 64) : addU64 r.offset r.length = some r.stop :=
  if_pos h

theorem mergeRange_eq {kept : List Span} {r : Span} (hk : InRange kept) (hpos : 0 < r.length)
    (hr : r.stop < 2 ^ 64) : mergeRange kept r = some (Span.mergeInto kept r) := by
  unfold mergeRange
  rw [if_neg (by omega)]
  cases kept with
  | nil => rfl
  | cons last rest =>
    have hlast := (hk last (by simp)).2
    have hsub : subU64 (max r.stop last.stop) last.offset =
        some (max r.stop last.stop - last.offset) :=
      if_pos (le_max_of_le_right (Nat.le_add_right _ _))
    simp only [addU64_of_lt hlast, addU64_of_lt hr, Option.bind_eq_bind, Option.bind_some, hsub,
      Span.mergeInto]
    split_ifs
    · rfl
    · rfl

theorem mergeRanges_eq {rs : List Span} (h : InRange rs) : mergeRanges rs = some (Span.merge rs) := by
  rw [mergeRanges, foldlM_mergeInto (fun _ _ hk hpos hr => mergeRange_eq hk hpos hr)
    (inRange_sortByOffset h)]
  rfl

theorem rangeFullyCovered_eq {verified : List Span} (hv : InRange verified) {c : Span}
    (hc : c.stop < 2 ^ 64) :
    rangeFullyCovered c verified = some (Native.rangeFullyCovered c verified) := by
  have hs : Native.addU64 c.offset c.length = c.stop := Nat.mod_eq_of_lt hc
  rw [rangeFullyCovered, addU64_of_lt hc, Native.rangeFullyCovered, hs]
  show anyCovers c c.stop verified = _
  induction verified with
  | nil => rfl
  | cons v verified ih =>
    have hlt := (hv v (by simp)).2
    have hv' : Native.addU64 v.offset v.length = v.stop := Nat.mod_eq_of_lt hlt
    rw [anyCovers, List.any_cons, ih fun r hr => hv r (List.mem_cons_of_mem _ hr),
      addU64_of_lt hlt, hv']
    by_cases h1 : v.offset ≤ c.offset
    · by_cases h2 : c.stop ≤ v.stop
      · simp [h1, h2]
      · simp [h1, h2]
    · simp [h1]

theorem missingFrom_eq {fileSize : ℕ} (hsize : fileSize < 2 ^ 64) (chunkSize : ℕ)
    {verified : List Span} (hv : InRange verified) (offset : ℕ) :
    missingFrom fileSize chunkSize verified offset =
      some (Native.missingFrom fileSize chunkSize verified offset) := by
  induction offset using chunksFrom.induct fileSize chunkSize with
  | case1 offset h ih =>
    have hstop : offset + min chunkSize (fileSize - offset) < 2 ^ 64 := by omega
    rw [missingFrom, if_pos h, Native.missingFrom, if_pos h]
    simp only [rangeFullyCovered_eq hv (c := ⟨offset, min chunkSize (fileSize - offset)⟩) hstop,
      if_pos hstop, ih, Option.map_some]
  | case2 offset h => rw [missingFrom, if_neg h, Native.missingFrom, if_neg h]

theorem missingRangesFor_eq {fileSize : ℕ} (hsize : fileSize < 2 ^ 64) (chunkSize : ℕ)
    {rs : List Span} (hr : InRange rs) :
    missingRangesFor fileSize chunkSize rs = some (Native.missingRangesFor fileSize chunkSize rs) := by
  rw [missingRangesFor, mergeRanges_eq hr, Native.missingRangesFor, Native.mergeRanges_eq hr]
  exact missingFrom_eq hsize chunkSize (merge_inRange hr) 0

theorem rangesCover_eq (size : ℕ) {rs : List Span} (hr : InRange rs) :
    rangesCover size rs = some (Native.rangesCover size rs) := by
  rw [rangesCover, mergeRanges_eq hr, Native.rangesCover, Native.mergeRanges_eq hr]
  by_cases hzero : size = 0
  · simp [hzero]
  · simp [hzero]

end Debug

/-! ### What the engines say -/

theorem validate_orderedSpans {db : ManifestDb} (h : db.WellFormed) {fr : FileRow}
    (hfr : fr ∈ db.files.rows) :
    validateVerifiedRanges (asU64 fr.size) (orderedSpans db fr.transferId fr.fileId) = .ok () :=
  (validateVerifiedRanges_eq_ok (ManifestDb.asU64_lt _)).mpr fun c hc =>
    h.spans hfr c (mem_orderedSpans.mp hc)

/-- **The two range engines agree** on the ranges that
`validate_verified_ranges` accepts.  The rows of a file are such ranges, and on
them no addition of `manifest.rs` overflows: a build with overflow checks
returns the same. -/
theorem engines_agree :
    (∀ (fileSize chunkSize : ℕ) (verified : List ChunkRange), fileSize < 2 ^ 64 → 0 < chunkSize →
      validateVerifiedRanges fileSize verified = .ok () →
      planMissingChunks fileSize chunkSize verified =
          .ok (missingRangesFor fileSize chunkSize verified) ∧
        rangesCoverFile fileSize verified = .ok (rangesCover fileSize verified) ∧
        Debug.missingRangesFor fileSize chunkSize verified =
          some (missingRangesFor fileSize chunkSize verified) ∧
        Debug.rangesCover fileSize verified = some (rangesCover fileSize verified)) ∧
    ∀ db : ManifestDb, db.Reachable → ∀ fr ∈ db.files.rows,
      let rows := orderedSpans db fr.transferId fr.fileId
      validateVerifiedRanges (asU64 fr.size) rows = .ok () ∧
        Debug.mergeRanges rows = some (mergeRanges rows) ∧
        Debug.rangesCover (asU64 fr.size) (mergeRanges rows) =
          some (rangesCover (asU64 fr.size) (mergeRanges rows)) ∧
        ∀ chunkSize, Debug.missingRangesFor (asU64 fr.size) chunkSize (mergeRanges rows) =
          some (missingRangesFor (asU64 fr.size) chunkSize (mergeRanges rows)) := by
  refine ⟨fun fileSize chunkSize verified hsize hchunk hvalid => ?_, fun db hdb fr hfr => ?_⟩
  · have hr := inRange_of_within hsize ((validateVerifiedRanges_eq_ok hsize).mp hvalid)
    exact ⟨planMissingChunks_eq hsize hchunk hvalid, rangesCoverFile_eq hsize hvalid,
      Debug.missingRangesFor_eq hsize chunkSize hr, Debug.rangesCover_eq fileSize hr⟩
  · have hwf := hdb.wellFormed
    have hrows : InRange (orderedSpans db fr.transferId fr.fileId) := fun c hc =>
      hwf.inRange _ _ c (mem_orderedSpans.mp hc)
    have hmerged : InRange (mergeRanges (orderedSpans db fr.transferId fr.fileId)) := by
      rw [mergeRanges_eq hrows]
      exact merge_inRange hrows
    refine ⟨validate_orderedSpans hwf hfr, ?_, Debug.rangesCover_eq _ hmerged, fun chunkSize =>
      Debug.missingRangesFor_eq (ManifestDb.asU64_lt _) chunkSize hmerged⟩
    rw [Debug.mergeRanges_eq hrows, mergeRanges_eq hrows]

theorem pairwise_missingRangesFor (fileSize chunkSize : ℕ) (rs : List Span) :
    (missingRangesFor fileSize chunkSize rs).Pairwise fun a b => a.stop ≤ b.offset := by
  rw [missingRangesFor, missingFrom_eq]
  exact (pairwise_chunksFrom fileSize chunkSize 0).filter _

/-- Nothing of a file is missing exactly when it has every byte. -/
theorem missing_eq_nil_iff {fileSize chunkSize : ℕ} (hchunk : 0 < chunkSize) {P : ℕ → Prop}
    {missing : List Span} (hmissing : ∀ c, c ∈ missing ↔
      c ∈ chunksFrom fileSize chunkSize 0 ∧ ¬ ∀ b, c.Has b → P b) :
    missing = [] ↔ ∀ b < fileSize, P b := by
  rw [List.eq_nil_iff_forall_not_mem]
  simp only [hmissing, not_and, not_not]
  constructor
  · intro h b hb
    obtain ⟨c, hc, hcb⟩ := (covers_chunksFrom hchunk b).mpr ⟨Nat.zero_le b, hb⟩
    exact h c hc b hcb
  · intro h c hc b hb
    exact h b (hb.2.trans_le (mem_chunksFrom hc).2.2.2)

/-- The verified bytes and the missing chunks make up the file. -/
theorem covers_missingRangesFor {fileSize chunkSize : ℕ} {rs : List Span} (hsize : fileSize < 2 ^ 64)
    (hchunk : 0 < chunkSize) (hrs : ∀ r ∈ rs, 0 < r.length ∧ r.stop ≤ fileSize) (b : ℕ) :
    Span.Covers rs b ∨ Span.Covers (missingRangesFor fileSize chunkSize rs) b ↔ b < fileSize := by
  have hr := inRange_of_within hsize hrs
  constructor
  · rintro (⟨r, hmem, hb⟩ | ⟨c, hmem, hb⟩)
    · exact hb.2.trans_le (hrs r hmem).2
    · have hc := ((mem_missingRangesFor hr hsize c).mp hmem).1
      exact hb.2.trans_le (mem_chunksFrom hc).2.2.2
  · intro hb
    by_cases hcov : Span.Covers rs b
    · exact .inl hcov
    · obtain ⟨c, hc, hcb⟩ := (covers_chunksFrom hchunk b).mpr ⟨Nat.zero_le b, hb⟩
      exact .inr ⟨c, (mem_missingRangesFor hr hsize c).mpr ⟨hc, fun h => hcov (h b hcb)⟩, hcb⟩

/-- **Plans of what is missing are exact.**  `plan_missing_chunks` returns, in
the order of the file, the chunks of `plan_chunks` with a byte outside every
verified range; with the verified bytes they make up the file, and there are
none exactly when `ranges_cover_file` says so.  The manifest calls a transfer
with files complete exactly when it reports no missing range for any of them,
whatever the chunk size. -/
theorem missing_plans_exact :
    (∀ (fileSize chunkSize : ℕ) (verified : List ChunkRange), fileSize < 2 ^ 64 → 0 < chunkSize →
      (∀ r ∈ verified, 0 < r.length ∧ r.stop ≤ fileSize) →
      ∃ chunks plan covered, planChunks fileSize chunkSize = .ok chunks ∧
        planMissingChunks fileSize chunkSize verified = .ok plan ∧
        rangesCoverFile fileSize verified = .ok covered ∧
        (plan.Pairwise fun a b => a.offset < b.offset) ∧
        (∀ c, c ∈ plan ↔ c ∈ chunks ∧ ∃ b, c.Has b ∧ ¬ Span.Covers verified b) ∧
        (∀ b, Span.Covers verified b ∨ Span.Covers plan b ↔ b < fileSize) ∧
        (plan = [] ↔ covered = true)) ∧
    ∀ (s : Store) (w : Wire) (t : String), s.manifest.Reachable →
      (∃ fr ∈ s.manifest.files.rows, fr.transferId = t) → ∀ chunkSize, 0 < chunkSize →
      ((transferComplete t).run handler (s, w) = (.ok true, (s, w)) ↔
        ∀ fr ∈ s.manifest.files.rows, fr.transferId = t →
          (missingRanges t fr.fileId chunkSize).run handler (s, w) = (.ok [], (s, w))) := by
  refine ⟨fun fileSize chunkSize verified hsize hchunk hverified => ?_,
    fun s w t hreach hfile chunkSize hchunk => ?_⟩
  · have hvalid := (validateVerifiedRanges_eq_ok hsize).mpr hverified
    have hr := inRange_of_within hsize hverified
    have hmem : ∀ c, c ∈ missingRangesFor fileSize chunkSize verified ↔
        c ∈ chunksFrom fileSize chunkSize 0 ∧ ¬ ∀ b, c.Has b → Span.Covers verified b :=
      mem_missingRangesFor hr hsize
    refine ⟨_, _, _, planChunks_of_pos hchunk, planMissingChunks_eq hsize hchunk hvalid,
      rangesCoverFile_eq hsize hvalid, ?_, fun c => ?_,
      covers_missingRangesFor hsize hchunk hverified, ?_⟩
    · refine (pairwise_missingRangesFor fileSize chunkSize verified).imp_of_mem fun {a b} ha _ hab => ?_
      have hpos := (mem_chunksFrom ((hmem a).mp ha).1).2.1
      exact lt_of_lt_of_le (Nat.lt_add_of_pos_right hpos) hab
    · rw [hmem]
      push Not
      rfl
    · rw [missing_eq_nil_iff hchunk hmem, rangesCover_iff hr fun r h => (hverified r h).2]
  · have hwf := hreach.wellFormed
    obtain ⟨complete, hrun, hcomplete⟩ := run_transferComplete (w := w) hwf t
    rw [hrun]
    have hok : (Except.ok complete, (s, w)) = ((.ok true, (s, w)) : Except NativeError Bool × _) ↔
        s.manifest.Complete t := by
      rw [← hcomplete]
      simp
    rw [hok, ManifestDb.Complete]
    refine (and_iff_right hfile).trans (forall_congr' fun fr => forall_congr' fun hfr =>
      forall_congr' fun ht => ?_)
    subst ht
    obtain ⟨missing, hmissing, hmem⟩ := run_missingRanges (w := w) hwf hfr hchunk
    rw [hmissing, ← missing_eq_nil_iff hchunk hmem]
    simp

theorem merge_eq_of_covers {rs ss : List Span} (hrs : InRange rs) (hss : InRange ss)
    (h : ∀ b, Span.Covers rs b ↔ Span.Covers ss b) : Span.merge rs = Span.merge ss := by
  have hpos {ts : List Span} (hts : InRange ts) : ∀ r ∈ ts, 0 < r.length := fun r hr => (hts r hr).1
  refine (Span.merge_normal (hpos hrs)).ext (Span.merge_normal (hpos hss)) fun b => ?_
  rw [Span.covers_merge (hpos hrs), Span.covers_merge (hpos hss), h]

/-- **Merged ranges are a normal form.**  On non-empty ranges that end within
`u64` both `merge_ranges` return, with overflow checks too, and return the same:
a list in the order of the file, with at least a byte between a range and the
next one, that covers what the given ranges cover.  Every other list that covers
these bytes is merged to it, and it is merged to itself. -/
theorem mergeRanges_normal_form (ranges : List Span) (h : InRange ranges) : ∃ merged,
    Chunk.mergeRanges ranges = .ok merged ∧ mergeRanges ranges = merged ∧
    Debug.mergeRanges ranges = some merged ∧
    (merged.Pairwise fun a b => a.offset < b.offset ∧ a.stop < b.offset) ∧
    (∀ b, Span.Covers merged b ↔ Span.Covers ranges b) ∧
    (∀ others, InRange others → (∀ b, Span.Covers others b ↔ Span.Covers ranges b) →
      Chunk.mergeRanges others = .ok merged ∧ mergeRanges others = merged) ∧
    Chunk.mergeRanges merged = .ok merged ∧ mergeRanges merged = merged := by
  have hpos : ∀ r ∈ ranges, 0 < r.length := fun r hr => (h r hr).1
  have hmerged := merge_inRange h
  have hsame : ∀ others, InRange others → (∀ b, Span.Covers others b ↔ Span.Covers ranges b) →
      Chunk.mergeRanges others = .ok (Span.merge ranges) ∧ mergeRanges others = Span.merge ranges := by
    intro others hothers hcovers
    rw [Chunk.mergeRanges_eq hothers, mergeRanges_eq hothers, merge_eq_of_covers hothers h hcovers]
    exact ⟨rfl, rfl⟩
  refine ⟨Span.merge ranges, Chunk.mergeRanges_eq h, mergeRanges_eq h, Debug.mergeRanges_eq h, ?_,
    Span.covers_merge hpos, hsame, hsame _ hmerged (Span.covers_merge hpos)⟩
  refine (Span.merge_normal hpos).2.imp_of_mem fun {a b} _ _ hgap => ⟨?_, hgap⟩
  exact lt_of_le_of_lt (Nat.le_add_right a.offset a.length) hgap

/-- Ranges that touch and overlap, given out of order. -/
theorem mergeRanges_normal_form_three : ∃ merged,
    Chunk.mergeRanges [⟨8, 2⟩, ⟨0, 4⟩, ⟨2, 4⟩] = .ok merged ∧
      (merged.Pairwise fun a b => a.offset < b.offset ∧ a.stop < b.offset) ∧
      mergeRanges merged = merged := by
  obtain ⟨merged, hchunk, -, -, hgaps, -, -, -, htwice⟩ :=
    mergeRanges_normal_form [⟨8, 2⟩, ⟨0, 4⟩, ⟨2, 4⟩] (by unfold InRange Span.stop; decide)
  exact ⟨merged, hchunk, hgaps, htwice⟩

end NightBridge.Native
