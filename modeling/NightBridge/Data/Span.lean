/-
# Byte ranges and what they cover

A span is an offset and a length.  `merge` sorts spans by offset and folds each
into the last one kept when it starts no later than that one ends.  On non-empty
spans the result is a normal form: ascending, with a gap after every span
(`merge_normal`), covering the bytes the input covers (`covers_merge`), and
determined by them (`Normal.ext`).  The tests a resumable transfer makes are
then tests of coverage (`Normal.within_iff`, `merge_eq_singleton_iff`).

`chunksFrom` cuts what is left of a file into chunks; its spans cover the rest
of the file (`covers_chunksFrom`) and all start on its grid.
-/

import Mathlib.Data.List.Sort
import Mathlib.Tactic.Ring
import Mathlib.Tactic.Common

namespace NightBridge.Data

/-- `length` bytes from `offset`. -/
structure Span where
  offset : ℕ
  length : ℕ
  deriving DecidableEq, Repr

namespace Span

def stop (r : Span) : ℕ := r.offset + r.length

def Has (r : Span) (b : ℕ) : Prop := r.offset ≤ b ∧ b < r.stop

def Covers (rs : List Span) (b : ℕ) : Prop := ∃ r ∈ rs, r.Has b

@[simp] theorem covers_nil (b : ℕ) : ¬ Covers [] b := by simp [Covers]

@[simp] theorem covers_cons (r : Span) (rs : List Span) (b : ℕ) :
    Covers (r :: rs) b ↔ r.Has b ∨ Covers rs b := by simp [Covers]

theorem covers_reverse (rs : List Span) (b : ℕ) : Covers rs.reverse b ↔ Covers rs b := by
  simp [Covers]

/-- Ascending non-empty spans with a gap after each. -/
def Normal (rs : List Span) : Prop :=
  (∀ r ∈ rs, 0 < r.length) ∧ rs.Pairwise fun a b => a.stop < b.offset

theorem Normal.tail {r : Span} {rs : List Span} (h : Normal (r :: rs)) : Normal rs :=
  ⟨fun s hs => h.1 s (List.mem_cons_of_mem _ hs), (List.pairwise_cons.mp h.2).2⟩

theorem Normal.not_covers_stop {rs : List Span} (h : Normal rs) {r : Span} (hr : r ∈ rs) :
    ¬ Covers rs r.stop := by
  rintro ⟨s, hs, h1, h2⟩
  have hrs : r.stop < s.offset ∨ s.stop < r.offset ∨ r = s := by
    by_cases he : r = s
    · exact .inr (.inr he)
    · rcases List.pairwise_iff_getElem.mp h.2 with hp
      obtain ⟨i, hi, rfl⟩ := List.getElem_of_mem hr
      obtain ⟨j, hj, rfl⟩ := List.getElem_of_mem hs
      rcases Nat.lt_trichotomy i j with hij | rfl | hij
      · exact .inl (hp i j hi hj hij)
      · exact absurd rfl he
      · exact .inr (.inl (hp j i hj hi hij))
  rcases hrs with h3 | h3 | rfl
  · omega
  · unfold stop at *; omega
  · omega

/-- **Inside one span.**  A non-empty span lies inside a single span of a
normal list exactly when all its bytes are covered. -/
theorem Normal.within_iff {rs : List Span} (h : Normal rs) {q : Span} (hq : 0 < q.length) :
    (∃ r ∈ rs, r.offset ≤ q.offset ∧ q.stop ≤ r.stop) ↔ ∀ b, q.Has b → Covers rs b := by
  constructor
  · rintro ⟨r, hr, h1, h2⟩ b hb
    exact ⟨r, hr, h1.trans hb.1, hb.2.trans_le h2⟩
  · intro hc
    obtain ⟨r, hr, h1, h2⟩ := hc q.offset ⟨le_rfl, by unfold stop; omega⟩
    refine ⟨r, hr, h1, ?_⟩
    by_contra hlt
    exact h.not_covers_stop hr (hc r.stop ⟨by omega, by omega⟩)

theorem covers_head {r : Span} (hr : 0 < r.length) (rs : List Span) : Covers (r :: rs) r.offset :=
  ⟨r, by simp, le_rfl, by unfold stop; omega⟩

theorem Normal.head_le {r : Span} {rs : List Span} (h : Normal (r :: rs)) {b : ℕ}
    (hb : Covers (r :: rs) b) : r.offset ≤ b := by
  obtain ⟨s, hs, hb⟩ := hb
  rcases List.mem_cons.mp hs with rfl | hs
  · exact hb.1
  · have hgap := (List.pairwise_cons.mp h.2).1 s hs
    have hle := hb.1
    unfold stop at hgap
    omega

theorem Normal.stop_lt {r : Span} {rs : List Span} (h : Normal (r :: rs)) {b : ℕ}
    (hb : Covers rs b) : r.stop < b := by
  obtain ⟨s, hs, hb⟩ := hb
  exact ((List.pairwise_cons.mp h.2).1 s hs).trans_le hb.1

theorem Normal.head_stop_le {r s : Span} {ss : List Span} (hs : Normal (s :: ss))
    (hoffset : r.offset = s.offset) (h : ∀ b, r.Has b → Covers (s :: ss) b) : r.stop ≤ s.stop := by
  by_contra hlt
  refine hs.not_covers_stop (by simp) (h s.stop ⟨?_, not_le.mp hlt⟩)
  rw [hoffset]
  unfold stop
  omega

theorem Normal.covers_tail {r : Span} {rs ss : List Span} (h : Normal (r :: rs)) {b : ℕ}
    (hb : Covers rs b) (hss : Covers (r :: ss) b) : Covers ss b := by
  rcases (covers_cons r ss b).mp hss with hhas | hrest
  · exact absurd hhas.2 (h.stop_lt hb).not_gt
  · exact hrest

/-- **Normal forms are unique**: a normal list is determined by the bytes it
covers.  The least covered byte is where the first span starts, the next
uncovered one is where it stops, and the rest lies past it. -/
theorem Normal.ext {rs ss : List Span} (hr : Normal rs) (hs : Normal ss)
    (h : ∀ b, Covers rs b ↔ Covers ss b) : rs = ss := by
  induction rs generalizing ss with
  | nil =>
    cases ss with
    | nil => rfl
    | cons s ss => exact absurd ((h _).mpr (covers_head (hs.1 s (by simp)) ss)) (covers_nil _)
  | cons r rs ih =>
    have hrr := covers_head (hr.1 r (by simp)) rs
    cases ss with
    | nil => exact absurd ((h _).mp hrr) (covers_nil _)
    | cons s ss =>
      have hss := covers_head (hs.1 s (by simp)) ss
      have hoffset : r.offset = s.offset :=
        le_antisymm (hr.head_le ((h _).mpr hss)) (hs.head_le ((h _).mp hrr))
      have hstop : r.stop = s.stop := le_antisymm
        (hs.head_stop_le hoffset fun b hb => (h b).mp ⟨r, by simp, hb⟩)
        (hr.head_stop_le hoffset.symm fun b hb => (h b).mpr ⟨s, by simp, hb⟩)
      obtain rfl : r = s := by
        cases r; cases s
        simp only [stop] at hoffset hstop ⊢
        subst hoffset
        simpa using hstop
      rw [ih hr.tail hs.tail fun b => ⟨?_, ?_⟩]
      · exact fun hb => hr.covers_tail hb ((h b).mp ((covers_cons _ _ _).mpr (.inr hb)))
      · exact fun hb => hs.covers_tail hb ((h b).mpr ((covers_cons _ _ _).mpr (.inr hb)))

/-! ### Merging -/

/-- Fold a span into the spans kept so far, the last one first. -/
def mergeInto (kept : List Span) (r : Span) : List Span :=
  match kept with
  | [] => [r]
  | last :: rest =>
    if r.offset ≤ last.stop then ⟨last.offset, max r.stop last.stop - last.offset⟩ :: rest
    else r :: last :: rest

/-- Sort by offset, stably. -/
def sortByOffset (rs : List Span) : List Span := rs.insertionSort fun a b => a.offset ≤ b.offset

/-- Merge overlapping and adjacent spans. -/
def merge (rs : List Span) : List Span := ((sortByOffset rs).foldl mergeInto []).reverse

theorem mem_sortByOffset {rs : List Span} {r : Span} : r ∈ sortByOffset rs ↔ r ∈ rs :=
  (List.perm_insertionSort _ rs).mem_iff

theorem sortByOffset_sorted (rs : List Span) :
    (sortByOffset rs).Pairwise fun a b => a.offset ≤ b.offset := by
  have : Std.Total fun a b : Span => a.offset ≤ b.offset := ⟨fun a b => le_total _ _⟩
  have : IsTrans Span fun a b => a.offset ≤ b.offset := ⟨fun a b c => le_trans⟩
  exact List.pairwise_insertionSort _ rs

theorem normal_reverse_cons {last : Span} {rest : List Span} : Normal (last :: rest).reverse ↔
    0 < last.length ∧ (∀ s ∈ rest, s.stop < last.offset) ∧ Normal rest.reverse := by
  simp only [Normal, List.reverse_cons, List.pairwise_append, List.mem_append, List.mem_reverse,
    List.mem_singleton]
  constructor
  · rintro ⟨hpos, hrest, -, hgap⟩
    exact ⟨hpos last (.inr rfl), fun s hs => hgap s hs last rfl, fun s hs => hpos s (.inl hs), hrest⟩
  · rintro ⟨hlast, hgap, hpos, hrest⟩
    refine ⟨?_, hrest, List.pairwise_singleton _ _, ?_⟩
    · rintro s (hs | rfl)
      · exact hpos s hs
      · exact hlast
    · rintro s hs t rfl
      exact hgap s hs

theorem has_extend {last r : Span} (hlo : last.offset ≤ r.offset) (h : r.offset ≤ last.stop) (b : ℕ) :
    Has ⟨last.offset, max r.stop last.stop - last.offset⟩ b ↔ last.Has b ∨ r.Has b := by
  simp only [Has, stop] at h ⊢
  omega

/-- One fold step keeps the reversed list normal, and adds the span's bytes. -/
theorem mergeInto_spec {kept : List Span} {r : Span} (hk : Normal kept.reverse)
    (hr : 0 < r.length) (ho : ∀ s ∈ kept, s.offset ≤ r.offset) :
    Normal (mergeInto kept r).reverse ∧ (∀ s ∈ mergeInto kept r, s.offset ≤ r.offset) ∧
      ∀ b, Covers (mergeInto kept r) b ↔ Covers kept b ∨ r.Has b := by
  cases kept with
  | nil => exact ⟨⟨by simpa [mergeInto] using hr, by simp [mergeInto]⟩, by simp [mergeInto],
      by simp [mergeInto]⟩
  | cons last rest =>
    obtain ⟨hlast, hpast, hrest⟩ := normal_reverse_cons.mp hk
    obtain ⟨hlo, hrestLe⟩ := List.forall_mem_cons.mp ho
    rw [mergeInto]
    split_ifs with h
    · -- the span starts inside the last one: the last one grows
      refine ⟨normal_reverse_cons.mpr ⟨?_, hpast, hrest⟩, List.forall_mem_cons.mpr ⟨hlo, hrestLe⟩, ?_⟩
      · simp only [stop]
        omega
      · intro b
        rw [covers_cons, covers_cons, has_extend hlo h, or_right_comm]
    · -- it starts past the last one: it is kept as it is
      refine ⟨normal_reverse_cons.mpr ⟨hr, List.forall_mem_cons.mpr ⟨by omega, ?_⟩, hk⟩,
        List.forall_mem_cons.mpr ⟨le_rfl, ho⟩, fun b => ?_⟩
      · intro s hs
        have := hpast s hs
        omega
      · rw [covers_cons, or_comm]

theorem foldl_mergeInto_spec (rs : List Span) {kept : List Span} (hk : Normal kept.reverse)
    (hrs : ∀ r ∈ rs, 0 < r.length) (hsort : rs.Pairwise fun a b => a.offset ≤ b.offset)
    (ho : ∀ s ∈ kept, ∀ r ∈ rs, s.offset ≤ r.offset) :
    Normal (rs.foldl mergeInto kept).reverse ∧
      ∀ b, Covers (rs.foldl mergeInto kept) b ↔ Covers kept b ∨ Covers rs b := by
  induction rs generalizing kept with
  | nil => exact ⟨hk, fun b => by simp⟩
  | cons r rs ih =>
    obtain ⟨h1, h2, h3⟩ := mergeInto_spec hk (hrs r (by simp)) fun s hs => ho s hs r (by simp)
    obtain ⟨hle, hsort'⟩ := List.pairwise_cons.mp hsort
    obtain ⟨h4, h5⟩ := ih h1 (fun s hs => hrs s (List.mem_cons_of_mem _ hs)) hsort'
      fun s hs t ht => (h2 s hs).trans (hle t ht)
    refine ⟨h4, fun b => ?_⟩
    rw [List.foldl_cons, h5, h3, covers_cons, or_assoc]

/-- **Merging gives a normal list.** -/
theorem merge_normal {rs : List Span} (h : ∀ r ∈ rs, 0 < r.length) : Normal (merge rs) :=
  (foldl_mergeInto_spec _ (by simp [Normal]) (fun r hr => h r (mem_sortByOffset.mp hr))
    (sortByOffset_sorted rs) (by simp)).1

/-- **Merging keeps the covered bytes.** -/
theorem covers_merge {rs : List Span} (h : ∀ r ∈ rs, 0 < r.length) (b : ℕ) :
    Covers (merge rs) b ↔ Covers rs b := by
  rw [merge, covers_reverse, (foldl_mergeInto_spec _ (by simp [Normal])
    (fun r hr => h r (mem_sortByOffset.mp hr)) (sortByOffset_sorted rs) (by simp)).2]
  simp [Covers, mem_sortByOffset]

/-- **The whole file.**  Spans within `[0, n)` merge to the one span of the
file exactly when they cover it. -/
theorem merge_eq_singleton_iff {rs : List Span} (h : ∀ r ∈ rs, 0 < r.length) {n : ℕ} (hn : 0 < n)
    (hin : ∀ r ∈ rs, r.stop ≤ n) : merge rs = [⟨0, n⟩] ↔ ∀ b < n, Covers rs b := by
  have single : ∀ b, Covers [⟨0, n⟩] b ↔ b < n := fun b => by simp [Has, stop]
  constructor
  · intro he b hb
    rw [← covers_merge h, he, single]
    exact hb
  · intro hc
    refine (merge_normal h).ext ⟨by simpa using hn, by simp⟩ fun b => ?_
    rw [covers_merge h, single]
    exact ⟨fun ⟨r, hr, hb⟩ => hb.2.trans_le (hin r hr), hc b⟩

end Span

/-! ### Cutting a file into chunks -/

/-- The chunks from `offset` to the end: `chunk` bytes each, the last one what
is left.  This is the loop `while offset < size`. -/
def chunksFrom (size chunk offset : ℕ) : List Span :=
  if offset < size ∧ 0 < chunk then
    ⟨offset, min chunk (size - offset)⟩ ::
      chunksFrom size chunk (offset + min chunk (size - offset))
  else []
termination_by size - offset
decreasing_by omega

theorem chunksFrom_of_lt {size chunk offset : ℕ} (h : offset < size) (hc : 0 < chunk) :
    chunksFrom size chunk offset = ⟨offset, min chunk (size - offset)⟩ ::
      chunksFrom size chunk (offset + min chunk (size - offset)) := by
  rw [chunksFrom, if_pos ⟨h, hc⟩]

/-- Every chunk is non-empty, no longer than `chunk`, and inside the file. -/
theorem mem_chunksFrom {size chunk offset : ℕ} {r : Span} (hr : r ∈ chunksFrom size chunk offset) :
    offset ≤ r.offset ∧ 0 < r.length ∧ r.length ≤ chunk ∧ r.stop ≤ size := by
  induction offset using chunksFrom.induct size chunk with
  | case1 offset h ih =>
    rw [chunksFrom_of_lt h.1 h.2] at hr
    rcases List.mem_cons.mp hr with rfl | hr
    · simp only [Span.stop]; omega
    · have := ih hr
      omega
  | case2 offset h => rw [chunksFrom, if_neg h] at hr; cases hr

theorem pairwise_chunksFrom (size chunk offset : ℕ) :
    (chunksFrom size chunk offset).Pairwise fun a b => a.stop ≤ b.offset := by
  induction offset using chunksFrom.induct size chunk with
  | case1 offset h ih =>
    rw [chunksFrom_of_lt h.1 h.2, List.pairwise_cons]
    exact ⟨fun b hb => (mem_chunksFrom hb).1, ih⟩
  | case2 offset h =>
    rw [chunksFrom, if_neg h]
    exact List.Pairwise.nil

theorem length_of_mem_chunksFrom {size chunk offset : ℕ} {r : Span}
    (hr : r ∈ chunksFrom size chunk offset) : r.length = min chunk (size - r.offset) := by
  induction offset using chunksFrom.induct size chunk with
  | case1 offset h ih =>
    rw [chunksFrom_of_lt h.1 h.2] at hr
    rcases List.mem_cons.mp hr with rfl | hr
    · rfl
    · exact ih hr
  | case2 offset h => rw [chunksFrom, if_neg h] at hr; cases hr

/-- **The chunks cover the rest of the file.** -/
theorem covers_chunksFrom {size chunk offset : ℕ} (hc : 0 < chunk) (b : ℕ) :
    Span.Covers (chunksFrom size chunk offset) b ↔ offset ≤ b ∧ b < size := by
  induction offset using chunksFrom.induct size chunk with
  | case1 offset h ih =>
    rw [chunksFrom_of_lt h.1 h.2, Span.covers_cons, ih]
    simp only [Span.Has, Span.stop]
    omega
  | case2 offset h =>
    rw [chunksFrom, if_neg h]
    simp only [Span.covers_nil, false_iff]
    omega

end NightBridge.Data
