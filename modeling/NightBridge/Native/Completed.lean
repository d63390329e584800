/-
# What `Completed` says about the rows

`set_state` looks at `verified_chunks` when a transfer becomes `Completed`, and
nobody looks again: `record_verified_chunk` goes on working on a completed
transfer, and its `INSERT OR REPLACE` keys a row by the offset alone.  A chunk
recorded at the offset of a longer row takes that row away, and with it the
bytes only that row covered (`completed_uncovered`).  This is the only way to
lose them (`completed_covered_iff`).
-/

import NightBridge.Native.Calls

namespace NightBridge.Native

open Data Effect ManifestStore

/-- A call of the manifest store that writes. -/
inductive ManifestCall
  | create (transferId peerFingerprint : String) (direction : TransferDirection)
      (files : List FileOffer)
  | record (transferId fileId : String) (offset length : ℕ) (blake3 : String)
  | setState (transferId : String) (state : TransferState)

namespace ManifestCall

def program : ManifestCall → Io NativeError Unit
  | create transferId peerFingerprint direction files =>
    createTransfer transferId peerFingerprint direction files
  | record transferId fileId offset length blake3 =>
    recordVerifiedChunk transferId fileId offset length blake3
  | setState transferId state => ManifestStore.setState transferId state

/-- What some calls leave, one after another, failed ones included. -/
def after (calls : List ManifestCall) (sw : Store × Wire) : Store × Wire :=
  calls.foldl (fun sw call => (call.program.run handler sw).2) sw

theorem after_concat (calls : List ManifestCall) (call : ManifestCall) (sw : Store × Wire) :
    after (calls ++ [call]) sw = (call.program.run handler (after calls sw)).2 :=
  List.foldl_append

end ManifestCall

namespace ManifestDb

/-- What the calls of the store can make of an empty database. -/
def Reachable (db : ManifestDb) : Prop := ∃ (calls : List ManifestCall) (s : Store) (w : Wire),
  db = (ManifestCall.after calls ({ s with manifest := .empty }, w)).1.manifest

/-- Every byte of every file of a `Completed` transfer lies in a row of
`verified_chunks`. -/
def CompletedCovered (db : ManifestDb) : Prop :=
  ∀ t, db.selectState t = some .completed → ∀ fr ∈ db.files.rows, fr.transferId = t →
    ∀ b < asU64 fr.size, db.Covered t fr.fileId b

/-- Byte `b` of a file lies in a row at another offset. -/
def CoveredBeside (db : ManifestDb) (t f : String) (offset b : ℕ) : Prop :=
  ∃ r ∈ db.chunks.rows, r.transferId = t ∧ r.fileId = f ∧ r.key ≠ (t, f, asI64 offset) ∧
    r.span.Has b

end ManifestDb

/-- The call does not shorten a row of a completed transfer: what the row it
replaces covers beyond the end of the new one, other rows cover too. -/
def ManifestCall.Keeps (db : ManifestDb) : ManifestCall → Prop
  | .record t f offset length _ => db.Takes t f offset length →
    db.selectState t = some .completed →
      ∀ r ∈ db.chunks.rows, r.key = (t, f, asI64 offset) →
        ∀ b, offset + length ≤ b → b < r.span.stop → db.CoveredBeside t f offset b
  | _ => True

section steps

variable {db db' : ManifestDb} {s : Store} {w : Wire}

/-- A new transfer is pending, and the others are as they were. -/
theorem Created.completedCovered {t : String} {files : List FileOffer}
    (h : Created db t files .pending db') (hcov : db.CompletedCovered) : db'.CompletedCovered := by
  intro t' ht' fr hfr hfrt b hb
  have hne : t' ≠ t := by
    rintro rfl
    rw [h.state] at ht'
    cases ht'
  have hold : db.selectState t' = some .completed := by
    rw [← ht', ManifestDb.selectState, ManifestDb.selectState, h.others t' hne]
  have hspans : db'.spans t' fr.fileId = db.spans t' fr.fileId := by
    rw [ManifestDb.spans, ManifestDb.spans, h.chunks]
  rcases h.mem_files.mp hfr with hfr | ⟨o, -, rfl⟩
  · rw [ManifestDb.Covered, hspans]
    exact hcov t' hold fr hfr hfrt b hb
  · exact absurd hfrt.symm hne

/-- A state change keeps the completed transfers covered when the transfer that
becomes completed is complete. -/
theorem ManifestDb.CompletedCovered.updateState (h : db.CompletedCovered) (t : String)
    {state : TransferState} (now : ℤ) (hc : state = .completed → db.Complete t) :
    (db.updateState t state now).2.CompletedCovered := by
  intro t' ht' fr hfr hfrt b hb
  rw [ManifestDb.selectState_updateState] at ht'
  split_ifs at ht' with heq
  · subst heq
    obtain ⟨_, -, rfl⟩ := Option.map_eq_some_iff.mp ht'
    exact (hc rfl).2 fr hfr hfrt b hb
  · exact h t' ht' fr hfr hfrt b hb

theorem run_setState_incomplete (hwf : s.manifest.WellFormed) {t : String}
    (hc : ¬ s.manifest.Complete t) : (setState t .completed).run handler (s, w) =
      (.error (.manifest "cannot complete transfer with missing bytes"), (s, w)) := by
  obtain ⟨ok, hrun, hok⟩ := run_transferComplete (w := w) hwf t
  obtain rfl : ok = false := by simpa [hc] using hok
  rw [setState, if_pos rfl, Prog.run_bind_ok _ hrun]
  rfl

/-- What is covered after a chunk of the file has been recorded. -/
theorem covered_record_iff {t f : String} {offset length : ℕ} (blake3 : String) (now : ℤ)
    (ho : offset < 2 ^ 64) (hl : length < 2 ^ 64) (b : ℕ) :
    (db.record t f offset length blake3 now).Covered t f b ↔
      db.CoveredBeside t f offset b ∨ (offset ≤ b ∧ b < offset + length) := by
  simp only [ManifestDb.Covered, Span.Covers, mem_spans_record db t f blake3 now ho hl]
  constructor
  · rintro ⟨c, ⟨r, hr, hk, ht, hf, rfl⟩ | ⟨-, -, rfl⟩, hb⟩
    · exact .inl ⟨r, hr, ht, hf, hk, hb⟩
    · exact .inr hb
  · rintro (⟨r, hr, ht, hf, hk, hb⟩ | hb)
    · exact ⟨_, .inl ⟨r, hr, hk, ht, hf, rfl⟩, hb⟩
    · exact ⟨⟨offset, length⟩, .inr ⟨trivial, trivial, rfl⟩, hb⟩

/-- **Recording a chunk** keeps the completed transfers covered exactly when it
does not shorten a row of one. -/
theorem ManifestDb.CompletedCovered.record_iff (h : db.CompletedCovered) (hwf : db.WellFormed)
    {t f : String} {offset length : ℕ} (blake3 : String) (now : ℤ)
    (htakes : db.Takes t f offset length) :
    (db.record t f offset length blake3 now).CompletedCovered ↔
      (ManifestCall.record t f offset length blake3).Keeps db := by
  obtain ⟨fr, hfr, hkey, hpos, hend⟩ := htakes
  have hlt := ManifestDb.asU64_lt fr.size
  have ho : offset < 2 ^ 64 := by omega
  have hl : length < 2 ^ 64 := by omega
  have hstate : ∀ t', (db.record t f offset length blake3 now).selectState t' = db.selectState t' :=
    fun t' => ManifestDb.selectState_touchTransfer _ t t' now
  constructor
  · -- a byte of the replaced row lies in the file, so it must still be covered
    intro hafter _ ht r hr hk b hb hstop
    simp only [ChunkRow.key, Prod.mk.injEq] at hk
    obtain ⟨rfl, rfl, -⟩ := hk
    obtain ⟨fr', hfr', hk', -, hsize⟩ := hwf.chunks r hr
    obtain ⟨h1, h2⟩ := Prod.mk.inj hk'
    have hcov := hafter _ ((hstate _).trans ht) fr' hfr' h1 b (by omega)
    rw [h2] at hcov
    exact ((covered_record_iff blake3 now ho hl b).mp hcov).resolve_right (by omega)
  · intro hkeeps t' ht' fr' hfr' hfrt b hb
    rw [hstate] at ht'
    obtain ⟨c, hc, hcb⟩ := h t' ht' fr' hfr' hfrt b hb
    obtain ⟨r, hr, hrt, hrf, rfl⟩ := ManifestDb.mem_spans.mp hc
    by_cases hk : r.key = (t, f, asI64 offset)
    · have hk' := hk
      simp only [ChunkRow.key, Prod.mk.injEq] at hk'
      obtain ⟨rfl, rfl, hoff⟩ := hk'
      subst hrt
      rw [← hrf]
      refine (covered_record_iff blake3 now ho hl b).mpr ?_
      have hge := hcb.1
      simp only [ChunkRow.span, hoff, asU64_asI64 ho] at hge
      by_cases hbl : b < offset + length
      · exact .inr ⟨hge, hbl⟩
      · exact .inl (hkeeps ⟨fr, hfr, hkey, hpos, hend⟩ ht' r hr hk b (by omega) hcb.2)
    · exact ⟨_, ManifestDb.mem_spans.mpr ⟨r, ManifestDb.mem_record_chunks.mpr (.inl ⟨hr, hk⟩), hrt,
        hrf, rfl⟩, hcb⟩

/-- **One call** keeps the manifest well formed, and keeps the completed transfers
covered exactly when it does not shorten a row of one. -/
theorem ManifestCall.step (call : ManifestCall) (hwf : s.manifest.WellFormed) :
    (call.program.run handler (s, w)).2.1.manifest.WellFormed ∧
      (s.manifest.CompletedCovered →
        ((call.program.run handler (s, w)).2.1.manifest.CompletedCovered ↔
          call.Keeps s.manifest)) := by
  cases call with
  | create t fingerprint direction files =>
    rw [program]
    rcases run_createTransfer (s := s) (w := w) t fingerprint direction files with
      ⟨e, s', hrun, hm, -, -⟩ | ⟨db', hrun, hcreated, -⟩
    · rw [hrun]
      exact ⟨hm ▸ hwf, fun h => ⟨fun _ => trivial, fun _ => hm ▸ h⟩⟩
    · rw [hrun]
      exact ⟨hcreated.wellFormed hwf, fun h => ⟨fun _ => trivial, fun _ =>
        hcreated.completedCovered h⟩⟩
  | record t f offset length blake3 =>
    rw [program]
    by_cases htakes : s.manifest.Takes t f offset length
    · obtain ⟨fr, hfr, hkey, hpos, hend⟩ := id htakes
      have hlt := ManifestDb.asU64_lt fr.size
      obtain ⟨rfl, rfl⟩ := Prod.mk.inj hkey
      rw [run_recordVerifiedChunk hfr hpos hend blake3]
      exact ⟨hwf.record (by omega) (by omega) hfr hpos hend, fun h => h.record_iff hwf _ _ htakes⟩
    · obtain ⟨e, hrun⟩ := run_recordVerifiedChunk_refused (w := w) blake3 htakes
      rw [hrun]
      exact ⟨hwf, fun h => ⟨fun _ ht => absurd ht htakes, fun _ => h⟩⟩
  | setState t state =>
    rw [program]
    by_cases hdone : state = .completed
    · subst hdone
      by_cases hc : s.manifest.Complete t
      · rw [run_setState_completed hwf hc]
        exact ⟨hwf.updateState _ _ _, fun h => ⟨fun _ => trivial, fun _ =>
          h.updateState t _ fun _ => hc⟩⟩
      · rw [run_setState_incomplete hwf hc]
        exact ⟨hwf, fun h => ⟨fun _ => trivial, fun _ => h⟩⟩
    · rw [run_setState_ne t hdone]
      exact ⟨hwf.updateState _ _ _, fun h => ⟨fun _ => trivial, fun _ =>
        h.updateState t _ fun he => absurd he hdone⟩⟩

/-- **Every call of every run** finds a well-formed manifest. -/
theorem ManifestCall.after_wellFormed (calls : List ManifestCall) (s : Store) (w : Wire) :
    (after calls ({ s with manifest := .empty }, w)).1.manifest.WellFormed := by
  induction calls using List.reverseRecOn with
  | nil => exact ⟨nofun, nofun⟩
  | append_singleton calls call ih =>
    rw [after_concat]
    exact (call.step ih).1

theorem ManifestDb.Reachable.wellFormed (h : db.Reachable) : db.WellFormed := by
  obtain ⟨calls, s, w, rfl⟩ := h
  exact ManifestCall.after_wellFormed calls s w

/-- **In every run the completed transfers are covered all along if and only if
no call shortens a row of one.** -/
theorem completed_covered_iff (s : Store) (w : Wire) (calls : List ManifestCall) :
    (∀ front, front <+: calls →
      (ManifestCall.after front ({ s with manifest := .empty }, w)).1.manifest.CompletedCovered) ↔
    ∀ front call, front ++ [call] <+: calls →
      call.Keeps (ManifestCall.after front ({ s with manifest := .empty }, w)).1.manifest := by
  have hwf := fun front => ManifestCall.after_wellFormed front s w
  constructor
  · intro h front call hfront
    have hafter := h _ hfront
    rw [ManifestCall.after_concat] at hafter
    exact ((call.step (hwf front)).2 (h front ((List.prefix_append _ _).trans hfront))).mp hafter
  · intro h front
    induction front using List.reverseRecOn with
    | nil => exact fun _ t ht => nomatch ht
    | append_singleton front call ih =>
      intro hfront
      rw [ManifestCall.after_concat]
      exact ((call.step (hwf front)).2 (ih ((List.prefix_append _ _).trans hfront))).mpr
        (h front call hfront)

end steps

/-- A file of two bytes, delivered in one chunk and completed. -/
def twoByteCalls : List ManifestCall :=
  [.create "tx" "peer" .receive [⟨"file-1", "a.txt", 2, none, by decide⟩],
    .record "tx" "file-1" 0 2 "both", .setState "tx" .completed]

/-- One byte recorded again, after the transfer is completed: it still is, and the
other byte is no longer covered. -/
theorem completed_uncovered :
    ¬ (ManifestCall.after (twoByteCalls ++ [.record "tx" "file-1" 0 1 "one"])
      (.fresh, .fresh)).1.manifest.CompletedCovered := by
  intro h
  obtain ⟨c, hc, hb⟩ := h "tx" (by decide +kernel) ⟨"tx", "file-1", "a.txt", 2, none⟩
    (by decide +kernel) rfl 1 (by decide +kernel)
  have hspans : (ManifestCall.after (twoByteCalls ++ [.record "tx" "file-1" 0 1 "one"])
      (.fresh, .fresh)).1.manifest.spans "tx" "file-1" = [⟨0, 1⟩] := by decide +kernel
  rw [hspans, List.mem_singleton] at hc
  subst hc
  exact absurd hb.2 (by decide)

end NightBridge.Native
