/-
# What a row of `verified_chunks` says about the staged bytes

`receive_chunk_with_hash` writes a chunk and records it with its digest.  The
row at the same offset is replaced, but the rows at other offsets stay, also
those whose bytes the chunk has just overwritten: from then on they name a
digest that the staged bytes do not have (`overlapped_row`).  A chunk that
agrees with what is staged wherever it overlaps a row at another offset does not
do this.
-/

import NightBridge.Native.Terminal
import NightBridge.Native.Effects

namespace NightBridge.Native

open Data Effect NativeTransferReceiver ManifestStore

/-- The staged bytes of the row's range are there and have the row's digest. -/
def RowStaged [Primitives] (inboxDir : Path) (fs : Fs) (row : ChunkRow) : Prop :=
  ∃ bytes, fs.contents (part inboxDir row.transferId row.fileId) = some bytes ∧
    row.span.stop ≤ bytes.length ∧
    blake3Hex (slice bytes row.span.offset row.span.length) = row.blake3

/-- The file has a staging path, and no other file of the manifest is staged
there; `s₀` is the store with the UUIDs that ids of which nothing is left are
staged under. -/
def OwnPath (s₀ : Store) (db : ManifestDb) (t f : String) : Prop :=
  Stable t ∧ Stable f ∧ ∀ fr ∈ db.files.rows, fr.key ≠ (t, f) →
    ∀ d g, StagedAt s₀ fr.transferId fr.fileId d g → ¬ (d = cleanComponent t ∧ g = cleanComponent f)

/-- Where the chunk overlaps a row of its file at another offset, its bytes are
those already staged.  Only `accept_transfer` and `receive_chunk_with_hash` are
called. -/
def Call.Agrees (inboxDir : Path) (s : Store) : Call → Prop
  | .accept _ _ => True
  | .chunk t f offset bytes _ => ∀ r ∈ s.manifest.chunks.rows, r.transferId = t → r.fileId = f →
    r.offset ≠ asI64 offset → ∀ b, r.span.Has b → offset ≤ b → b < offset + bytes.length →
      ∀ staged, s.fs.contents (part inboxDir t f) = some staged → staged[b]? = bytes[b - offset]?
  | .finish _ => False

/-- Successful calls that agree with what is staged, one after another. -/
inductive Received [Primitives] (inboxDir : Path) : Store → Store → Prop
  | refl (s : Store) : Received inboxDir s s
  | tail {s s₁ s₂ : Store} {self : NativeTransferReceiver} {call : Call} {w w' : Wire}
      (before : Received inboxDir s s₁) (dir : self.inboxDir = inboxDir)
      (agrees : call.Agrees inboxDir s₁)
      (last : (call.exec self).run handler (s₁, w) = (.ok (), (s₂, w'))) : Received inboxDir s s₂

section steps

variable [Primitives] {inboxDir : Path} {s s' : Store}

theorem RowStaged.of_contents {fs fs' : Fs} {row : ChunkRow} (h : RowStaged inboxDir fs row)
    (heq : fs'.contents (part inboxDir row.transferId row.fileId) =
      fs.contents (part inboxDir row.transferId row.fileId)) : RowStaged inboxDir fs' row := by
  obtain ⟨bytes, hc, hrest⟩ := h
  exact ⟨bytes, heq.trans hc, hrest⟩

/-- A row at another offset, over which an agreeing chunk has been written. -/
theorem RowStaged.overwrite {fs fs' : Fs} {row : ChunkRow} (h : RowStaged inboxDir fs row)
    {offset : ℕ} {bytes : Bytes} (hne : bytes ≠ [])
    (hagree : ∀ b, row.span.Has b → offset ≤ b → b < offset + bytes.length → ∀ staged,
      fs.contents (part inboxDir row.transferId row.fileId) = some staged →
        staged[b]? = bytes[b - offset]?)
    (hwritten : fs'.contents (part inboxDir row.transferId row.fileId) = some (Data.overwrite
      ((fs.contents (part inboxDir row.transferId row.fileId)).getD []) offset bytes)) :
    RowStaged inboxDir fs' row := by
  obtain ⟨staged, hc, hlen, hhash⟩ := h
  rw [hc, Option.getD_some] at hwritten
  refine ⟨_, hwritten, ?_, ?_⟩
  · rw [length_overwrite hne]
    omega
  · rw [slice_overwrite_of_agree hne hlen fun b h1 h2 h3 h4 => hagree b ⟨h1, h2⟩ h3 h4 staged hc,
      hhash]

theorem rowStaged_self {fs : Fs} {t f : String} {offset : ℕ} {old bytes : Bytes} (hne : bytes ≠ [])
    (ho : offset < 2 ^ 64) (hl : bytes.length < 2 ^ 64)
    (hwritten : fs.contents (part inboxDir t f) = some (Data.overwrite old offset bytes)) :
    RowStaged inboxDir fs ⟨t, f, asI64 offset, asI64 bytes.length, blake3Hex bytes⟩ := by
  refine ⟨_, hwritten, ?_, ?_⟩
  · simp only [ChunkRow.span, Span.stop, asU64_asI64 ho, asU64_asI64 hl, length_overwrite hne]
    omega
  · simp only [ChunkRow.span, asU64_asI64 ho, asU64_asI64 hl, slice_overwrite_self hne]

omit [Primitives] in
theorem AcceptEffect.rows {db db' : ManifestDb} {request : RequestTransfer}
    (h : AcceptEffect db request db') :
    db'.chunks = db.chunks ∧ ∀ fr ∈ db.files.rows, fr ∈ db'.files.rows := by
  rcases h with rfl | hcreated | ⟨now, rfl⟩
  · exact ⟨rfl, fun _ hfr => hfr⟩
  · exact ⟨hcreated.chunks, fun fr hfr => hcreated.mem_files.mpr (.inl hfr)⟩
  · exact ⟨rfl, fun _ hfr => hfr⟩

/-- **A chunk** of any file keeps the rows of a file with its own staging path. -/
theorem rowStaged_chunk {self : NativeTransferReceiver} (hdir : self.inboxDir = inboxDir)
    {t f t' f' : String} {offset : ℕ} {bytes : Bytes} {blake3 : String} {w w' : Wire}
    (hagrees : (Call.chunk t' f' offset bytes blake3).Agrees inboxDir s)
    (hrun : (self.receiveChunkWithHash t' f' offset bytes blake3).run handler (s, w) =
      (.ok (), (s', w')))
    (hown : OwnPath s s'.manifest t f)
    (h : ∀ row ∈ s.manifest.chunks.rows, row.transferId = t → row.fileId = f →
      RowStaged inboxDir s.fs row) :
    ∀ row ∈ s'.manifest.chunks.rows, row.transferId = t → row.fileId = f →
      RowStaged inboxDir s'.fs row := by
  subst hdir
  obtain ⟨r, s₁, hrun₁, -, -, hcases⟩ :=
    run_receiveChunkWithHash_any self (s := s) (w := w) t' f' offset bytes blake3
  obtain ⟨rfl, hs⟩ := Prod.mk.inj (hrun.symm.trans hrun₁)
  obtain ⟨rfl, -⟩ := Prod.mk.inj hs
  obtain ⟨hno, -⟩ | ⟨hne, rfl, d, g, hdg, hother, hok⟩ := hcases
  · exact absurd rfl hno
  obtain ⟨⟨fr, hfr, hkey, hpos, hend⟩, hm, hwritten⟩ := hok rfl
  have hlt := ManifestDb.asU64_lt fr.size
  obtain ⟨ht, hf, hapart⟩ := hown
  rw [hm] at hapart ⊢
  intro row hrow hrt hrf
  by_cases hsame : t' = t ∧ f' = f
  · obtain ⟨rfl, rfl⟩ := hsame
    obtain ⟨-, -, rfl, rfl⟩ | ⟨hnot, -⟩ := hdg
    · rcases ManifestDb.mem_record_chunks.mp hrow with ⟨hold, hk⟩ | rfl
      · subst hrt hrf
        have hoff : row.offset ≠ asI64 offset := fun he => hk (by rw [ChunkRow.key, he])
        exact (h row hold rfl rfl).overwrite hne (hagrees row hold rfl rfl hoff) hwritten
      · exact rowStaged_self hne (by omega) (by omega) hwritten
    · exact (hnot.elim (fun hn => hn ht) fun hn => hn hf).elim
  · -- another file: it is staged elsewhere, and its row has another key
    have hne' : fr.key ≠ (t, f) := by
      rw [hkey]
      exact fun he => hsame (Prod.mk.inj he)
    obtain ⟨rfl, rfl⟩ := Prod.mk.inj hkey
    rcases ManifestDb.mem_record_chunks.mp hrow with ⟨hold, -⟩ | rfl
    · refine (h row hold hrt hrf).of_contents (hother _ fun he => ?_)
      subst hrt hrf
      exact hapart fr hfr hne' d g hdg
        (resolve_partPath_inj (normalName_cleanComponent row.transferId) he.symm)
    · exact absurd ⟨hrt, hrf⟩ hsame

omit [Primitives] in
/-- With fewer files and fewer UUIDs left, fewer files share a path. -/
theorem OwnPath.mono {s₀ s₁ : Store} {db db' : ManifestDb} {t f : String} (h : OwnPath s₀ db' t f)
    (huuids : ∀ k, ∃ j, s₁.uuids k = s₀.uuids j) (hfiles : ∀ fr ∈ db.files.rows, fr ∈ db'.files.rows) :
    OwnPath s₁ db t f := by
  obtain ⟨ht, hf, hapart⟩ := h
  refine ⟨ht, hf, fun fr hfr hne d g hdg => hapart fr (hfiles fr hfr) hne d g ?_⟩
  refine hdg.imp (fun hs => hs) fun ⟨hnot, k, hk⟩ => ⟨hnot, ?_⟩
  obtain ⟨j, hj⟩ := huuids k
  exact ⟨j, hj ▸ hk⟩

/-- **The rows describe the staged bytes**, in every run of successful calls whose
chunks agree with what is staged. -/
theorem verified_rows_staged {s₀ : Store} (hempty : s₀.manifest = .empty)
    (hrun : Received inboxDir s₀ s) {row : ChunkRow} (hrow : row ∈ s.manifest.chunks.rows)
    (hown : OwnPath s₀ s.manifest row.transferId row.fileId) : RowStaged inboxDir s.fs row := by
  -- the invariant is about one file at a time, and about the UUIDs that are left
  suffices H : (∀ k, ∃ j, s.uuids k = s₀.uuids j) ∧ ∀ t f, OwnPath s₀ s.manifest t f →
      ∀ row ∈ s.manifest.chunks.rows, row.transferId = t → row.fileId = f →
        RowStaged inboxDir s.fs row from H.2 _ _ hown row hrow rfl rfl
  clear hrow hown row
  induction hrun with
  | refl =>
    refine ⟨fun k => ⟨k, rfl⟩, fun t f _ row hrow => ?_⟩
    rw [hempty] at hrow
    cases hrow
  | @tail s₁ s₂ self call w w' _ hdir hagrees hlast ih =>
    obtain ⟨huuids, hstaged⟩ := ih
    refine ⟨fun k => ?_, fun t f hown => ?_⟩
    · obtain ⟨j, hj⟩ := uuids_run (call.exec self) (s₁, w) k
      obtain ⟨i, hi⟩ := huuids j
      rw [hlast] at hj
      exact ⟨i, hj.trans hi⟩
    · cases call with
      | accept peer request =>
        obtain ⟨r, s', hany, -, hcont, heff, -⟩ :=
          run_acceptTransfer_any self (s := s₁) (w := w) peer request
        have hs' : s₂ = s' := by
          rw [Call.exec, Prog.run_bind, hany] at hlast
          cases r with
          | error e => cases hlast
          | ok a => exact (congrArg (fun x => x.2.1) hlast).symm
        subst hs'
        obtain ⟨hchunks, hfiles⟩ := heff.rows
        intro row hrow hrt hrf
        rw [hchunks] at hrow
        exact (hstaged t f (hown.mono (fun k => ⟨k, rfl⟩) hfiles) row hrow hrt hrf).of_contents
          (hcont _)
      | chunk t' f' offset bytes blake3 =>
        obtain ⟨r, s', hany, -, heff, -⟩ :=
          run_receiveChunkWithHash_any self (s := s₁) (w := w) t' f' offset bytes blake3
        obtain ⟨-, hs⟩ := Prod.mk.inj (hlast.symm.trans hany)
        obtain ⟨rfl, -⟩ := Prod.mk.inj hs
        have hfiles : ∀ fr ∈ s₁.manifest.files.rows, fr ∈ s₂.manifest.files.rows := by
          rcases heff with hm | ⟨_, -, -, _, _, _, _, -, -, hm⟩
          · rw [hm]
            exact fun _ hfr => hfr
          · rw [hm]
            exact fun _ hfr => hfr
        exact rowStaged_chunk hdir hagrees hlast (hown.mono huuids fun _ hfr => hfr)
          (hstaged t f (hown.mono (fun k => ⟨k, rfl⟩) hfiles))
      | finish t' => exact hagrees.elim

theorem Received.replay (self : NativeTransferReceiver) {calls : List Call} (call : Call)
    (h : Received self.inboxDir s (Native.replay self calls s))
    (hagrees : call.Agrees self.inboxDir (Native.replay self calls s))
    (hok : ((call.exec self).run handler (Native.replay self calls s, .fresh)).1 = .ok ()) :
    Received self.inboxDir s (Native.replay self (calls ++ [call]) s) := by
  refine h.tail rfl hagrees (Prod.ext hok (Prod.ext ?_ rfl))
  rw [replay_concat]

end steps

/-! ### Chunks that overlap -/

/-- A transfer of one file of three bytes. -/
def threeByteAccept : Call := .accept samplePeer ⟨"tx", [.small "file-1" "a.txt" 3 none]⟩

def threeByteChunk (offset : ℕ) (bytes : Bytes) : Call :=
  .chunk "tx" "file-1" offset bytes (@blake3Hex .sample bytes)

def threeByteRow (offset length : ℤ) (bytes : Bytes) : ChunkRow :=
  ⟨"tx", "file-1", offset, length, @blake3Hex .sample bytes⟩

/-- Two chunks that overlap and agree: the row of the first one still describes the
staged bytes. -/
theorem verified_rows_staged_agreeing :
    @RowStaged .sample ["inbox"] (@replay .sample sampleReceiver
      [threeByteAccept, threeByteChunk 0 [1, 2], threeByteChunk 1 [2, 3]] .fresh).fs
      (threeByteRow 0 2 [1, 2]) := by
  let _ : Primitives := .sample
  have h₀ : Received ["inbox"] .fresh (replay sampleReceiver [] .fresh) := .refl _
  have h₁ : Received ["inbox"] .fresh (replay sampleReceiver [threeByteAccept] .fresh) :=
    h₀.replay sampleReceiver threeByteAccept trivial (by decide +kernel)
  have h₂ : Received ["inbox"] .fresh
      (replay sampleReceiver [threeByteAccept, threeByteChunk 0 [1, 2]] .fresh) :=
    h₁.replay sampleReceiver (threeByteChunk 0 [1, 2]) (fun r hr => by
      rw [show (replay sampleReceiver [threeByteAccept] .fresh).manifest.chunks.rows = [] by
        decide +kernel] at hr
      cases hr) (by decide +kernel)
  have h₃ : Received ["inbox"] .fresh (replay sampleReceiver
      [threeByteAccept, threeByteChunk 0 [1, 2], threeByteChunk 1 [2, 3]] .fresh) :=
    h₂.replay sampleReceiver (threeByteChunk 1 [2, 3]) (fun r hr _ _ _ b hb h1 h2 staged hs => by
      rw [show (replay sampleReceiver [threeByteAccept, threeByteChunk 0 [1, 2]]
        .fresh).manifest.chunks.rows = [threeByteRow 0 2 [1, 2]] by decide +kernel,
        List.mem_singleton] at hr
      subst hr
      obtain rfl : b = 1 := by
        have hstop := hb.2
        rw [show (threeByteRow 0 2 [1, 2]).span.stop = 2 by decide] at hstop
        omega
      have hstaged : (replay sampleReceiver [threeByteAccept, threeByteChunk 0 [1, 2]]
        .fresh).fs.contents (part ["inbox"] "tx" "file-1") = some [1, 2] := by decide +kernel
      obtain rfl := Option.some.inj (hstaged.symm.trans hs)
      rfl) (by decide +kernel)
  refine verified_rows_staged rfl h₃ (by decide +kernel) ⟨by decide, by decide, ?_⟩
  intro fr hfr hne
  rw [show (replay sampleReceiver [threeByteAccept, threeByteChunk 0 [1, 2], threeByteChunk 1 [2, 3]]
    .fresh).manifest.files.rows = [⟨"tx", "file-1", "a.txt", 3, none⟩] by decide +kernel,
    List.mem_singleton] at hfr
  subst hfr
  exact absurd rfl hne

/-- A chunk overwrites part of an earlier one that starts elsewhere: all calls
succeed, the file is the only one, and the row of the first chunk no longer
describes the staged bytes. -/
theorem overlapped_row :
    let s := fun n => @replay .sample sampleReceiver
      ([threeByteAccept, threeByteChunk 0 [1, 2], threeByteChunk 1 [7, 3]].take n) .fresh
    ((@Call.exec .sample sampleReceiver threeByteAccept).run handler (s 0, .fresh)).1 = .ok () ∧
      ((@Call.exec .sample sampleReceiver (threeByteChunk 0 [1, 2])).run handler
        (s 1, .fresh)).1 = .ok () ∧
      ((@Call.exec .sample sampleReceiver (threeByteChunk 1 [7, 3])).run handler
        (s 2, .fresh)).1 = .ok () ∧
      threeByteRow 0 2 [1, 2] ∈ (s 3).manifest.chunks.rows ∧
      (s 3).manifest.files.rows = [⟨"tx", "file-1", "a.txt", 3, none⟩] ∧
      ¬ @RowStaged .sample ["inbox"] (s 3).fs (threeByteRow 0 2 [1, 2]) := by
  refine ⟨by decide +kernel, by decide +kernel, by decide +kernel, by decide +kernel,
    by decide +kernel, ?_⟩
  rintro ⟨bytes, hc, -, hhash⟩
  have hstaged : (@replay .sample sampleReceiver [threeByteAccept, threeByteChunk 0 [1, 2],
    threeByteChunk 1 [7, 3]] .fresh).fs.contents (part ["inbox"] "tx" "file-1") = some [1, 7, 3] := by
    decide +kernel
  obtain rfl := Option.some.inj (hstaged.symm.trans hc)
  exact absurd hhash (by decide +kernel)

end NightBridge.Native
