/-
# Delivering every planned chunk

The receiver is sent every chunk of `plan_chunks` of every file, in any order
and possibly more than once.  Afterwards the manifest calls the transfer
complete (`run_deliver`): rows are only ever replaced by equal ones, since the
offset of a planned chunk determines its length.

For an empty file the plan is empty, so no chunk of it is received and no file
is staged, while `ranges_cover` calls its zero bytes covered; then
`finish_transfer` fails to read what was never written.
-/

import NightBridge.Native.Delivery

namespace NightBridge.Native

open Data Effect NativeTransferReceiver ManifestStore

/-- The deliveries are the planned chunks of the files, in any order. -/
def Delivers (offers : List FileOffer) (chunkSize : ℕ) (ds : List (FileOffer × ChunkRange)) : Prop :=
  ∀ o c, (o, c) ∈ ds ↔ o ∈ offers ∧ ∃ plan, planChunks o.size chunkSize = .ok plan ∧ c ∈ plan

/-- Receive the chunks one after another. -/
def deliver [Primitives] (self : NativeTransferReceiver) (t : String) (content : String → Bytes)
    (ds : List (FileOffer × ChunkRange)) : Io NativeError Unit :=
  .each ds fun (o, c) =>
    self.receiveChunk t o.fileId c.offset (slice (content o.fileId) c.offset c.length)

/-- What holds after the chunks `done` of a plan have been received. -/
structure Delivered (inboxDir : Path) (t : String) (offers : List FileOffer)
    (content : String → Bytes) (chunkSize : ℕ) (done : List (FileOffer × ChunkRange)) (s : Store) :
    Prop where
  staged : Staged inboxDir t offers content s
  planned : ∀ o ∈ offers, ∀ c ∈ s.manifest.spans t o.fileId, c ∈ chunksFrom o.size chunkSize 0
  recorded : ∀ d ∈ done, d.2 ∈ s.manifest.spans t d.1.fileId
  empty : ∀ o ∈ offers, o.size = 0 → s.fs.contents (part inboxDir t o.fileId) = none

/-- A transfer whose planned chunks are all recorded is complete. -/
theorem Staged.complete {inboxDir : Path} {t : String} {offers : List FileOffer}
    {content : String → Bytes}
    {chunkSize : ℕ} {s : Store} (hchunk : 0 < chunkSize) (h : Staged inboxDir t offers content s)
    (hrecorded : ∀ o ∈ offers, ∀ c ∈ chunksFrom o.size chunkSize 0, c ∈ s.manifest.spans t o.fileId)
    (hne : offers ≠ []) : s.manifest.Complete t := by
  constructor
  · obtain ⟨o, ho⟩ := List.exists_mem_of_ne_nil _ hne
    obtain ⟨hfr, ht⟩ := (h.rows (offeredRow t o)).mpr ⟨o, ho, rfl⟩
    exact ⟨_, hfr, ht⟩
  · intro fr hfr ht b hb
    obtain ⟨o, ho, rfl⟩ := (h.rows fr).mp ⟨hfr, ht⟩
    rw [asU64_offeredRow] at hb
    obtain ⟨c, hc, hhas⟩ := (covers_chunksFrom hchunk b).mpr ⟨Nat.zero_le _, hb⟩
    exact ⟨c, hrecorded o ho c hc, hhas⟩

/-- **A planned chunk stays recorded** while planned chunks are received: a row
that goes has the offset of the one that comes, so it is the same row. -/
theorem planned_mem_spans_record [Primitives] {t : String} {offers : List FileOffer}
    {content : String → Bytes} {chunkSize : ℕ} (hoffer : Offer t offers content) {db : ManifestDb}
    {o : FileOffer} (ho : o ∈ offers) {c : ChunkRange} (hc : c ∈ chunksFrom o.size chunkSize 0)
    (blake3 : String) (now : ℤ) {d : FileOffer × ChunkRange} (hd : d.1 ∈ offers)
    (hplanned : d.2 ∈ chunksFrom d.1.size chunkSize 0) (h : d.2 ∈ db.spans t d.1.fileId) :
    d.2 ∈ (db.record t o.fileId c.offset c.length blake3 now).spans t d.1.fileId := by
  have hend : c.offset + c.length ≤ o.size := (mem_chunksFrom hc).2.2.2
  have hlt := o.size_lt
  obtain ⟨r, hr, ht, hf, hspan⟩ := ManifestDb.mem_spans.mp h
  rw [mem_spans_record db t o.fileId blake3 now (show c.offset < 2 ^ 64 by omega)
    (show c.length < 2 ^ 64 by omega)]
  by_cases hk : r.key = (t, o.fileId, asI64 c.offset)
  · simp only [ChunkRow.key, Prod.mk.injEq] at hk
    obtain ⟨-, hfo, hoff⟩ := hk
    have hdo : d.1 = o := hoffer.fileIds hd ho (congrArg cleanComponent (hf.symm.trans hfo))
    have heq : d.2.offset = c.offset := by
      rw [← hspan, ChunkRow.span, hoff]
      exact asU64_asI64 (by omega)
    have hlen := length_of_mem_chunksFrom hplanned
    rw [heq, hdo, ← length_of_mem_chunksFrom hc] at hlen
    refine .inr ⟨rfl, by rw [hdo], ?_⟩
    rw [← heq, ← hlen]
  · exact .inl ⟨r, hr, hk, ht, hf, hspan⟩

theorem Delivered.complete {t : String} {offers : List FileOffer} {content : String → Bytes}
    {chunkSize : ℕ} {s : Store} (hchunk : 0 < chunkSize) {ds : List (FileOffer × ChunkRange)}
    (hds : Delivers offers chunkSize ds) {inboxDir : Path}
    (h : Delivered inboxDir t offers content chunkSize ds s) (hne : offers ≠ []) :
    s.manifest.Complete t :=
  h.staged.complete hchunk (fun o ho c hc => h.recorded (o, c)
    ((hds o c).mpr ⟨ho, _, planChunks_of_pos hchunk, hc⟩)) hne

section planned

variable [Primitives] (self : NativeTransferReceiver) {t : String} {offers : List FileOffer}
  {content : String → Bytes} {chunkSize : ℕ} {s : Store} {w : Wire}

/-- **One planned chunk received.** -/
theorem Delivered.step (hoffer : Offer t offers content)
    {done : List (FileOffer × ChunkRange)}
    (h : Delivered self.inboxDir t offers content chunkSize done s)
    (hdone : ∀ d ∈ done, d.1 ∈ offers) {o : FileOffer} (ho : o ∈ offers) {c : ChunkRange}
    (hc : c ∈ chunksFrom o.size chunkSize 0) :
    ∃ s', (self.receiveChunk t o.fileId c.offset
          (slice (content o.fileId) c.offset c.length)).run handler (s, w) = (.ok (), (s', w)) ∧
      Delivered self.inboxDir t offers content chunkSize (done ++ [(o, c)]) s' := by
  obtain ⟨-, hpos, -, hstop⟩ := mem_chunksFrom hc
  have hend : c.offset + c.length ≤ o.size := hstop
  have hlt := o.size_lt
  obtain ⟨fs', hrun, hstaged, hframe⟩ := h.staged.receive self (w := w) hoffer ho hpos hend
  have hspans := mem_spans_record s.manifest t o.fileId
    (blake3Hex (slice (content o.fileId) c.offset c.length)) (s.clock 0)
    (show c.offset < 2 ^ 64 by omega) (show c.length < 2 ^ 64 by omega)
  refine ⟨_, hrun, hstaged, ?_, ?_, ?_⟩
  · intro o' ho' c' hc'
    rcases (hspans _ _ _).mp hc' with ⟨r, hr, -, rfl, hf, rfl⟩ | ⟨-, hf, rfl⟩
    · exact h.planned o' ho' _ (ManifestDb.mem_spans.mpr ⟨r, hr, rfl, hf, rfl⟩)
    · obtain rfl := hoffer.fileIds ho' ho (congrArg cleanComponent hf)
      exact hc
  · intro d hd
    rcases List.mem_append.mp hd with hd | hd
    · exact planned_mem_spans_record hoffer ho hc _ _ (hdone d hd)
        (h.planned d.1 (hdone d hd) d.2 (h.recorded d hd)) (h.recorded d hd)
    · obtain rfl := List.mem_singleton.mp hd
      exact (hspans _ _ _).mpr (.inr ⟨rfl, rfl, rfl⟩)
  · intro o' ho' hzero
    have hne : o' ≠ o := by
      rintro rfl
      omega
    rw [(hframe _ (hoffer.part_ne self.inboxDir ho' ho hne)).1]
    exact h.empty o' ho' hzero

/-- **The whole plan received**: the loop succeeds and its chunks are recorded. -/
theorem run_deliver (hoffer : Offer t offers content) (hchunk : 0 < chunkSize)
    {ds : List (FileOffer × ChunkRange)} (hds : Delivers offers chunkSize ds)
    (h : Delivered self.inboxDir t offers content chunkSize [] s) :
    ∃ s', (deliver self t content ds).run handler (s, w) = (.ok (), (s', w)) ∧
      Delivered self.inboxDir t offers content chunkSize ds s' := by
  obtain ⟨⟨s', w'⟩, hrun, hd, rfl⟩ := Prog.run_each_inv handler
    (fun (d : FileOffer × ChunkRange) => self.receiveChunk t d.1.fileId d.2.offset
      (slice (content d.1.fileId) d.2.offset d.2.length)) ds
    (fun done sw => Delivered self.inboxDir t offers content chunkSize done sw.1 ∧ sw.2 = w)
    (by
      rintro done ⟨o, c⟩ rest ⟨s₁, w₁⟩ hsplit ⟨h₁, rfl⟩
      have hmem : ∀ d ∈ done ++ [(o, c)], d ∈ ds := by
        intro d hd
        rw [hsplit]
        simp only [List.mem_append, List.mem_cons, List.not_mem_nil, or_false] at hd ⊢
        tauto
      obtain ⟨ho, plan, hplan, hc⟩ := (hds o c).mp (hmem _ (by simp))
      rw [planChunks_of_pos hchunk] at hplan
      cases hplan
      obtain ⟨s₂, hrun, h₂⟩ := h₁.step self (w := w₁) hoffer
        (fun d hd => ((hds d.1 d.2).mp (hmem d (by simp [hd]))).1) ho hc
      exact ⟨(s₂, w₁), hrun, h₂, rfl⟩)
    (s, w) ⟨h, rfl⟩
  exact ⟨s', hrun, hd⟩

/-- **A fully delivered transfer is published if and only if none of its files is
empty.**  The request is valid and new, the receiver trusts the peer, the staging
paths are stable, distinct and unused; then `accept_transfer` and the delivery of
every planned chunk succeed, and, when names are free, `finish_transfer` succeeds,
sets `Completed` and adds exactly the offered files to the inbox just when every
declared size is positive. -/
theorem delivered_published_iff {peer : NativePeerInfo} {request : RequestTransfer}
    (hwf : s.manifest.WellFormed) (hblocked : self.blocked = false)
    (hpeer : self.trustedPeerFingerprint = some peer.fingerprint)
    (hfp : isBlank peer.fingerprint = false)
    (hvalid : validateTransferRequest request = .ok ())
    (hoffer : Offer request.transferId request.files content)
    (hnew : s.manifest.transfers.find? request.transferId = none)
    (hunused : s.fs.lookup (partDir self.inboxDir request.transferId) = none)
    (hdir : s.fs.DirOk (partDir self.inboxDir request.transferId)) (hchunk : 0 < chunkSize)
    {ds : List (FileOffer × ChunkRange)} (hds : Delivers request.files chunkSize ds) :
    ∃ s₁ s₂, (self.acceptTransfer peer request).run handler (s, w) =
        (.ok ⟨request.transferId, self.chunkSize⟩, (s₁, w)) ∧
      (deliver self request.transferId content ds).run handler (s₁, w) = (.ok (), (s₂, w)) ∧
      ((allocate (takenIn s₂.fs self.inboxDir)
          ((filesOf s₂.manifest request.transferId).map (·.fileName))).isSome →
        ((∃ s₃, (self.finishTransfer request.transferId).run handler (s₂, w) = (.ok (), (s₃, w)) ∧
            s₃.manifest.selectState request.transferId = some .completed ∧
            Gained self.inboxDir request.files content s₂.fs s₃.fs) ↔
          ∀ o ∈ request.files, 0 < o.size)) := by
  have hv := (validateTransferRequest_eq_ok_iff request).mp hvalid
  obtain ⟨fs₁, hmk⟩ := Fs.createDirAll_isOk hdir
  obtain ⟨db₁, haccept, hcreated⟩ := run_acceptTransfer_fresh self (w := w) peer request
    hwf hblocked hpeer hfp hv hoffer.stable hnew hmk
  obtain ⟨hstaged, hnone⟩ := Staged.begin content hwf hcreated hunused hmk
    (advance (advance s.clock))
  have hbegin : Delivered self.inboxDir request.transferId request.files content chunkSize []
      { s with manifest := db₁, fs := fs₁, clock := advance (advance s.clock) } := by
    refine ⟨hstaged, fun o _ c hc => ?_, nofun, fun o _ _ => ?_⟩
    · obtain ⟨r, hr, hrt, hrf, rfl⟩ := ManifestDb.mem_spans.mp hc
      have hpos := (hstaged.wellFormed.inRange request.transferId o.fileId _ hc).1
      exact absurd ⟨_, hc, le_rfl, Nat.lt_add_of_pos_right hpos⟩
        (hcreated.not_covered hwf o.fileId r.span.offset)
    · show fs₁.contents _ = none
      rw [Fs.contents, hnone]
  obtain ⟨s₂, hdeliver, hdone⟩ := run_deliver self (w := w) hoffer hchunk hds hbegin
  refine ⟨_, s₂, haccept, hdeliver, fun hfree => ⟨?_, fun hpos => ?_⟩⟩
  · rintro ⟨s₃, hrun, -, -⟩ o ho
    by_contra hzero
    have hempty := hdone.empty o ho (by omega)
    have hfile := hdone.staged.mem_filesOf.mpr ⟨o, ho, rfl⟩
    -- nothing of the empty file is staged, so the checks refuse the transfer
    have hnot : ¬ Ready self.inboxDir s₂ request.transferId := by
      intro hready
      obtain ⟨-, -, bytes, hbytes, -⟩ := hready.2 _ hfile
      rw [hempty] at hbytes
      cases hbytes
    have hids : StableIds request.transferId (filesOf s₂.manifest request.transferId) := by
      refine ⟨hoffer.stable, fun file hf => ?_⟩
      obtain ⟨o', ho', rfl⟩ := hdone.staged.mem_filesOf.mp hf
      exact hoffer.fileStable o' ho'
    obtain ⟨e, s', herr, -⟩ := run_finishTransfer_refused self (w := w) hdone.staged.wellFormed
      (.inr hids) hnot
    rw [hrun] at herr
    cases herr
  · exact hdone.staged.finish self hoffer (hdone.complete hchunk hds hv.files) hpos hfree

end planned

/-! ### One transfer with bytes, one without -/

def twoBytes : FileOffer := .small "file-1" "a.txt" 2 none

def noBytes : FileOffer := .small "file-1" "a.txt" 0 none

theorem delivers_twoBytes :
    Delivers [twoBytes] 1 [(twoBytes, ⟨0, 1⟩), (twoBytes, ⟨1, 1⟩)] := by
  have hplan : planChunks 2 1 = .ok [⟨0, 1⟩, ⟨1, 1⟩] := by decide +kernel
  intro o c
  constructor
  · intro h
    simp only [List.mem_cons, Prod.mk.injEq, List.not_mem_nil, or_false] at h
    rcases h with ⟨rfl, rfl⟩ | ⟨rfl, rfl⟩
    · exact ⟨by simp, _, hplan, by simp⟩
    · exact ⟨by simp, _, hplan, by simp⟩
  · rintro ⟨ho, plan, hp, hc⟩
    obtain rfl := List.mem_singleton.mp ho
    obtain rfl := Except.ok.inj (hplan.symm.trans hp)
    simpa using hc

/-- The hypotheses of `delivered_published_iff` hold of a file of two bytes, sent
one byte at a time to a daemon that has never run. -/
theorem delivered_published_twoBytes :
    ∃ s₁ s₂, (sampleReceiver.acceptTransfer samplePeer ⟨"tx", [twoBytes]⟩).run handler (.fresh, .fresh) =
        (.ok ⟨"tx", defaultChunkSize⟩, (s₁, .fresh)) ∧
      (@deliver .sample sampleReceiver "tx" (fun _ => [1, 2])
          [(twoBytes, ⟨0, 1⟩), (twoBytes, ⟨1, 1⟩)]).run handler (s₁, .fresh) =
        (.ok (), (s₂, .fresh)) ∧
      ((allocate (takenIn s₂.fs ["inbox"])
          ((filesOf s₂.manifest "tx").map (·.fileName))).isSome →
        ((∃ s₃, (@finishTransfer sampleReceiver .sample "tx").run handler
              (s₂, .fresh) = (.ok (), (s₃, .fresh)) ∧
            s₃.manifest.selectState "tx" = some .completed ∧
            Gained ["inbox"] [twoBytes] (fun _ => [1, 2]) s₂.fs s₃.fs) ↔
          ∀ o ∈ [twoBytes], 0 < o.size)) :=
  @delivered_published_iff .sample sampleReceiver (fun _ => [1, 2]) 1 .fresh .fresh samplePeer
    ⟨"tx", [twoBytes]⟩
    ⟨nofun, nofun⟩ rfl rfl (by decide) (by decide)
    (@Offer.mk .sample _ _ _ (by decide) (by decide) (by decide) (by decide) (by decide)
      (by decide))
    rfl (by decide) (Fs.dirOk_empty _) (by decide) _ delivers_twoBytes

/-- A file of no bytes is delivered by sending nothing, and is not published:
`finish_transfer` does not find it. -/
theorem empty_file_not_published :
    validateTransferRequest ⟨"tx", [noBytes]⟩ = .ok () ∧
      Delivers [noBytes] defaultChunkSize [] ∧
      ((sampleReceiver.acceptTransfer samplePeer ⟨"tx", [noBytes]⟩ >>= fun _ =>
        @finishTransfer sampleReceiver .sample "tx").run handler (.fresh, .fresh)).1 =
          .error (.io .notFound) := by
  refine ⟨by decide, ?_, by decide +kernel⟩
  have hplan : planChunks 0 defaultChunkSize = .ok [] := by decide +kernel
  intro o c
  constructor
  · nofun
  · rintro ⟨ho, plan, hp, hc⟩
    obtain rfl := List.mem_singleton.mp ho
    obtain rfl := Except.ok.inj (hplan.symm.trans hp)
    cases hc

end NightBridge.Native
