/-
# An interrupted transfer can always be resumed

Between acceptance and resumption the receiver may have been sent any true
slices of the files, in any order, overlapping and repeated; its manifest may
have been reopened; and `finish_transfer` may have been called too early
(`Interrupted`).  All of that keeps `Staged`.

`resume_files_to_receiver` asks for the chunks with an uncovered byte and sends
them.  A sent chunk replaces the row at its offset, but never by a shorter one:
a row at least as long would have covered the chunk.  So nothing covered is lost
(`Resuming.step`), and every byte is covered in the end.
-/

import NightBridge.Native.Prepare

namespace NightBridge.Native

open Data Effect NativeTransferReceiver NativeTransferSender ManifestStore

/-- No path but staging paths of the transfer has changed. -/
def Elsewhere (inboxDir : Path) (t : String) (fs fs' : Fs) : Prop :=
  ∀ q, (∀ f, resolve q ≠ resolve (part inboxDir t f)) →
    fs'.contents q = fs.contents q ∧ fs'.lookup q = fs.lookup q

theorem Elsewhere.trans {inboxDir : Path} {t : String} {fs₁ fs₂ fs₃ : Fs}
    (h : Elsewhere inboxDir t fs₁ fs₂) (h' : Elsewhere inboxDir t fs₂ fs₃) :
    Elsewhere inboxDir t fs₁ fs₃ := by
  intro q hq
  obtain ⟨h1, h2⟩ := h q hq
  obtain ⟨h3, h4⟩ := h' q hq
  exact ⟨h3.trans h1, h4.trans h2⟩

theorem Elsewhere.takenIn_eq {inboxDir : Path} {t : String} {fs fs' : Fs}
    (h : Elsewhere inboxDir t fs fs') : takenIn fs' inboxDir = takenIn fs inboxDir := by
  funext name
  rw [takenIn, takenIn, Fs.exists?, Fs.exists?,
    (h _ fun f => resolve_name_ne_partPath inboxDir name _ _).2]

/-- What can happen to a transfer before it is resumed. -/
inductive Interrupted [Primitives] (self : NativeTransferReceiver) (t : String)
    (offers : List FileOffer) (content : String → Bytes) (w : Wire) (s₀ : Store) : Store → Prop
  | refl : Interrupted self t offers content w s₀ s₀
  | chunk {s s' : Store} {o : FileOffer} {offset len : ℕ} {r : Except NativeError Unit}
      (before : Interrupted self t offers content w s₀ s) (offered : o ∈ offers)
      (inside : offset + len ≤ (content o.fileId).length)
      (run : (self.receiveChunk t o.fileId offset (slice (content o.fileId) offset len)).run handler
        (s, w) = (r, (s', w))) : Interrupted self t offers content w s₀ s'
  | reopen {s s' : Store} {r : Except NativeError Unit}
      (before : Interrupted self t offers content w s₀ s)
      (run : openManifest.run handler (s, w) = (r, (s', w))) :
      Interrupted self t offers content w s₀ s'
  | finish {s s' : Store} {r : Except NativeError Unit}
      (before : Interrupted self t offers content w s₀ s)
      (missing : (transferComplete t).run handler (s, w) = (.ok false, (s, w)))
      (run : (self.finishTransfer t).run handler (s, w) = (r, (s', w))) :
      Interrupted self t offers content w s₀ s'

section plan

variable {t : String} {offers : List FileOffer} {content : String → Bytes} {s : Store}

/-- The chunks of a file with a byte that is not covered. -/
def MissingOf (db : ManifestDb) (t : String) (chunkSize : ℕ) (o : FileOffer) (m : List Span) : Prop :=
  ∀ c, c ∈ m ↔ c ∈ chunksFrom o.size chunkSize 0 ∧ ¬ ∀ b, c.Has b → db.Covered t o.fileId b

/-- What holds while the missing chunks are sent: `missing` is the plan, `done`
what has been sent of it, `db₀` and `fs₀` are as they were when it was made. -/
structure Resuming (inboxDir : Path) (t : String) (offers : List FileOffer)
    (content : String → Bytes) (missing : String → List Span) (db₀ : ManifestDb) (fs₀ : Fs)
    (done : List (FileOffer × Span)) (s : Store) : Prop where
  staged : Staged inboxDir t offers content s
  elsewhere : Elsewhere inboxDir t fs₀ s.fs
  files : s.manifest.files = db₀.files
  short : ∀ o ∈ offers, ∀ c ∈ missing o.fileId, ∀ r ∈ s.manifest.chunks.rows,
    r.key = (t, o.fileId, asI64 c.offset) → r.span.length ≤ c.length
  kept : ∀ f b, db₀.Covered t f b → s.manifest.Covered t f b
  sent : ∀ d ∈ done, ∀ b, d.2.Has b → s.manifest.Covered t d.1.fileId b

/-- A plan is made: nothing has been sent. -/
theorem Resuming.start {inboxDir : Path} (h : Staged inboxDir t offers content s)
    {missing : String → List Span} {chunkSize : ℕ}
    (hmiss : ∀ o ∈ offers, MissingOf s.manifest t chunkSize o (missing o.fileId)) :
    Resuming inboxDir t offers content missing s.manifest s.fs [] s where
  staged := h
  elsewhere _ _ := ⟨rfl, rfl⟩
  files := rfl
  short o ho c hc r hr hk := by
    -- a longer row at this offset would cover the chunk
    by_contra hlong
    obtain ⟨hgrid, hnot⟩ := (hmiss o ho c).mp hc
    have hlt := o.size_lt
    have hstop := (mem_chunksFrom hgrid).2.2.2
    simp only [ChunkRow.key, Prod.mk.injEq] at hk
    obtain ⟨ht, hf, hoff⟩ := hk
    refine hnot fun b hb => ⟨r.span, ManifestDb.mem_spans.mpr ⟨r, hr, ht, hf, rfl⟩, ?_⟩
    have hspan : r.span.offset = c.offset := by
      rw [ChunkRow.span, hoff]
      exact asU64_asI64 (by simp only [Span.stop] at hstop; omega)
    simp only [Span.Has, Span.stop] at hb ⊢
    omega
  kept _ _ hb := hb
  sent := nofun

/-- When everything missing has been sent, the transfer is complete. -/
theorem Resuming.complete {inboxDir : Path} {missing : String → List Span} {db₀ : ManifestDb}
    {fs₀ : Fs} {chunkSize : ℕ} (hchunk : 0 < chunkSize)
    (hmiss : ∀ o ∈ offers, MissingOf db₀ t chunkSize o (missing o.fileId))
    {done : List (FileOffer × Span)}
    (h : Resuming inboxDir t offers content missing db₀ fs₀ done s) (hne : offers ≠ [])
    (hdone : ∀ o ∈ offers, ∀ c ∈ missing o.fileId, (o, c) ∈ done) : s.manifest.Complete t := by
  constructor
  · obtain ⟨o, ho⟩ := List.exists_mem_of_ne_nil _ hne
    obtain ⟨hfr, ht⟩ := (h.staged.rows (offeredRow t o)).mpr ⟨o, ho, rfl⟩
    exact ⟨_, hfr, ht⟩
  · intro fr hfr ht b hb
    obtain ⟨o, ho, rfl⟩ := (h.staged.rows fr).mp ⟨hfr, ht⟩
    rw [asU64_offeredRow] at hb
    obtain ⟨c, hc, hhas⟩ := (covers_chunksFrom hchunk b).mpr ⟨Nat.zero_le _, hb⟩
    by_cases hm : c ∈ missing o.fileId
    · exact h.sent (o, c) (hdone o ho c hm) b hhas
    · have hcov : ∀ b, c.Has b → db₀.Covered t o.fileId b := by
        by_contra hnot
        exact hm ((hmiss o ho c).mpr ⟨hc, hnot⟩)
      exact h.kept _ _ (hcov b hhas)

/-- What the inbox gained does not depend on what happened elsewhere before. -/
theorem Gained.of_elsewhere {inboxDir : Path} {fs fs₁ fs' : Fs}
    (he : Elsewhere inboxDir t fs fs₁) (h : Gained inboxDir offers content fs₁ fs') :
    Gained inboxDir offers content fs fs' := by
  have hname : ∀ n, fs₁.contents (inboxDir ++ [n]) = fs.contents (inboxDir ++ [n]) ∧
      fs₁.lookup (inboxDir ++ [n]) = fs.lookup (inboxDir ++ [n]) := fun n =>
    he _ fun f => resolve_name_ne_partPath inboxDir n _ _
  obtain ⟨name, hinj, hnew, hothers⟩ := h
  refine ⟨name, hinj, fun o ho => ?_, fun n hn => ?_⟩
  · obtain ⟨hfree, hc⟩ := hnew o ho
    exact ⟨(hname _).2.symm.trans hfree, hc⟩
  · exact (hothers n hn).trans (hname n).1

theorem Gained.of_createDirAll {inboxDir dir : Path} {fs fs₁ fs' : Fs}
    (hmk : fs.createDirAll dir = .ok fs₁)
    (h : Gained inboxDir offers content fs₁ fs') : Gained inboxDir offers content fs fs' := by
  obtain ⟨name, hinj, hnew, hothers⟩ := h
  refine ⟨name, hinj, fun o ho => ?_, fun n hn => ?_⟩
  · obtain ⟨hfree, hc⟩ := hnew o ho
    refine ⟨?_, hc⟩
    rcases Fs.lookup_createDirAll hmk (inboxDir ++ [name o.fileId]) with hsame | ⟨hnone, -⟩
    · exact hsame.symm.trans hfree
    · exact hnone
  · exact (hothers n hn).trans (Fs.contents_createDirAll hmk _)

end plan

section resume

variable [Primitives] (self : NativeTransferReceiver) {t : String} {offers : List FileOffer}
  {content : String → Bytes} {s : Store} {w : Wire}

/-- **Interruptions keep the delivery going**, and touch nothing but staged
files. -/
theorem Interrupted.staged {s₀ : Store} (hoffer : Offer t offers content)
    (h₀ : Staged self.inboxDir t offers content s₀)
    (h : Interrupted self t offers content w s₀ s) :
    Staged self.inboxDir t offers content s ∧ Elsewhere self.inboxDir t s₀.fs s.fs := by
  induction h with
  | refl => exact ⟨h₀, fun _ _ => ⟨rfl, rfl⟩⟩
  | @chunk s s' o offset len r _ ho hin hrun ih =>
    obtain ⟨hs, helse⟩ := ih
    rcases Nat.eq_zero_or_pos len with rfl | hpos
    · -- an empty slice is refused before anything is done
      have hempty : slice (content o.fileId) offset 0 = [] := by simp [slice]
      rw [receiveChunk, receiveChunkWithHash, if_pos hempty] at hrun
      cases hrun
      exact ⟨hs, helse⟩
    · rw [hoffer.size o ho] at hin
      obtain ⟨fs', hrun', hs', hframe⟩ := hs.receive self (w := w) hoffer ho hpos hin
      rw [receiveChunk, hrun'] at hrun
      cases hrun
      exact ⟨hs', helse.trans fun q hq => hframe q (hq _)⟩
  | reopen _ hrun ih =>
    cases hrun
    exact ih
  | @finish s s' r _ hmissing hrun ih =>
    obtain ⟨hs, helse⟩ := ih
    have hnot : ¬ s.manifest.Complete t := by
      obtain ⟨ok, hok, hiff⟩ := run_transferComplete (w := w) hs.wellFormed t
      rw [hmissing] at hok
      cases hok
      exact fun hc => absurd (hiff.mpr hc) (by decide)
    rw [run_finishTransfer_incomplete self hs.wellFormed hnot] at hrun
    cases hrun
    exact ⟨hs.updateState .interrupted _ _, helse⟩

/-- **One missing chunk sent**: read from the source and received, with nothing
covered before lost. -/
theorem Resuming.step {missing : String → List Span} {db₀ : ManifestDb} {fs₀ : Fs} {chunkSize : ℕ}
    (hoffer : Offer t offers content)
    (hplan : ∀ o ∈ offers, ∀ c ∈ missing o.fileId, c ∈ chunksFrom o.size chunkSize 0)
    {done : List (FileOffer × Span)}
    (h : Resuming self.inboxDir t offers content missing db₀ fs₀ done s) {o : FileOffer}
    (ho : o ∈ offers) {c : Span} (hc : c ∈ missing o.fileId) {path : Path} {input : ℕ}
    (hinput : fs₀.lookup path = some (.file input))
    (hsource : fs₀.contents path = some (content o.fileId))
    (hpath : ∀ f, resolve path ≠ resolve (part self.inboxDir t f)) :
    ∃ s', (sendRange self t o.fileId input c).run handler (s, w) = (.ok (), (s', w)) ∧
      Resuming self.inboxDir t offers content missing db₀ fs₀ (done ++ [(o, c)]) s' := by
  obtain ⟨-, hpos, -, hstop⟩ := mem_chunksFrom (hplan o ho c hc)
  have hend : c.offset + c.length ≤ o.size := hstop
  have hlt := o.size_lt
  have hsize := hoffer.size o ho
  -- the source still holds its bytes
  obtain ⟨hcont, hlook⟩ := h.elsewhere path hpath
  have hdata : s.fs.data input = content o.fileId := by
    rw [Fs.contents_of_file (hlook.trans hinput), hsource] at hcont
    exact Option.some.inj hcont
  have hread : s.fs.readExactAt input c.offset c.length =
      .ok (slice (content o.fileId) c.offset c.length) := by
    rw [Fs.readExactAt, hdata, if_pos (by omega)]
  obtain ⟨fs', hrun, hstaged, hframe⟩ := h.staged.receive self (w := w) hoffer ho hpos hend
  have hshort := h.short o ho c hc
  refine ⟨_, ?_, hstaged, h.elsewhere.trans fun q hq => hframe q (hq _), h.files, ?_, ?_, ?_⟩
  · rw [sendRange, Prog.run_bind_ok _ (show (readExactAt input c.offset c.length).run handler (s, w) =
      (.ok (slice (content o.fileId) c.offset c.length), (s, w)) by
        simp [readExactAt, handler, exec, orIo, Except.mapError, hread])]
    exact hrun
  · intro o' ho' c' hc' r hr hk
    rcases ManifestDb.mem_record_chunks.mp hr with ⟨hr, -⟩ | rfl
    · exact h.short o' ho' c' hc' r hr hk
    · simp only [ChunkRow.key, Prod.mk.injEq] at hk
      obtain ⟨-, hf, hoff⟩ := hk
      obtain rfl := hoffer.fileIds ho ho' (congrArg cleanComponent hf)
      have hstop' := (mem_chunksFrom (hplan o ho c' hc')).2.2.2
      have hsame : c.offset = c'.offset := by
        have := congrArg asU64 hoff
        rwa [asU64_asI64 (by omega), asU64_asI64 (by simp only [Span.stop] at hstop'; omega)] at this
      simp only [ChunkRow.span, asU64_asI64 (show c.length < 2 ^ 64 by omega)]
      rw [length_of_mem_chunksFrom (hplan o ho c hc), hsame,
        ← length_of_mem_chunksFrom (hplan o ho c' hc')]
  · intro f b hb
    exact ManifestDb.covered_record_of_le (by omega) (by omega) hshort (h.kept f b hb)
  · intro d hd b hb
    rcases List.mem_append.mp hd with hd | hd
    · exact ManifestDb.covered_record_of_le (by omega) (by omega) hshort (h.sent d hd b hb)
    · obtain rfl := List.mem_singleton.mp hd
      exact ManifestDb.covered_record_self (by omega) (by omega) hb.1 hb.2

/-- **`resume_plan` lists what is missing of each file.** -/
theorem run_resumePlan {inboxDir : Path} (hoffer : Offer t offers content)
    (h : Staged inboxDir t offers content s) {chunkSize : ℕ} (hchunk : 0 < chunkSize) :
    ∃ plan, (resumePlan t chunkSize).run handler (s, w) = (.ok plan, (s, w)) ∧
      ∀ o ∈ offers, ∃ m, plan.lookup o.fileId = some m ∧ MissingOf s.manifest t chunkSize o m := by
  have hloop : ∀ files : List ManifestFile, (∀ file ∈ files, file ∈ filesOf s.manifest t) →
      ∃ plan, (planFiles t chunkSize files).run handler (s, w) = (.ok plan, (s, w)) ∧
        ∀ o ∈ offers, (∃ file ∈ files, file.fileId = o.fileId) →
          ∃ m, plan.lookup o.fileId = some m ∧ MissingOf s.manifest t chunkSize o m := by
    intro files
    induction files with
    | nil => exact fun _ => ⟨[], rfl, fun o _ hex => by simp at hex⟩
    | cons file files ih =>
      intro hfiles
      obtain ⟨o, ho, rfl⟩ := h.mem_filesOf.mp (hfiles file (by simp))
      obtain ⟨plan, hplan, hall⟩ := ih fun f hf => hfiles f (by simp [hf])
      obtain ⟨hfr, -⟩ := (h.rows (offeredRow t o)).mpr ⟨o, ho, rfl⟩
      obtain ⟨m, hm, hmiss⟩ := run_missingRanges (w := w) h.wellFormed hfr hchunk
      rw [asU64_offeredRow] at hmiss
      change (missingRanges t o.fileId chunkSize).run handler (s, w) = _ at hm
      refine ⟨(o.fileId, m) :: plan, ?_, fun o' ho' hex => ?_⟩
      · rw [planFiles, Prog.run_bind_ok _ hm, Prog.run_bind_ok _ hplan]
        rfl
      · by_cases hid : o'.fileId = o.fileId
        · obtain rfl := hoffer.fileIds ho' ho (congrArg cleanComponent hid)
          exact ⟨m, by simp, hmiss⟩
        · obtain ⟨m', hm', hmiss'⟩ := hall o' ho' (by
            obtain ⟨file, hf, he⟩ := hex
            rcases List.mem_cons.mp hf with rfl | hf
            · exact absurd he.symm hid
            · exact ⟨file, hf, he⟩)
          refine ⟨m', ?_, hmiss'⟩
          rw [List.lookup_cons, beq_eq_false_iff_ne.mpr hid]
          exact hm'
  obtain ⟨plan, hplan, hall⟩ := hloop (filesOf s.manifest t) fun _ h => h
  refine ⟨plan, ?_, fun o ho => hall o ho ⟨_, h.mem_filesOf.mpr ⟨o, ho, rfl⟩, rfl⟩⟩
  rw [resumePlan, Prog.run_bind_ok _ (show (ManifestStore.files t).run handler (s, w) =
    (.ok (filesOf s.manifest t), (s, w)) from rfl)]
  exact hplan

/-- A source file of the transfer: a regular file outside its staging directory. -/
def SourceOf (inboxDir : Path) (t : String) (content : String → Bytes) (fs : Fs)
    (o : FileOffer) (path : Path) : Prop :=
  fs.contents path = some (content o.fileId) ∧
    ∀ f, resolve path ≠ resolve (part inboxDir t f)

/-- **The missing chunks of all files sent.** -/
theorem run_sendRanges (missing : String → List Span) {db₀ : ManifestDb} {fs₀ : Fs}
    {chunkSize : ℕ} (hoffer : Offer t offers content)
    (hplan : ∀ o ∈ offers, ∀ c ∈ missing o.fileId, c ∈ chunksFrom o.size chunkSize 0)
    {plan : List (String × List ResumeRange)}
    (hlookup : ∀ o ∈ offers, plan.lookup o.fileId = some (missing o.fileId)) {paths : List Path}
    (hsources : ∀ o path, (o, path) ∈ offers.zip paths →
      SourceOf self.inboxDir t content fs₀ o path)
    (h : Resuming self.inboxDir t offers content missing db₀ fs₀ [] s) :
    ∃ s', (sendRanges self ⟨t, offers⟩ paths chunkSize (some plan)).run handler (s, w) =
        (.ok (), (s', w)) ∧
      ∃ done, Resuming self.inboxDir t offers content missing db₀ fs₀ done s' ∧
        ∀ d ∈ offers.zip paths, ∀ c ∈ missing d.1.fileId, (d.1, c) ∈ done := by
  obtain ⟨⟨s', w'⟩, hrun, ⟨done, hres, hdone⟩, rfl⟩ := Prog.run_each_inv handler
    (fun (d : FileOffer × Path) => sendFile self t chunkSize (some plan) d.1 d.2)
    (offers.zip paths)
    (fun files sw => (∃ done, Resuming self.inboxDir t offers content missing db₀ fs₀ done sw.1 ∧
      ∀ d ∈ files, ∀ c ∈ missing d.1.fileId, (d.1, c) ∈ done) ∧ sw.2 = w)
    (by
      rintro files ⟨o, path⟩ rest ⟨s₁, w₁⟩ hsplit ⟨⟨done, h₁, hdone⟩, rfl⟩
      have hm : (o, path) ∈ offers.zip paths := by simp [hsplit]
      have ho := (List.of_mem_zip hm).1
      obtain ⟨hsource, hpath⟩ := hsources o path hm
      obtain ⟨input, hinput, -⟩ := Fs.lookup_of_contents hsource
      have hopen : s₁.fs.openRead path = .ok input :=
        Fs.openRead_of_file ((h₁.elsewhere path hpath).2.trans hinput)
      obtain ⟨⟨s₂, w₂⟩, hloop, h₂, rfl⟩ := Prog.run_each_inv handler
        (sendRange self t o.fileId input) (missing o.fileId)
        (fun cs sw => Resuming self.inboxDir t offers content missing db₀ fs₀
          (done ++ cs.map fun c => (o, c)) sw.1 ∧ sw.2 = w₁)
        (by
          rintro cs c rest' ⟨s₃, w₃⟩ hcs ⟨h₃, rfl⟩
          obtain ⟨s₄, hrun, h₄⟩ := h₃.step self (w := w₃) hoffer hplan ho
            (show c ∈ missing o.fileId by simp [hcs]) hinput hsource hpath
          refine ⟨(s₄, w₃), hrun, ?_, rfl⟩
          simpa using h₄)
        (s₁, w₁) ⟨by simpa using h₁, rfl⟩
      refine ⟨(s₂, w₂), ?_, ⟨done ++ (missing o.fileId).map fun c => (o, c), h₂, ?_⟩, rfl⟩
      · rw [sendFile, Option.bind_some, hlookup o ho]
        change (openRead path >>= fun input =>
          Prog.each (missing o.fileId) (sendRange self t o.fileId input)).run handler _ = _
        rw [Prog.run_bind_ok _ (show (openRead path).run handler
          (s₁, w₂) = (.ok input, (s₁, w₂)) by
            simp [openRead, handler, exec, orIo, Except.mapError, hopen])]
        exact hloop
      · intro d hd c hc
        rcases List.mem_append.mp hd with hd | hd
        · exact List.mem_append_left _ (hdone d hd c hc)
        · obtain rfl := List.mem_singleton.mp hd
          exact List.mem_append_right _ (List.mem_map.mpr ⟨c, hc, rfl⟩))
    (s, w) ⟨⟨[], h, by simp⟩, rfl⟩
  exact ⟨s', hrun, done, hres, hdone⟩

/-- **Resume completes every interrupted transfer.**  A request prepared from
non-empty source files is accepted under a new id and then interrupted in any
way; if names are free in the inbox, `resume_files_to_receiver` with any positive
chunk size succeeds, the transfer ends `Completed`, and the inbox gains exactly
one file for each source, with its bytes. -/
theorem resume_completes (sender : NativeTransferSender) {paths : List Path}
    {request : RequestTransfer} {peer : NativePeerInfo} {accepted : AcceptTransfer}
    {s₀ s₁ s₂ s₃ : Store} (hchunk : 0 < sender.chunkSize)
    (hprep : (prepareRequest paths).run handler (s₀, w) = (.ok request, (s₁, w)))
    (hpos : ∀ path ∈ paths, s₀.fs.contents path ≠ some [])
    (hwf : s₀.manifest.WellFormed) (hstable : Stable request.transferId)
    (hnew : s₀.manifest.transfers.find? request.transferId = none)
    (hunused : s₀.fs.lookup (partDir self.inboxDir request.transferId) = none)
    (haccept : (self.acceptTransfer peer request).run handler (s₁, w) = (.ok accepted, (s₂, w)))
    (hint : Interrupted self request.transferId request.files
      (sourceContent s₀.fs (request.files.zip paths)) w s₂ s₃)
    (hfree : (allocate (takenIn s₃.fs self.inboxDir)
      ((filesOf s₃.manifest request.transferId).map (·.fileName))).isSome) :
    ∃ s₄, (sender.resumeFilesToReceiver self request paths).run handler (s₃, w) =
        (.ok (), (s₄, w)) ∧
      s₄.manifest.selectState request.transferId = some .completed ∧
      Gained self.inboxDir request.files (sourceContent s₀.fs (request.files.zip paths))
        s₃.fs s₄.fs ∧
      request.files.length = paths.length ∧
      ∀ o path, (o, path) ∈ request.files.zip paths →
        s₀.fs.contents path = some (sourceContent s₀.fs (request.files.zip paths) o.fileId) := by
  obtain ⟨hs₁, -, hall, hids⟩ := run_prepareRequest hprep
  obtain ⟨rfl, -⟩ := Prod.mk.inj hs₁
  have hlen := hall.length_eq
  obtain ⟨hblocked, hpeer, hfp, hvalid, fs₂, hmk⟩ := acceptTransfer_ok self
    (s := { s₀ with uuids := advance s₀.uuids }) hstable hnew haccept
  obtain ⟨hoffer, hsrc⟩ := offer_prepared hstable hall hids
  obtain ⟨db₂, hrun₂, hcreated⟩ := run_acceptTransfer_fresh self (w := w)
    (s := { s₀ with uuids := advance s₀.uuids }) peer request hwf hblocked hpeer hfp hvalid
      hstable hnew hmk
  obtain ⟨hstaged₂, hnone⟩ := Staged.begin (sourceContent s₀.fs (request.files.zip paths))
    (s := { s₀ with uuids := advance s₀.uuids }) hwf hcreated hunused hmk (advance (advance s₀.clock))
  rw [hrun₂] at haccept
  obtain ⟨-, hs₂⟩ := Prod.mk.inj haccept
  obtain ⟨rfl, -⟩ := Prod.mk.inj hs₂
  obtain ⟨hstaged₃, helse⟩ := hint.staged self hoffer hstaged₂
  -- the sources are still there
  have hsources : ∀ o path, (o, path) ∈ request.files.zip paths →
      SourceOf self.inboxDir request.transferId
        (sourceContent s₀.fs (request.files.zip paths)) s₃.fs o path := by
    intro o path hm
    have hc : fs₂.contents path = _ := (Fs.contents_createDirAll hmk path).trans (hsrc o path hm)
    have hpath : ∀ f, resolve path ≠ resolve (part self.inboxDir request.transferId f) := by
      intro f he
      obtain ⟨i, hi, -⟩ := Fs.lookup_of_contents hc
      rw [Fs.lookup, he, ← Fs.lookup, hnone f] at hi
      cases hi
    exact ⟨(helse path hpath).1.trans hc, hpath⟩
  have hsizes := size_pos_prepared hall hpos
  obtain ⟨plan, hplan, hmissing⟩ := run_resumePlan (w := w) hoffer hstaged₃ hchunk
  have hlookup : ∀ o ∈ request.files, plan.lookup o.fileId =
      some ((plan.lookup o.fileId).getD []) ∧
        MissingOf s₃.manifest request.transferId sender.chunkSize o
          ((plan.lookup o.fileId).getD []) := by
    intro o ho
    obtain ⟨m, hm, hmiss⟩ := hmissing o ho
    rw [hm]
    exact ⟨rfl, hmiss⟩
  obtain ⟨s₄, hsend, done, hres, hdone⟩ := run_sendRanges self (w := w)
    (fun id => (plan.lookup id).getD []) hoffer
    (fun o ho c hc => (((hlookup o ho).2 c).mp hc).1) (fun o ho => (hlookup o ho).1) hsources
    (Resuming.start hstaged₃ fun o ho => (hlookup o ho).2)
  have hcomplete := hres.complete hchunk (fun o ho => (hlookup o ho).2) hvalid.files
    (by
      intro o ho c hc
      rw [← List.map_fst_zip (show request.files.length ≤ paths.length by omega)] at ho
      obtain ⟨⟨o', path⟩, hm, rfl⟩ := List.mem_map.mp ho
      exact hdone (o', path) hm c hc)
  have hfiles : filesOf s₄.manifest request.transferId = filesOf s₃.manifest request.transferId := by
    simp only [filesOf, ManifestDb.selectFilesOrdered, ManifestDb.selectFiles, hres.files]
  obtain ⟨s₅, hfinish, hstate, hgained⟩ := hres.staged.finish self (w := w) hoffer hcomplete hsizes
    (by rw [hres.elsewhere.takenIn_eq, hfiles]; exact hfree)
  refine ⟨s₅, ?_, hstate, hgained.of_elsewhere hres.elsewhere, hlen, hsrc⟩
  rw [resumeFilesToReceiver, if_neg (by omega), Prog.run_bind_ok _ hplan, Prog.run_bind_ok _ hsend]
  exact hfinish

end resume

/-! ### An interrupted transfer of three bytes -/

/-- A store with one source file of three bytes. -/
def sourceStore : Store :=
  ((do
    createDirAll ["src"]
    let file ← openWrite ["src", "a.txt"]
    writeAt file 0 [1, 2, 3] : Io NativeError Unit).run handler (.fresh, .fresh)).2.1

def sourceRequest : RequestTransfer :=
  ⟨"uuid-0", [⟨"file-0", "a.txt", 3, some (@blake3Hex .sample [1, 2, 3]), by decide⟩]⟩

def preparedStore : Store :=
  ((@prepareRequest .sample [["src", "a.txt"]]).run handler (sourceStore, .fresh)).2.1

def acceptedStore : Store :=
  ((sampleReceiver.acceptTransfer samplePeer sourceRequest).run handler (preparedStore, .fresh)).2.1

/-- The store after receiving the second byte. -/
def interruptedStore : Store :=
  ((@receiveChunk sampleReceiver .sample "uuid-0" "file-0" 1 [2]).run handler
    (acceptedStore, .fresh)).2.1

/-- The transfer interrupted after its second byte is resumed one byte at a time. -/
theorem resume_completes_three : ∃ s₄,
    (@resumeFilesToReceiver ⟨1⟩ .sample sampleReceiver sourceRequest [["src", "a.txt"]]).run handler
        (interruptedStore, .fresh) = (.ok (), (s₄, .fresh)) ∧
      s₄.manifest.selectState "uuid-0" = some .completed ∧
      Gained ["inbox"] sourceRequest.files
        (sourceContent sourceStore.fs (sourceRequest.files.zip [["src", "a.txt"]]))
        interruptedStore.fs s₄.fs ∧
      sourceRequest.files.length = 1 ∧
      ∀ o path, (o, path) ∈ sourceRequest.files.zip [["src", "a.txt"]] →
        sourceStore.fs.contents path = some
          (sourceContent sourceStore.fs (sourceRequest.files.zip [["src", "a.txt"]]) o.fileId) := by
  let _ : Primitives := .sample
  have hprep : (prepareRequest [["src", "a.txt"]]).run handler (sourceStore, .fresh) =
      (.ok sourceRequest, (preparedStore, .fresh)) :=
    Prod.ext (by decide +kernel) (Prod.ext rfl (by decide +kernel))
  have haccept : (sampleReceiver.acceptTransfer samplePeer sourceRequest).run handler
      (preparedStore, .fresh) = (.ok ⟨"uuid-0", defaultChunkSize⟩, (acceptedStore, .fresh)) :=
    Prod.ext (by decide +kernel) (Prod.ext rfl (by decide +kernel))
  have hchunk : (sampleReceiver.receiveChunk "uuid-0" "file-0" 1
      (slice (sourceContent sourceStore.fs (sourceRequest.files.zip [["src", "a.txt"]])
        "file-0") 1 1)).run handler (acceptedStore, .fresh) =
      (.ok (), (interruptedStore, .fresh)) := by
    rw [show slice (sourceContent sourceStore.fs (sourceRequest.files.zip [["src", "a.txt"]])
      "file-0") 1 1 = [2] by decide +kernel]
    exact Prod.ext (by decide +kernel) (Prod.ext rfl (by decide +kernel))
  exact resume_completes sampleReceiver ⟨1⟩ (by decide) hprep (by decide +kernel)
    ⟨by decide +kernel, by decide +kernel⟩ (by decide) (by decide +kernel) (by decide +kernel) haccept
    (.chunk .refl (o := sourceRequest.files.head (by decide)) (by decide +kernel)
      (by decide +kernel) hchunk) (by decide +kernel)

end NightBridge.Native
