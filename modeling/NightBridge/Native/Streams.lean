/-
# Streams of frames

What the two writers accept and the two readers return, said exactly.

| function | succeeds exactly when |
| --- | --- |
| `write_chunk_frame` | the chunk is `Writable`; it appends `frameBytes` |
| `read_chunk_frame` | the input starts with `frameBytes` of a `Readable` chunk |
| `write_control` | the message fits a frame; it appends `controlBlocks` |
| `read_control` | the input starts with a frame that decodes |

A stream of frames is read back frame by frame (`chunks_round_trip`,
`controls_round_trip`).  Both readers are bounded, and the chunk reader is
canonical: the bytes it takes are the ones the writer makes
(`readChunkFrame_canonical`).  The writer takes frames up to `u32::MAX` bytes and
the reader only up to 8 MiB, so a large chunk can be written and not read
(`large_chunk_refused`).
-/

import NightBridge.Native.Footprint
import NightBridge.Native.Frames

namespace NightBridge.Native

open Data Effect

/-! ### The wire -/

namespace Wire

/-- The wire before some bytes were read off it. -/
def unread (w : Wire) (bytes : Bytes) : Wire := { w with inp := bytes ++ w.inp }

/-- The wire after some bytes were sent. -/
def sent (w : Wire) (bytes : Bytes) : Wire := { w with out := w.out ++ bytes }

theorem unread_unread (w : Wire) (bytes bytes' : Bytes) :
    (w.unread bytes').unread bytes = w.unread (bytes ++ bytes') := by
  simp [unread]

theorem sent_sent (w : Wire) (bytes bytes' : Bytes) :
    (w.sent bytes).sent bytes' = w.sent (bytes ++ bytes') := by
  simp [sent]

@[simp] theorem unread_nil (w : Wire) : w.unread [] = w := rfl

@[simp] theorem sent_nil (w : Wire) : w.sent [] = w := by simp [sent]

theorem unread_inj {w : Wire} {bytes bytes' : Bytes} (h : w.unread bytes = w.unread bytes') :
    bytes = bytes' :=
  List.append_cancel_right (congrArg Wire.inp h)

end Wire

variable {s s' : Store} {w w' : Wire}

/-- A read and what follows it succeed when the input starts with enough bytes. -/
theorem run_recvExact_bind_eq_ok {β : Type} {n : ℕ} {f : Bytes → Io NativeError β} {b : β}
    {sw : Store × Wire} : (recvExact n >>= f).run handler (s, w) = (.ok b, sw) ↔
      ∃ bytes rest, bytes.length = n ∧ w = rest.unread bytes ∧
        (f bytes).run handler (s, rest) = (.ok b, sw) := by
  rw [recvExact, Prog.call_bind, Prog.run_call]
  simp only [handler, exec]
  split_ifs with hn
  · constructor
    · intro h
      exact ⟨w.inp.take n, { w with inp := w.inp.drop n }, by simp [hn], by simp [Wire.unread], h⟩
    · rintro ⟨bytes, rest, rfl, rfl, h⟩
      simpa [Wire.unread, orIo, Except.mapError] using h
  · constructor
    · intro h
      cases congrArg Prod.fst h
    · rintro ⟨bytes, rest, rfl, rfl, -⟩
      simp [Wire.unread] at hn

theorem run_fromUtf8Or_bind_eq_ok {β : Type} {message : String} {bytes : Bytes}
    {f : String → Io NativeError β} {b : β} {sw sw' : Store × Wire} :
    (fromUtf8Or message bytes >>= f).run handler sw = (.ok b, sw') ↔
      ∃ text, utf8 text = bytes ∧ (f text).run handler sw = (.ok b, sw') := by
  rw [fromUtf8Or]
  constructor
  · intro h
    cases hbytes : fromUtf8 bytes with
    | none =>
      rw [hbytes] at h
      cases h
    | some text =>
      rw [hbytes] at h
      exact ⟨text, utf8_of_fromUtf8 hbytes, h⟩
  · rintro ⟨text, rfl, h⟩
    rwa [fromUtf8_utf8]

theorem Runs.run_handler {ε α : Type} {I : Party → Prop} {p : Io ε α} {x y : Party} {bytes : Bytes}
    {a : α} (h : Runs quic I p x bytes a y) :
    p.run handler (x.store, x.wire) = (.ok a, (y.store, y.wire)) := by
  induction h with
  | ret => rfl
  | call _ _ _ ih => exact ih

/-- The program only reads, at most `bound` bytes at a time, whatever it is
answered. -/
def ReadsAtMost {ε α : Type} (bound : ℕ) (p : Io ε α) : Prop :=
  p.wp (fun _ o => ∃ n ≤ bound, o = .recvExact n) (fun _ _ => True) []

theorem wp_fromUtf8Or {message : String} {bs : Bytes} {G : Calls → Op → Prop} {hist : Calls} :
    (fromUtf8Or message bs).wp G (fun _ _ => True) hist := by
  rw [fromUtf8Or]
  cases fromUtf8 bs <;> trivial

theorem readsAtMost_recv {bound n : ℕ} (h : n ≤ bound) {hist : Calls} :
    (recvExact n).wp (fun _ o => ∃ n ≤ bound, o = .recvExact n) (fun _ _ => True) hist :=
  ⟨⟨n, h, rfl⟩, fun _ => wp_orIo.mpr fun _ _ => trivial⟩

/-! ### Frames one after another -/

section stream

variable {α : Type} {frame : α → Bytes} {as : List α}

/-- A loop that writes frames accepts them all or fails, and sends them in order. -/
theorem run_each_write {write : α → Io NativeError Unit} {P : α → Prop}
    (hwrite : ∀ a (s : Store) (w : Wire) s' w', (write a).run handler (s, w) = (.ok (), (s', w')) ↔
      P a ∧ s' = s ∧ w' = w.sent (frame a)) :
    (Prog.each as write).run handler (s, w) = (.ok (), (s', w')) ↔
      (∀ a ∈ as, P a) ∧ s' = s ∧ w' = w.sent (as.flatMap frame) := by
  induction as generalizing w with
  | nil => simp [eq_comm]
  | cons a as ih =>
    rw [Prog.each_cons, Prog.run_bind_eq_ok]
    constructor
    · rintro ⟨⟨⟩, ⟨s₁, w₁⟩, ha, has⟩
      obtain ⟨hP, rfl, rfl⟩ := (hwrite ..).mp ha
      obtain ⟨hPs, rfl, rfl⟩ := ih.mp has
      exact ⟨List.forall_mem_cons.mpr ⟨hP, hPs⟩, rfl, by rw [Wire.sent_sent, List.flatMap_cons]⟩
    · rintro ⟨hP, rfl, rfl⟩
      obtain ⟨hPa, hPs⟩ := List.forall_mem_cons.mp hP
      refine ⟨(), (s', w.sent (frame a)), (hwrite ..).mpr ⟨hPa, rfl, rfl⟩, ih.mpr ⟨hPs, rfl, ?_⟩⟩
      rw [Wire.sent_sent, List.flatMap_cons]

/-- A loop that reads frames returns them in order and leaves what follows. -/
theorem run_times_read {read : Io NativeError α}
    (hread : ∀ a ∈ as, ∀ w : Wire, read.run handler (s, w.unread (frame a)) = (.ok a, (s, w))) :
    (Prog.times as.length read).run handler (s, w.unread (as.flatMap frame)) =
      (.ok as, (s, w)) := by
  induction as with
  | nil => rfl
  | cons a as ih =>
    obtain ⟨ha, has⟩ := List.forall_mem_cons.mp hread
    rw [List.length_cons, Prog.times, List.flatMap_cons, ← Wire.unread_unread,
      Prog.run_bind_ok _ (ha _), Prog.run_bind_ok _ (ih has)]
    rfl

end stream

/-! ### Chunks -/

def frameBytes (chunk : TransferChunk) : Bytes := (chunkBlocks chunk).flatten

section chunk

variable [Primitives] {chunk : TransferChunk}

/-- The chunk is one that `write_chunk_frame` takes. -/
structure TransferChunk.Writable (chunk : TransferChunk) : Prop where
  fileId : isBlank chunk.fileId = false
  idLength : (utf8 chunk.fileId).length < 2 ^ 16
  blake3 : chunk.blake3 = blake3Hex chunk.bytes
  bytes : chunk.bytes ≠ []
  frame : chunk.frameLen < 2 ^ 32

/-- **`write_chunk_frame`** takes the writable chunks and appends their frames. -/
theorem run_writeChunkFrame_eq_ok : (writeChunkFrame chunk).run handler (s, w) = (.ok (), (s', w')) ↔
    chunk.Writable ∧ s' = s ∧ w' = w.sent (frameBytes chunk) := by
  have hsend : ∀ sw : Store × Wire, (do
      sendAll (toBeBytes 4 chunk.frameLen)
      sendAll (toBeBytes 2 (utf8 chunk.fileId).length)
      sendAll (utf8 chunk.fileId)
      sendAll (toBeBytes 8 chunk.offset)
      sendAll (utf8 chunk.blake3)
      sendAll (toBeBytes 4 chunk.bytes.length)
      sendAll chunk.bytes : Io NativeError Unit).run handler sw =
        (.ok (), (sw.1, sw.2.sent (frameBytes chunk))) := by
    intro sw
    simp [sendAll, handler, exec, orIo, Except.mapError, Wire.sent, frameBytes, chunkBlocks]
  rw [writeChunkFrame]
  constructor
  · intro h
    dsimp only at h
    split_ifs at h with h1 h2 h3 h4 h5 h6 h7
    · cases h
    · cases h
    · cases h
    · cases h
    · cases h
    · cases h
    · cases h
    · obtain ⟨-, hsw⟩ := Prod.mk.inj ((hsend (s, w)).symm.trans h)
      obtain ⟨rfl, rfl⟩ := Prod.mk.inj hsw
      exact ⟨⟨by simpa using h1, by omega, (not_not.mp h4).symm, h3, by omega⟩,
        rfl, rfl⟩
  · rintro ⟨hw, rfl, rfl⟩
    have hframe := hw.frame
    have hbytes : chunk.bytes.length ≤ chunk.frameLen := Nat.le_add_left _ _
    rw [if_neg (by simp [hw.fileId]), if_neg (by
        rw [hw.blake3, length_utf8_blake3Hex, isAsciiHexdigit_blake3Hex]; simp),
      if_neg hw.bytes, if_neg (by simp [hw.blake3])]
    dsimp only
    rw [if_neg (by have := hw.idLength; omega), if_neg (by omega), if_neg (by omega)]
    exact hsend (s', w)

theorem length_frameBytes (h : chunk.blake3 = blake3Hex chunk.bytes) :
    (frameBytes chunk).length = 4 + chunk.frameLen := by
  simp only [frameBytes, chunkBlocks, List.flatten_cons, List.flatten_nil, List.length_append,
    length_toBeBytes, h, length_utf8_blake3Hex, TransferChunk.frameLen, List.length_nil]
  omega

/-- **`read_chunk_frame`** returns a chunk exactly when the input starts with
its frame, and leaves the rest. -/
theorem run_readChunkFrame_eq_ok : readChunkFrame.run handler (s, w) = (.ok chunk, (s', w')) ↔
    chunk.Readable ∧ s' = s ∧ w = w'.unread (frameBytes chunk) := by
  constructor
  · intro h
    rw [readChunkFrame] at h
    obtain ⟨head, w₁, hhead, rfl, h₁⟩ := run_recvExact_bind_eq_ok.mp h
    dsimp only at h₁
    split_ifs at h₁ with hsmall hbig
    · cases h₁
    · cases h₁
    obtain ⟨idLen, w₂, hidLen, rfl, h₂⟩ := run_recvExact_bind_eq_ok.mp h₁
    split_ifs at h₂ with hid
    · cases h₂
    obtain ⟨id, w₃, hidLength, rfl, h₃⟩ := run_recvExact_bind_eq_ok.mp h₂
    obtain ⟨fileId, rfl, h₄⟩ := run_fromUtf8Or_bind_eq_ok.mp h₃
    obtain ⟨offset, w₅, hoffset, rfl, h₅⟩ := run_recvExact_bind_eq_ok.mp h₄
    obtain ⟨digest, w₆, hdigest, rfl, h₆⟩ := run_recvExact_bind_eq_ok.mp h₅
    obtain ⟨blake3, rfl, h₇⟩ := run_fromUtf8Or_bind_eq_ok.mp h₆
    obtain ⟨len, w₈, hlen, rfl, h₈⟩ := run_recvExact_bind_eq_ok.mp h₇
    split_ifs at h₈ with hsum
    · cases h₈
    obtain ⟨bytes, w₉, hbytes, rfl, h₉⟩ := run_recvExact_bind_eq_ok.mp h₈
    split_ifs at h₉ with hmatch
    · cases h₉
    obtain ⟨hchunk, hsw⟩ := Prod.mk.inj h₉
    obtain ⟨rfl, rfl⟩ := Prod.mk.inj hsw
    obtain rfl := Except.ok.inj hchunk
    -- each header is the encoding of what was read from it
    have hidLt := ofBeBytes_lt idLen
    have hoffsetLt := ofBeBytes_lt offset
    rw [hidLen] at hidLt
    rw [hoffset] at hoffsetLt
    have hframe : ofBeBytes head = (TransferChunk.mk fileId (ofBeBytes offset) blake3 bytes).frameLen := by
      simp only [TransferChunk.frameLen]
      omega
    have hidLength' : (utf8 fileId).length < 2 ^ 16 := by omega
    refine ⟨⟨?_, hidLength', hoffsetLt, (not_not.mp hmatch).symm, by omega⟩, rfl, ?_⟩
    · intro hnil
      simp only [hnil, List.length_nil] at hidLength
      omega
    · have h1 := toBeBytes_ofBeBytes hhead
      have h2 := toBeBytes_ofBeBytes hidLen
      have h3 := toBeBytes_ofBeBytes hoffset
      have h4 := toBeBytes_ofBeBytes hlen
      rw [hframe] at h1
      rw [← hidLength] at h2
      rw [← hbytes] at h4
      simp only [Wire.unread_unread, frameBytes, chunkBlocks, h1, h2, h3, h4, List.flatten_cons,
        List.flatten_nil, List.append_nil]
  · rintro ⟨hread, rfl, rfl⟩
    have hruns := runs_readChunkFrame (I := fun _ => True) (p := ⟨s', w'.unread (frameBytes chunk), []⟩)
      hread (fun _ _ => trivial) (List.prefix_append _ _)
    have hrun := Runs.run_handler hruns
    simpa [Party.got, Wire.unread, frameBytes] using hrun

/-- A frame that is written and exceeds the maximum is refused. -/
theorem run_readChunkFrame_large (hw : chunk.Writable) (hbig : maxChunkFrameBytes < chunk.frameLen) :
    (readChunkFrame.run handler (s, w.unread (frameBytes chunk))).1 =
      .error (.protocol "chunk frame exceeds maximum size") := by
  obtain ⟨tail, htail⟩ : ∃ tail, frameBytes chunk = toBeBytes 4 chunk.frameLen ++ tail := ⟨_, rfl⟩
  have hrecv : (recvExact 4).run handler (s, w.unread (frameBytes chunk)) =
      (.ok (toBeBytes 4 chunk.frameLen), (s, w.unread tail)) := by
    simp [recvExact, handler, exec, htail, Wire.unread, orIo, Except.mapError]
  have hdecode : ofBeBytes (toBeBytes 4 chunk.frameLen) = chunk.frameLen :=
    ofBeBytes_toBeBytes hw.frame
  have hmax : 78 ≤ maxChunkFrameBytes := by decide
  rw [readChunkFrame, Prog.run_bind_ok _ hrecv]
  dsimp only
  rw [hdecode, if_neg (by omega), if_pos (by omega)]
  rfl

theorem readsAtMost_readChunkFrame : ReadsAtMost maxChunkFrameBytes readChunkFrame := by
  have hmax : 64 ≤ maxChunkFrameBytes := by decide
  refine Prog.wp_bind_of (readsAtMost_recv (by omega)) fun h₁ head _ _ => ?_
  refine Prog.wp_ite (fun _ => trivial) fun _ => Prog.wp_ite (fun _ => trivial) fun hbig => ?_
  refine Prog.wp_bind_of (readsAtMost_recv (by omega)) fun h₂ idLen _ _ => ?_
  refine Prog.wp_ite (fun _ => trivial) fun hid => ?_
  refine Prog.wp_bind_of (readsAtMost_recv (by omega)) fun h₃ id _ _ => ?_
  refine Prog.wp_bind_of wp_fromUtf8Or fun h₄ fileId _ _ => ?_
  refine Prog.wp_bind_of (readsAtMost_recv (by omega)) fun h₅ offset _ _ => ?_
  refine Prog.wp_bind_of (readsAtMost_recv (by omega)) fun h₆ digest _ _ => ?_
  refine Prog.wp_bind_of wp_fromUtf8Or fun h₇ blake3 _ _ => ?_
  refine Prog.wp_bind_of (readsAtMost_recv (by omega)) fun h₈ len _ _ => ?_
  refine Prog.wp_ite (fun _ => trivial) fun hsum => ?_
  -- the lengths add up to that of the frame, so the last read is within the bound
  refine Prog.wp_bind_of (readsAtMost_recv (by omega)) fun h₉ bytes _ _ => ?_
  exact Prog.wp_ite (fun _ => trivial) fun _ => trivial

/-- A sum on a 64-bit `usize`, with no result when an addition overflows. -/
def sumUsize (terms : List ℕ) : Option ℕ :=
  terms.foldlM (fun acc n => if acc + n < 2 ^ 64 then some (acc + n) else none) 0

theorem readable_of_times {n : ℕ} {chunks : List TransferChunk} {sw sw' : Store × Wire}
    (h : (Prog.times n readChunkFrame).run handler sw = (.ok chunks, sw')) :
    ∀ chunk ∈ chunks, chunk.Readable := by
  induction n generalizing chunks sw sw' with
  | zero =>
    obtain rfl := Except.ok.inj (Prod.mk.inj h).1
    exact fun _ hmem => absurd hmem List.not_mem_nil
  | succ n ih =>
    obtain ⟨chunk, _, hread, h⟩ := (Prog.run_bind_eq_ok handler).mp h
    obtain ⟨rest, _, hrest, h⟩ := (Prog.run_bind_eq_ok handler).mp h
    obtain rfl := Except.ok.inj (Prod.mk.inj h).1
    exact List.forall_mem_cons.mpr ⟨(run_readChunkFrame_eq_ok.mp hread).1, ih hrest⟩

/-- **A stream of chunks is read back** if no frame is larger than the reader
takes, and only then: what `write_chunk_frame` made of a sequence of chunks,
`read_chunk_frame` turns into that sequence, and it leaves what follows unread. -/
theorem chunks_round_trip {chunks : List TransferChunk}
    (hwrite : (Prog.each chunks writeChunkFrame).run handler (s, w) = (.ok (), (s', w')))
    (hoffset : ∀ chunk ∈ chunks, chunk.offset < 2 ^ 64) :
    ∃ written, w' = w.sent written ∧
      ((∀ (suffix : Bytes) (s₁ : Store) (w₁ : Wire),
        (Prog.times chunks.length readChunkFrame).run handler
            (s₁, { w₁ with inp := written ++ suffix }) =
          (.ok chunks, (s₁, { w₁ with inp := suffix }))) ↔
        ∀ chunk ∈ chunks, chunk.frameLen ≤ maxChunkFrameBytes) := by
  obtain ⟨hwritable, rfl, rfl⟩ :=
    (run_each_write fun _ _ _ _ _ => run_writeChunkFrame_eq_ok).mp hwrite
  refine ⟨_, rfl, fun h chunk hchunk => ?_, fun hmax suffix s₁ w₁ => ?_⟩
  · exact (readable_of_times (h [] s' w) chunk hchunk).frame
  · refine run_times_read (w := { w₁ with inp := suffix }) fun chunk hchunk rest => ?_
    have hw := hwritable chunk hchunk
    exact run_readChunkFrame_eq_ok.mpr ⟨⟨utf8_ne_nil hw.fileId, hw.idLength, hoffset chunk hchunk,
      hw.blake3, hmax chunk hchunk⟩, rfl, rfl⟩

/-- **The chunk reader is bounded and canonical.**  It asks for no buffer above
the maximum and its sum does not overflow; it takes the length it has read and
the four bytes of the length itself; and what it takes are the bytes the writer
makes of the chunk. -/
theorem readChunkFrame_canonical :
    ReadsAtMost maxChunkFrameBytes readChunkFrame ∧
    (∀ idLen len : Bytes, idLen.length = 2 → len.length = 4 →
      sumUsize [2, ofBeBytes idLen, 8, 64, 4, ofBeBytes len] =
        some (2 + ofBeBytes idLen + 8 + 64 + 4 + ofBeBytes len)) ∧
    (∀ s w s' w' chunk, readChunkFrame.run handler (s, w) = (.ok chunk, (s', w')) →
      ∃ frame, w.inp = frame ++ w'.inp ∧ frame.length = 4 + ofBeBytes (frame.take 4) ∧
        ∀ s₁ w₁ s₂ w₂, (writeChunkFrame chunk).run handler (s₁, w₁) = (.ok (), (s₂, w₂)) →
          w₂.out = w₁.out ++ frame) ∧
    ∀ chunk s₁ s₂ w₁ w₂ frame₁ frame₂,
      readChunkFrame.run handler (s₁, { w₁ with inp := frame₁ ++ w₁.inp }) = (.ok chunk, (s₁, w₁)) →
      readChunkFrame.run handler (s₂, { w₂ with inp := frame₂ ++ w₂.inp }) = (.ok chunk, (s₂, w₂)) →
      frame₁ = frame₂ := by
  refine ⟨readsAtMost_readChunkFrame, fun idLen len hidLen hlen => ?_,
    fun s w s' w' chunk h => ?_, fun chunk s₁ s₂ w₁ w₂ frame₁ frame₂ h₁ h₂ => ?_⟩
  · have h1 := ofBeBytes_lt idLen
    have h2 := ofBeBytes_lt len
    rw [hidLen] at h1
    rw [hlen] at h2
    have hsum : 2 + ofBeBytes idLen + 8 + 64 + 4 + ofBeBytes len < 2 ^ 64 := by omega
    simp only [sumUsize, List.foldlM_cons, List.foldlM_nil, Option.bind_eq_bind]
    rw [if_pos (by omega), Option.bind_some, if_pos (by omega), Option.bind_some,
      if_pos (by omega), Option.bind_some, if_pos (by omega), Option.bind_some,
      if_pos (by omega), Option.bind_some, if_pos (by omega), Option.bind_some, Nat.zero_add]
    rfl
  · obtain ⟨hread, rfl, rfl⟩ := run_readChunkFrame_eq_ok.mp h
    have hmax : chunk.frameLen ≤ maxChunkFrameBytes := hread.frame
    have hhead : (frameBytes chunk).take 4 = toBeBytes 4 chunk.frameLen :=
      List.take_left' (length_toBeBytes _ _)
    have hlt : chunk.frameLen < 256 ^ 4 := lt_of_le_of_lt hmax (by decide)
    refine ⟨frameBytes chunk, rfl, ?_, fun s₁ w₁ s₂ w₂ hwrite => ?_⟩
    · rw [hhead, ofBeBytes_toBeBytes hlt, length_frameBytes hread.blake3]
    · rw [(run_writeChunkFrame_eq_ok.mp hwrite).2.2]
      rfl
  · have e₁ : frame₁ = frameBytes chunk := Wire.unread_inj (run_readChunkFrame_eq_ok.mp h₁).2.2
    have e₂ : frame₂ = frameBytes chunk := Wire.unread_inj (run_readChunkFrame_eq_ok.mp h₂).2.2
    rw [e₁, e₂]

end chunk

section samples

def sampleChunk (offset : ℕ) (bytes : Bytes) : TransferChunk :=
  ⟨"file-1", offset, @blake3Hex .sample bytes, bytes⟩

/-- Two chunks through the wire, with one byte after them. -/
theorem chunks_round_trip_two :
    ∃ written, written ≠ [] ∧
      (Prog.times 2 (@readChunkFrame .sample)).run handler
          (.fresh, { Wire.fresh with inp := written ++ [7] }) =
        (.ok [sampleChunk 0 [1, 2], sampleChunk 2 [3]], (.fresh, { Wire.fresh with inp := [7] })) := by
  let _ : Primitives := .sample
  have hwritable : ∀ chunk ∈ [sampleChunk 0 [1, 2], sampleChunk 2 [3]], chunk.Writable := by
    simp only [List.forall_mem_cons, List.not_mem_nil, false_implies, implies_true, and_true]
    exact ⟨⟨by decide, by decide, rfl, by decide, by decide⟩,
      ⟨by decide, by decide, rfl, by decide, by decide⟩⟩
  have hwrite := (run_each_write (s := .fresh) (w := .fresh) fun _ _ _ _ _ =>
    run_writeChunkFrame_eq_ok).mpr ⟨hwritable, rfl, rfl⟩
  obtain ⟨written, hsent, hread⟩ := chunks_round_trip hwrite (by decide)
  refine ⟨written, ?_, hread.mpr (by decide) [7] .fresh .fresh⟩
  rintro rfl
  exact absurd (congrArg Wire.out hsent) (by decide +kernel)

/-- A chunk of 8 MiB is written, and its frame is refused. -/
theorem large_chunk_refused :
    ∃ written, (@writeChunkFrame .sample (sampleChunk 0 (List.replicate (8 * 1024 * 1024) 0))).run
        handler (.fresh, .fresh) = (.ok (), (.fresh, { Wire.fresh with out := written })) ∧
      ((@readChunkFrame .sample).run handler (.fresh, { Wire.fresh with inp := written })).1 =
        .error (.protocol "chunk frame exceeds maximum size") := by
  let _ : Primitives := .sample
  -- only the length of the bytes matters, so they stay a variable
  suffices H : ∀ bytes : Bytes, bytes.length = 8 * 1024 * 1024 → ∃ written,
      (writeChunkFrame (sampleChunk 0 bytes)).run handler (.fresh, .fresh) =
        (.ok (), (.fresh, { Wire.fresh with out := written })) ∧
      (readChunkFrame.run handler (.fresh, { Wire.fresh with inp := written })).1 =
        .error (.protocol "chunk frame exceeds maximum size") from H _ List.length_replicate
  intro bytes hbytes
  have hid : (utf8 "file-1").length = 6 := by decide
  have hlen : (sampleChunk 0 bytes).frameLen = 84 + 8 * 1024 * 1024 := by
    rw [TransferChunk.frameLen, sampleChunk, hbytes, hid]
  have hw : (sampleChunk 0 bytes).Writable := by
    have hblank : isBlank "file-1" = false := by decide
    refine ⟨hblank, by rw [sampleChunk, hid]; omega, rfl, ?_, by omega⟩
    exact List.ne_nil_of_length_pos (by rw [sampleChunk, hbytes]; omega)
  have hbig : maxChunkFrameBytes < (sampleChunk 0 bytes).frameLen := by
    rw [hlen, maxChunkFrameBytes]
    omega
  refine ⟨frameBytes (sampleChunk 0 bytes), run_writeChunkFrame_eq_ok.mpr ⟨hw, rfl, rfl⟩, ?_⟩
  simpa [Wire.unread, Wire.fresh] using run_readChunkFrame_large (s := .fresh) (w := .fresh) hw hbig

end samples

/-! ### Control messages -/

section control

variable [Serde] {message : ControlMessage}

/-- **`write_control`** takes the messages that fit a frame and appends their
frames. -/
theorem run_writeControl_eq_ok : (writeControl message).run handler (s, w) = (.ok (), (s', w')) ↔
    FitsFrame message ∧ s' = s ∧ w' = w.sent (controlBlocks message).flatten := by
  constructor
  · intro h
    rw [writeControl] at h
    cases hpayload : messagePayload message with
    | error e =>
      rw [hpayload] at h
      cases h
    | ok payload =>
      simp only [hpayload, Except.mapError, Prog.ofExcept_ok, Prog.ret_bind] at h
      split_ifs at h with hlen
      · cases h
      · have hsend : ∀ (bytes : Bytes) (w : Wire),
            (sendAll bytes).run handler (s, w) = (.ok (), (s, w.sent bytes)) := fun _ _ => rfl
        rw [Prog.run_bind_ok _ (hsend _ _), hsend] at h
        obtain ⟨-, hsw⟩ := Prod.mk.inj h
        obtain ⟨rfl, rfl⟩ := Prod.mk.inj hsw
        refine ⟨⟨payload, hpayload, by rw [List.length_cons] at hlen; omega⟩, rfl, ?_⟩
        rw [Wire.sent_sent, controlBlocks, hpayload]
        simp
  · rintro ⟨hfits, rfl, rfl⟩
    exact Runs.run_handler (runs_writeControl (I := fun _ => True) (p := ⟨s', w, []⟩) hfits
      fun _ => trivial)

/-- **`read_control`** succeeds exactly when the input starts with the length
and the bytes of a frame that decodes, and leaves the rest. -/
theorem run_readControl_eq_ok : readControl.run handler (s, w) = (.ok message, (s', w')) ↔
    ∃ frame, frame ≠ [] ∧ frame.length ≤ maxControlFrameBytes ∧ decodeFrame frame = .ok message ∧
      s' = s ∧ w = w'.unread (toBeBytes 4 frame.length ++ frame) := by
  rw [readControl, run_recvExact_bind_eq_ok]
  constructor
  · rintro ⟨head, w₁, hhead, rfl, h⟩
    dsimp only at h
    split_ifs at h with hzero hbig
    · cases h
    · cases h
    obtain ⟨frame, w₂, hframe, rfl, h₂⟩ := run_recvExact_bind_eq_ok.mp h
    rw [Prog.run_ofExcept] at h₂
    obtain ⟨hdecode, hsw⟩ := Prod.mk.inj h₂
    obtain ⟨rfl, rfl⟩ := Prod.mk.inj hsw
    refine ⟨frame, ?_, by omega, hdecode, rfl, ?_⟩
    · rintro rfl
      exact hzero hframe.symm
    · rw [Wire.unread_unread, hframe, toBeBytes_ofBeBytes hhead]
  · rintro ⟨frame, hne, hmax, hdecode, rfl, rfl⟩
    have hlt : frame.length < 256 ^ 4 := lt_of_le_of_lt hmax (by decide)
    have hpos := List.length_pos_iff.mpr hne
    refine ⟨toBeBytes 4 frame.length, w'.unread frame, length_toBeBytes _ _,
      (Wire.unread_unread ..).symm, ?_⟩
    rw [ofBeBytes_toBeBytes hlt]
    dsimp only
    rw [if_neg (by omega), if_neg (by omega), run_recvExact_bind_eq_ok]
    exact ⟨frame, w', rfl, rfl, by rw [Prog.run_ofExcept, hdecode]⟩

theorem readsAtMost_readControl : ReadsAtMost maxControlFrameBytes readControl := by
  refine Prog.wp_bind_of (readsAtMost_recv (by decide)) fun h₁ head _ _ => ?_
  refine Prog.wp_ite (fun _ => trivial) fun _ => Prog.wp_ite (fun _ => trivial) fun hbig => ?_
  refine Prog.wp_bind_of (readsAtMost_recv (by omega)) fun h₂ frame _ _ => ?_
  exact Prog.wp_ofExcept.mpr fun _ _ => trivial

/-- **A stream of control messages is read back**, when `serde_json` reads what
it writes, and what follows is left unread.  The reader asks for no buffer above
the maximum, and takes the length it has read and the four bytes of the length
itself. -/
theorem controls_round_trip (hserde : Serde.RoundTrips) :
    (∀ (messages : List ControlMessage) s w s' w',
      (Prog.each messages writeControl).run handler (s, w) = (.ok (), (s', w')) →
      ∃ written, w' = w.sent written ∧ ∀ (suffix : Bytes) (s₁ : Store) (w₁ : Wire),
        (Prog.times messages.length readControl).run handler
            (s₁, { w₁ with inp := written ++ suffix }) =
          (.ok messages, (s₁, { w₁ with inp := suffix }))) ∧
    ReadsAtMost maxControlFrameBytes readControl ∧
    ∀ s w s' w' message, readControl.run handler (s, w) = (.ok message, (s', w')) →
      ∃ frame, w.inp = frame ++ w'.inp ∧ frame.length = 4 + ofBeBytes (frame.take 4) := by
  refine ⟨fun messages s w s' w' hwrite => ?_, readsAtMost_readControl,
    fun s w s' w' message h => ?_⟩
  · obtain ⟨hfits, rfl, rfl⟩ := (run_each_write fun _ _ _ _ _ => run_writeControl_eq_ok).mp hwrite
    refine ⟨_, rfl, fun suffix s₁ w₁ => ?_⟩
    refine run_times_read (w := { w₁ with inp := suffix }) fun message hmessage rest => ?_
    obtain ⟨payload, hpayload, hlen⟩ := hfits message hmessage
    refine run_readControl_eq_ok.mpr ⟨messageType message :: payload, List.cons_ne_nil _ _, hlen,
      decodeFrame_of_payload hserde hpayload, rfl, ?_⟩
    simp [controlBlocks, hpayload]
  · obtain ⟨frame, -, hmax, -, rfl, rfl⟩ := run_readControl_eq_ok.mp h
    have hlt : frame.length < 256 ^ 4 := lt_of_le_of_lt hmax (by decide)
    refine ⟨toBeBytes 4 frame.length ++ frame, rfl, ?_⟩
    rw [List.take_left' (length_toBeBytes _ _), ofBeBytes_toBeBytes hlt, List.length_append,
      length_toBeBytes]

end control

/-- Two messages for the table codec. -/
def sampleMessages : List ControlMessage :=
  [.cancel ⟨"tx", "stop"⟩, .done ⟨"tx"⟩]

/-- Two messages through the wire, with one byte after them. -/
theorem controls_round_trip_two :
    ∃ written, written ≠ [] ∧
      (Prog.times 2 (@readControl (.table sampleMessages))).run handler
          (.fresh, { Wire.fresh with inp := written ++ [7] }) =
        (.ok sampleMessages, (.fresh, { Wire.fresh with inp := [7] })) := by
  let _ : Serde := .table sampleMessages
  obtain ⟨written, hsent, hread⟩ := (controls_round_trip (roundTrips_table (by decide +kernel))).1
    sampleMessages .fresh .fresh _ _ rfl
  refine ⟨written, ?_, hread [7] .fresh .fresh⟩
  rintro rfl
  exact absurd (congrArg Wire.out hsent) (by decide +kernel)

end NightBridge.Native
