/-
# Frames between the two ends of a connection

`Party` is one end of a native connection: its store, its wire, and a log of
what it has read and of the chunks it has recorded.  `quic` makes two of them a
session: what one end sends is fed to the other, and a read waits until enough
has arrived.

What one end writes as a frame the other end reads as that frame, block by
block: control messages when they fit a frame (`runs_writeControl`,
`runs_readControl`), chunks when `write_chunk_frame` takes them and they are not
too large to be read (`runs_writeChunkFrame`, `runs_readChunkFrame`).
-/

import NightBridge.Effect.Session
import NightBridge.Native.Framing

namespace NightBridge.Native

open Data Effect

/-! ### One end of a connection -/

/-- What the log of a connection shows. -/
inductive Entry
  /-- The bytes one read returned. -/
  | read (bytes : Bytes)
  /-- A chunk was recorded in the manifest. -/
  | stored (row : ChunkRow)
  deriving DecidableEq

/-- What a call adds to the log. -/
def entry : (o : Op) → Resp o → Option Entry
  | .recvExact _, .ok bytes => some (.read bytes)
  | .replaceChunk row, .ok _ => some (.stored row)
  | _, _ => none

/-- One end of a connection. -/
@[ext]
structure Party where
  store : Store
  wire : Wire
  log : List Entry

namespace Party

def feed (bytes : Bytes) (p : Party) : Party :=
  { p with wire := { p.wire with inp := p.wire.inp ++ bytes } }

def sent (p : Party) (bytes : Bytes) : Party :=
  { p with wire := { p.wire with out := p.wire.out ++ bytes } }

def got (p : Party) (blocks : List Bytes) : Party where
  store := p.store
  wire := { p.wire with inp := p.wire.inp.drop blocks.flatten.length }
  log := p.log ++ blocks.map .read

@[simp] theorem feed_log (p : Party) (bytes : Bytes) : (p.feed bytes).log = p.log := rfl
@[simp] theorem feed_inp (p : Party) (bytes : Bytes) :
    (p.feed bytes).wire.inp = p.wire.inp ++ bytes := rfl
@[simp] theorem sent_log (p : Party) (bytes : Bytes) : (p.sent bytes).log = p.log := rfl
@[simp] theorem sent_inp (p : Party) (bytes : Bytes) : (p.sent bytes).wire.inp = p.wire.inp := rfl
@[simp] theorem got_store (p : Party) (blocks : List Bytes) : (p.got blocks).store = p.store := rfl
@[simp] theorem got_log (p : Party) (blocks : List Bytes) :
    (p.got blocks).log = p.log ++ blocks.map .read := rfl

theorem sent_sent (p : Party) (bytes bytes' : Bytes) :
    (p.sent bytes).sent bytes' = p.sent (bytes ++ bytes') := by
  simp [sent]

theorem got_got (p : Party) (blocks blocks' : List Bytes) :
    (p.got blocks).got blocks' = p.got (blocks ++ blocks') := by
  simp [got]

end Party

/-- The two ends of a connection. -/
def quic : Link Op Resp Party UInt8 where
  exec o p :=
    let r := exec o p.store p.wire
    (r.1, ⟨r.2.1, r.2.2, p.log ++ (entry o r.1).toList⟩)
  waits
    | .recvExact n, p => decide (p.wire.inp.length < n)
    | _, _ => false
  sends
    | .sendAll bytes => bytes
    | _ => []
  feed := Party.feed
  feed_nil p := by simp [Party.feed]
  feed_append bytes bytes' p := by simp [Party.feed]
  waits_feed o bytes p h := by
    cases o with
    | recvExact n =>
      simp only [decide_eq_false_iff_not, not_lt] at h ⊢
      simp only [Party.feed, List.length_append]
      omega
    | _ => rfl
  exec_feed o bytes p h := by
    cases o with
    | recvExact n =>
      simp only [decide_eq_false_iff_not, not_lt] at h
      simp [exec, Party.feed, h, List.take_append_of_le_length, List.drop_append_of_le_length,
        show n ≤ p.wire.inp.length + bytes.length by omega]
    | createDirAll path =>
      simp only [exec, Party.feed]
      cases p.store.fs.createDirAll path <;> rfl
    | openWrite path =>
      simp only [exec, Party.feed]
      cases p.store.fs.openWrite path <;> rfl
    | writeAt file offset written =>
      simp only [exec, Party.feed]
      split_ifs <;> rfl
    | rename source target =>
      simp only [exec, Party.feed]
      cases p.store.fs.rename source target <;> rfl
    | insertTransfer row files =>
      simp only [exec, Party.feed]
      cases p.store.manifest.insertTransfer row files <;> rfl
    | replaceChunk row =>
      simp only [exec, Party.feed]
      cases p.store.manifest.replaceChunk row <;> rfl
    | _ => rfl

/-! ### Reading and sending -/

/-- The next blocks to read have arrived. -/
def Party.Next (p : Party) (blocks : List Bytes) : Prop := blocks.flatten <+: p.wire.inp

theorem Party.Next.head {p : Party} {block : Bytes} {blocks : List Bytes}
    (h : p.Next (block :: blocks)) :
    block <+: p.wire.inp :=
  (List.prefix_append block blocks.flatten).trans h

theorem Party.Next.tail {p : Party} {block : Bytes} {blocks : List Bytes}
    (h : p.Next (block :: blocks)) :
    (p.got [block]).Next blocks := by
  obtain ⟨rest, hrest⟩ := h
  refine ⟨rest, ?_⟩
  simp [Party.got, ← hrest]

section wire

variable {I : Party → Prop} {p : Party} (hI : ∀ wire log, I ⟨p.store, wire, log⟩)

include hI

theorem runs_recvExact {n : ℕ} {block : Bytes} {blocks : List Bytes} (hlen : block.length = n)
    (hnext : p.Next (block :: blocks)) : Runs quic I (recvExact n) p [] block (p.got [block]) := by
  obtain ⟨rest, hrest⟩ := hnext.head
  have hle : n ≤ p.wire.inp.length := by
    rw [← hrest, List.length_append]
    omega
  refine Runs.one (r := .ok block) (decide_eq_false (by omega)) ?_ (hI _ _) rfl
  have htake : p.wire.inp.take n = block := by rw [← hrest, ← hlen, List.take_left]
  simp [quic, exec, hle, htake, entry, Party.got, hlen]

omit hI in
theorem runs_sendAll (hI : ∀ wire, I ⟨p.store, wire, p.log⟩) (bytes : Bytes) :
    Runs quic I (sendAll bytes) p bytes () (p.sent bytes) :=
  Runs.one (r := .ok ()) rfl (by simp [quic, exec, entry, Party.sent]) (hI _) rfl

end wire

/-! ### Control messages -/

section control

variable [Serde]

/-- `serde_json` reads back what it writes. -/
structure Serde.RoundTrips : Prop where
  hello : Serde.hello.RoundTrips
  helloAck : Serde.helloAck.RoundTrips
  requestTransfer : Serde.requestTransfer.RoundTrips
  accept : Serde.accept.RoundTrips
  chunkAck : Serde.chunkAck.RoundTrips
  cancel : Serde.cancel.RoundTrips
  done : Serde.done.RoundTrips
  resumeRequest : Serde.resumeRequest.RoundTrips

omit [Serde] in
theorem sublist_entriesOf {α : Type} (kind : ControlMessage → Option α) (messages : List ControlMessage) :
    ((entriesOf kind messages).map (·.2.bytes)).Sublist (messages.map (·.json.bytes)) := by
  induction messages with
  | nil => exact .slnil
  | cons message messages ih =>
    rw [entriesOf, List.filterMap_cons]
    cases kind message with
    | none => exact ih.cons _
    | some a => exact ih.cons_cons _

omit [Serde] in
theorem roundTrips_table {messages : List ControlMessage} (h : (messages.map (·.json.bytes)).Nodup) :
    @Serde.RoundTrips (.table messages) :=
  have hall : ∀ {α : Type} [DecidableEq α] (kind : ControlMessage → Option α),
      (Json.table (entriesOf kind messages)).RoundTrips := fun kind =>
    Json.roundTrips_table ((sublist_entriesOf kind messages).nodup h)
  @Serde.RoundTrips.mk (.table messages) (hall _) (hall _) (hall _) (hall _) (hall _) (hall _)
    (hall _) (hall _)

/-- The message can be encoded and fits one control frame. -/
def FitsFrame (message : ControlMessage) : Prop :=
  ∃ payload, messagePayload message = .ok payload ∧ payload.length < maxControlFrameBytes

instance (message : ControlMessage) : Decidable (FitsFrame message) :=
  decidable_of_iff ((messagePayload message).toOption.any (·.length < maxControlFrameBytes) = true) (by
    unfold FitsFrame
    cases messagePayload message <;> simp [Except.toOption])

/-- The blocks a control frame is made of. -/
def controlBlocks (message : ControlMessage) : List Bytes :=
  match messagePayload message with
  | .ok payload => [toBeBytes 4 (payload.length + 1), messageType message :: payload]
  | .error _ => []

omit [Serde] in
theorem decodeAs_of_toVec {α : Type} {json : Json α} (hjson : json.RoundTrips) {a : α}
    {payload : Bytes} (h : json.toVec a = .ok payload) (wrap : α → ControlMessage) :
    decodeAs json wrap payload = .ok (wrap a) := by
  rw [decodeAs, hjson a payload h]
  rfl

theorem decodeFrame_of_payload (hserde : Serde.RoundTrips) {message : ControlMessage}
    {payload : Bytes} (h : messagePayload message = .ok payload) :
    decodeFrame (messageType message :: payload) = .ok message := by
  cases message with
  | hello m => exact decodeAs_of_toVec hserde.hello h .hello
  | helloAck m => exact decodeAs_of_toVec hserde.helloAck h .helloAck
  | requestTransfer m => exact decodeAs_of_toVec hserde.requestTransfer h .requestTransfer
  | accept m => exact decodeAs_of_toVec hserde.accept h .accept
  | chunkAck m => exact decodeAs_of_toVec hserde.chunkAck h .chunkAck
  | cancel m => exact decodeAs_of_toVec hserde.cancel h .cancel
  | done m => exact decodeAs_of_toVec hserde.done h .done
  | resumeRequest m => exact decodeAs_of_toVec hserde.resumeRequest h .resumeRequest

variable {I : Party → Prop} {p : Party} {message : ControlMessage} (hfits : FitsFrame message)

include hfits

/-- **A control message written.** -/
theorem runs_writeControl (hI : ∀ wire, I ⟨p.store, wire, p.log⟩) :
    Runs quic I (writeControl message) p (controlBlocks message).flatten ()
      (p.sent (controlBlocks message).flatten) := by
  obtain ⟨payload, hpayload, hlen⟩ := hfits
  have hblocks : (controlBlocks message).flatten =
      toBeBytes 4 (payload.length + 1) ++ messageType message :: payload := by
    simp [controlBlocks, hpayload]
  have hpay : (messagePayload message).mapError NativeError.json = .ok payload := by
    rw [hpayload]
    rfl
  rw [writeControl, hblocks, ← Party.sent_sent]
  refine (Runs.ofExcept hpay).then ?_
  rw [if_neg (by rw [List.length_cons]; omega)]
  exact (runs_sendAll hI _).bind (runs_sendAll (p := p.sent _) hI _)

/-- **A control message read back.** -/
theorem runs_readControl (hI : ∀ wire log, I ⟨p.store, wire, log⟩) (hserde : Serde.RoundTrips)
    (hnext : p.Next (controlBlocks message)) :
    Runs quic I readControl p [] message (p.got (controlBlocks message)) := by
  obtain ⟨payload, hpayload, hlen⟩ := hfits
  have hblocks : controlBlocks message =
      [toBeBytes 4 (payload.length + 1), messageType message :: payload] := by
    simp [controlBlocks, hpayload]
  rw [hblocks] at hnext ⊢
  have hmax : payload.length + 1 ≤ maxControlFrameBytes := hlen
  have hsize : ofBeBytes (toBeBytes 4 (payload.length + 1)) = payload.length + 1 :=
    ofBeBytes_toBeBytes (lt_of_le_of_lt hmax (by decide))
  rw [readControl, show p.got [toBeBytes 4 (payload.length + 1), messageType message :: payload] =
    (p.got [toBeBytes 4 (payload.length + 1)]).got [messageType message :: payload] by
      rw [Party.got_got]; rfl]
  refine (runs_recvExact hI (length_toBeBytes _ _) hnext).then ?_
  rw [hsize, if_neg (by omega), if_neg (by omega)]
  refine (runs_recvExact (p := p.got _) hI (List.length_cons ..) hnext.tail).then ?_
  exact Runs.ofExcept (decodeFrame_of_payload hserde hpayload)

end control

/-! ### Chunks -/

section chunk

variable [Primitives]

/-- The chunk has a frame that `read_chunk_frame` takes. -/
structure TransferChunk.Readable (chunk : TransferChunk) : Prop where
  fileId : utf8 chunk.fileId ≠ []
  idLength : (utf8 chunk.fileId).length < 2 ^ 16
  offset : chunk.offset < 2 ^ 64
  blake3 : chunk.blake3 = blake3Hex chunk.bytes
  frame : chunk.frameLen ≤ maxChunkFrameBytes

/-- Moreover, it is one that `write_chunk_frame` takes. -/
structure TransferChunk.Fits (chunk : TransferChunk) : Prop extends chunk.Readable where
  nonblank : isBlank chunk.fileId = false
  bytes : chunk.bytes ≠ []

theorem length_utf8_blake3Hex (bytes : Bytes) : (utf8 (blake3Hex bytes)).length = 64 := by
  rw [utf8, blake3Hex, hex, String.toList_ofList, Core.Fingerprint.length_utf8_hexChars,
    (Primitives.blake3 bytes).2]

theorem isAsciiHexdigit_blake3Hex (bytes : Bytes) :
    (blake3Hex bytes).toList.all isAsciiHexdigit = true := by
  rw [blake3Hex, hex, String.toList_ofList, List.all_eq_true]
  exact fun c hc => isAsciiHexdigit_of_mem_hexChars hc

omit [Primitives] in
theorem utf8_ne_nil {s : String} (h : isBlank s = false) : utf8 s ≠ [] := by
  intro hnil
  have hs : s = "" := by
    have := fromUtf8_utf8 s
    rw [hnil] at this
    exact (Option.some.inj this).symm
  rw [hs] at h
  cases h

variable {I : Party → Prop} {p : Party} {chunk : TransferChunk}

/-- **A chunk written.** -/
theorem runs_writeChunkFrame (hfits : chunk.Fits) (hI : ∀ wire, I ⟨p.store, wire, p.log⟩) :
    Runs quic I (writeChunkFrame chunk) p (chunkBlocks chunk).flatten ()
      (p.sent (chunkBlocks chunk).flatten) := by
  have hmax : maxChunkFrameBytes < 2 ^ 32 := by decide
  have hframe := hfits.frame
  have hbytes : chunk.bytes.length ≤ chunk.frameLen := Nat.le_add_left _ _
  rw [writeChunkFrame, if_neg (by simp [hfits.nonblank]), if_neg (by
      rw [hfits.blake3, length_utf8_blake3Hex, isAsciiHexdigit_blake3Hex]; simp),
    if_neg hfits.bytes, if_neg (by simp [hfits.blake3])]
  dsimp only
  rw [if_neg (by have := hfits.idLength; omega), if_neg (by omega), if_neg (by omega)]
  have hsent : p.sent (chunkBlocks chunk).flatten = ((((((p.sent (toBeBytes 4 chunk.frameLen)).sent
      (toBeBytes 2 (utf8 chunk.fileId).length)).sent (utf8 chunk.fileId)).sent
      (toBeBytes 8 chunk.offset)).sent (utf8 chunk.blake3)).sent
      (toBeBytes 4 chunk.bytes.length)).sent chunk.bytes := by
    simp [Party.sent_sent, chunkBlocks]
  rw [hsent]
  simp only [chunkBlocks, List.flatten_cons, List.flatten_nil, List.append_nil]
  refine (runs_sendAll hI _).bind ((runs_sendAll (p := p.sent _) hI _).bind ?_)
  refine (runs_sendAll (p := (p.sent _).sent _) hI _).bind ?_
  refine (runs_sendAll (p := ((p.sent _).sent _).sent _) hI _).bind ?_
  refine (runs_sendAll (p := (((p.sent _).sent _).sent _).sent _) hI _).bind ?_
  refine (runs_sendAll (p := ((((p.sent _).sent _).sent _).sent _).sent _) hI _).bind ?_
  exact runs_sendAll (p := (((((p.sent _).sent _).sent _).sent _).sent _).sent _) hI _

/-- **A chunk read back.** -/
theorem runs_readChunkFrame (hread : chunk.Readable) (hI : ∀ wire log, I ⟨p.store, wire, log⟩)
    (hnext : p.Next (chunkBlocks chunk)) :
    Runs quic I readChunkFrame p [] chunk (p.got (chunkBlocks chunk)) := by
  have hmax : maxChunkFrameBytes < 2 ^ 32 := by decide
  have hframe := hread.frame
  have hlen : ofBeBytes (toBeBytes 4 chunk.frameLen) = chunk.frameLen := ofBeBytes_toBeBytes (by omega)
  rw [TransferChunk.frameLen] at hframe
  have hid : ofBeBytes (toBeBytes 2 (utf8 chunk.fileId).length) = (utf8 chunk.fileId).length :=
    ofBeBytes_toBeBytes hread.idLength
  have hoffset : ofBeBytes (toBeBytes 8 chunk.offset) = chunk.offset := ofBeBytes_toBeBytes hread.offset
  have hbytes : ofBeBytes (toBeBytes 4 chunk.bytes.length) = chunk.bytes.length :=
    ofBeBytes_toBeBytes (by omega)
  have hpos : (utf8 chunk.fileId).length ≠ 0 := by
    rw [Ne, List.length_eq_zero_iff]
    exact hread.fileId
  have hutf8 : ∀ (message s : String) {q : Party},
    Runs quic I (fromUtf8Or message (utf8 s)) q [] s q := by
    intro message s q
    rw [fromUtf8Or, fromUtf8_utf8]
    exact .ret
  have hgot : p.got (chunkBlocks chunk) = ((((((p.got [toBeBytes 4 chunk.frameLen]).got
    [toBeBytes 2 (utf8 chunk.fileId).length]).got
      [utf8 chunk.fileId]).got [toBeBytes 8 chunk.offset]).got [utf8 chunk.blake3]).got
      [toBeBytes 4 chunk.bytes.length]).got [chunk.bytes] := by
    simp only [Party.got_got]
    rfl
  rw [hgot, readChunkFrame]
  rw [chunkBlocks] at hnext
  refine (runs_recvExact hI (length_toBeBytes _ _) hnext).then ?_
  rw [hlen, TransferChunk.frameLen, if_neg (by omega), if_neg (by omega)]
  refine (runs_recvExact (p := p.got _) hI (length_toBeBytes _ _) hnext.tail).then ?_
  rw [hid, if_neg (by omega)]
  refine (runs_recvExact (p := (p.got _).got _) hI rfl hnext.tail.tail).then ((hutf8 _ _).then ?_)
  refine (runs_recvExact (p := ((p.got _).got _).got _) hI (length_toBeBytes _ _)
    hnext.tail.tail.tail).then ?_
  refine (runs_recvExact (p := (((p.got _).got _).got _).got _) hI
    (by rw [hread.blake3, length_utf8_blake3Hex])
    hnext.tail.tail.tail.tail).then ((hutf8 _ _).then ?_)
  refine (runs_recvExact (p := ((((p.got _).got _).got _).got _).got _) hI (length_toBeBytes _ _)
    hnext.tail.tail.tail.tail.tail).then ?_
  rw [hbytes, if_neg (by omega)]
  refine (runs_recvExact (p := (((((p.got _).got _).got _).got _).got _).got _) hI rfl
    hnext.tail.tail.tail.tail.tail.tail).then ?_
  rw [if_neg (by simp [hread.blake3]), hoffset]
  exact .ret

end chunk

end NightBridge.Native
