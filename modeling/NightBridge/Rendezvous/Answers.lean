/-
# What a stream does to the registry, and what its client reads

Each stream of the server is served on its own: its task reads one frame, calls
the registry at most once, and writes one frame.  `reply` is the response by the
message, the time at which it was read and the registry it found;
`among_serveStream` follows the task and finds that response written as a frame,
whatever the other tasks do between its calls.  `rpc_exact` reads it from the
client's side, and `stream_once` from the registry's.
-/

import NightBridge.Rendezvous.Late

namespace NightBridge.Rendezvous

open Data Effect

/-! ### Frames -/

theorem parseFrame_frame {bytes : Bytes} (h : bytes.length ≤ maxFrameBytes) :
    parseFrame (toBeBytes 4 bytes.length ++ bytes) = .ok bytes := by
  have hsize : ofBeBytes (toBeBytes 4 bytes.length) = bytes.length :=
    ofBeBytes_toBeBytes (lt_of_le_of_lt h (by decide))
  have htake : (toBeBytes 4 bytes.length ++ bytes).take 4 = toBeBytes 4 bytes.length :=
    List.take_left' (length_toBeBytes ..)
  have hdrop : (toBeBytes 4 bytes.length ++ bytes).drop 4 = bytes :=
    List.drop_left' (length_toBeBytes ..)
  rw [parseFrame, if_neg (by simp), htake, hdrop, hsize]
  dsimp only
  rw [if_neg (by omega), if_neg (by omega), List.take_length]

theorem parseFrame_of_frame? {x : Except String Bytes} {bytes : Bytes} (h : frame? x = some bytes) :
    ∃ payload, x = .ok payload ∧ parseFrame bytes = .ok payload := by
  unfold frame? at h
  split at h
  · split_ifs at h with hlen
    obtain rfl := Option.some.inj h
    exact ⟨_, rfl, parseFrame_frame (Nat.not_lt.mp hlen)⟩
  · cases h

/-! ### Following a task -/

/-- The calls of a task, each with the state it found. -/
abbrev SeenCalls := List (Prog.Seen Op Resp Shared)

/-- More calls were made, none of the registry. -/
def Further (seen seen' : SeenCalls) : Prop :=
  ∃ more, seen' = seen ++ more ∧ ∀ e ∈ more, e.2.op.Plain

theorem Further.refl (seen : SeenCalls) : Further seen seen := ⟨[], by simp⟩

theorem Further.trans {seen seen' seen'' : SeenCalls} (h : Further seen seen')
    (h' : Further seen' seen'') : Further seen seen'' := by
  obtain ⟨more, rfl, hmore⟩ := h
  obtain ⟨more', rfl, hmore'⟩ := h'
  refine ⟨more ++ more', by simp, fun e he => ?_⟩
  rcases List.mem_append.mp he with he | he
  · exact hmore e he
  · exact hmore' e he

theorem Further.one (seen : SeenCalls) {e : Prog.Seen Op Resp Shared}
    (h : e.2.op.Plain) : Further seen (seen ++ [e]) :=
  ⟨[e], rfl, by simpa using h⟩

/-- Nothing was written in between. -/
def Wire.SameOut (w w' : Wire) : Prop := w'.out = w.out ∧ w'.room = w.room

/-- The calls that are not of the registry are free, and a call of the registry
is the first one and satisfies `P`. -/
def Once (P : TimedCall → Prop) (seen : SeenCalls) (_ : Wire) (o : Op) : Prop :=
  ∀ c, o = .call c → (∀ e ∈ seen, e.2.op.Plain) ∧ P c

theorem once_of_plain {P : TimedCall → Prop} {seen : SeenCalls} {w : Wire} {o : Op}
    (h : o.Plain) : Once P seen w o := fun c hc => absurd hc (h c)

section tasks

variable [SocketAddrs] {J : Shared → Prop} {P : TimedCall → Prop} {w : Wire}
  {seen : SeenCalls}

theorem among_recvExact {n : ℕ} {text : String}
    {Q : SeenCalls → Wire → Except String Bytes → Prop}
    (hok : n ≤ w.inp.length → ∀ seen', Further seen seen' →
      Q seen' { w with inp := w.inp.drop n } (.ok (w.inp.take n)))
    (herror : w.inp.length < n → ∀ seen' w', Further seen seen' → w.SameOut w' →
      Q seen' w' (.error text)) :
    (recvExact n text).among exec J (Once P) Q w seen := by
  refine ⟨once_of_plain (by simp [Op.Plain]), fun s _ => ?_⟩
  have hfurther : ∀ r, Further seen (seen ++ [(s, ⟨.recvExact n, r⟩)]) := fun r =>
    .one seen (by simp [Op.Plain])
  simp only [exec]
  split_ifs with h
  · exact hok h _ (hfurther _)
  · exact herror (by omega) _ _ (hfurther _) ⟨rfl, rfl⟩

/-- **A frame read** is the one that the bytes of the stream begin with. -/
theorem among_readFrame {Q : SeenCalls → Wire → Except String Bytes → Prop}
    (hQ : ∀ seen' w', Further seen seen' → w.SameOut w' → Q seen' w' (parseFrame w.inp)) :
    readFrame.among exec J (Once P) Q w seen := by
  refine Prog.among_bind (among_recvExact (fun hlen seen' hseen' => ⟨?_, by simp⟩)
    fun hlen seen' w' hseen' hw' => ⟨by simp, ?_⟩)
  · rintro _ ⟨⟩
    rw [parseFrame, if_neg (by omega)] at hQ
    dsimp only at hQ ⊢
    split_ifs with hmax
    · rw [if_pos hmax] at hQ
      exact hQ _ _ hseen' ⟨rfl, rfl⟩
    · rw [if_neg hmax] at hQ
      refine among_recvExact (fun hbody seen'' hseen'' => ?_) fun hbody seen'' w'' hseen'' hw'' => ?_
      · rw [if_neg (Nat.not_lt.mpr hbody)] at hQ
        exact hQ _ _ (hseen'.trans hseen'') ⟨rfl, rfl⟩
      · rw [if_pos hbody] at hQ
        exact hQ _ _ (hseen'.trans hseen'') hw''
  · rintro _ ⟨⟩
    rw [parseFrame, if_pos hlen] at hQ
    exact hQ _ _ hseen' hw'

theorem among_sendAll {bytes : Bytes} {text : String}
    {Q : SeenCalls → Wire → Except String Unit → Prop}
    (hQ : ∀ seen' r, Further seen seen' → (r = .ok () ↔ bytes.length ≤ w.room) →
      Q seen' { w with out := w.out ++ bytes.take w.room, room := w.room - bytes.length } r) :
    (sendAll bytes text).among exec J (Once P) Q w seen := by
  refine ⟨once_of_plain (by simp [Op.Plain]), fun s _ => ?_⟩
  have hfurther : ∀ r, Further seen (seen ++ [(s, ⟨.sendAll bytes, r⟩)]) := fun r =>
    .one seen (by simp [Op.Plain])
  simp only [exec]
  by_cases h : bytes.length ≤ w.room
  · simp only [h, decide_true]
    exact hQ _ _ (hfurther _) (by simp [h])
  · simp only [h, decide_false]
    exact hQ _ _ (hfurther _) (by simp [h])

/-- **A frame written**, as far as the peer takes it. -/
theorem among_writeFrame {bytes : Bytes} (hlen : bytes.length ≤ maxFrameBytes)
    {Q : SeenCalls → Wire → Except String Unit → Prop}
    (hQ : ∀ seen' w' r, Further seen seen' →
      w'.out = w.out ++ (toBeBytes 4 bytes.length ++ bytes).take w.room → Q seen' w' r) :
    (writeFrame bytes).among exec J (Once P) Q w seen := by
  have hheader : (toBeBytes 4 bytes.length).length = 4 := length_toBeBytes ..
  rw [writeFrame, if_neg (Nat.not_lt.mpr hlen)]
  refine Prog.among_bind (among_sendAll fun seen' r hseen' hr => ⟨?_, ?_⟩)
  · rintro _ rfl
    refine among_sendAll fun seen'' r hseen'' _ => hQ _ _ _ (hseen'.trans hseen'') ?_
    have hroom : (toBeBytes 4 bytes.length).length ≤ w.room := hr.mp rfl
    rw [List.take_append, List.take_of_length_le hroom, List.append_assoc]
  · rintro e rfl
    have hroom : ¬ (toBeBytes 4 bytes.length).length ≤ w.room := fun h => by cases hr.mpr h
    refine hQ _ _ _ hseen' ?_
    rw [List.take_append_of_le_length (Nat.le_of_not_le hroom)]

end tasks

/-! ### The task of a stream -/

/-- The call of the registry that a message asks for. -/
def asked : ClientMessage → Option Call
  | .register request => some (.register request)
  | .lookup request => some (.lookup request.targetPubkey)
  | .notify request => some (.queueNotify request)
  | .ping => none

/-- The response to the result of a call of the registry. -/
def replied {α : Type} (wrap : α → ServerMessage) : Except Failure α → Option ServerMessage
  | .ok response => some (wrap response)
  | .error (.error e) => some (registryErrorResponse e)
  | .error .panic => none

section serve

variable [SocketAddrs] {J : Shared → Prop} {w : Wire} {seen : SeenCalls}

/-- The response to a message, read at a time, from a registry; none if the call
panics. -/
def reply (now : ℕ) (registry : Registry) : ClientMessage → Option ServerMessage
  | .register request => replied .registered (registry.register now request).1
  | .lookup request => some (.lookupResult ⟨(registry.lookup now request.targetPubkey).1⟩)
  | .notify request => replied .notifyQueued (registry.queueNotify now request).1
  | .ping => some .pong

/-- The response comes from the registry that the call of the task found. -/
def FromRegistry (message : ClientMessage) (response : ServerMessage)
    (seen : SeenCalls) : Prop :=
  ∃ s now, reply now s.registry message = some response ∧
    ∀ c, asked message = some c → ∃ r, (s, ⟨.call (now, c), r⟩) ∈ seen

theorem FromRegistry.mono {message : ClientMessage} {response : ServerMessage}
    {seen' : SeenCalls} (h : FromRegistry message response seen)
    (hseen : Further seen seen') : FromRegistry message response seen' := by
  obtain ⟨s, now, hreply, hcall⟩ := h
  obtain ⟨more, rfl, -⟩ := hseen
  refine ⟨s, now, hreply, fun c hc => ?_⟩
  obtain ⟨r, hr⟩ := hcall c hc
  exact ⟨r, List.mem_append_left _ hr⟩

/-- The response goes with what arrived: an error, or what the registry returned. -/
def Answers (read : Except String ClientMessage) (response : ServerMessage)
    (seen : SeenCalls) : Prop :=
  match read with
  | .error text => response = .error ⟨"bad_request", text⟩
  | .ok message => FromRegistry message response seen

theorem Answers.mono {read : Except String ClientMessage} {response : ServerMessage}
    {seen' : SeenCalls} (h : Answers read response seen)
    (hseen : Further seen seen') : Answers read response seen' := by
  cases read with
  | error text => exact h
  | ok message => exact FromRegistry.mono h hseen

/-- What a task may call of the registry, by what it read. -/
def Asked (read : Except String ClientMessage) (c : TimedCall) : Prop :=
  ∃ message, read = .ok message ∧ asked message = some c.2

omit [SocketAddrs] in
theorem among_respond {α : Type} {P : TimedCall → Prop} {wrap : α → ServerMessage}
    {exec : (o : Op) → Shared → Wire → Resp o × Shared × Wire}
    {r : Except Failure α} {Q : SeenCalls → Wire → Except Panic ServerMessage → Prop}
    (hok : ∀ response, replied wrap r = some response → Q seen w (.ok response))
    (hpanic : Q seen w (.error .panicked)) :
    (respond wrap r).among exec J (Once P) Q w seen := by
  rcases r with (e | _) | response
  · exact hok _ rfl
  · exact hpanic
  · exact hok _ rfl

/-- **The response to what was read.** -/
theorem among_responseTo {read : Except String ClientMessage} (hseen : ∀ e ∈ seen, e.2.op.Plain)
    {Q : SeenCalls → Wire → Except Panic ServerMessage → Prop}
    (hok : ∀ seen' response, Answers read response seen' → Q seen' w (.ok response))
    (hpanic : ∀ seen', Q seen' w (.error .panicked)) :
    (responseTo read).among exec J (Once (Asked read)) Q w seen := by
  cases read with
  | error text => exact hok _ _ rfl
  | ok message =>
    refine ⟨once_of_plain (by simp [Op.Plain]), fun s _ => ?_⟩
    -- the clock has been read, and no call of the registry made
    have hfirst : ∀ c, asked message = some c →
        Once (Asked (.ok message)) (seen ++ [(s, ⟨.now, s.clock⟩)]) w (.call (s.clock, c)) := by
      rintro c hc _ ⟨⟩
      refine ⟨fun e he => ?_, message, rfl, hc⟩
      rcases List.mem_append.mp he with he | he
      · exact hseen e he
      · rw [List.mem_singleton.mp he]
        simp [Op.Plain]
    have hanswer : ∀ s' c r response, asked message = some c →
        reply s.clock s'.registry message = some response →
        Answers (.ok message) response (seen ++ [(s, ⟨.now, s.clock⟩)] ++ [(s', ⟨.call (s.clock, c), r⟩)]) := by
      refine fun s' c r response hc hr => ⟨s', s.clock, hr, fun c' hc' => ?_⟩
      obtain rfl := Option.some.inj (hc.symm.trans hc')
      exact ⟨r, List.mem_append_right _ (List.mem_singleton_self _)⟩
    cases message with
    | register request =>
      exact ⟨hfirst _ rfl, fun s' _ => among_respond (fun _ hr => hok _ _ (hanswer _ _ _ _ rfl hr)) (hpanic _)⟩
    | lookup request => exact ⟨hfirst _ rfl, fun s' _ => hok _ _ (hanswer s' _ _ _ rfl rfl)⟩
    | notify request =>
      exact ⟨hfirst _ rfl, fun s' _ => among_respond (fun _ hr => hok _ _ (hanswer _ _ _ _ rfl hr)) (hpanic _)⟩
    | ping => exact hok _ _ ⟨s, s.clock, rfl, by rintro _ ⟨⟩⟩

variable [Serde]

theorem among_readClientMessage {P : TimedCall → Prop}
    {Q : SeenCalls → Wire → Except String ClientMessage → Prop}
    (hQ : ∀ seen' w', Further seen seen' → w.SameOut w' → Q seen' w' (parseRequest w.inp)) :
    readClientMessage.among exec J (Once P) Q w seen := by
  refine Prog.among_bind (among_readFrame fun seen' w' hseen' hw' => ⟨fun bytes hbytes => ?_, fun e he => ?_⟩)
  · have hparse := hQ seen' w' hseen' hw'
    rw [parseRequest, hbytes, ok_bind] at hparse
    cases hslice : Serde.client.fromSlice bytes with
    | ok message =>
      rw [hslice] at hparse
      exact hparse
    | error text =>
      rw [hslice] at hparse
      exact hparse
  · have hparse := hQ seen' w' hseen' hw'
    rwa [parseRequest, he] at hparse

/-- **A response written.** -/
theorem among_writeServerMessage {P : TimedCall → Prop} (response : ServerMessage)
    {Q : SeenCalls → Wire → Except String Unit → Prop}
    (hQ : ∀ seen' w' r, Further seen seen' →
      w'.out = w.out ++ ((frame? (Serde.server.toVec response)).getD []).take w.room → Q seen' w' r) :
    (writeServerMessage response).among exec J (Once P) Q w seen := by
  unfold writeServerMessage
  cases hvec : Serde.server.toVec response with
  | error text => exact hQ _ _ _ (.refl seen) (by simp [hvec, frame?])
  | ok bytes =>
    by_cases hlen : bytes.length ≤ maxFrameBytes
    · refine among_writeFrame hlen fun seen' w' r hseen' hout => hQ seen' w' r hseen' ?_
      rw [hout, hvec, frame?, if_neg (Nat.not_lt.mpr hlen), Option.getD_some]
    · simp only [writeFrame, if_pos (Nat.not_le.mp hlen)]
      exact hQ _ _ _ (.refl seen) (by simp [hvec, frame?, Nat.not_le.mp hlen])

/-- What is on a stream when its task is over, or has panicked. -/
def Served (inp : Bytes) (room : ℕ) (seen : SeenCalls) (w : Wire) :
    Except Panic Unit → Prop
  | .ok () => w.finished = true ∧ ∃ response, Answers (parseRequest inp) response seen ∧
      w.out = ((frame? (Serde.server.toVec response)).getD []).take room
  | .error _ => w.out = []

/-- **The task of a stream**, among any others. -/
theorem among_serveStream (inp : Bytes) (room : ℕ) :
    serveStream.among exec J (Once (Asked (parseRequest inp))) (Served inp room) (.incoming inp room) [] := by
  refine Prog.among_bind (Prog.among_attempt (among_readClientMessage fun seen w ⟨more, hmore, hplain⟩ hw =>
    ⟨?_, by simp⟩))
  rintro _ ⟨⟩
  obtain rfl : seen = more := hmore
  obtain ⟨hout, hroom⟩ := hw
  refine Prog.among_bind (among_responseTo hplain (fun seen response hresponse => ⟨?_, by simp⟩)
    fun seen => ⟨by simp, fun e _ => hout⟩)
  rintro _ ⟨⟩
  refine Prog.among_bind (Prog.among_attempt (among_writeServerMessage response
    fun seen' w' r hseen' hw' => ⟨fun _ _ => ?_, by simp⟩))
  refine ⟨once_of_plain (by simp [Op.Plain]), fun s _ => ?_⟩
  refine ⟨rfl, response, (hresponse.mono hseen').mono (.one _ (by simp [Op.Plain])), ?_⟩
  change w'.out = _
  rw [hw', hout, hroom]
  rfl

end serve

/-! ### The client's side -/

/-- `serde_json` reads back what it writes. -/
structure Serde.RoundTrips [Serde] : Prop where
  client : Serde.client.RoundTrips
  server : Serde.server.RoundTrips

/-- What a client makes of the result of a call of the registry; a panic gives
no answer. -/
def clientResult {α : Type} : Except Failure α → Option (Except ClientError α)
  | .ok response => some (.ok response)
  | .error (.error e) => some (.error (.server ⟨"registry_error", e.text⟩))
  | .error .panic => none

section client

variable [Serde]

theorem parseRequest_requestBytes (hserde : Serde.RoundTrips) {message : ClientMessage} {bytes : Bytes}
    (h : requestBytes message = some bytes) : parseRequest bytes = .ok message := by
  obtain ⟨payload, hvec, hparse⟩ := parseFrame_of_frame? h
  rw [parseRequest, hparse, ok_bind, hserde.client message payload hvec]
  rfl

theorem readServerMessage_frame (hserde : Serde.RoundTrips) {response : ServerMessage} {bytes : Bytes}
    (h : frame? (Serde.server.toVec response) = some bytes) : readServerMessage bytes = .ok response := by
  obtain ⟨payload, hvec, hparse⟩ := parseFrame_of_frame? h
  rw [readServerMessage, hparse, ok_bind, hserde.server response payload hvec]
  rfl

omit [Serde] in
theorem length_frame {x : Except String Bytes} {bytes : Bytes} (h : frame? x = some bytes) :
    bytes.length ≤ 4 + maxFrameBytes := by
  unfold frame? at h
  split at h
  · split_ifs at h with hlen
    obtain rfl := Option.some.inj h
    rw [List.length_append, length_toBeBytes]
    omega
  · cases h

variable [SocketAddrs]

/-- The client's call returns what the registry returned. -/
def Delivered (now : ℕ) (registry : Registry) (answer : Bytes) : ClientMessage → Prop
  | .register request => clientResult (registry.register now request).1 = some (clientRegister answer)
  | .lookup request => clientLookup answer = .ok ⟨(registry.lookup now request.targetPubkey).1⟩
  | .notify request => clientResult (registry.queueNotify now request).1 = some (clientNotify answer)
  | .ping => readServerMessage answer = .ok .pong

omit [SocketAddrs] in
theorem clientResult_of_replied {α : Type} {wrap : α → ServerMessage} {response? : ServerMessage → Option α}
    {r : Except Failure α} {response : ServerMessage} {answer : Bytes} (h : replied wrap r = some response)
    (hread : readServerMessage answer = .ok response) (hwrap : ∀ a, response? (wrap a) = some a)
    (herror : ∀ e, response? (.error e) = none) : clientResult r = some (expect response? answer) := by
  rcases r with (e | _) | a
  · obtain rfl := Option.some.inj h
    simp [clientResult, expect, hread, registryErrorResponse, herror]
  · cases h
  · obtain rfl := Option.some.inj h
    simp [clientResult, expect, hread, hwrap]

/-- **A client reads a response to its own request.** -/
theorem delivered_of_reply {message : ClientMessage} {response : ServerMessage} {now : ℕ}
    {registry : Registry} {answer : Bytes} (hreply : reply now registry message = some response)
    (hread : readServerMessage answer = .ok response) : Delivered now registry answer message := by
  cases message with
  | register request =>
    simp only [reply, Delivered] at hreply ⊢
    exact clientResult_of_replied hreply hread (fun _ => rfl) fun _ => rfl
  | lookup request =>
    obtain rfl := Option.some.inj hreply
    simp [Delivered, clientLookup, expect, hread]
  | notify request =>
    simp only [reply, Delivered] at hreply ⊢
    exact clientResult_of_replied hreply hread (fun _ => rfl) fun _ => rfl
  | ping =>
    obtain rfl := Option.some.inj hreply
    exact hread

/-! ### All interleavings -/

variable {maxTtl : ℕ}

/-- What `among` says of the task of a stream holds at any time. -/
theorem among_stream (env : Environment) (maxTtl : ℕ) (schedule : List Task) (i : ℕ) :
    (((env.server maxTtl).run exec schedule).rest (.stream i)).among exec (fun _ => True)
      (Once (Asked (parseRequest (env.requests i)))) (Served (env.requests i) (env.room i))
      (((env.server maxTtl).run exec schedule).own (.stream i))
      (((env.server maxTtl).run exec schedule).seen (.stream i)) :=
  Pool.among_rest (i := Task.stream i) (among_serveStream (env.requests i) (env.room i)) fun _ _ => trivial

/-- **A remote call returns what the registry returned.**  A client writes a
request on a stream of its own, whatever other streams bring and however the
tasks take turns.  When the task of the stream is over, the registry has been
called with just that request, at a time `now` not ahead of the clock, in a
state that the calls before made of it; and the client returns what that call
returned, as a value or as the registry's error.  The one exception is a
response too large for a frame: then nothing is written.  The client never finds
a response of another kind. -/
theorem rpc_exact (hserde : Serde.RoundTrips) (env : Environment) (schedule : List Task) (i : ℕ)
    {message : ClientMessage} {c : Call} (hasked : asked message = some c)
    (hrequest : requestBytes message = some (env.requests i)) (hroom : 4 + maxFrameBytes ≤ env.room i)
    (hdone : ((env.server maxTtl).run exec schedule).rest (.stream i) = .ret ()) :
    ∃ (s : Shared) (now : ℕ), now ≤ s.clock ∧
      s.registry = after Registry.handle (.new maxTtl) (s.calls.map Event.op) ∧
      s.log ++ [(s.clock, ⟨(now, c), (Registry.handle (now, c) s.registry).1⟩)] <+:
        ((env.server maxTtl).run exec schedule).shared.log ∧
      (Delivered now s.registry (((env.server maxTtl).run exec schedule).own (.stream i)).out message ∨
        (∃ response, reply now s.registry message = some response ∧
          frame? (Serde.server.toVec response) = none) ∧
        (((env.server maxTtl).run exec schedule).own (.stream i)).out = []) := by
  have hserved := among_stream env maxTtl schedule i
  rw [hdone] at hserved
  obtain ⟨-, response, hanswers, hout⟩ := hserved
  rw [parseRequest_requestBytes hserde hrequest] at hanswers
  obtain ⟨s, now, hreply, hcall⟩ := hanswers
  obtain ⟨r, hmem⟩ := hcall c hasked
  obtain ⟨hsound, hle, rfl, hlog⟩ := (consistent_run env maxTtl schedule).served hmem
  refine ⟨s, now, hle, hsound.registry, hlog, ?_⟩
  cases hframe : frame? (Serde.server.toVec response) with
  | none =>
    rw [hframe, Option.getD_none, List.take_nil] at hout
    exact .inr ⟨⟨response, hreply, hframe⟩, hout⟩
  | some bytes =>
    rw [hframe, Option.getD_some, List.take_of_length_le ((length_frame hframe).trans hroom)] at hout
    rw [hout]
    exact .inl (delivered_of_reply hreply (readServerMessage_frame hserde hframe))

end client

theorem Serde.roundTrips_sample : @Serde.RoundTrips Serde.sample :=
  @Serde.RoundTrips.mk Serde.sample (Native.Json.roundTrips_table (by decide +kernel))
    (Native.Json.roundTrips_table (by decide +kernel))

/-- A lookup reads the clock, and its peer is registered before it is served. -/
def earlySchedule : List Task :=
  List.replicate 3 (.stream 1) ++ List.replicate 7 (.stream 0) ++ List.replicate 4 (.stream 1)

/-- The run of that schedule. -/
def earlyRun [Serde] [SocketAddrs] : Pool Op Resp Panic Unit Shared Wire Task :=
  (Environment.sample.server (120 * nanosPerSec)).run exec earlySchedule

theorem earlyRun_done : (@earlyRun .sample .sample).rest (.stream 1) = .ret () :=
  Prog.eq_ret_of_outcome? (by decide +kernel)

/-- The lookup finds it, and so does its client. -/
theorem rpc_exact_lookup :
    ∃ (s : Shared) (now : ℕ), now ≤ s.clock ∧
      s.registry = after (@Registry.handle .sample) (.new (120 * nanosPerSec)) (s.calls.map Event.op) ∧
      s.log ++ [(s.clock, ⟨(now, .lookup (.pad [1])),
        (@Registry.handle .sample (now, .lookup (.pad [1])) s.registry).1⟩)] <+:
          (@earlyRun .sample .sample).shared.log ∧
      (@Delivered .sample .sample now s.registry ((@earlyRun .sample .sample).own (.stream 1)).out
          (.lookup ⟨.pad [2], .pad [1]⟩) ∨
        (∃ response, @reply .sample now s.registry (.lookup ⟨.pad [2], .pad [1]⟩) = some response ∧
          frame? (Serde.sample.server.toVec response) = none) ∧
        ((@earlyRun .sample .sample).own (.stream 1)).out = []) := by
  have hdone := earlyRun_done
  unfold earlyRun at hdone ⊢
  exact @rpc_exact .sample .sample (120 * nanosPerSec) Serde.roundTrips_sample Environment.sample
    earlySchedule 1
    (.lookup ⟨.pad [2], .pad [1]⟩) (.lookup (.pad [1])) rfl (by decide +kernel) (Nat.le_refl _) hdone

/-- The call of the registry that a task made, if it is one. -/
def registryCall : Event Op Resp → Option TimedCall
  | ⟨.call c, _⟩ => some c
  | _ => none

theorem registryCall_of_plain {e : Event Op Resp} (h : e.op.Plain) : registryCall e = none := by
  obtain ⟨o, r⟩ := e
  cases o with
  | call c => exact absurd rfl (h c)
  | recvExact | sendAll | finish | now | prune | elapse => rfl

section once

variable [Serde]

theorem plain_others (env : Environment) (maxTtl : ℕ) {i : Task} (hi : ∀ n, i ≠ .stream n) :
    ((env.server maxTtl).rest i).wp (fun _ o => o.Plain) (fun _ _ => True) [] := by
  have heach : ∀ {α : Type} (xs : List α) (body : α → Io Panic Unit), (∀ x, (body x).Only Op.Plain) →
      (Prog.each xs body).wp (fun _ o => o.Plain) (fun _ _ => True) [] := fun xs body h =>
    Prog.wp_mono ((Prog.only_each h xs).wp_returned (fun _ _ ho => ho) []) (fun _ _ _ h => h)
      fun _ _ _ _ => trivial
  cases i with
  | stream n => exact absurd rfl (hi n)
  | pruner => exact heach _ _ fun _ => .call (by simp [Op.Plain]) fun _ => .ret ()
  | time => exact heach _ _ fun _ => .call (by simp [Op.Plain]) fun _ => .ret ()

variable [SocketAddrs]

/-- What is in the log of the registry, and what each stream called. -/
structure Attributed (env : Environment) (pool : Pool Op Resp Panic Unit Shared Wire Task) : Prop where
  log : ∀ entry ∈ pool.shared.log,
    entry.2.op.2 = .pruneExpired ∨ ∃ i, Asked (parseRequest (env.requests i)) entry.2.op
  stream : ∀ i, (pool.calls (.stream i)).filterMap registryCall = [] ∨
    ∃ c, (pool.calls (.stream i)).filterMap registryCall = [c] ∧ Asked (parseRequest (env.requests i)) c

omit [Serde] in
/-- A call that is not of the registry leaves its log, but for pruning. -/
theorem log_exec_of_plain {o : Op} (h : o.Plain) (s : Shared) (w : Wire) :
    ∀ entry ∈ (exec o s w).2.1.log, entry ∈ s.log ∨ entry.2.op.2 = .pruneExpired := by
  intro entry hentry
  cases o with
  | call c => exact absurd rfl (h c)
  | recvExact n =>
    rw [exec] at hentry
    split_ifs at hentry <;> exact .inl hentry
  | sendAll | finish | now | elapse => exact .inl hentry
  | prune =>
    rcases List.mem_append.mp hentry with hold | hnew
    · exact .inl hold
    · rw [List.mem_singleton.mp hnew]
      exact .inr rfl

theorem attributed_run (env : Environment) (maxTtl : ℕ) (schedule : List Task) :
    Attributed env ((env.server maxTtl).run exec schedule) := by
  refine Pool.run_inv (I := Attributed env) (fun schedule i o k hI hi => ?_)
    ⟨by simp [Pool.start], fun i => .inl rfl⟩ schedule
  set pool := Pool.run exec _ schedule with hpool
  by_cases hplain : o.Plain
  · constructor
    · rw [Pool.shared_step hi]
      intro entry hentry
      rcases log_exec_of_plain hplain _ _ entry hentry with hold | hnew
      · exact hI.log entry hold
      · exact .inl hnew
    · intro n
      by_cases hn : Task.stream n = i
      · subst hn
        rw [Pool.calls_step_self hi, List.filterMap_append, List.filterMap_cons_none
          (registryCall_of_plain hplain), List.filterMap_nil, List.append_nil]
        exact hI.stream n
      · rw [Pool.calls_step_of_ne hn]
        exact hI.stream n
  · -- a call of the registry is the first one of a stream
    obtain ⟨c, rfl⟩ : ∃ c, o = .call c := by simpa [Op.Plain] using hplain
    obtain ⟨n, rfl⟩ : ∃ n, i = .stream n := by
      by_contra hother
      exact Pool.guarded (plain_others env maxTtl fun n hn => hother ⟨n, hn⟩) hi c rfl
    have hguard := among_stream env maxTtl schedule n
    rw [show ((env.server maxTtl).run exec schedule).rest (.stream n) = _ from hi] at hguard
    obtain ⟨hfirst, hasked⟩ := hguard.1 c rfl
    constructor
    · rw [Pool.shared_step hi]
      intro entry hentry
      rcases List.mem_append.mp hentry with hold | hnew
      · exact hI.log entry hold
      · rw [List.mem_singleton.mp hnew]
        exact .inr ⟨n, hasked⟩
    · intro m
      by_cases hm : Task.stream m = .stream n
      · obtain rfl := Task.stream.inj hm
        refine .inr ⟨c, ?_, hasked⟩
        have hnone : (pool.calls (.stream m)).filterMap registryCall = [] := by
          rw [Pool.calls, List.filterMap_map, List.filterMap_eq_nil_iff]
          exact fun e he => registryCall_of_plain (hfirst e he)
        rw [Pool.calls_step_self hi, List.filterMap_append, hnone]
        rfl
      · rw [Pool.calls_step_of_ne hm]
        exact hI.stream m

/-- **Bytes of any origin act on the registry at most once, as the message they
decode to.**  The log of the registry holds prunings and calls that the bytes of
some stream ask for, and each stream has made none or the one its bytes ask for.
A stream whose bytes are no message has made none, and its answer, once it is
over, is a `bad_request` with the reason. -/
theorem stream_once (env : Environment) (maxTtl : ℕ) (schedule : List Task) :
    (∀ entry ∈ ((env.server maxTtl).run exec schedule).shared.log,
      entry.2.op.2 = .pruneExpired ∨ ∃ i, Asked (parseRequest (env.requests i)) entry.2.op) ∧
    ∀ i, (((((env.server maxTtl).run exec schedule).calls (.stream i)).filterMap registryCall = [] ∨
        ∃ c, (((env.server maxTtl).run exec schedule).calls (.stream i)).filterMap registryCall = [c] ∧
          Asked (parseRequest (env.requests i)) c)) ∧
      ∀ text, parseRequest (env.requests i) = .error text →
        (((env.server maxTtl).run exec schedule).calls (.stream i)).filterMap registryCall = [] ∧
        (((env.server maxTtl).run exec schedule).rest (.stream i) = .ret () →
          (((env.server maxTtl).run exec schedule).own (.stream i)).out =
            ((frame? (Serde.server.toVec (.error ⟨"bad_request", text⟩))).getD []).take (env.room i)) := by
  obtain ⟨hlog, hstream⟩ := attributed_run env maxTtl schedule
  refine ⟨hlog, fun i => ⟨hstream i, fun text htext => ⟨?_, fun hdone => ?_⟩⟩⟩
  · rcases hstream i with h | ⟨c, -, message, hmessage, -⟩
    · exact h
    · rw [htext] at hmessage
      cases hmessage
  · have hserved := among_stream env maxTtl schedule i
    rw [hdone] at hserved
    obtain ⟨-, response, hanswers, hout⟩ := hserved
    rw [htext] at hanswers
    obtain rfl : response = _ := hanswers
    exact hout

end once

end NightBridge.Rendezvous
