/-
# What the event bus and its hooks deliver

The clients of the event bus get its events (`bus_delivers`), and so does the
dispatcher of `crates/daemon/src/hooks`, which starts one delivery for each
event and each sink of the configuration.  A delivery to a webhook signs the
event once and posts it until it is accepted, refused, or tried often enough
(`hooks_deliver`).
-/

import Mathlib.Data.List.Nodup
import NightBridge.Daemon.Subscribers
import NightBridge.Effect.Among

namespace NightBridge.Daemon

open Data Effect

/-! ### The dispatcher -/

def deliveries (sinks : List HookSink) (envelope : DaemonEventEnvelope) : List (HookSink × HookEvent) :=
  sinks.map fun sink => (sink, hookEventFromEnvelope envelope)

def spawnOf : Event BusOp BusOp.Resp → Option (HookSink × HookEvent)
  | ⟨.spawn sink event, _⟩ => some (sink, event)
  | _ => none

def spawnsOf (hist : BusCalls) : List (HookSink × HookEvent) := hist.filterMap spawnOf

theorem spawnsOf_concat (hist : BusCalls) (e : Event BusOp BusOp.Resp) :
    spawnsOf (hist ++ [e]) = spawnsOf hist ++ (spawnOf e).toList := filterMap_concat _ _ _

/-- All that the dispatcher got is under delivery. -/
def Dispatched (sinks : List HookSink) (hist : BusCalls) : Prop :=
  ∃ c, cursor hist = some c ∧ spawnsOf hist = c.got.flatMap (deliveries sinks)

/-- The dispatcher is at the last event it got: these deliveries are spawned and
those are not. -/
structure Dispatching (sinks : List HookSink) (envelope : DaemonEventEnvelope)
    (spawned todo : List HookSink) (hist : BusCalls) : Prop where
  all : sinks = spawned ++ todo
  spawns : ∃ c before, cursor hist = some c ∧ c.got = before ++ [envelope] ∧
    spawnsOf hist = before.flatMap (deliveries sinks) ++ deliveries spawned envelope

def Dispatches (sinks : List HookSink) (hist : BusCalls) : BusOp → Prop
  | .subscribe => hist = []
  | .spawn sink event => ∃ envelope spawned todo, Dispatching sinks envelope spawned (sink :: todo) hist ∧
    event = hookEventFromEnvelope envelope
  | .select _ | .unsubscribe => Dispatched sinks hist
  | _ => False

section dispatcher

variable {sinks : List HookSink} {hist : BusCalls}

theorem Dispatched.concat (h : Dispatched sinks hist) {e : Event BusOp BusOp.Resp} (hspawn : spawnOf e = none)
    (hgot : ∀ c, ∃ c', Cursor.after (some c) e = some c' ∧ c'.got = c.got) :
    Dispatched sinks (hist ++ [e]) := by
  obtain ⟨c, hc, hspawns⟩ := h
  obtain ⟨c', hc', hgot⟩ := hgot c
  refine ⟨c', by rw [cursor_concat, hc, hc'], ?_⟩
  rw [spawnsOf_concat, hspawn, hspawns, hgot]
  exact List.append_nil _

theorem wp_dispatch {envelope : DaemonEventEnvelope} (spawned : List HookSink) {todo : List HookSink}
    (h : Dispatching sinks envelope spawned todo hist) :
    (dispatch todo (hookEventFromEnvelope envelope)).wp (Dispatches sinks)
      (fun h _ => Dispatched sinks h) hist := by
  induction todo generalizing spawned hist with
  | nil =>
    obtain ⟨hall, c, before, hc, hgot, hspawns⟩ := h
    rw [List.append_nil] at hall
    refine ⟨c, hc, ?_⟩
    rw [hspawns, hgot, ← hall]
    simp
  | cons sink todo ih =>
    refine ⟨⟨envelope, spawned, todo, h, rfl⟩, fun _ => ?_⟩
    obtain ⟨hall, c, before, hc, hgot, hspawns⟩ := h
    refine ih (spawned ++ [sink]) ⟨by simp [hall], c, before, ?_, hgot, ?_⟩
    · rw [cursor_concat, hc]
      rfl
    · rw [spawnsOf_concat, hspawns]
      simp [deliveries, spawnOf]

theorem wp_dispatchEnd (h : Dispatched sinks hist) :
    dropReceiver.wp (Dispatches sinks) (fun h _ => Dispatched sinks h) hist :=
  ⟨h, fun _ => h.concat rfl fun c => ⟨c, rfl, rfl⟩⟩

theorem wp_dispatchLoop (coins : List Bool) (h : Dispatched sinks hist) :
    (dispatchLoop sinks coins).wp (Dispatches sinks) (fun h _ => Dispatched sinks h) hist := by
  induction coins generalizing hist with
  | nil => exact wp_dispatchEnd h
  | cons coin coins ih =>
    refine ⟨h, fun r => ?_⟩
    cases r with
    | shutdown => exact wp_dispatchEnd (h.concat rfl fun c => ⟨c, rfl, rfl⟩)
    | received r =>
      cases r with
      | value envelope =>
        obtain ⟨c, hc, hspawns⟩ := h
        refine Prog.wp_bind_of (wp_dispatch [] ⟨rfl, { c with got := c.got ++ [envelope] }, c.got,
          ?_, rfl, ?_⟩) fun h _ _ hdispatched => ih hdispatched
        · rw [cursor_concat, hc]
          rfl
        · rw [spawnsOf_concat, hspawns]
          rfl
      | lagged missed => exact ih (h.concat rfl fun c => ⟨_, rfl, rfl⟩)
      | closed => exact wp_dispatchEnd (h.concat rfl fun c => ⟨_, rfl, rfl⟩)
      | empty => exact ih (h.concat rfl fun c => ⟨_, rfl, rfl⟩)

theorem wp_runDispatcher (sinks : List HookSink) (coins : List Bool) :
    (runDispatcher sinks coins).wp (Dispatches sinks) (fun h _ => Dispatched sinks h) [] :=
  ⟨rfl, fun start => wp_dispatchLoop coins ⟨⟨start, 0, []⟩, rfl, rfl⟩⟩

/-- At any time, what is spawned are deliveries of what the dispatcher got, in
order. -/
theorem spawns_of_wp {p : BusIo Empty Unit} (h : p.wp (Dispatches sinks) (fun h _ => Dispatched sinks h) hist) :
    (hist = [] ∨ ∃ c, cursor hist = some c ∧ spawnsOf hist <+: c.got.flatMap (deliveries sinks)) ∧
      (p = .ret () → Dispatched sinks hist) := by
  have hdone : Dispatched sinks hist →
      ∃ c, cursor hist = some c ∧ spawnsOf hist <+: c.got.flatMap (deliveries sinks) :=
    fun ⟨c, hc, hspawns⟩ => ⟨c, hc, hspawns ▸ List.prefix_rfl⟩
  cases p with
  | ret u => exact ⟨.inr (hdone h), fun _ => h⟩
  | fail e => exact e.elim
  | call o k =>
    have ho := h.1
    refine ⟨?_, fun hp => by cases hp⟩
    cases o with
    | subscribe => exact .inl ho
    | spawn sink event =>
      obtain ⟨envelope, spawned, todo, ⟨hall, c, before, hc, hgot, hspawns⟩, -⟩ := ho
      refine .inr ⟨c, hc, ?_⟩
      rw [hspawns, hgot, hall]
      simp [deliveries]
    | select | unsubscribe => exact .inr (hdone ho)
    | _ => exact ho.elim

end dispatcher

/-! ### A delivery -/

/-- The reply lets the event be posted again. -/
def PostReply.retryable : PostReply → Bool
  | .network _ => true
  | .status code => 500 ≤ code && code < 600

def WebhookSink.signed [Hmac] (self : WebhookSink) (event : HookEvent) : Post where
  url := self.url
  contentType := "application/json"
  event := event.eventType.asStr
  signature := "sha256=" ++ signPayload self.secret (utf8 event.text)
  body := utf8 event.text

/-- The POST a call makes, and its reply. -/
def postOf : Event BusOp BusOp.Resp → Option (Post × PostReply)
  | ⟨.post post, reply⟩ => some (post, reply)
  | _ => none

def postsOf (hist : BusCalls) : List (Post × PostReply) := hist.filterMap postOf

theorem postsOf_concat (hist : BusCalls) (e : Event BusOp BusOp.Resp) :
    postsOf (hist ++ [e]) = postsOf hist ++ (postOf e).toList := filterMap_concat _ _ _

section delivery

variable [Hmac] {hist : BusCalls}

/-- The POSTs so far were of the event, and all may be tried again. -/
structure Tried (sink : WebhookSink) (event : HookEvent) (hist : BusCalls) : Prop where
  signed : ∀ p ∈ postsOf hist, p.1 = sink.signed event
  retryable : ∀ p ∈ postsOf hist, p.2.retryable = true

def Delivers (k : ℕ) (hist : BusCalls) : BusOp → Prop
  | .started k' => hist = [] ∧ k' = k
  | .post post => ∃ sink event, ⟨.started k, some (.webhook sink, event)⟩ ∈ hist ∧ post = sink.signed event ∧
    Tried sink event hist ∧ (postsOf hist).length < sink.maxAttempts
  | .run _ => postsOf hist = []
  | _ => False

omit [Hmac] in
theorem headerValue_signature (bytes : Bytes) :
    headerValue ("sha256=" ++ hex bytes) = some ("sha256=" ++ hex bytes) := by
  rw [headerValue, if_pos]
  rw [String.toList_append, List.all_append, Bool.and_eq_true]
  refine ⟨by decide, List.all_eq_true.mpr fun c hc => ?_⟩
  rw [hex, String.toList_ofList] at hc
  have hdigit := isAsciiHexdigit_of_mem_hexChars hc
  simp only [isAsciiHexdigit, Bool.or_eq_true, Bool.and_eq_true, decide_eq_true_eq] at hdigit ⊢
  omega

/-- One POST; an error to try again comes from a reply to try again. -/
theorem wp_sendOnce {k : ℕ} {sink : WebhookSink} {event : HookEvent}
    (hpost : Delivers k hist (.post (sink.signed event))) :
    ((sink.sendOnce event (utf8 event.text) (sink.signed event).signature).attempt :
        BusIo WebhookDeliveryError _).wp (Delivers k)
      (fun h r => ∃ reply, h = hist ++ [⟨.post (sink.signed event), reply⟩] ∧
        ∀ e, r = .error e → e.isRetryable = true → reply.retryable = true) hist := by
  have hheader : headerValue (sink.signed event).signature = some (sink.signed event).signature :=
    headerValue_signature _
  rw [WebhookSink.sendOnce, hheader]
  refine ⟨hpost, fun reply => ?_⟩
  cases reply with
  | network error => exact ⟨_, rfl, fun _ _ _ => rfl⟩
  | status code =>
    dsimp only
    split_ifs with hsuccess hserver
    · exact ⟨_, rfl, fun e he => by cases he⟩
    · exact ⟨_, rfl, fun _ _ _ => by simp [PostReply.retryable, hserver]⟩
    · refine ⟨_, rfl, fun e he hretryable => ?_⟩
      obtain rfl := Except.error.inj he
      cases hretryable

/-- **The attempts of a webhook**, from one of them on. -/
theorem wp_attempts {k : ℕ} {sink : WebhookSink} {event : HookEvent}
    (hstarted : ⟨.started k, some (.webhook sink, event)⟩ ∈ hist) (left attempt : ℕ)
    (hleft : attempt + left = sink.maxAttempts + 1) (hattempt : (postsOf hist).length + 1 = attempt)
    (htried : Tried sink event hist) (last : Option WebhookDeliveryError) :
    (sink.attempts event (utf8 event.text) (sink.signed event).signature (List.range' attempt left)
      last).wp (Delivers k) (fun _ _ => True) hist := by
  induction left generalizing attempt hist last with
  | zero => trivial
  | succ left ih =>
    have hpost : Delivers k hist (.post (sink.signed event)) :=
      ⟨sink, event, hstarted, rfl, htried, by omega⟩
    refine Prog.wp_bind_of (wp_sendOnce hpost) fun h r _ ⟨reply, hh, hretry⟩ => ?_
    subst hh
    cases r with
    | ok u => trivial
    | error e =>
      refine Prog.wp_ite (fun hagain => ?_) fun _ => trivial
      have hposts : postsOf (hist ++ [⟨.post (sink.signed event), reply⟩]) =
          postsOf hist ++ [(sink.signed event, reply)] := by
        rw [postsOf_concat]
        rfl
      refine ih (List.mem_append_left _ hstarted) (attempt + 1) (by omega) ?_ ⟨?_, ?_⟩ _
      · rw [hposts, List.length_append, List.length_singleton, hattempt]
      · rw [hposts, List.forall_mem_append]
        exact ⟨htried.signed, by simp⟩
      · rw [hposts, List.forall_mem_append]
        exact ⟨htried.retryable, by simpa using hretry e rfl hagain.1⟩

theorem wp_hookDeliver {k : ℕ} {sink : HookSink} {event : HookEvent} :
    (sink.deliver event).wp (Delivers k) (fun _ _ => True) [⟨.started k, some (sink, event)⟩] := by
  cases sink with
  | webhook sink =>
    have hnone : Tried sink event [⟨.started k, some (.webhook sink, event)⟩] := by
      constructor <;> simp [postsOf, postOf]
    exact Prog.wp_mapError.mpr (wp_attempts List.mem_cons_self sink.maxAttempts 1 (Nat.add_comm _ _)
      rfl hnone none)
  | exec sink =>
    change (sink.deliver event).wp _ _ _
    unfold ExecSink.deliver
    split
    · trivial
    · refine ⟨rfl, fun r => ?_⟩
      cases r with
      | timedOut => trivial
      | notSpawned error => trivial
      | exited success status stdout stderr => exact Prog.wp_ite (fun _ => trivial) fun _ => trivial

theorem wp_delivery (k : ℕ) : (delivery k).wp (Delivers k) (fun _ _ => True) [] := by
  refine ⟨⟨rfl, rfl⟩, fun job => ?_⟩
  cases job with
  | none => trivial
  | some job => exact Prog.wp_bind_of (Prog.wp_attempt wp_hookDeliver) fun _ _ _ _ => trivial

/-- The POSTs of a delivery: of its event, not too many, and only the last is
not to be tried again. -/
def Posted (k : ℕ) (hist : BusCalls) : Prop :=
  postsOf hist = [] ∨ ∃ sink event, ⟨.started k, some (.webhook sink, event)⟩ ∈ hist ∧
    (postsOf hist).length ≤ sink.maxAttempts ∧ (∀ p ∈ postsOf hist, p.1 = sink.signed event) ∧
    ∀ p ∈ (postsOf hist).dropLast, p.2.retryable = true

theorem Posted.concat {k : ℕ} (h : Posted k hist) {e : Event BusOp BusOp.Resp} (hpost : postOf e = none) :
    Posted k (hist ++ [e]) := by
  rw [Posted, postsOf_concat, hpost, Option.toList_none, List.append_nil]
  refine h.imp_right fun ⟨sink, event, hstarted, hposts⟩ => ?_
  exact ⟨sink, event, List.mem_append_left _ hstarted, hposts⟩

theorem posted_run (env : BusEnvironment) (schedule : List BusTask) (k : ℕ) :
    Posted k ((env.bus.run busExec schedule).calls (.delivery k)) := by
  have hdelivery : (env.program (.delivery k)).wp (Delivers k) (fun _ _ => True) [] := wp_delivery k
  refine Pool.calls_inv hdelivery (fun h o r ho hI => ?_) (.inl rfl) schedule
  cases o with
  | post post =>
    obtain ⟨sink, event, hstarted, rfl, htried, hlength⟩ := ho
    rw [Posted, postsOf_concat]
    refine .inr ⟨sink, event, List.mem_append_left _ hstarted, ?_, ?_, ?_⟩
    · rw [List.length_append]
      exact hlength
    · rw [List.forall_mem_append]
      exact ⟨htried.signed, by simp [postOf]⟩
    · rw [show (postOf ⟨.post (sink.signed event), r⟩).toList = [(sink.signed event, r)] from rfl,
        List.dropLast_concat]
      exact htried.retryable
  | _ => exact hI.concat rfl

end delivery

section bus

variable {tokio : Broadcast DaemonEventEnvelope} {env : BusEnvironment} {schedule : List BusTask} {i : BusTask}
  {o : BusOp} {k : o.Resp → BusIo Empty Unit}

/-! ### Events on the bus -/

theorem toString_injective {m n : ℕ} (h : toString m = toString n) : m = n := by
  have hdigits := congrArg String.toList h
  rw [show toString m = m.repr from rfl, show toString n = n.repr from rfl, Nat.toList_repr,
    Nat.toList_repr] at hdigits
  rw [← Nat.ofDigitChars_ten_toDigits (n := m), hdigits, Nat.ofDigitChars_ten_toDigits]

inductive Emits (event : DaemonEvent) : BusCalls → BusOp → Prop
  | draw : Emits event [] .fetchAdd
  | read (id : ℕ) : Emits event [⟨.fetchAdd, id⟩] .now
  | send (id : ℕ) (time : ℤ) :
      Emits event [⟨.fetchAdd, id⟩, ⟨.now, time⟩] (.send ⟨toString id, time, event⟩)

theorem wp_emit (event : DaemonEvent) : (emit event).wp (Emits event) (fun _ _ => True) [] :=
  ⟨.draw, fun id => ⟨.read id, fun time => ⟨.send id time, fun _ => trivial⟩⟩⟩

theorem emits_of_call [Hmac] {n : ℕ} (hi : (env.bus.run busExec schedule).rest (.emit n) = .call o k) :
    Emits (env.event n) ((env.bus.run busExec schedule).calls (.emit n)) o :=
  Pool.guarded (p := env.program) (wp_emit (env.event n)) hi

/-- **Who does what**: only `emit` sends, and only the dispatcher spawns. -/
theorem task_of_call [Hmac] (hi : (env.bus.run busExec schedule).rest i = .call o k) :
    (∀ envelope, o = .send envelope → ∃ n, i = .emit n) ∧
      ∀ sink event, o = .spawn sink event → i = .dispatcher := by
  cases i with
  | emit n =>
    refine ⟨fun _ _ => ⟨n, rfl⟩, ?_⟩
    rintro sink event rfl
    have hsteps := emits_of_call hi
    generalize (env.bus.run busExec schedule).calls (.emit n) = calls at hsteps
    cases hsteps
  | watch j =>
    have hguard := Pool.guarded (p := env.program) (wp_watch (env.client j) (env.polls j)) hi
    cases o with
    | send | spawn => exact hguard.elim
    | _ => simp
  | dispatcher =>
    have hguard := Pool.guarded (p := env.program) (wp_runDispatcher (hookSinks env.hooks) env.coins) hi
    refine ⟨?_, fun _ _ _ => rfl⟩
    rintro envelope rfl
    exact hguard.elim
  | delivery j =>
    have hguard := Pool.guarded (p := env.program) (wp_delivery j) hi
    cases o with
    | send | spawn => exact hguard.elim
    | _ => simp
  | stop =>
    have hstop : (env.program .stop).wp (fun _ o => o = .shutDown) (fun _ _ => True) [] :=
      ⟨rfl, fun _ => trivial⟩
    rw [Pool.guarded hstop hi]
    simp
  | drop =>
    have hdrop : (env.program .drop).wp (fun _ o => o = .close) (fun _ _ => True) [] :=
      ⟨rfl, fun _ => trivial⟩
    rw [Pool.guarded hdrop hi]
    simp

def Drew (pool : Bus tokio) (i id : ℕ) : Prop :=
  ⟨.fetchAdd, id⟩ ∈ pool.calls (.emit i)

def Sent (pool : Bus tokio) (i : ℕ) (envelope : DaemonEventEnvelope) : Prop :=
  ⟨.send envelope, ()⟩ ∈ pool.calls (.emit i)

/-- A task sent the event, under an id it drew. -/
def Source (env : BusEnvironment) (pool : Bus tokio) (envelope : DaemonEventEnvelope) : Prop :=
  ∃ i id, envelope.event = env.event i ∧ envelope.eventId = toString id ∧ Drew pool i id ∧ Sent pool i envelope

/-- The counter is ahead of all ids, and no id is drawn twice. -/
def Drawn (pool : Bus tokio) : Prop :=
  pool.shared.nextId ≤ 2 ^ 64 → (∀ i id, Drew pool i id → id < pool.shared.nextId) ∧
    ∀ i j id, Drew pool i id → Drew pool j id → i = j

/-- What is on the bus was sent, under different ids. -/
structure Emitted (env : BusEnvironment) (pool : Bus tokio) : Prop where
  sent : ∀ envelope ∈ pool.shared.sent, Source env pool envelope
  drawn : Drawn pool
  distinct : pool.shared.nextId ≤ 2 ^ 64 →
    (pool.shared.sent.map DaemonEventEnvelope.eventId).Nodup

section step

variable {pool : Bus tokio}

theorem Source.step {envelope : DaemonEventEnvelope} (h : Source env pool envelope) :
    Source env (pool.step busExec i) envelope := by
  obtain ⟨n, id, hevent, hid, hdrew, hsent⟩ := h
  exact ⟨n, id, hevent, hid, Pool.calls_prefix_step.subset hdrew, Pool.calls_prefix_step.subset hsent⟩

theorem drew_of_step (hi : pool.rest i = .call o k) {n id : ℕ} (h : Drew (pool.step busExec i) n id) :
    Drew pool n id ∨ (o = .fetchAdd ∧ i = .emit n ∧ id = pool.shared.nextId % 2 ^ 64) := by
  rcases Pool.mem_calls_step hi h with hold | ⟨hn, he⟩
  · exact .inl hold
  · obtain ⟨rfl, hid⟩ := Event.mk.inj he
    exact .inr ⟨rfl, hn.symm, eq_of_heq hid⟩

theorem nextId_busExec (hdraw : o ≠ .fetchAdd) (s : BusState tokio) (t : TaskState tokio) :
    (busExec o s t).2.1.nextId = s.nextId := by
  cases o with
  | fetchAdd => exact absurd rfl hdraw
  | select shutdownFirst => rw [shared_select]
  | _ => rfl

theorem nextId_le_busExec (s : BusState tokio) (t : TaskState tokio) :
    s.nextId ≤ (busExec o s t).2.1.nextId := by
  by_cases hdraw : o = .fetchAdd
  · subst hdraw
    exact Nat.le_succ _
  · rw [nextId_busExec hdraw]

theorem Drawn.step (h : Drawn pool) (hi : pool.rest i = .call o k) : Drawn (pool.step busExec i) := by
  by_cases hdraw : o = .fetchAdd
  · subst hdraw
    rw [Drawn, Pool.shared_step hi]
    intro (hle : pool.shared.nextId + 1 ≤ 2 ^ 64)
    obtain ⟨hlt, hone⟩ := h (by omega)
    have hmod : pool.shared.nextId % 2 ^ 64 = pool.shared.nextId := Nat.mod_eq_of_lt hle
    refine ⟨fun n id hdrew => ?_, fun n m id hn hm => ?_⟩
    · change id < pool.shared.nextId + 1
      rcases drew_of_step hi hdrew with hold | ⟨-, -, rfl⟩
      · exact (hlt n id hold).trans (Nat.lt_succ_self _)
      · omega
    · -- an id that was drawn before is behind the counter
      rcases drew_of_step hi hn with hn | ⟨-, hn, hid⟩
      · rcases drew_of_step hi hm with hm | ⟨-, hm, rfl⟩
        · exact hone n m id hn hm
        · have := hlt n _ hn
          omega
      · rcases drew_of_step hi hm with hm | ⟨-, hm, -⟩
        · have := hlt m id hm
          omega
        · exact BusTask.emit.inj (hn.symm.trans hm)
  · have hold : ∀ {n id}, Drew (pool.step busExec i) n id → Drew pool n id := fun hdrew =>
      (drew_of_step hi hdrew).resolve_right fun hnew => hdraw hnew.1
    rw [Drawn, Pool.shared_step hi, nextId_busExec hdraw]
    intro hle
    obtain ⟨hlt, hone⟩ := h hle
    exact ⟨fun n id hdrew => hlt n id (hold hdrew), fun n m id hn hm => hone n m id (hold hn) (hold hm)⟩

theorem Emitted.other (h : Emitted env pool) (hi : pool.rest i = .call o k)
    (hsent : (pool.step busExec i).shared.sent = pool.shared.sent)
    (hnext : pool.shared.nextId ≤ (pool.step busExec i).shared.nextId) : Emitted env (pool.step busExec i) := by
  refine ⟨?_, h.drawn.step hi, ?_⟩
  · rw [hsent]
    exact fun envelope he => (h.sent envelope he).step
  · rw [hsent]
    exact fun hle => h.distinct (hnext.trans hle)

theorem Emitted.send (h : Emitted env pool) {n id : ℕ} {time : ℤ} {k : Unit → BusIo Empty Unit}
    (hi : pool.rest (.emit n) = .call (.send ⟨toString id, time, env.event n⟩) k)
    (hcalls : pool.calls (.emit n) = [⟨.fetchAdd, id⟩, ⟨.now, time⟩]) :
    Emitted env (pool.step busExec (.emit n)) := by
  set envelope : DaemonEventEnvelope := ⟨toString id, time, env.event n⟩ with henvelope
  have hdrew : Drew pool n id := by simp [Drew, hcalls]
  have hnext : (pool.step busExec (.emit n)).shared.nextId = pool.shared.nextId := by
    rw [Pool.shared_step hi]
    rfl
  have hstep : (pool.step busExec (.emit n)).shared.sent = pool.shared.sent ∨
      (pool.step busExec (.emit n)).shared.sent = pool.shared.sent ++ [envelope] := by
    rw [Pool.shared_step hi]
    exact tokio.sent_send _ _
  rcases hstep with hstep | hstep
  · exact h.other hi hstep hnext.ge
  refine ⟨?_, h.drawn.step hi, fun hle => ?_⟩
  · rw [hstep, List.forall_mem_append, List.forall_mem_singleton]
    refine ⟨fun e he => (h.sent e he).step, n, id, rfl, rfl, Pool.calls_prefix_step.subset hdrew, ?_⟩
    rw [Sent, Pool.calls_step_self hi]
    exact List.mem_append_right _ List.mem_cons_self
  · rw [hnext] at hle
    rw [hstep, List.map_append, List.map_singleton]
    refine List.nodup_append.mpr ⟨h.distinct hle, List.nodup_singleton _, fun a ha b hb hab => ?_⟩
    rw [hab, List.mem_singleton.mp hb] at ha
    -- no event on the bus has this id, because the task has not sent before
    obtain ⟨other, hother, heq⟩ := List.mem_map.mp ha
    obtain ⟨m, id', -, hid', hdrew', hsent'⟩ := h.sent other hother
    obtain rfl := toString_injective (hid'.symm.trans heq)
    obtain rfl := (h.drawn hle).2 m n _ hdrew' hdrew
    rw [Sent, hcalls] at hsent'
    simp at hsent'

end step

theorem emitted_run [Hmac] (env : BusEnvironment) (schedule : List BusTask) :
    Emitted env (env.bus.run busExec schedule) := by
  refine Pool.run_inv (fun schedule i o k hI hi => ?_) ?_ schedule
  · by_cases ho : ∃ envelope, o = .send envelope
    · obtain ⟨envelope, rfl⟩ := ho
      obtain ⟨n, rfl⟩ := (task_of_call hi).1 envelope rfl
      have hsteps := emits_of_call hi
      generalize hcalls : (env.bus.run busExec schedule).calls (.emit n) = calls at hsteps
      cases hsteps with
      | send id time => exact hI.send hi hcalls
    · refine hI.other hi ?_ ?_ <;> rw [Pool.shared_step hi]
      · exact sent_busExec (fun envelope he => ho ⟨envelope, he⟩) _ _
      · exact nextId_le_busExec _ _
  · have hnew : env.tokio.sent (env.tokio.new eventChannelCapacity) = [] := env.tokio.sent_new _
    refine ⟨fun envelope he => ?_, fun _ => ⟨fun n id hdrew => ?_, fun n m id hdrew => ?_⟩, fun _ => ?_⟩
    · rw [Pool.start, BusState.sent, hnew] at he
      cases he
    · cases hdrew
    · cases hdrew
    · rw [Pool.start, BusState.sent, hnew]
      exact List.nodup_nil

end bus

/-! ### The hooks -/

section hooks

variable [Hmac]

omit [Hmac] in
theorem spawned_busExec {tokio : Broadcast DaemonEventEnvelope} (o : BusOp) (s : BusState tokio)
    (t : TaskState tokio) :
    (busExec o s t).2.1.spawned = s.spawned ++ (spawnOf ⟨o, (busExec o s t).1⟩).toList := by
  cases o with
  | spawn sink event => rfl
  | select shutdownFirst =>
    rw [shared_select]
    exact (List.append_nil _).symm
  | _ => exact (List.append_nil _).symm

theorem spawned_run (env : BusEnvironment) (schedule : List BusTask) :
    (env.bus.run busExec schedule).shared.spawned =
      spawnsOf ((env.bus.run busExec schedule).calls .dispatcher) := by
  refine Pool.run_inv (I := fun pool : Bus env.tokio => pool.shared.spawned = spawnsOf (pool.calls .dispatcher))
    (fun schedule i o k hI hi => ?_) rfl schedule
  rw [Pool.shared_step hi, spawned_busExec, hI]
  cases i with
  | dispatcher => rw [Pool.calls_step_self hi, spawnsOf_concat]
  | _ =>
    rw [Pool.calls_step_of_ne (by simp)]
    cases o with
    | spawn sink event => cases (task_of_call hi).2 sink event rfl
    | _ => exact List.append_nil _

omit [Hmac] in
theorem getElem?_of_le {α : Type} {l l' : List α} (h : l <+: l') {k : ℕ} {a : α} (hk : l[k]? = some a) :
    l'[k]? = some a := by
  obtain ⟨hlt, rfl⟩ := List.getElem?_eq_some_iff.mp hk
  exact List.prefix_iff_getElem?.mp h k hlt

/-- A delivery that has begun is the one that was spawned in its place. -/
theorem started_run (env : BusEnvironment) (schedule : List BusTask) {k : ℕ} {job : HookSink × HookEvent}
    (h : ⟨.started k, some job⟩ ∈ (env.bus.run busExec schedule).calls (.delivery k)) :
    (env.bus.run busExec schedule).shared.spawned[k]? = some job := by
  let I (pool : Bus env.tokio) : Prop := ∀ k job, ⟨.started k, some job⟩ ∈ pool.calls (.delivery k) →
    pool.shared.spawned[k]? = some job
  refine Pool.run_inv (I := I) (fun schedule i o k hI hi => ?_) (fun k job h => by cases h) schedule k job h
  intro k job hmem
  rw [Pool.shared_step hi]
  rcases Pool.mem_calls_step hi hmem with hold | ⟨-, hnew⟩
  · rw [spawned_busExec]
    exact getElem?_of_le (List.prefix_append _ _) (hI k job hold)
  · obtain ⟨rfl, hjob⟩ := Event.mk.inj hnew
    exact (eq_of_heq hjob).symm

omit [Hmac] in
/-- The deliveries by their place: each event takes as many as there are sinks. -/
theorem getElem?_deliveries {sinks : List HookSink} {k : ℕ} {job : HookSink × HookEvent}
    (got : List DaemonEventEnvelope) (h : (got.flatMap (deliveries sinks))[k]? = some job) :
    ∃ envelope, got[k / sinks.length]? = some envelope ∧ sinks[k % sinks.length]? = some job.1 ∧
      job.2 = hookEventFromEnvelope envelope := by
  induction got generalizing k with
  | nil => cases h
  | cons envelope got ih =>
    have hlength : (deliveries sinks envelope).length = sinks.length := List.length_map _
    rw [List.flatMap_cons] at h
    by_cases hk : k < sinks.length
    · rw [List.getElem?_append_left (hlength ▸ hk), deliveries, List.getElem?_map,
        Option.map_eq_some_iff] at h
      obtain ⟨sink, hsink, rfl⟩ := h
      rw [Nat.div_eq_of_lt hk, Nat.mod_eq_of_lt hk]
      exact ⟨envelope, rfl, hsink, rfl⟩
    · rw [List.getElem?_append_right (by omega), hlength] at h
      obtain ⟨other, hother, hsink, hevent⟩ := ih h
      have hpos : 0 < sinks.length := by
        have := (List.getElem?_eq_some_iff.mp hsink).1
        omega
      have hsplit : k = k - sinks.length + sinks.length := by omega
      refine ⟨other, ?_, ?_, hevent⟩
      · rw [hsplit, Nat.add_div_right _ hpos]
        exact hother
      · rw [hsplit, Nat.add_mod_right]
        exact hsink

omit [Hmac] in
/-- The deliveries of what a receiver got are of different events or to
different sinks. -/
theorem distinct_deliveries {sinks : List HookSink} {sent got : List DaemonEventEnvelope}
    {capacity start next missed : ℕ} (hgot : Follows capacity sent start next missed got)
    (hsent : (sent.map DaemonEventEnvelope.eventId).Nodup) {k k' : ℕ} {job job' : HookSink × HookEvent}
    (hk : (got.flatMap (deliveries sinks))[k]? = some job)
    (hk' : (got.flatMap (deliveries sinks))[k']? = some job')
    (hevent : job.2.eventId = job'.2.eventId) (hsink : k % sinks.length = k' % sinks.length) : k = k' := by
  have hnodup : (got.map DaemonEventEnvelope.eventId).Nodup :=
    hsent.sublist ((hgot.sublist.trans ((List.drop_sublist _ _).trans (List.take_sublist _ _))).map _)
  obtain ⟨envelope, he, -, hjob⟩ := getElem?_deliveries got hk
  obtain ⟨envelope', he', -, hjob'⟩ := getElem?_deliveries got hk'
  rw [hjob, hjob'] at hevent
  obtain ⟨hlt, rfl⟩ := List.getElem?_eq_some_iff.mp he
  obtain ⟨hlt', rfl⟩ := List.getElem?_eq_some_iff.mp he'
  have hplace : k / sinks.length = k' / sinks.length := by
    rw [← List.length_map DaemonEventEnvelope.eventId] at hlt hlt'
    rw [← @List.Nodup.getElem_inj_iff _ _ hnodup _ hlt _ hlt', List.getElem_map, List.getElem_map]
    exact hevent
  rw [← Nat.div_add_mod k sinks.length, ← Nat.div_add_mod k' sinks.length, hsink, hplace]

/-- What is spawned are the deliveries of the events that the dispatcher got. -/
theorem dispatched_run (env : BusEnvironment) (schedule : List BusTask) :
    let pool := env.bus.run busExec schedule
    (pool.shared.spawned = [] ∨ ∃ c, cursor (pool.calls .dispatcher) = some c ∧
      pool.shared.spawned <+: c.got.flatMap (deliveries (hookSinks env.hooks))) ∧
    (pool.rest .dispatcher = .ret () → ∃ c, cursor (pool.calls .dispatcher) = some c ∧
      pool.shared.spawned = c.got.flatMap (deliveries (hookSinks env.hooks))) := by
  intro pool
  have hdispatcher : (env.program .dispatcher).wp (Dispatches (hookSinks env.hooks))
      (fun h _ => Dispatched (hookSinks env.hooks) h) [] := wp_runDispatcher _ env.coins
  have hwp : (pool.rest .dispatcher).wp (Dispatches (hookSinks env.hooks))
      (fun h _ => Dispatched (hookSinks env.hooks) h) (pool.calls .dispatcher) :=
    Pool.wp_rest busExec _ _ hdispatcher schedule
  obtain ⟨hspawns, hover⟩ := spawns_of_wp hwp
  rw [show pool.shared.spawned = spawnsOf (pool.calls .dispatcher) from spawned_run env schedule]
  refine ⟨hspawns.imp_left fun hnil => ?_, hover⟩
  rw [hnil]
  rfl

/-- **What hooks deliver**, in any order of the steps of all tasks.  The
dispatcher follows the bus, and what is spawned are the deliveries of the events
it got, each to every sink in their order, and all of them when it is over.  No
two deliveries in the place of one sink are of the same event.  The POSTs of a
delivery are of its event, signed with the secret of its webhook, and at most as
many as this allows; each but the last was answered by a failure of the network
or of the server. -/
theorem hooks_deliver (env : BusEnvironment) (schedule : List BusTask) :
    (∀ c, cursor ((env.bus.run busExec schedule).calls .dispatcher) = some c →
      Follows 256 (env.bus.run busExec schedule).shared.sent c.start
        ((env.bus.run busExec schedule).own .dispatcher).next c.missed c.got ∧
      (env.bus.run busExec schedule).shared.spawned <+: c.got.flatMap (deliveries (hookSinks env.hooks)) ∧
      ((env.bus.run busExec schedule).rest .dispatcher = .ret () →
        (env.bus.run busExec schedule).shared.spawned = c.got.flatMap (deliveries (hookSinks env.hooks)))) ∧
    ((env.bus.run busExec schedule).shared.nextId ≤ 2 ^ 64 → ∀ k k' job job',
      (env.bus.run busExec schedule).shared.spawned[k]? = some job →
      (env.bus.run busExec schedule).shared.spawned[k']? = some job' → job.2.eventId = job'.2.eventId →
      k % (hookSinks env.hooks).length = k' % (hookSinks env.hooks).length → k = k') ∧
    ∀ k, postsOf ((env.bus.run busExec schedule).calls (.delivery k)) = [] ∨ ∃ sink event,
      (env.bus.run busExec schedule).shared.spawned[k]? = some (.webhook sink, event) ∧
      (postsOf ((env.bus.run busExec schedule).calls (.delivery k))).length ≤ sink.maxAttempts ∧
      (∀ p ∈ postsOf ((env.bus.run busExec schedule).calls (.delivery k)), p.1 = sink.signed event) ∧
      ∀ p ∈ (postsOf ((env.bus.run busExec schedule).calls (.delivery k))).dropLast, p.2.retryable = true := by
  obtain ⟨hspawned, hover⟩ := dispatched_run env schedule
  refine ⟨fun c hc => ⟨on_run env schedule _ c hc, ?_, fun hdone => ?_⟩,
    fun hid k k' job job' hk hk' hevent hsink => ?_, fun k => ?_⟩
  · rcases hspawned with hnil | ⟨c', hc', hle⟩
    · rw [hnil]
      exact List.nil_prefix
    · rwa [Option.some.inj (hc.symm.trans hc')]
  · obtain ⟨c', hc', heq⟩ := hover hdone
    rwa [Option.some.inj (hc.symm.trans hc')]
  · rcases hspawned with hnil | ⟨c, hc, hle⟩
    · rw [hnil] at hk
      cases hk
    · exact distinct_deliveries (on_run env schedule _ c hc) ((emitted_run env schedule).distinct hid)
        (getElem?_of_le hle hk) (getElem?_of_le hle hk') hevent hsink
  · refine (posted_run env schedule k).imp_right fun ⟨sink, event, hstarted, hposts⟩ => ?_
    exact ⟨sink, event, started_run env schedule hstarted, hposts⟩

end hooks

end NightBridge.Daemon
