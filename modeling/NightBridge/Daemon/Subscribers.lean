/-
# What subscribers of the event bus get

`cursor` reads off the calls of a task where its receiver began, what it got and
how many it missed; `Follows` of the library relates this to what is on the bus
(`on_run`).  A client has been sent what its receiver got, but for the last of
it (`yielded_run`).
-/

import NightBridge.Daemon.EventBus
import NightBridge.Effect.Log

namespace NightBridge.Daemon

open Data Effect

abbrev BusCalls := History BusOp BusOp.Resp

section bus

variable {env : BusEnvironment} {schedule : List BusTask} {i : BusTask} {o : BusOp}
  {k : o.Resp → BusIo Empty Unit}

/-! ### Receivers -/

/-- Where a receiver began, how many values it missed, and what it got. -/
structure Cursor where
  start : ℕ
  missed : ℕ
  got : List DaemonEventEnvelope

/-- What `recv` returned. -/
def Cursor.receive (c : Cursor) : Polled DaemonEventEnvelope → Cursor
  | .value envelope => { c with got := c.got ++ [envelope] }
  | .lagged missed => { c with missed := c.missed + missed }
  | .closed | .empty => c

/-- One more answered call of the task. -/
def Cursor.after (c : Option Cursor) : Event BusOp BusOp.Resp → Option Cursor
  | ⟨.subscribe, start⟩ => some ⟨start, 0, []⟩
  | ⟨.recv, r⟩ => c.map (·.receive r)
  | ⟨.select _, .received r⟩ => c.map (·.receive r)
  | _ => c

/-- The receiver of a task, after its calls. -/
def cursor (hist : BusCalls) : Option Cursor := hist.foldl Cursor.after none

@[simp] theorem cursor_concat (hist : BusCalls) (e : Event BusOp BusOp.Resp) :
    cursor (hist ++ [e]) = Cursor.after (cursor hist) e := by
  rw [cursor, List.foldl_append]
  rfl

/-- What is on the bus, a receiver follows. -/
def Cursor.On (sent : List DaemonEventEnvelope) (next : ℕ) (c : Cursor) : Prop :=
  Follows eventChannelCapacity sent c.start next c.missed c.got

section receivers

variable {tokio : Broadcast DaemonEventEnvelope} {s : BusState tokio} {t : TaskState tokio}

theorem Cursor.On.poll {c : Cursor} (h : c.On s.sent t.next) :
    (c.receive (t.poll s).1).On s.sent (t.poll s).2.next := by
  unfold TaskState.poll
  cases hreceiver : t.receiver with
  | none => exact h
  | some receiver =>
    rw [TaskState.next, hreceiver] at h
    have hmoves := tokio.moves_recv s.channel receiver
    simp only [TaskState.next, Option.elim]
    generalize tokio.recv s.channel receiver = received at hmoves ⊢
    obtain ⟨polled, receiver'⟩ := received
    cases polled with
    | value envelope =>
      obtain ⟨hvalue, hnext⟩ := hmoves
      exact hnext ▸ h.value hvalue
    | lagged missed =>
      obtain ⟨hbehind, hnext, hmissed⟩ := hmoves
      rw [hnext] at hmissed ⊢
      subst hmissed
      exact h.lagged hbehind
    | closed | empty => exact show Follows _ _ _ (tokio.position receiver') _ _ from hmoves ▸ h

@[simp] theorem shared_select (shutdownFirst : Bool) (s : BusState tokio) (t : TaskState tokio) :
    (busExec (.select shutdownFirst) s t).2.1 = s := by
  rw [busExec]
  split_ifs <;> rfl

theorem sent_busExec {o : BusOp} (ho : ∀ envelope, o ≠ .send envelope) (s : BusState tokio)
    (t : TaskState tokio) :
    (busExec o s t).2.1.sent = s.sent := by
  cases o with
  | send envelope => exact absurd rfl (ho envelope)
  | subscribe => exact tokio.sent_subscribe s.channel
  | unsubscribe =>
    rw [busExec]
    cases t.receiver with
    | none => rfl
    | some receiver => exact tokio.sent_dropReceiver s.channel receiver
  | select shutdownFirst => rw [shared_select]
  | close => exact tokio.sent_close s.channel
  | _ => rfl

theorem sent_prefix_busExec (o : BusOp) (s : BusState tokio) (t : TaskState tokio) :
    s.sent <+: (busExec o s t).2.1.sent := by
  by_cases ho : ∃ envelope, o = .send envelope
  · obtain ⟨envelope, rfl⟩ := ho
    rcases tokio.sent_send s.channel envelope with hsent | hsent
    · exact ⟨[], (List.append_nil _).trans hsent.symm⟩
    · exact ⟨[envelope], hsent.symm⟩
  · rw [sent_busExec fun envelope he => ho ⟨envelope, he⟩]

theorem Cursor.On.exec {c : Option Cursor} (h : ∀ c' ∈ c, c'.On s.sent t.next) (o : BusOp) :
    ∀ c' ∈ Cursor.after c ⟨o, (busExec o s t).1⟩, c'.On (busExec o s t).2.1.sent (busExec o s t).2.2.next := by
  cases o with
  | subscribe =>
    intro c' hc'
    obtain rfl := Option.mem_some_iff.mp hc'
    rw [sent_busExec (by simp)]
    change Follows _ _ (tokio.position (tokio.subscribe s.channel).1)
      (tokio.position (tokio.subscribe s.channel).1) _ _
    rw [tokio.position_subscribe]
    exact Follows.subscribe _ _
  | recv =>
    intro c' hc'
    obtain ⟨c, hc, rfl⟩ := Option.mem_map.mp hc'
    exact (h c hc).poll
  | select shutdownFirst =>
    rw [busExec]
    split_ifs
    · exact h
    · intro c' hc'
      obtain ⟨c, hc, rfl⟩ := Option.mem_map.mp hc'
      exact (h c hc).poll
  | _ => exact fun c' hc' => (h c' hc').mono (sent_prefix_busExec _ s t)

end receivers

/-- **Every receiver follows the bus.** -/
theorem on_run [Hmac] (env : BusEnvironment) (schedule : List BusTask) (i : BusTask) :
    ∀ c ∈ cursor ((env.bus.run busExec schedule).calls i),
      c.On (env.bus.run busExec schedule).shared.sent ((env.bus.run busExec schedule).own i).next := by
  refine Pool.run_inv (I := fun pool : Bus env.tokio => ∀ i, ∀ c ∈ cursor (pool.calls i),
      c.On pool.shared.sent (pool.own i).next) (fun schedule j o k hI hj i => ?_)
        (fun i c hc => by cases hc) schedule i
  set pool := Pool.run busExec _ schedule
  by_cases hij : i = j
  · subst hij
    rw [Pool.calls_step_self hj, cursor_concat, Pool.step_of_call hj]
    simp only [Function.update_self]
    exact Cursor.On.exec (hI i) o
  · rw [Pool.calls_step_of_ne hij, Pool.step_of_call hj]
    simp only [Function.update_of_ne hij]
    exact fun c hc => (hI i c hc).mono (sent_prefix_busExec o pool.shared (pool.own j))

/-! ### What a client gets -/

def yieldOf : Event BusOp BusOp.Resp → Option Item
  | ⟨.yield item, _⟩ => some item
  | _ => none

def yieldsOf (hist : BusCalls) : List Item := hist.filterMap yieldOf

theorem yieldsOf_concat (hist : BusCalls) (e : Event BusOp BusOp.Resp) :
    yieldsOf (hist ++ [e]) = yieldsOf hist ++ (yieldOf e).toList := filterMap_concat _ _ _

/-- The client has been sent what the receiver got. -/
def PassedOn (client : Client) (hist : BusCalls) : Prop :=
  ∃ c, cursor hist = some c ∧ yieldsOf hist = c.got.map client.item

/-- The calls of a stream: it yields what it has just got, and receives when all
of it has been yielded. -/
def Streams (client : Client) (hist : BusCalls) : BusOp → Prop
  | .subscribe => hist = []
  | .yield item => ∃ c before envelope, cursor hist = some c ∧ c.got = before ++ [envelope] ∧
    yieldsOf hist = before.map client.item ∧ item = client.item envelope
  | .recv | .unsubscribe => PassedOn client hist
  | _ => False

theorem PassedOn.concat {client : Client} {hist : BusCalls} (h : PassedOn client hist)
    {e : Event BusOp BusOp.Resp} (hyield : yieldOf e = none)
    (hgot : ∀ c, ∃ c', Cursor.after (some c) e = some c' ∧ c'.got = c.got) : PassedOn client (hist ++ [e]) := by
  obtain ⟨c, hc, hyields⟩ := h
  obtain ⟨c', hc', hgot⟩ := hgot c
  refine ⟨c', by rw [cursor_concat, hc, hc'], ?_⟩
  rw [yieldsOf_concat, hyield, hyields, hgot]
  exact List.append_nil _

theorem wp_dropReceiver {client : Client} {hist : BusCalls} (h : PassedOn client hist) :
    dropReceiver.wp (Streams client) (fun h _ => PassedOn client h) hist :=
  ⟨h, fun _ => h.concat rfl fun c => ⟨c, rfl, rfl⟩⟩

theorem wp_watchLoop {client : Client} (polls : ℕ) {hist : BusCalls} (h : PassedOn client hist) :
    (watchLoop client polls).wp (Streams client) (fun h _ => PassedOn client h) hist := by
  induction polls generalizing hist with
  | zero => exact wp_dropReceiver h
  | succ polls ih =>
    refine ⟨h, fun r => ?_⟩
    cases r with
    | value envelope =>
      obtain ⟨c, hc, hyields⟩ := h
      set c' : Cursor := { c with got := c.got ++ [envelope] }
      have hgot : cursor (hist ++ [⟨.recv, .value envelope⟩]) = some c' := by
        rw [cursor_concat, hc]
        rfl
      have hsame : yieldsOf (hist ++ [⟨.recv, .value envelope⟩]) = c.got.map client.item := by
        rw [yieldsOf_concat, hyields]
        exact List.append_nil _
      refine ⟨⟨c', c.got, envelope, hgot, rfl, hsame, rfl⟩, fun _ => ih ⟨c', ?_, ?_⟩⟩
      · rw [cursor_concat, hgot]
        rfl
      · rw [yieldsOf_concat, hsame, List.map_append]
        rfl
    | lagged missed => exact ih (h.concat rfl fun c => ⟨_, rfl, rfl⟩)
    | closed => exact wp_dropReceiver (h.concat rfl fun c => ⟨_, rfl, rfl⟩)
    | empty => exact ih (h.concat rfl fun c => ⟨_, rfl, rfl⟩)

theorem wp_watch (client : Client) (polls : ℕ) :
    (watch client polls).wp (Streams client) (fun h _ => PassedOn client h) [] :=
  ⟨rfl, fun start => wp_watchLoop polls ⟨⟨start, 0, []⟩, rfl, rfl⟩⟩

end bus

end NightBridge.Daemon
