/-
# Lookups that wait for the lock

`NightBridge.Rendezvous.Visibility` reads off the log what a lookup answers when
the times of the calls do not decrease.  The server does not promise that: a
request carries the time at which it was read, and may be served after calls
with later times.

A cell holds the last registration of its key, or nothing when that has run out
by the clock (`Cell.Holds`): a late `prune` cannot take an entry before its
time, and an early one cannot take it at all.
-/

import NightBridge.Effect.Among
import NightBridge.Effect.Outcomes
import NightBridge.Rendezvous.Server
import NightBridge.Rendezvous.Visibility

namespace NightBridge.Rendezvous

open Data Effect

/-! ### A cell under calls in any order of times -/

/-- The time at which a registration runs out. -/
def runsOut (maxTtl : ℕ) : ℕ × RegisterRequest → ℕ
  | (time, request) => time + min (nanosPerSec * request.ttlSeconds) maxTtl

/-- The cell holds the last registration, or nothing if that has run out by the
clock. -/
inductive Cell.Holds (maxTtl clock : ℕ) : Option (ℕ × RegisterRequest) → Cell → Prop
  | entry {time lastSeen : ℕ} {request : RegisterRequest} {c : Cell}
      (h : c.entry = some ⟨request.aliasName, request.pubkey, request.candidates, time,
        runsOut maxTtl (time, request), lastSeen⟩) :
      Holds maxTtl clock (some (time, request)) c
  | gone {last : Option (ℕ × RegisterRequest)} {c : Cell} (h : c.entry = none)
      (hout : ∀ r ∈ last, runsOut maxTtl r ≤ clock) : Holds maxTtl clock last c

namespace Cell.Holds

variable {maxTtl clock clock' now : ℕ} {last : Option (ℕ × RegisterRequest)} {c c' : Cell}

theorem mono (h : c.Holds maxTtl clock last) (hle : clock ≤ clock') : c.Holds maxTtl clock' last := by
  cases h with
  | entry h => exact .entry h
  | gone h hout => exact .gone h fun r hr => (hout r hr).trans hle

theorem prune (h : c.Holds maxTtl clock last) (hle : now ≤ clock) :
    (c.prune now).Holds maxTtl clock last := by
  cases hexpired : c.expired now with
  | false => rwa [prune_of_not_expired hexpired]
  | true =>
    rw [prune_of_expired hexpired]
    obtain ⟨entry, hentry, hout⟩ := expired_iff.mp hexpired
    cases h with
    | gone h _ => rw [h] at hentry; cases hentry
    | entry h =>
      obtain rfl := Option.some.inj (h.symm.trans hentry)
      exact .gone rfl fun r hr => Option.some.inj hr ▸ hout.trans hle

theorem seen (h : c.Holds maxTtl clock last) (hc : c'.entry = c.entry ∨ c'.entry = (c.seen now).entry) :
    c'.Holds maxTtl clock last := by
  cases h with
  | entry h => rcases hc with hc | hc <;> exact .entry (hc.trans (by simp [Cell.seen, h]; rfl))
  | gone h hout => rcases hc with hc | hc <;> exact .gone (hc.trans (by simp [Cell.seen, h])) hout

end Cell.Holds

namespace Registry

variable {self : Registry} {pubkey : Bytes32} {clock : ℕ}
  {last : Option (ℕ × RegisterRequest)}

/-- **One call**, at any time up to the clock. -/
theorem holds_handle [SocketAddrs] {c : TimedCall} (hle : c.1 ≤ clock)
    (h : (self.cell pubkey).Holds self.maxTtl clock last) :
    ((handle c self).2.cell pubkey).Holds self.maxTtl clock
      ((registered pubkey ⟨c, (handle c self).1⟩).or last) := by
  rw [cell_handle]
  obtain ⟨now, c⟩ := c
  cases c with
  | register request =>
    rw [handle, register_eq, Cell.after]
    cases henrol : enrol self.maxTtl now request with
    | error e => exact h
    | ok entry =>
      obtain rfl := enrol_eq_ok henrol
      simp only [registered]
      split_ifs with hkey
      · exact .entry rfl
      · exact h
  | lookup | queueNotify | drainNotifications | pruneExpired =>
    exact (h.prune hle).seen (Cell.entry_act ..)

theorem shown_of_not_lt {maxTtl now : ℕ} {r : ℕ × RegisterRequest} (h : runsOut maxTtl r ≤ now) :
    RegisterRequest.shown maxTtl now r = none := if_neg (Nat.not_lt.mpr h)

theorem lookup_of_holds (now : ℕ) (h : (self.cell pubkey).Holds self.maxTtl clock last) :
    (self.lookup now pubkey).1 = last.bind (RegisterRequest.shown self.maxTtl now) ∨
      (self.lookup now pubkey).1 = none ∧
        last.bind (RegisterRequest.shown self.maxTtl clock) = none := by
  have hshown : (self.lookup now pubkey).1 = (self.cell pubkey).shown now := lookup_eq ..
  rw [hshown]
  cases h with
  | entry h => exact .inl (Cell.shown_of_entry h)
  | gone h hout =>
    refine .inr ⟨Cell.shown_of_none h, ?_⟩
    cases last with
    | none => rfl
    | some r => exact shown_of_not_lt (hout r rfl)

end Registry

/-! ### The server -/

section server

variable [SocketAddrs] {maxTtl : ℕ}

/-- What the registry is at any time: what its calls made of it, each cell
holding the last registration of its key unless that has run out. -/
structure Shared.Sound (maxTtl : ℕ) (s : Shared) : Prop where
  registry : s.registry = after Registry.handle (.new maxTtl) (s.calls.map Event.op)
  holds : ∀ pubkey, (s.registry.cell pubkey).Holds maxTtl s.clock (lastOf (registered pubkey) s.calls)

theorem Shared.Sound.maxTtl_eq {s : Shared} (h : s.Sound maxTtl) : s.registry.maxTtl = maxTtl := by
  rw [h.registry, Registry.maxTtl_after]
  rfl

theorem Shared.sound_new : Shared.Sound maxTtl ⟨.new maxTtl, 0, []⟩ :=
  ⟨rfl, fun _ => .gone rfl (by simp [Shared.calls])⟩

theorem Shared.calls_locked (s : Shared) (c : TimedCall) :
    (s.locked c).2.calls = s.calls ++ [⟨c, (Registry.handle c s.registry).1⟩] := by
  simp [Shared.calls, Shared.locked]

theorem Shared.Sound.locked {s : Shared} (h : s.Sound maxTtl) {c : TimedCall} (hle : c.1 ≤ s.clock) :
    (s.locked c).2.Sound maxTtl := by
  constructor
  · rw [calls_locked, List.map_append, List.map_cons, List.map_nil, after_concat, ← h.registry]
    rfl
  · intro pubkey
    have hcell := h.holds pubkey
    rw [← h.maxTtl_eq] at hcell ⊢
    rw [calls_locked, lastOf_concat]
    exact Registry.holds_handle hle hcell

/-- **One call of a task** keeps it. -/
theorem Shared.Sound.exec {s : Shared} (h : s.Sound maxTtl) (w : Wire) {o : Op}
    (ho : ∀ c, o = .call c → c.1 ≤ s.clock) : (exec o s w).2.1.Sound maxTtl := by
  cases o with
  | recvExact n =>
    rw [Rendezvous.exec]
    split_ifs <;> exact h
  | sendAll | finish | now => exact h
  | call c => exact h.locked (ho c rfl)
  | prune => exact h.locked le_rfl
  | elapse nanos =>
    exact ⟨h.registry, fun pubkey => (h.holds pubkey).mono (Nat.le_add_right s.clock nanos)⟩

theorem clock_exec (o : Op) (s : Shared) (w : Wire) : s.clock ≤ (exec o s w).2.1.clock := by
  cases o with
  | recvExact n =>
    rw [exec]
    split_ifs <;> exact le_rfl
  | sendAll | finish | now | call | prune => exact le_rfl
  | elapse nanos => exact Nat.le_add_right ..

theorem log_exec (o : Op) (s : Shared) (w : Wire) : s.log <+: (exec o s w).2.1.log := by
  cases o with
  | recvExact n =>
    rw [exec]
    split_ifs <;> exact List.prefix_rfl
  | sendAll | finish | now | elapse => exact List.prefix_rfl
  | call | prune => exact List.prefix_append ..

end server

/-! ### The times the tasks use -/

section times

/-- A call of the registry has a time that the clock showed before. -/
def Timed (hist : History Op Resp) (o : Op) : Prop := ∀ c, o = .call c → ⟨.now, c.1⟩ ∈ hist

/-- It is not a call of the registry under the time of a request. -/
def Op.Plain (o : Op) : Prop := ∀ c, o ≠ .call c

theorem Op.Plain.timed {o : Op} (h : o.Plain) (hist : History Op Resp) : Timed hist o :=
  fun c hc => absurd hc (h c)

theorem timed_of_plain {ε α : Type} {p : Io ε α} (h : p.Only Op.Plain) (hist : History Op Resp) :
    p.wp Timed (fun _ _ => True) hist :=
  Prog.wp_mono (h.wp_returned (fun hist _ ho => ho.timed hist) hist) (fun _ _ _ h => h) fun _ _ _ _ => trivial

theorem plain_readFrame : readFrame.Only Op.Plain := by
  have hrecv : ∀ n text, (recvExact n text).Only Op.Plain := fun n text =>
    .call (by simp [Op.Plain]) fun
      | some bytes => .ret bytes
      | none => .fail text
  exact (hrecv 4 _).bind fun len => Prog.only_ite (.fail _) (hrecv _ _)

theorem plain_writeFrame (bytes : Bytes) : (writeFrame bytes).Only Op.Plain := by
  have hsend : ∀ bytes text, (sendAll bytes text).Only Op.Plain := fun bytes text =>
    .call (by simp [Op.Plain]) fun
      | true => .ret ()
      | false => .fail text
  exact Prog.only_ite (.fail _) ((hsend _ _).bind fun _ => hsend _ _)

theorem timed_respond {α : Type} (wrap : α → ServerMessage) (r : Except Failure α)
    (hist : History Op Resp) : (respond wrap r).wp Timed (fun _ _ => True) hist := by
  rcases r with (e | _) | response <;> trivial

theorem timed_handleMessage (message : ClientMessage) (hist : History Op Resp) :
    (handleMessage message).wp Timed (fun _ _ => True) hist := by
  refine ⟨Op.Plain.timed (by simp [Op.Plain]) hist, fun now => ?_⟩
  have htimed : ∀ c : Call, Timed (hist ++ [⟨.now, now⟩]) (.call (now, c)) := by
    rintro c _ ⟨⟩
    simp
  cases message with
  | register request => exact ⟨htimed _, fun r => timed_respond _ _ _⟩
  | lookup request => exact ⟨htimed _, fun r => trivial⟩
  | notify request => exact ⟨htimed _, fun r => timed_respond _ _ _⟩
  | ping => trivial

variable [Serde]

theorem plain_readClientMessage : readClientMessage.Only Op.Plain := by
  refine plain_readFrame.bind fun bytes => ?_
  split
  · exact .ret _
  · exact .fail _

theorem plain_writeServerMessage (message : ServerMessage) :
    (writeServerMessage message).Only Op.Plain := by
  unfold writeServerMessage
  split
  · exact plain_writeFrame _
  · exact .fail _

theorem timed_serveStream (hist : History Op Resp) :
    serveStream.wp Timed (fun _ _ => True) hist := by
  refine Prog.wp_bind_of (timed_of_plain plain_readClientMessage.attempt hist) fun hist read _ _ => ?_
  refine Prog.wp_bind_of (Q := fun _ _ => True) ?_ fun hist response _ _ => ?_
  · cases read with
    | ok message => exact timed_handleMessage message hist
    | error text => trivial
  · refine Prog.wp_bind_of (timed_of_plain (plain_writeServerMessage response).attempt hist)
      fun hist _ _ _ => ?_
    exact ⟨Op.Plain.timed (by simp [Op.Plain]) hist, fun _ => trivial⟩

/-- **The times of the tasks.** -/
theorem timed_server (env : Environment) (maxTtl : ℕ) (i : Task) :
    ((env.server maxTtl).rest i).wp Timed (fun _ _ => True) [] := by
  cases i with
  | stream i => exact timed_serveStream []
  | pruner =>
    exact timed_of_plain (Prog.only_each (fun _ => .call (by simp [Op.Plain]) fun _ => .ret ()) _) []
  | time =>
    exact timed_of_plain (Prog.only_each (fun _ => .call (by simp [Op.Plain]) fun _ => .ret ()) _) []

end times

/-! ### All interleavings -/

section runs

variable [SocketAddrs] [Serde] {maxTtl : ℕ}

/-- What holds of the server at any time. -/
structure Consistent (maxTtl : ℕ) (pool : Pool Op Resp Panic Unit Shared Wire Task) : Prop where
  sound : pool.shared.Sound maxTtl
  /-- The clock has not gone back. -/
  read : ∀ i now, ⟨.now, now⟩ ∈ pool.calls i → now ≤ pool.shared.clock
  /-- So it was at each call, whose time was not ahead. -/
  seen : ∀ i, ∀ e ∈ pool.seen i, e.1.Sound maxTtl ∧
    ∀ c r, e.2 = ⟨.call c, r⟩ → c.1 ≤ e.1.clock ∧ r = (Registry.handle c e.1.registry).1 ∧
      e.1.log ++ [(e.1.clock, ⟨c, r⟩)] <+: pool.shared.log

theorem consistent_run (env : Environment) (maxTtl : ℕ) (schedule : List Task) :
    Consistent maxTtl ((env.server maxTtl).run exec schedule) := by
  refine Pool.run_inv (fun schedule i o k hI hi => ?_) ⟨Shared.sound_new, by simp [Pool.start, Pool.calls],
    by simp [Pool.start]⟩ schedule
  set pool := Pool.run exec _ schedule
  have htimed : ∀ c, o = .call c → c.1 ≤ pool.shared.clock := fun c hc =>
    hI.read i c.1 (Pool.guarded (timed_server env maxTtl i) hi c hc)
  have hclock := clock_exec o pool.shared (pool.own i)
  constructor
  · rw [Pool.shared_step hi]
    exact hI.sound.exec (pool.own i) htimed
  · intro j now hnow
    rw [Pool.shared_step hi]
    rcases Pool.mem_calls_step hi hnow with hold | ⟨-, hnew⟩
    · exact (hI.read j now hold).trans hclock
    · obtain ⟨rfl, hresp⟩ := Event.mk.inj hnew
      obtain rfl := eq_of_heq hresp
      exact hclock
  · intro j e he
    rw [Pool.shared_step hi]
    rcases Pool.mem_seen_step hi he with hold | rfl
    · refine ⟨(hI.seen j e hold).1, fun c r hcall => ?_⟩
      obtain ⟨hle, hr, hlog⟩ := (hI.seen j e hold).2 c r hcall
      exact ⟨hle, hr, hlog.trans (log_exec ..)⟩
    · refine ⟨hI.sound, fun c r hcall => ?_⟩
      obtain ⟨rfl, hresp⟩ := Event.mk.inj hcall
      obtain rfl := eq_of_heq hresp
      exact ⟨htimed c rfl, rfl, List.prefix_rfl⟩

omit [Serde] in
theorem Consistent.served {pool : Pool Op Resp Panic Unit Shared Wire Task} (h : Consistent maxTtl pool)
    {i : Task} {s : Shared} {c : TimedCall} {r : c.2.Resp} (hmem : (s, ⟨.call c, r⟩) ∈ pool.seen i) :
    s.Sound maxTtl ∧ c.1 ≤ s.clock ∧ r = (Registry.handle c s.registry).1 ∧
      s.log ++ [(s.clock, ⟨c, r⟩)] <+: pool.shared.log :=
  ⟨(h.seen i _ hmem).1, (h.seen i _ hmem).2 c r rfl⟩

/-- **Lookups and notifications in any interleaving.**  Whatever bytes arrive on
any number of streams, however the tasks take turns and time passes: the time
`now` of a lookup is not ahead of the clock when it is served.  Its answer is
what was visible at `now`, by the calls served so far, or it is nothing, and
then nothing is visible any more when it is served.  A notification is queued
exactly when a lookup in its place would have found its target, so it is queued
when the target was visible at `now`, unless it is not visible any more. -/
theorem lookup_between (env : Environment) (maxTtl : ℕ) (schedule : List Task) (i : Task) (s : Shared)
    (now : ℕ) :
    (∀ pubkey peer,
      (s, ⟨.call (now, .lookup pubkey), peer⟩) ∈ ((env.server maxTtl).run exec schedule).seen i →
      now ≤ s.clock ∧ (peer = visible maxTtl now pubkey s.calls ∨
        peer = none ∧ visible maxTtl s.clock pubkey s.calls = none)) ∧
    ∀ request result,
      (s, ⟨.call (now, .queueNotify request), result⟩) ∈ ((env.server maxTtl).run exec schedule).seen i →
      now ≤ s.clock ∧ result.isOk = (s.registry.lookup now request.targetPubkey).1.isSome ∧
        (result.isOk = (visible maxTtl now request.targetPubkey s.calls).isSome ∨
          result.isOk = false ∧ visible maxTtl s.clock request.targetPubkey s.calls = none) := by
  have hconsistent := consistent_run env maxTtl schedule
  constructor
  · intro pubkey peer hmem
    obtain ⟨hsound, hle, rfl, -⟩ := hconsistent.served hmem
    have hholds := hsound.holds pubkey
    rw [← hsound.maxTtl_eq] at hholds ⊢
    exact ⟨hle, Registry.lookup_of_holds now hholds⟩
  · intro request result hmem
    obtain ⟨hsound, hle, rfl, -⟩ := hconsistent.served hmem
    have hholds := hsound.holds request.targetPubkey
    rw [← hsound.maxTtl_eq] at hholds ⊢
    -- `queue_notify` begins with a lookup of its target
    have hok : (Registry.handle (now, .queueNotify request) s.registry).1.isOk =
        (s.registry.lookup now request.targetPubkey).1.isSome := by
      rw [Registry.handle, Registry.queueNotify_eq, Registry.lookup_isSome]
      split_ifs with h <;> simp [h, Except.isOk, Except.toBool]
    refine ⟨hle, hok, ?_⟩
    rcases Registry.lookup_of_holds now hholds with h | ⟨h, hnone⟩
    · exact .inl (by rw [hok, h]; rfl)
    · exact .inr ⟨by rw [hok, h]; rfl, hnone⟩

end runs

/-- The call is a lookup read at the start whose peer was visible then, and it
found nothing. -/
def Shared.late (pubkey : Bytes32) : Prog.Seen Op Resp Shared → Bool
  | (s, ⟨.call (now, .lookup target), peer⟩) => decide (now = 0) && decide (target = pubkey) &&
      peer.isNone && (visible (120 * nanosPerSec) 0 pubkey s.calls).isSome
  | _ => false

theorem Shared.eq_of_late {pubkey : Bytes32} {s : Shared} {o : Op} {r : Resp o}
    (h : Shared.late pubkey (s, ⟨o, r⟩) = true) :
    o = .call (0, .lookup pubkey) ∧ HEq r (none : Option LookupPeer) ∧
      (visible (120 * nanosPerSec) 0 pubkey s.calls).isSome = true := by
  cases o with
  | call c =>
    obtain ⟨now, c⟩ := c
    cases c with
    | lookup target =>
      simp only [late, Bool.and_eq_true, decide_eq_true_eq, Option.isNone_iff_eq_none] at h
      obtain ⟨⟨⟨rfl, rfl⟩, rfl⟩, hvisible⟩ := h
      exact ⟨rfl, .rfl, hvisible⟩
    | register | queueNotify | drainNotifications | pruneExpired => cases h
  | recvExact | sendAll | finish | now | prune | elapse => cases h

/-- A lookup reads the clock, and waits while its peer runs out and is pruned. -/
def lateSchedule : List Task :=
  List.replicate 7 (.stream 0) ++ List.replicate 3 (.stream 1) ++ [.time, .pruner, .stream 1]

/-- The run of that schedule. -/
def lateRun [SocketAddrs] [Serde] : Pool Op Resp Panic Unit Shared Wire Task :=
  (Environment.sample.server (120 * nanosPerSec)).run exec lateSchedule

/-- The lookup finds nothing, though its peer was visible when its request was
read. -/
theorem lookup_between_late :
    ∃ s, (s, ⟨.call (0, .lookup (.pad [1])), none⟩) ∈ (@lateRun .sample .sample).seen (.stream 1) ∧
      (visible (120 * nanosPerSec) 0 (.pad [1]) s.calls).isSome = true ∧
      visible (120 * nanosPerSec) s.clock (.pad [1]) s.calls = none := by
  have hany : ((@lateRun .sample .sample).seen (.stream 1)).any (Shared.late (.pad [1])) = true := by
    decide +kernel
  obtain ⟨⟨s, o, r⟩, hseen, hlate⟩ := List.any_eq_true.mp hany
  obtain ⟨rfl, hr, hvisible⟩ := Shared.eq_of_late hlate
  obtain rfl := eq_of_heq hr
  have hbetween := @lookup_between .sample .sample Environment.sample (120 * nanosPerSec) lateSchedule
    (.stream 1) s 0
  refine ⟨s, hseen, hvisible, ?_⟩
  unfold lateRun at hseen
  rcases (hbetween.1 _ _ hseen).2 with h | ⟨-, h⟩
  · rw [← h] at hvisible
    cases hvisible
  · exact h

end NightBridge.Rendezvous
