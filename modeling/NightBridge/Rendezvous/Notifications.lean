/-
# What a drain returns

A notification is queued under the key of its target and stays until the target
drains its queue, or until the target's entry is pruned.  `pending` reads the
queue off the calls made so far, each with the registry it found; `queue_after`
is the step.

A call about one key prunes every entry that has run out, so it can take away
the queue of another key; it leaves the queue of a key that is still visible
alone.
-/

import NightBridge.Rendezvous.Cells

namespace NightBridge.Rendezvous

open Data Effect

/-! ### The log -/

/-- A call, the registry it found, and its answer. -/
abbrev CallSeen := Prog.Seen TimedCall (fun c => c.2.Resp) Registry

section log

variable [SocketAddrs] (pubkey : Bytes32)

/-- A `drain_notifications` of the key that found it visible. -/
def drained : CallSeen → Bool
  | (self, ⟨(now, .drainNotifications target), _⟩) =>
    decide (target = pubkey) && (self.lookup now target).1.isSome
  | _ => false

/-- The call found an entry of the key and has left none. -/
def removed (e : CallSeen) : Bool :=
  (e.1.entries.find? pubkey).isSome && ((Registry.handle e.2.op e.1).2.entries.find? pubkey).isNone

/-- A successful `queue_notify` for the key. -/
def queued : CallSeen → Option PeerNotification
  | (_, ⟨(_, .queueNotify request), .ok _⟩) =>
    if request.targetPubkey = pubkey then some ⟨request.requesterPubkey⟩ else none
  | _ => none

/-- The notifications queued since the last drain and the last removal. -/
def pending (log : List CallSeen) : List PeerNotification :=
  (log.rtakeWhile fun e => !(drained pubkey e || removed pubkey e)).filterMap (queued pubkey)

theorem pending_concat (log : List CallSeen) (e : CallSeen) : pending pubkey (log ++ [e]) =
    if drained pubkey e || removed pubkey e then []
    else pending pubkey log ++ (queued pubkey e).toList := by
  rw [pending, List.rtakeWhile_concat]
  cases h : drained pubkey e || removed pubkey e with
  | true => rfl
  | false =>
    simp only [Bool.not_false, if_true, List.filterMap_append, pending, Bool.false_eq_true, if_false]
    cases hq : queued pubkey e <;> simp [hq]

end log

/-! ### The cell -/

/-- A key with a queue has an entry. -/
def Cell.Joint (c : Cell) : Prop := c.queue.isSome → c.entry.isSome

namespace Registry

variable [SocketAddrs] (self : Registry) (pubkey : Bytes32)

theorem removed_eq (c : TimedCall) (r : c.2.Resp) : removed pubkey (self, ⟨c, r⟩) =
    ((self.cell pubkey).entry.isSome && ((self.cell pubkey).after self.maxTtl pubkey
      c).entry.isNone) := by
  rw [← cell_handle]
  rfl

/-- **A call about an entry that has not run out** empties the queue if it
drains it, and otherwise adds what it queues. -/
theorem queue_act {now : ℕ} {call : Call} (hcall : ∀ request, call ≠ .register request)
    (hlive : (self.cell pubkey).expired now = false) (hjoint : (self.cell pubkey).Joint) :
    ((self.cell pubkey).act now pubkey call).Joint ∧
      ((self.cell pubkey).act now pubkey call).queue.getD [] =
        let e : CallSeen := (self, ⟨(now, call), (handle (now, call) self).1⟩)
        if drained pubkey e then []
        else (self.cell pubkey).queue.getD [] ++ (queued pubkey e).toList := by
  cases call with
  | register request => exact absurd rfl (hcall request)
  | lookup target =>
    by_cases hkey : target = pubkey <;>
      simpa [Cell.act, drained, queued, hkey, Cell.Joint, Cell.seen] using hjoint
  | pruneExpired => simpa [Cell.act, drained, queued] using hjoint
  | queueNotify request =>
    by_cases hkey : request.targetPubkey = pubkey
    · subst hkey
      simp only [Cell.act, drained, handle, queueNotify_eq, Cell.prune_of_not_expired hlive, if_true]
      cases hentry : (self.cell request.targetPubkey).entry with
      | none => simpa [queued, Cell.notify, Cell.seen, hentry, Cell.Joint] using hjoint
      | some entry => simp [queued, Cell.notify, Cell.seen, hentry, Cell.Joint]
    · have hqueued : queued pubkey (self,
        ⟨(now, .queueNotify request), (handle (now, .queueNotify request) self).1⟩) =
          none := by
        simp only [handle]
        cases (self.queueNotify now request).1 <;> simp [queued, hkey]
      simpa [Cell.act, drained, hkey, hqueued] using hjoint
  | drainNotifications target =>
    by_cases hkey : target = pubkey
    · subst hkey
      simp only [Cell.act, drained, queued, lookup_isSome, Cell.prune_of_not_expired hlive, if_true]
      cases hentry : (self.cell target).entry with
      | none => simpa [Cell.drain, Cell.seen, hentry, Cell.Joint] using hjoint
      | some entry => simp [Cell.drain, Cell.seen, hentry, Cell.Joint]
    · simpa [Cell.act, drained, queued, hkey] using hjoint

/-- **One call**: the queue is emptied by a drain and with its entry, and
otherwise grows by what the call queues. -/
theorem queue_after (c : TimedCall) (hjoint : (self.cell pubkey).Joint) :
    ((handle c self).2.cell pubkey).Joint ∧
      ((handle c self).2.cell pubkey).queue.getD [] =
        let e : CallSeen := (self, ⟨c, (handle c self).1⟩)
        if drained pubkey e || removed pubkey e then []
        else (self.cell pubkey).queue.getD [] ++ (queued pubkey e).toList := by
  dsimp only
  rw [removed_eq, cell_handle]
  obtain ⟨now, c⟩ := c
  by_cases hregister : ∃ request, c = .register request
  · -- a `register` does not look at the queue
    obtain ⟨request, rfl⟩ := hregister
    simp only [drained, queued, Cell.after, Bool.false_or, Option.toList_none, List.append_nil]
    cases enrol self.maxTtl now request with
    | error e => exact ⟨hjoint, by cases (self.cell pubkey).entry <;> simp⟩
    | ok entry =>
      by_cases hkey : entry.pubkey = pubkey
      · simp [hkey, Cell.Joint]
      · simp only [hkey, if_false]
        exact ⟨hjoint, by cases (self.cell pubkey).entry <;> simp⟩
  · have hcall : ∀ request, c ≠ .register request := fun request h => hregister ⟨request, h⟩
    have hafter : (self.cell pubkey).after self.maxTtl pubkey (now, c) =
        ((self.cell pubkey).prune now).act now pubkey c := by
      cases c with
      | register request => exact absurd rfl (hcall request)
      | _ => rfl
    rw [hafter]
    cases hexpired : (self.cell pubkey).expired now with
    | true =>
      obtain ⟨entry, hentry, -⟩ := Cell.expired_iff.mp hexpired
      rw [Cell.prune_of_expired hexpired, Cell.act_empty, hentry]
      simp [Cell.empty, Cell.Joint]
    | false =>
      rw [Cell.prune_of_not_expired hexpired, ← Option.not_isSome, Cell.isSome_entry_act,
        Bool.and_not_self,
        Bool.or_false]
      exact self.queue_act pubkey hcall hexpired hjoint

/-- **After any calls** a key with a queue has an entry, and the queue holds
what is pending. -/
theorem queue_eq_pending (maxTtl : ℕ) (calls : List TimedCall) :
    ((after handle (new maxTtl) calls).cell pubkey).Joint ∧
      ((after handle (new maxTtl) calls).cell pubkey).queue.getD [] =
        pending pubkey (traced handle (new maxTtl) calls) := by
  induction calls using List.reverseRecOn with
  | nil => exact ⟨by simp [Cell.Joint, Cell.empty], rfl⟩
  | append_singleton calls c ih =>
    obtain ⟨hjoint, hqueue⟩ := queue_after _ pubkey c ih.1
    rw [after_concat, traced_concat, pending_concat, ← ih.2]
    exact ⟨hjoint, hqueue⟩

variable {self pubkey}

/-- What a call about another key does: a key that is not visible loses its
entry and its queue. -/
theorem cell_of_ne (now : ℕ) {target : Bytes32} {call : Call}
    (hcall : call = .drainNotifications target ∨ ∃ requester, call = .queueNotify ⟨requester, target⟩)
    (hne : target ≠ pubkey) (hjoint : (self.cell pubkey).Joint) :
    (handle (now, call) self).2.cell pubkey =
      if (self.lookup now pubkey).1.isSome then self.cell pubkey else .empty := by
  have hcell : (handle (now, call) self).2.cell pubkey = (self.cell pubkey).prune now := by
    rw [cell_handle]
    rcases hcall with rfl | ⟨requester, rfl⟩ <;> simp [Cell.after, Cell.act, hne]
  rw [hcell, lookup_isSome]
  cases hexpired : (self.cell pubkey).expired now with
  | true =>
    rw [Cell.prune_of_expired hexpired]
    rfl
  | false =>
    rw [Cell.prune_of_not_expired hexpired]
    split_ifs with hsome
    · rfl
    · -- without an entry there is no queue either
      have hqueue : ¬ (self.cell pubkey).queue.isSome := fun h => hsome (hjoint h)
      rw [Option.not_isSome_iff_eq_none] at hsome hqueue
      exact congrArg₂ Cell.mk hsome hqueue

/-- **Notifications are neither lost, duplicated nor leaked.**  After any calls
a key with queued notifications has an entry; a drain of a visible key returns
the requesters of the successful `queue_notify` calls for it, in their order,
since the last drain that found it visible and the last time its entry was
removed; and a call about another key leaves its entry and its queue alone while
it is visible, and removes both once it is not. -/
theorem drainNotifications_eq_pending (maxTtl : ℕ) (calls : List TimedCall) (pubkey : Bytes32)
    (now : ℕ) :
    let self := after handle (new maxTtl) calls
    ((self.notifications.find? pubkey).isSome → (self.entries.find? pubkey).isSome) ∧
      ((self.lookup now pubkey).1.isSome →
        (self.drainNotifications now pubkey).1 = pending pubkey (traced handle (new maxTtl) calls)) ∧
      ∀ target call,
        (call = .drainNotifications target ∨ ∃ requester, call = .queueNotify ⟨requester, target⟩) →
        target ≠ pubkey →
        (handle (now, call) self).2.entries.find? pubkey =
            (if (self.lookup now pubkey).1.isSome then self.entries.find? pubkey else none) ∧
          ((handle (now, call) self).2.notifications.find? pubkey).map Queue.notifications =
            if (self.lookup now pubkey).1.isSome then
              (self.notifications.find? pubkey).map Queue.notifications
            else none := by
  intro self
  obtain ⟨hjoint, hqueue⟩ := queue_eq_pending pubkey maxTtl calls
  refine ⟨fun h => hjoint (by simpa [cell] using h), fun hsome => ?_, fun target call hcall hne => ?_⟩
  · rw [lookup_isSome] at hsome
    rw [drainNotifications_eq, if_pos hsome, ← hqueue]
    cases hexpired : (self.cell pubkey).expired now with
    | true =>
      rw [Cell.prune_of_expired hexpired] at hsome
      cases hsome
    | false => rw [Cell.prune_of_not_expired hexpired]
  · have hcell := cell_of_ne now hcall hne hjoint
    split_ifs at hcell ⊢
    · exact ⟨congrArg Cell.entry hcell, congrArg Cell.queue hcell⟩
    · exact ⟨congrArg Cell.entry hcell, congrArg Cell.queue hcell⟩

end Registry

/-- A notification waits for a peer that has run out.  If the peer registers
again and then drains its queue, it gets the notification; but not if some other
key is drained before. -/
theorem drain_takes_other_queue :
    letI := SocketAddrs.sample
    let calls := [(0, Call.register (.sample (.pad [2]) 1)), (0, .queueNotify ⟨.pad [1], .pad [2]⟩)]
    let again := (nanosPerSec, Call.register (.sample (.pad [2]) 1))
    let self := after Registry.handle (.new (120 * nanosPerSec)) (calls ++ [again])
    let self' := after Registry.handle (.new (120 * nanosPerSec))
      (calls ++ [(nanosPerSec, .drainNotifications (.pad [1])), again])
    (self.drainNotifications nanosPerSec (.pad [2])).1 = [⟨.pad [1]⟩] ∧
      (self'.drainNotifications nanosPerSec (.pad [2])).1 = [] := by
  decide +kernel

end NightBridge.Rendezvous
