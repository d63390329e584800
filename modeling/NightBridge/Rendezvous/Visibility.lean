/-
# Who can be looked up

A peer is visible from its last successful `register` until the time that one
asked for, or the largest the registry allows, has passed.  Whether its entry is
still in the map then is another matter: it may linger, or some call about
another key may have pruned it.

`Cell.shown` is what a lookup of the key would return at a time.  Pruning at
that time or before does not change it, nor does any call but `register`
(`shown_handle`), so it can be read off the log.
-/

import NightBridge.Rendezvous.Cells

namespace NightBridge.Rendezvous

open Data Effect

/-! ### The log -/

/-- A successful `register` of the key, and when. -/
def registered (pubkey : Bytes32) : CallEvent → Option (ℕ × RegisterRequest)
  | ⟨(now, .register request), .ok _⟩ => if request.pubkey = pubkey then some (now, request) else none
  | _ => none

/-- What a lookup shows of a request registered at a time, while it lasts. -/
def RegisterRequest.shown (maxTtl now : ℕ) : ℕ × RegisterRequest → Option LookupPeer
  | (time, request) =>
    if now < time + min (nanosPerSec * request.ttlSeconds) maxTtl then
      some ⟨request.aliasName, request.pubkey, request.candidates, (now - time) / nanosPerSec⟩
    else none

/-- What a lookup shows, by the log. -/
def visible (maxTtl now : ℕ) (pubkey : Bytes32) (log : List CallEvent) : Option LookupPeer :=
  (lastOf (registered pubkey) log).bind (RegisterRequest.shown maxTtl now)

/-! ### The cell -/

namespace Cell

variable {now now' : ℕ}

/-- What a lookup at a time would return. -/
def shown (now : ℕ) (c : Cell) : Option LookupPeer :=
  ((c.prune now).seen now).entry.map RegistryEntry.toLookupPeer

theorem shown_prune (hle : now ≤ now') (c : Cell) : (c.prune now).shown now' = c.shown now' := by
  rw [shown, prune_prune hle, shown]

theorem shown_of_entry {c : Cell} {entry : RegistryEntry} (h : c.entry = some entry) :
    c.shown now = if now < entry.expiresAt then some { entry with lastSeen := now }.toLookupPeer
      else none := by
  by_cases hlt : now < entry.expiresAt
  · have hlive : c.expired now = false := by simp [expired, h, hlt]
    rw [shown, prune_of_not_expired hlive, if_pos hlt, seen, h]
    rfl
  · have hexpired : c.expired now = true := expired_iff.mpr ⟨entry, h, Nat.not_lt.mp hlt⟩
    rw [shown, prune_of_expired hexpired, if_neg hlt]
    rfl

theorem shown_of_none {c : Cell} (h : c.entry = none) : c.shown now = none := by
  have hlive : c.expired now = false := by simp [expired, h]
  rw [shown, prune_of_not_expired hlive, seen, h]
  rfl

/-- A call other than `register` dates the entry at most, which the next lookup
does too. -/
theorem shown_act (pubkey : Bytes32) (call : Call) (c : Cell) :
    (c.act now pubkey call).shown now' = c.shown now' := by
  cases hentry : c.entry with
  | none =>
    rw [shown_of_none hentry, shown_of_none]
    rcases c.entry_act now pubkey call with h | h <;> simp [h, seen, hentry]
  | some entry =>
    rcases c.entry_act now pubkey call with h | h
    · rw [shown_of_entry hentry, shown_of_entry (h.trans hentry)]
    · have hdated : (c.act now pubkey call).entry = some { entry with lastSeen := now } := by
        simp [h, seen, hentry]
      rw [shown_of_entry hentry, shown_of_entry hdated]

end Cell

namespace Registry

variable [SocketAddrs] {maxTtl : ℕ} {pubkey : Bytes32}

/-- **One call**: only a successful `register` of the key changes what is shown
from then on. -/
theorem shown_handle (self : Registry) {c : TimedCall} {now' : ℕ} (hle : c.1 ≤ now') :
    ((handle c self).2.cell pubkey).shown now' =
      match registered pubkey ⟨c, (handle c self).1⟩ with
      | some r => RegisterRequest.shown self.maxTtl now' r
      | none => (self.cell pubkey).shown now' := by
  rw [cell_handle]
  obtain ⟨now, c⟩ := c
  cases c with
  | register request =>
    rw [handle, register_eq, Cell.after]
    cases henrol : enrol self.maxTtl now request with
    | error e => rfl
    | ok entry =>
      obtain rfl := enrol_eq_ok henrol
      simp only [registered]
      split_ifs with h
      · rw [Cell.shown_of_entry rfl]
        rfl
      · rfl
  | lookup | queueNotify | drainNotifications | pruneExpired =>
    simp only [Cell.after, registered]
    rw [Cell.shown_act, Cell.shown_prune hle]

/-- **After any calls up to a time, what is shown then can be read off the log.** -/
theorem shown_after {calls : List TimedCall} {now : ℕ} (horder : ∀ c ∈ calls, c.1 ≤ now) :
    ((after handle (new maxTtl) calls).cell pubkey).shown now =
      visible maxTtl now pubkey (answers handle (new maxTtl) calls) := by
  induction calls using List.reverseRecOn with
  | nil => rfl
  | append_singleton calls c ih =>
    rw [after_concat, answers_concat, shown_handle _ (horder c (by simp)), maxTtl_after,
      ih fun c hc => horder c (by simp [hc])]
    simp only [visible, lastOf_concat]
    cases registered pubkey ⟨c, (handle c (after handle (new maxTtl) calls)).1⟩ <;> rfl

/-- Calls that do not register the key leave what is shown from then on. -/
theorem shown_after_others (self : Registry) {calls : List TimedCall} {now : ℕ}
    (horder : ∀ c ∈ calls, c.1 ≤ now)
    (hothers : ∀ e ∈ answers handle self calls, registered pubkey e = none) :
    ((after handle self calls).cell pubkey).shown now = (self.cell pubkey).shown now := by
  induction calls generalizing self with
  | nil => rfl
  | cons c calls ih =>
    rw [answers_cons, List.forall_mem_cons] at hothers
    rw [after_cons, ih _ (fun c hc => horder c (by simp [hc])) hothers.2,
      shown_handle self (horder c (by simp)),
      hothers.1]

theorem register_of_invalid {self : Registry} {now : ℕ} {request : RegisterRequest}
    {e : ProtocolError} (h : request.validate = .error e) : (self.register now request).2 = self := by
  rw [register, h]

/-- A valid request is registered if its end is an `Instant`. -/
theorem register_of_valid {self : Registry} {now expiresAt : ℕ} {request : RegisterRequest}
    (hvalid : request.validate = .ok ())
    (hexpires : checkedAdd now (self.cappedTtl request.ttlSeconds) = some expiresAt) :
    (self.register now request).1.isOk ∧ registered request.pubkey ⟨(now, .register request),
      (handle (now, .register request) self).1⟩ = some (now, request) := by
  simp [register, handle, hvalid, hexpires, registered, Except.isOk, Except.toBool]

/-- **A registered peer is found** until its entry runs out, whatever is called
in between but another `register` of its key. -/
theorem lookup_of_register (self : Registry) {now now' expiresAt : ℕ} {request : RegisterRequest}
    (hvalid : request.validate = .ok ())
    (hexpires : checkedAdd now (self.cappedTtl request.ttlSeconds) = some expiresAt) (hle : now ≤ now')
    (hlt : now' < expiresAt) {calls : List TimedCall} (horder : ∀ c ∈ calls, c.1 ≤ now')
    (hothers : ∀ e ∈ answers handle (self.register now request).2 calls,
      registered request.pubkey e = none) :
    ((after handle (self.register now request).2 calls).lookup now' request.pubkey).1 =
      some ⟨request.aliasName, request.pubkey, request.candidates, (now' - now) / nanosPerSec⟩ := by
  have hshown : (((self.register now request).2).cell request.pubkey).shown now' =
      RegisterRequest.shown self.maxTtl now' (now, request) := by
    have h : ((handle (now, .register request) self).2.cell request.pubkey).shown now' = _ :=
      shown_handle self hle
    rwa [(register_of_valid hvalid hexpires).2] at h
  calc ((after handle (self.register now request).2 calls).lookup now' request.pubkey).1
      = ((after handle (self.register now request).2 calls).cell request.pubkey).shown now' :=
        lookup_eq _ now' _
    _ = ((self.register now request).2.cell request.pubkey).shown now' :=
      shown_after_others _ horder hothers
    _ = RegisterRequest.shown self.maxTtl now' (now, request) := hshown
    _ = _ := if_pos (checkedAdd_eq_some hexpires ▸ hlt)

/-- **Visibility.**  After any calls up to a time, a lookup at that time returns
the alias, the key and the candidates of the last successful `register` of the
key, if less time has passed since than it asked for and less than the maximum,
and nothing otherwise.  A `register` that fails validation changes no later
answer, and `queue_notify` succeeds exactly when a lookup of its target
would. -/
theorem lookup_eq_visible (maxTtl : ℕ) {calls : List TimedCall} {now : ℕ}
    (horder : ∀ c ∈ calls, c.1 ≤ now) (pubkey : Bytes32) :
    ((after handle (new maxTtl) calls).lookup now pubkey).1 =
        visible maxTtl now pubkey (answers handle (new maxTtl) calls) ∧
      (∀ time request e more, RegisterRequest.validate request = .error e →
        answers handle (after handle (new maxTtl) (calls ++ [(time, .register request)])) more =
          answers handle (after handle (new maxTtl) calls) more) ∧
      ∀ requester, ((after handle (new maxTtl) calls).queueNotify now ⟨requester, pubkey⟩).1.isOk =
        ((after handle (new maxTtl) calls).lookup now pubkey).1.isSome := by
  refine ⟨?_, fun time request e more hinvalid => ?_, fun requester => ?_⟩
  · exact (lookup_eq _ now pubkey).trans (shown_after horder)
  · rw [after_concat, handle, register_of_invalid hinvalid]
  · rw [queueNotify_eq, lookup_isSome]
    split_ifs with h <;> simp [h, Except.isOk, Except.toBool]

end Registry

/-- A peer that asks for one second is visible for one second. -/
theorem lookup_eq_visible_second :
    letI := SocketAddrs.sample
    let self := after Registry.handle (.new (120 * nanosPerSec)) [(5, .register (.sample (.pad [1]) 1))]
    (self.lookup (nanosPerSec + 4) (.pad [1])).1 =
        some ⟨"nas", .pad [1], [⟨.local, "192.0.2.20:53400", 100⟩], 0⟩ ∧
      (self.lookup (nanosPerSec + 5) (.pad [1])).1 = none := by
  let _ := SocketAddrs.sample
  have hshown (now : ℕ) (hnow : 5 ≤ now) := (Registry.lookup_eq_visible (120 * nanosPerSec)
    (show ∀ c ∈ [((5 : ℕ), Call.register (.sample (.pad [1]) 1))], c.1 ≤ now by simpa using hnow)
    (.pad [1])).1
  refine ⟨(hshown _ (by decide)).trans ?_, (hshown _ (by decide)).trans ?_⟩ <;> decide +kernel

end NightBridge.Rendezvous
