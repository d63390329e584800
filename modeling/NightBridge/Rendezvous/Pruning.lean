/-
# Whether pruning is noticed

`prune_expired` may be called at any time: by the server's ticker, and inside
every lookup.  Two registries that were pruned at different times differ in
entries that have run out, and in their queues.

A drain can tell them apart.  `register` replaces an entry that has run out and
is still there, and the queue that waited for the old entry is then the new
one's; had the old entry been pruned before, its queue would have gone with it
(`prune_observed`).
-/

import NightBridge.Rendezvous.Visibility

namespace NightBridge.Rendezvous

open Data Effect

/-- `prune_expired`, the call that is inserted. -/
def TimedCall.prunes : TimedCall → Bool
  | (_, .pruneExpired) => true
  | _ => false

/-- `drain_notifications`. -/
def TimedCall.drains : TimedCall → Bool
  | (_, .drainNotifications _) => true
  | _ => false

/-- A successful `register` that finds a queue under an entry that has run out. -/
def revives : Prog.Seen TimedCall (fun c => c.2.Resp) Registry → Bool
  | (self, ⟨(now, .register request), .ok _⟩) =>
    (self.cell request.pubkey).expired now && (self.cell request.pubkey).queue.isSome
  | _ => false

/-! ### The cells of two runs -/

/-- The second cell is the first one, or has been pruned when the first one
could have been. -/
def Cell.Lags (now : ℕ) (c c' : Cell) : Prop := c' = c ∨ (c' = .empty ∧ c.expired now = true)

namespace Cell.Lags

variable {now now' : ℕ} {c c' : Cell}

theorem mono (hle : now ≤ now') (h : Lags now c c') : Lags now' c c' :=
  h.imp_right fun ⟨hempty, hexpired⟩ => ⟨hempty, expired_mono hle hexpired⟩

theorem prune_eq (h : Lags now c c') : c'.prune now = c.prune now := by
  rcases h with rfl | ⟨rfl, hexpired⟩
  · rfl
  · rw [prune_of_expired hexpired]
    rfl

theorem prune (h : Lags now c c') : Lags now c (c'.prune now) := by
  rw [h.prune_eq]
  cases hexpired : c.expired now with
  | true => exact .inr ⟨prune_of_expired hexpired, hexpired⟩
  | false => exact .inl (prune_of_not_expired hexpired)

end Cell.Lags

namespace Registry

variable [SocketAddrs] {self self' : Registry}

/-! ### One call on two registries -/

theorem register_congr (hmax : self'.maxTtl = self.maxTtl) (now : ℕ) (request : RegisterRequest) :
    (self'.register now request).1 = (self.register now request).1 := by
  rw [register_eq, register_eq, cappedTtl, cappedTtl, hmax]
  cases enrol self.maxTtl now request <;> rfl

/-- Registries that show the same answer alike, drains apart. -/
theorem handle_congr_of_shown {c : TimedCall} (hmax : self'.maxTtl = self.maxTtl)
    (hshown : ∀ pubkey, (self'.cell pubkey).shown c.1 = (self.cell pubkey).shown c.1)
    (hprunes : c.prunes = false) (hdrains : c.drains = false) :
      (handle c self').1 = (handle c self).1 := by
  have hlookup : ∀ pubkey, (self'.lookup c.1 pubkey).1 = (self.lookup c.1 pubkey).1 := fun pubkey =>
    (lookup_eq self' c.1 pubkey).trans ((hshown pubkey).trans (lookup_eq self c.1 pubkey).symm)
  obtain ⟨now, c⟩ := c
  cases c with
  | register request => exact register_congr hmax now request
  | lookup target => exact hlookup target
  | queueNotify request =>
    simp only [handle, queueNotify_eq, ← lookup_isSome]
    rw [hlookup]
  | drainNotifications target => cases hdrains
  | pruneExpired => cases hprunes

/-- Registries with the same cells, once pruned, answer alike. -/
theorem handle_congr_of_prune {c : TimedCall} (hmax : self'.maxTtl = self.maxTtl)
    (hprune : ∀ pubkey, (self'.cell pubkey).prune c.1 = (self.cell pubkey).prune c.1)
    (hprunes : c.prunes = false) : (handle c self').1 = (handle c self).1 := by
  cases hdrains : c.drains with
  | false =>
    exact handle_congr_of_shown hmax (fun pubkey => by simp only [Cell.shown, hprune]) hprunes hdrains
  | true =>
    obtain ⟨now, c⟩ := c
    cases c with
    | drainNotifications target => simp only [handle, drainNotifications_eq, hprune]
    | register | lookup | queueNotify | pruneExpired => cases hdrains

/-! ### Drains -/

/-- The second registry lags in no cell, and no `register` to come revives a
queue in the first. -/
structure LagsClean (now : ℕ) (calls : List TimedCall) (r r' : Registry) : Prop where
  inOrder : InOrder calls
  le : ∀ c ∈ calls, now ≤ c.1
  maxTtl_eq : r'.maxTtl = r.maxTtl
  lags : ∀ pubkey, (r.cell pubkey).Lags now (r'.cell pubkey)
  clean : ∀ e ∈ traced handle r (calls.filter fun c => !c.prunes), revives e = false

section

variable {now : ℕ} {c : TimedCall} {calls : List TimedCall}

/-- A `register` that revives no queue keeps the cells together. -/
theorem lags_register {request : RegisterRequest} {pubkey : Bytes32} (hmax : self'.maxTtl = self.maxTtl)
    (hlags : (self.cell pubkey).Lags now (self'.cell pubkey))
    (hclean : revives (self, ⟨(now, .register request),
      (handle (now, .register request) self).1⟩) = false) :
    ((handle (now, .register request) self).2.cell pubkey).Lags now
      ((handle (now, .register request) self').2.cell pubkey) := by
  rw [handle, register_eq] at hclean
  simp only [cell_handle, hmax, Cell.after]
  cases henrol : enrol self.maxTtl now request with
  | error e => exact hlags
  | ok entry =>
    rw [henrol] at hclean
    obtain rfl := enrol_eq_ok henrol
    by_cases hkey : request.pubkey = pubkey
    · subst hkey
      simp only [if_true]
      refine .inl ?_
      rcases hlags with heq | ⟨hempty, hexpired⟩
      · rw [heq]
      · have hqueue : (self.cell request.pubkey).queue = none := by
          simpa [revives, hexpired] using hclean
        rw [hempty, hqueue]
        rfl
    · simpa only [hkey, if_false] using hlags

theorem LagsClean.skip (h : LagsClean now (c :: calls) self self') (hprunes : c.prunes = true) :
    LagsClean c.1 calls self (handle c self').2 where
  inOrder := h.inOrder.tail
  le := h.inOrder.le
  maxTtl_eq := (maxTtl_handle self' c).trans h.maxTtl_eq
  lags pubkey := by
    have hcell : (handle c self').2.cell pubkey = (self'.cell pubkey).prune c.1 := by
      obtain ⟨time, c⟩ := c
      cases c with
      | pruneExpired => exact cell_pruneExpired self' time pubkey
      | register | lookup | queueNotify | drainNotifications => cases hprunes
    rw [hcell]
    exact ((h.lags pubkey).mono (h.le c (by simp))).prune
  clean := by simpa [hprunes] using h.clean

theorem LagsClean.step (h : LagsClean now (c :: calls) self self') (hprunes : c.prunes = false) :
    LagsClean c.1 calls (handle c self).2 (handle c self').2 where
  inOrder := h.inOrder.tail
  le := h.inOrder.le
  maxTtl_eq := by rw [maxTtl_handle, maxTtl_handle, h.maxTtl_eq]
  lags pubkey := by
    have hlags := (h.lags pubkey).mono (h.le c (by simp))
    have hclean := h.clean
    simp only [List.filter_cons, hprunes, Bool.not_false, if_true, traced_cons,
      List.forall_mem_cons] at hclean
    obtain ⟨time, c⟩ := c
    cases c with
    | register request => exact lags_register h.maxTtl_eq hlags hclean.1
    | lookup | queueNotify | drainNotifications | pruneExpired =>
      refine .inl ?_
      rw [cell_handle, cell_handle, Cell.after, Cell.after, hlags.prune_eq]
      all_goals simp
  clean := by
    have hclean := h.clean
    simp only [List.filter_cons, hprunes, Bool.not_false, if_true, traced_cons,
      List.forall_mem_cons] at hclean
    exact hclean.2

end

/-- **Pruning is not noticed where no queue is revived.**  Inserting any
`prune_expired` calls changes no answer, drained notifications included, if no
successful `register` of the run without them finds a queue under an entry that
has run out. -/
theorem answers_of_pruned_clean (maxTtl : ℕ) {calls : List TimedCall} (horder : InOrder calls)
    (hclean : ∀ e ∈ traced handle (new maxTtl) (calls.filter fun c => !c.prunes), revives e = false) :
    (answers handle (new maxTtl) calls).filter (fun e => !e.op.prunes) =
      answers handle (new maxTtl) (calls.filter fun c => !c.prunes) := by
  have h := answers_of_inserted TimedCall.prunes (fun _ => true)
    (fun calls self self' => ∃ now, LagsClean now calls self self')
    (fun c calls self self' hprunes ⟨_, h⟩ => ⟨c.1, h.skip hprunes⟩)
    (fun c calls self self' hprunes ⟨_, h⟩ => ⟨fun _ => handle_congr_of_prune h.maxTtl_eq
      (fun pubkey => ((h.lags pubkey).mono (h.le c (by simp))).prune_eq) hprunes, c.1, h.step hprunes⟩)
    ⟨0, horder, by simp, rfl, fun _ => .inl rfl, hclean⟩
  simpa using h

end Registry

/-- Two peers have a notification, and the pruning in between takes the one of
the peer that has run out; a drain of either returns what it would have
returned. -/
theorem answers_of_pruned_clean_expired :
    letI := SocketAddrs.sample
    let before := [(0, Call.register (.sample (.pad [2]) 10)), (0, .register (.sample (.pad [3]) 1)),
      (0, .queueNotify ⟨.pad [1], .pad [2]⟩), (0, .queueNotify ⟨.pad [1], .pad [3]⟩)]
    let prune := (nanosPerSec, Call.pruneExpired)
    let drains := [(nanosPerSec, Call.drainNotifications (.pad [2])),
      (nanosPerSec, .drainNotifications (.pad [3]))]
    let self := after Registry.handle (.new (120 * nanosPerSec)) before
    (self.cell (.pad [3])).queue = some [⟨.pad [1]⟩] ∧
      (Registry.handle prune self).2.cell (.pad [3]) = .empty ∧
      (self.drainNotifications nanosPerSec (.pad [2])).1 = [⟨.pad [1]⟩] ∧
      (answers Registry.handle (.new (120 * nanosPerSec)) (before ++ prune :: drains)).filter
          (fun e => !e.op.prunes) =
        answers Registry.handle (.new (120 * nanosPerSec)) (before ++ drains) := by
  let _ := SocketAddrs.sample
  intro before prune drains self
  exact ⟨by decide +kernel, by decide +kernel, by decide +kernel,
    Registry.answers_of_pruned_clean (120 * nanosPerSec)
      (by decide +kernel : InOrder (before ++ prune :: drains)) (by decide +kernel)⟩

/-- A notification waits for a peer that has run out and registers again.  A
drain then returns it, unless the registry was pruned in between. -/
theorem prune_observed :
    letI := SocketAddrs.sample
    let before := [(0, Call.register (.sample (.pad [2]) 1)), (0, .queueNotify ⟨.pad [1], .pad [2]⟩)]
    let again := (nanosPerSec, Call.register (.sample (.pad [2]) 1))
    let drain := (nanosPerSec, Call.drainNotifications (.pad [2]))
    let self := after Registry.handle (.new (120 * nanosPerSec)) (before ++ [again])
    let self' := after Registry.handle (.new (120 * nanosPerSec))
      (before ++ [(nanosPerSec, .pruneExpired), again])
    InOrder (before ++ [(nanosPerSec, .pruneExpired), again, drain]) ∧
      (self.drainNotifications nanosPerSec (.pad [2])).1 = [⟨.pad [1]⟩] ∧
      (self'.drainNotifications nanosPerSec (.pad [2])).1 = [] := by
  decide +kernel

end NightBridge.Rendezvous
