/-
# One key of the registry

The registry is a family of cells, one for each public key: the entry of the key
and its queue.  Every call acts on each cell alone (`cell_handle`): the call is
about one key, and to all others it does at most what `prune_expired` does.
What a call about a key answers depends on the cell of that key only.

So a statement about the registry and all its keys is a statement about one
cell, and pruning that happens as a side effect of a call about another key is
just another `Cell.prune`.
-/

import NightBridge.Rendezvous.Registry

namespace NightBridge.Rendezvous

open Data Effect

/-- The entry of a key, and its queue. -/
@[ext]
structure Cell where
  entry : Option RegistryEntry
  queue : Option (List PeerNotification)
  deriving DecidableEq

namespace Cell

def empty : Cell := ⟨none, none⟩

/-- There is an entry, and it has run out. -/
def expired (now : ℕ) (c : Cell) : Bool := c.entry.any fun entry => decide (entry.expiresAt ≤ now)

/-- What pruning leaves of it. -/
def prune (now : ℕ) (c : Cell) : Cell := if c.expired now then empty else c

/-- The entry has been looked up. -/
def seen (now : ℕ) (c : Cell) : Cell := { c with entry := c.entry.map ({ · with lastSeen := now }) }

section prune

variable {now now' : ℕ} {c : Cell}

theorem expired_iff : c.expired now = true ↔ ∃ entry, c.entry = some entry ∧ entry.expiresAt ≤ now := by
  simp only [expired, Option.any_eq_true, decide_eq_true_eq]

theorem prune_of_expired (h : c.expired now = true) : c.prune now = empty := if_pos h

theorem prune_of_not_expired (h : c.expired now = false) : c.prune now = c := if_neg (by simp [h])

theorem expired_mono (hle : now ≤ now') (h : c.expired now = true) : c.expired now' = true := by
  obtain ⟨entry, hentry, hexpired⟩ := expired_iff.mp h
  exact expired_iff.mpr ⟨entry, hentry, hexpired.trans hle⟩

theorem prune_prune (hle : now ≤ now') (c : Cell) : (c.prune now).prune now' = c.prune now' := by
  cases h : c.expired now with
  | true =>
    rw [prune_of_expired h, prune_of_expired (expired_mono hle h)]
    rfl
  | false => rw [prune_of_not_expired h]

end prune

/-- A notification is queued, if there is an entry. -/
def notify (requester : Bytes32) (c : Cell) : Cell :=
  if c.entry.isSome then { c with queue := some (c.queue.getD [] ++ [⟨requester⟩]) } else c

/-- The queue is handed out, if there is an entry. -/
def drain (c : Cell) : Cell := if c.entry.isSome then { c with queue := none } else c

/-- What a call other than `register` does to the cell of a key, once it has
been pruned. -/
def act (now : ℕ) (pubkey : Bytes32) : Call → Cell → Cell
  | .lookup target, c => if target = pubkey then c.seen now else c
  | .queueNotify request, c =>
    if request.targetPubkey = pubkey then (c.seen now).notify request.requesterPubkey else c
  | .drainNotifications target, c => if target = pubkey then (c.seen now).drain else c
  | _, c => c

section act

variable (now : ℕ) (pubkey : Bytes32) (call : Call) (c : Cell)

theorem entry_notify (requester : Bytes32) : (c.notify requester).entry = c.entry := by
  unfold notify
  split_ifs <;> rfl

theorem entry_drain : c.drain.entry = c.entry := by
  unfold drain
  split_ifs <;> rfl

theorem entry_act : (c.act now pubkey call).entry = c.entry ∨
    (c.act now pubkey call).entry = (c.seen now).entry := by
  cases call with
  | register | pruneExpired => exact .inl rfl
  | lookup | queueNotify | drainNotifications =>
    simp only [act]
    split_ifs <;> simp [entry_notify, entry_drain]

theorem isSome_entry_act : (c.act now pubkey call).entry.isSome = c.entry.isSome := by
  rcases c.entry_act now pubkey call with h | h <;> simp [h, seen]

@[simp] theorem act_empty : empty.act now pubkey call = empty := by
  cases call with
  | register | pruneExpired => rfl
  | lookup | queueNotify | drainNotifications =>
    simp only [act]
    split_ifs <;> rfl

end act
end Cell

/-- The entry a `register` makes. -/
def enrol [SocketAddrs] (maxTtl now : ℕ) (request : RegisterRequest) : Except Failure RegistryEntry :=
  match request.validate with
  | .error e => .error (.error (.protocol e))
  | .ok () =>
    match checkedAdd now (min (nanosPerSec * request.ttlSeconds) maxTtl) with
    | none => .error .panic
    | some expiresAt =>
      .ok ⟨request.aliasName, request.pubkey, request.candidates, now, expiresAt, now⟩

theorem checkedAdd_eq_some {now ttl expiresAt : ℕ} (h : checkedAdd now ttl = some expiresAt) :
    expiresAt = now + ttl := by
  unfold checkedAdd at h
  split_ifs at h
  exact (Option.some.inj h).symm

/-- An entry says what was registered, and lasts as long as was asked for and is
allowed. -/
theorem enrol_eq_ok [SocketAddrs] {maxTtl now : ℕ} {request : RegisterRequest} {entry : RegistryEntry}
    (h : enrol maxTtl now request = .ok entry) :
    entry = ⟨request.aliasName, request.pubkey, request.candidates, now,
      now + min (nanosPerSec * request.ttlSeconds) maxTtl, now⟩ := by
  unfold enrol at h
  split at h
  · cases h
  · split at h
    · cases h
    · rename_i hadd
      cases h
      rw [checkedAdd_eq_some hadd]

/-- What a call does to the cell of a key. -/
def Cell.after [SocketAddrs] (maxTtl : ℕ) (pubkey : Bytes32) : TimedCall → Cell → Cell
  | (now, .register request), c =>
    match enrol maxTtl now request with
    | .ok entry => if entry.pubkey = pubkey then { c with entry := some entry } else c
    | .error _ => c
  | (now, call), c => (c.prune now).act now pubkey call

namespace Registry

def cell (self : Registry) (pubkey : Bytes32) : Cell where
  entry := self.entries.find? pubkey
  queue := (self.notifications.find? pubkey).map Queue.notifications

@[simp] theorem cell_new (maxTtl : ℕ) (pubkey : Bytes32) : (new maxTtl).cell pubkey = .empty := rfl

/-! ### Pruning -/

/-- The loop of `prune_expired` drops the queues of the entries that have run
out. -/
theorem find?_dropQueues (now : ℕ) (entries : List RegistryEntry) (queues : Table Queue Queue.pubkey)
    (pubkey : Bytes32) :
    (entries.foldl (fun queues entry =>
        if now < entry.expiresAt then queues else queues.delete entry.pubkey) queues).find? pubkey =
      if ∃ entry ∈ entries, entry.pubkey = pubkey ∧ entry.expiresAt ≤ now then none
      else queues.find? pubkey := by
  induction entries generalizing queues with
  | nil => simp
  | cons entry entries ih =>
    rw [List.foldl_cons, ih]
    by_cases hlive : now < entry.expiresAt
    · have : ¬ entry.expiresAt ≤ now := by omega
      simp [hlive, this]
    · have hle : entry.expiresAt ≤ now := by omega
      rw [if_neg hlive, Table.find?_delete]
      by_cases hkey : entry.pubkey = pubkey
      · simp [hkey, hle]
      · simp [hkey, Ne.symm hkey]

variable (self : Registry) (now : ℕ)

theorem cell_pruneExpired (pubkey : Bytes32) :
    (self.pruneExpired now).2.cell pubkey = (self.cell pubkey).prune now := by
  have hexpired : (∃ entry ∈ self.entries.rows, entry.pubkey = pubkey ∧ entry.expiresAt ≤ now) ↔
      (self.cell pubkey).expired now = true := by
    rw [Cell.expired_iff]
    refine exists_congr fun entry => ?_
    rw [cell, Table.find?_eq_some_iff, and_assoc]
  have hfilter : (self.entries.find? pubkey).filter (fun entry => decide (now < entry.expiresAt)) =
      if (self.cell pubkey).expired now then none else self.entries.find? pubkey := by
    have hoption : ∀ entry : Option RegistryEntry,
        entry.filter (fun entry => decide (now < entry.expiresAt)) =
          if entry.any (fun entry => decide (entry.expiresAt ≤ now)) then none else entry := by
      rintro (_ | entry)
      · rfl
      · by_cases h : now < entry.expiresAt
        · simp [Option.filter, h]
        · simp [Nat.not_lt.mp h]
    exact hoption _
  rw [Cell.prune]
  ext1
  · rw [cell, pruneExpired, Table.find?_retain, hfilter]
    split_ifs <;> rfl
  · rw [cell, pruneExpired, find?_dropQueues]
    simp only [hexpired]
    split_ifs <;> rfl

/-! ### One call -/

theorem register_eq [SocketAddrs] (request : RegisterRequest) : self.register now request =
    match enrol self.maxTtl now request with
    | .error e => (.error e, self)
    | .ok entry =>
      (.ok ⟨self.cappedTtl request.ttlSeconds / nanosPerSec,
        self.cappedTtl request.ttlSeconds / nanosPerSec⟩,
        { self with entries := self.entries.replace entry }) := by
  rw [register, enrol,
    show min (nanosPerSec * request.ttlSeconds) self.maxTtl = self.cappedTtl request.ttlSeconds from rfl]
  generalize checkedAdd now (self.cappedTtl request.ttlSeconds) = sum
  cases request.validate with
  | error e => rfl
  | ok u => cases sum <;> rfl

theorem cell_lookup (target pubkey : Bytes32) :
    (self.lookup now target).2.cell pubkey =
      if target = pubkey then ((self.cell pubkey).prune now).seen now
      else (self.cell pubkey).prune now := by
  rw [← cell_pruneExpired, lookup]
  generalize (self.pruneExpired now).2 = pruned
  cases hfind : pruned.entries.find? target with
  | none =>
    split_ifs with h
    · subst h
      simp [cell, Cell.seen, hfind]
    · rfl
  | some entry =>
    simp only [cell, Table.find?_modify, eq_comm (a := pubkey)]
    split_ifs <;> rfl

/-- **What `lookup` answers.** -/
theorem lookup_eq (pubkey : Bytes32) : (self.lookup now pubkey).1 =
    (((self.cell pubkey).prune now).seen now).entry.map RegistryEntry.toLookupPeer := by
  rw [← cell_pruneExpired, lookup]
  generalize (self.pruneExpired now).2 = pruned
  cases hfind : pruned.entries.find? pubkey <;> simp [cell, Cell.seen, hfind]

theorem lookupRequest_eq (request : LookupRequest) :
    (self.lookupRequest now request).1 = .ok ⟨(self.lookup now request.targetPubkey).1⟩ := rfl

theorem lookup_isSome (pubkey : Bytes32) :
    (self.lookup now pubkey).1.isSome = ((self.cell pubkey).prune now).entry.isSome := by
  simp [lookup_eq, Cell.seen]

/-- **What `queue_notify` answers.** -/
theorem queueNotify_eq (request : NotifyRequest) : (self.queueNotify now request).1 =
    if ((self.cell request.targetPubkey).prune now).entry.isSome then .ok ⟨request.targetPubkey⟩
    else .error (.error .targetNotRegistered) := by
  rw [← lookup_isSome, queueNotify]
  rcases self.lookup now request.targetPubkey with ⟨_ | peer, self'⟩ <;> rfl

/-- **What `drain_notifications` answers.** -/
theorem drainNotifications_eq (target : Bytes32) : (self.drainNotifications now target).1 =
    if ((self.cell target).prune now).entry.isSome then ((self.cell target).prune now).queue.getD []
    else [] := by
  have hcell := self.cell_lookup now target target
  rw [if_pos rfl] at hcell
  rw [← lookup_isSome, drainNotifications]
  rcases h : self.lookup now target with ⟨_ | peer, self'⟩
  · rfl
  · rw [h] at hcell
    exact congrArg (fun c : Cell => c.queue.getD []) hcell

theorem cell_register [SocketAddrs] (request : RegisterRequest) (pubkey : Bytes32) :
    (self.register now request).2.cell pubkey =
      Cell.after self.maxTtl pubkey (now, .register request) (self.cell pubkey) := by
  rw [register_eq, Cell.after]
  cases enrol self.maxTtl now request with
  | error e => rfl
  | ok entry =>
    simp only [cell, Table.find?_replace, eq_comm (a := pubkey)]
    split_ifs <;> rfl

theorem cell_queueNotify (request : NotifyRequest) (pubkey : Bytes32) :
    (self.queueNotify now request).2.cell pubkey =
      if request.targetPubkey = pubkey then
        (((self.cell pubkey).prune now).seen now).notify request.requesterPubkey
      else (self.cell pubkey).prune now := by
  have hcell := self.cell_lookup now request.targetPubkey pubkey
  have hsome := self.lookup_isSome now request.targetPubkey
  rw [queueNotify]
  rcases h : self.lookup now request.targetPubkey with ⟨_ | peer, self'⟩ <;> rw [h] at hcell hsome
  · rw [hcell]
    split_ifs with hkey
    · subst hkey
      simp [Cell.notify, Cell.seen, ← hsome]
    · rfl
  · by_cases hkey : request.targetPubkey = pubkey
    · subst hkey
      rw [if_pos rfl] at hcell ⊢
      rw [← hcell, Cell.notify, if_pos (by simp [hcell, Cell.seen, ← hsome])]
      simp only [cell, Table.find?_upsert, if_true]
      cases self'.notifications.find? request.targetPubkey <;> rfl
    · rw [if_neg hkey] at hcell ⊢
      rw [← hcell]
      simp only [cell, Table.find?_upsert, if_neg (Ne.symm hkey)]

theorem cell_drainNotifications (target pubkey : Bytes32) :
    (self.drainNotifications now target).2.cell pubkey =
      if target = pubkey then (((self.cell pubkey).prune now).seen now).drain
      else (self.cell pubkey).prune now := by
  have hcell := self.cell_lookup now target pubkey
  have hsome := self.lookup_isSome now target
  rw [drainNotifications]
  rcases h : self.lookup now target with ⟨_ | peer, self'⟩ <;> rw [h] at hcell hsome
  · rw [hcell]
    split_ifs with hkey
    · subst hkey
      simp [Cell.drain, Cell.seen, ← hsome]
    · rfl
  · by_cases hkey : target = pubkey
    · subst hkey
      rw [if_pos rfl] at hcell ⊢
      rw [← hcell, Cell.drain, if_pos (by simp [hcell, Cell.seen, ← hsome])]
      simp only [cell, Table.find?_delete, if_true, Option.map_none]
    · rw [if_neg hkey] at hcell ⊢
      rw [← hcell]
      simp only [cell, Table.find?_delete, if_neg (Ne.symm hkey)]

/-- **One call** acts on each cell alone. -/
theorem cell_handle [SocketAddrs] (c : TimedCall) (pubkey : Bytes32) :
    (handle c self).2.cell pubkey = Cell.after self.maxTtl pubkey c (self.cell pubkey) := by
  obtain ⟨now, c⟩ := c
  cases c with
  | register request => exact self.cell_register now request pubkey
  | lookup target => exact self.cell_lookup now target pubkey
  | queueNotify request => exact self.cell_queueNotify now request pubkey
  | drainNotifications target => exact self.cell_drainNotifications now target pubkey
  | pruneExpired => exact self.cell_pruneExpired now pubkey

theorem maxTtl_lookup (pubkey : Bytes32) : (self.lookup now pubkey).2.maxTtl = self.maxTtl := by
  rw [lookup, show self.maxTtl = (self.pruneExpired now).2.maxTtl from rfl]
  generalize (self.pruneExpired now).2 = pruned
  cases pruned.entries.find? pubkey <;> rfl

theorem maxTtl_handle [SocketAddrs] (c : TimedCall) : (handle c self).2.maxTtl = self.maxTtl := by
  obtain ⟨now, c⟩ := c
  cases c with
  | register request =>
    rw [handle, register_eq]
    cases enrol self.maxTtl now request <;> rfl
  | lookup target => exact self.maxTtl_lookup now target
  | queueNotify request =>
    rw [← self.maxTtl_lookup now request.targetPubkey, handle, queueNotify]
    rcases self.lookup now request.targetPubkey with ⟨_ | peer, self'⟩ <;> rfl
  | drainNotifications target =>
    rw [← self.maxTtl_lookup now target, handle, drainNotifications]
    rcases self.lookup now target with ⟨_ | peer, self'⟩ <;> rfl
  | pruneExpired => rfl

theorem maxTtl_after [SocketAddrs] (calls : List TimedCall) :
    (Effect.after handle self calls).maxTtl = self.maxTtl := by
  induction calls using List.reverseRecOn with
  | nil => rfl
  | append_singleton calls c ih => rw [after_concat, maxTtl_handle, ih]

end Registry
end NightBridge.Rendezvous
