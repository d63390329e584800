/-
# Channels

`tokio::sync::broadcast` and `tokio::sync::mpsc` as parameters: their
operations, what can be observed of a channel, and what their documentation says
of it.

`Broadcast`: a value that is sent goes to the receivers that have subscribed
before, and the channel keeps the last `capacity` of them.  A receiver that has
fallen behind what is kept is told by `recv` how many values it has missed, and
goes on with the oldest one.  `Follows` is what a receiver may rely on, and it
is kept by every send and every `recv`.

`Mpsc`: there is one receiver, which gets the values in the order of the
sending.  A `send` waits while as many values are in the channel as it has room
for, and a `recv` while there is none and a sender is left.
-/

import Mathlib.Data.Nat.Basic
import Mathlib.Data.List.Basic

namespace NightBridge.Data

/-- What `recv` returns when it is polled. -/
inductive Polled (α : Type)
  | value (a : α)
  | lagged (missed : ℕ)
  | closed
  /-- `Poll::Pending`. -/
  | empty
  deriving DecidableEq

/-- How a poll moves a receiver: by the value at its position, or to the oldest
one that is kept. -/
def Polled.Moves {α : Type} (capacity : ℕ) (sent : List α) (next next' : ℕ) : Polled α → Prop
  | .value a => sent[next]? = some a ∧ next' = next + 1
  | .lagged missed =>
    next + capacity < sent.length ∧ next' = sent.length - capacity ∧ missed = next' - next
  | .closed | .empty => next' = next

/-- Channels for values of a type. -/
structure Broadcast (α : Type) where
  Channel : ℕ → Type
  Receiver : Type
  new (capacity : ℕ) : Channel capacity
  send {capacity : ℕ} : Channel capacity → α → Channel capacity
  subscribe {capacity : ℕ} : Channel capacity → Receiver × Channel capacity
  recv {capacity : ℕ} : Channel capacity → Receiver → Polled α × Receiver
  dropReceiver {capacity : ℕ} : Channel capacity → Receiver → Channel capacity
  /-- The last sender is dropped. -/
  close {capacity : ℕ} : Channel capacity → Channel capacity
  /-- What was sent while there was a receiver. -/
  sent {capacity : ℕ} : Channel capacity → List α
  /-- How far in it a receiver is. -/
  position : Receiver → ℕ
  sent_new (capacity : ℕ) : sent (new capacity) = []
  sent_send {capacity : ℕ} (c : Channel capacity) (a : α) :
    sent (send c a) = sent c ∨ sent (send c a) = sent c ++ [a]
  sent_subscribe {capacity : ℕ} (c : Channel capacity) : sent (subscribe c).2 = sent c
  sent_dropReceiver {capacity : ℕ} (c : Channel capacity) (r : Receiver) : sent (dropReceiver c r) = sent c
  sent_close {capacity : ℕ} (c : Channel capacity) : sent (close c) = sent c
  /-- A receiver starts with what is sent next. -/
  position_subscribe {capacity : ℕ} (c : Channel capacity) : position (subscribe c).1 = (sent c).length
  moves_recv {capacity : ℕ} (c : Channel capacity) (r : Receiver) :
    (recv c r).1.Moves capacity (sent c) (position r) (position (recv c r).2)

/-- `recv` of a channel that is the list of what was sent. -/
def recvFrom {α : Type} (capacity : ℕ) (sent : List α) (next : ℕ) : Polled α × ℕ :=
  match sent[next]? with
  | none => (.empty, next)
  | some a =>
    if next + capacity < sent.length then (.lagged (sent.length - capacity - next), sent.length - capacity)
    else (.value a, next + 1)

theorem moves_recvFrom {α : Type} (capacity : ℕ) (sent : List α) (next : ℕ) :
    (recvFrom capacity sent next).1.Moves capacity sent next (recvFrom capacity sent next).2 := by
  unfold recvFrom
  cases hnext : sent[next]? with
  | none => rfl
  | some a =>
    dsimp only
    split_ifs with hbehind
    · exact ⟨hbehind, rfl, rfl⟩
    · exact ⟨hnext, rfl⟩

instance {α : Type} : Inhabited (Broadcast α) where
  default :=
    { Channel := fun _ => List α
      Receiver := ℕ
      new := fun _ => []
      send := fun c a => c ++ [a]
      subscribe := fun c => (c.length, c)
      recv := fun {capacity} => recvFrom capacity
      dropReceiver := fun c _ => c
      close := id
      sent := id
      position := id
      sent_new := fun _ => rfl
      sent_send := fun _ _ => .inr rfl
      sent_subscribe := fun _ => rfl
      sent_dropReceiver := fun _ _ => rfl
      sent_close := fun _ => rfl
      position_subscribe := fun _ => rfl
      moves_recv := fun {capacity} => moves_recvFrom capacity }

variable {α : Type} {capacity : ℕ} {sent : List α} {start next missed : ℕ} {got : List α}

/-- A receiver that subscribed at `start` and is at `next` has got these values,
in the order in which they were sent, and has been told of all others. -/
structure Follows (capacity : ℕ) (sent : List α) (start next missed : ℕ) (got : List α) : Prop where
  next_le : next ≤ sent.length
  sublist : got.Sublist ((sent.take next).drop start)
  count : start + got.length + missed = next
  lag : missed = 0 ∨ start + capacity < sent.length

namespace Follows

theorem subscribe (capacity : ℕ) (sent : List α) : Follows capacity sent sent.length sent.length 0 [] :=
  ⟨le_rfl, List.nil_sublist _, rfl, .inl rfl⟩

theorem mono {sent' : List α} (h : Follows capacity sent start next missed got) (hsent : sent <+: sent') :
    Follows capacity sent' start next missed got := by
  obtain ⟨more, rfl⟩ := hsent
  refine ⟨?_, ?_, h.count, h.lag.imp_right fun hlag => ?_⟩
  · rw [List.length_append]
    exact Nat.le_trans h.next_le (Nat.le_add_right _ _)
  · rw [List.take_append_of_le_length h.next_le]
    exact h.sublist
  · rw [List.length_append]
    omega

theorem value {a : α} (h : Follows capacity sent start next missed got) (ha : sent[next]? = some a) :
    Follows capacity sent start (next + 1) missed (got ++ [a]) := by
  have hlt : next < sent.length := (List.getElem?_eq_some_iff.mp ha).1
  refine ⟨hlt, ?_, ?_, h.lag⟩
  · have hstart : start ≤ (sent.take next).length := by
      rw [List.length_take]
      have := h.count
      omega
    rw [List.take_add_one, ha, List.drop_append_of_le_length hstart]
    exact h.sublist.append_right _
  · rw [List.length_append, List.length_singleton]
    have := h.count
    omega

theorem lagged (h : Follows capacity sent start next missed got) (hbehind : next + capacity < sent.length) :
    Follows capacity sent start (sent.length - capacity) (missed + (sent.length - capacity - next)) got := by
  have hcount := h.count
  have htake : sent.take next = (sent.take (sent.length - capacity)).take next := by
    rw [List.take_take, Nat.min_eq_left (by omega)]
  refine ⟨Nat.sub_le _ _, h.sublist.trans ?_, by omega, .inr (by omega)⟩
  rw [htake]
  exact (List.take_sublist _ _).drop start

end Follows

/-! ### Bounded channels -/

/-- What was sent through a channel, how much of it was received, and who is
left. -/
structure Mpsc.View (α : Type) where
  capacity : ℕ
  sent : List α
  taken : ℕ
  senders : ℕ
  receiving : Bool

/-- Bounded channels for values of a type. -/
structure Mpsc (α : Type) where
  Channel : Type
  new : ℕ → Channel
  cloneSender : Channel → Channel
  send : Channel → α → Channel
  recv : Channel → Option α × Channel
  dropSender : Channel → Channel
  dropReceiver : Channel → Channel
  /-- A `send` need not wait. -/
  canSend : Channel → Bool
  /-- A `recv` need not wait. -/
  canRecv : Channel → Bool
  view : Channel → Mpsc.View α
  view_new (capacity : ℕ) : view (new capacity) = ⟨capacity, [], 0, 1, true⟩
  view_cloneSender (c : Channel) : view (cloneSender c) = { view c with senders := (view c).senders + 1 }
  /-- Without a receiver, a `send` fails. -/
  view_send (c : Channel) (a : α) : view (send c a) =
    { view c with sent := (view c).sent ++ if (view c).receiving then [a] else [] }
  recv_fst (c : Channel) : (recv c).1 = (view c).sent[(view c).taken]?
  view_recv (c : Channel) : view (recv c).2 = { view c with
    taken := (view c).taken + if (view c).taken < (view c).sent.length then 1 else 0 }
  view_dropSender (c : Channel) : view (dropSender c) = { view c with senders := (view c).senders - 1 }
  view_dropReceiver (c : Channel) : view (dropReceiver c) = { view c with receiving := false }
  canSend_eq (c : Channel) : canSend c =
    (!(view c).receiving || decide ((view c).sent.length < (view c).taken + (view c).capacity))
  canRecv_eq (c : Channel) : canRecv c =
    (decide ((view c).taken < (view c).sent.length) || decide ((view c).senders = 0))

attribute [simp] Mpsc.view_new Mpsc.view_cloneSender Mpsc.view_send Mpsc.view_recv Mpsc.view_dropSender
  Mpsc.view_dropReceiver

/-- A channel that is what can be observed of it. -/
instance {α : Type} : Inhabited (Mpsc α) where
  default :=
    { Channel := Mpsc.View α
      new := fun capacity => ⟨capacity, [], 0, 1, true⟩
      cloneSender := fun c => { c with senders := c.senders + 1 }
      send := fun c a => { c with sent := c.sent ++ if c.receiving then [a] else [] }
      recv := fun c => (c.sent[c.taken]?,
        { c with taken := c.taken + if c.taken < c.sent.length then 1 else 0 })
      dropSender := fun c => { c with senders := c.senders - 1 }
      dropReceiver := fun c => { c with receiving := false }
      canSend := fun c => !c.receiving || c.sent.length < c.taken + c.capacity
      canRecv := fun c => c.taken < c.sent.length || c.senders = 0
      view := id
      view_new := fun _ => rfl
      view_cloneSender := fun _ => rfl
      view_send := fun _ _ => rfl
      recv_fst := fun _ => rfl
      view_recv := fun _ => rfl
      view_dropSender := fun _ => rfl
      view_dropReceiver := fun _ => rfl
      canSend_eq := fun _ => rfl
      canRecv_eq := fun _ => rfl }

end NightBridge.Data
