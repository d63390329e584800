/-
# Programs that call operations

A program is a tree: it returns, it fails, or it calls one operation and goes
on with whatever the operation answers.  The same tree is read in three ways:

* `Prog.run` runs it alone against a handler, which is a state transformer;
* `Prog.wp` follows it through every answer the operations could give, and
  says what holds of the calls it makes and of what it returns;
* a schedule (`NightBridge.Effect.Pool`) interleaves the calls of several
  programs on one state.

Nothing here depends on what the operations are.
-/

import Mathlib.Data.List.Basic
import Mathlib.Tactic.Common

namespace NightBridge.Effect

/-! ### Programs without calls -/

theorem ok_bind {ε α β : Type} (a : α) (f : α → Except ε β) : Except.ok a >>= f = f a := rfl

theorem bind_eq_ok_iff {ε α β : Type} {x : Except ε α} {f : α → Except ε β} {b : β} :
    x >>= f = .ok b ↔ ∃ a, x = .ok a ∧ f a = .ok b := by
  cases x with
  | error e => exact iff_of_false (fun h => by cases h) fun ⟨a, h, _⟩ => by cases h
  | ok a =>
    constructor
    · exact fun h => ⟨a, rfl, h⟩
    · rintro ⟨_, ⟨⟩, h⟩
      exact h

/-! ### Programs -/

/-- A program over the operations `Op`, where `o` is answered in `Resp o`. -/
inductive Prog (Op : Type) (Resp : Op → Type) (ε α : Type) : Type
  | ret (a : α) : Prog Op Resp ε α
  | fail (e : ε) : Prog Op Resp ε α
  | call (o : Op) (k : Resp o → Prog Op Resp ε α) : Prog Op Resp ε α

namespace Prog

variable {Op : Type} {Resp : Op → Type} {ε ε' α β γ σ : Type}

/-- Run the first program and go on with its result; a failure is final. -/
protected def bind : Prog Op Resp ε α → (α → Prog Op Resp ε β) → Prog Op Resp ε β
  | ret a, f => f a
  | fail e, _ => fail e
  | call o k, f => call o fun r => (k r).bind f

instance : Monad (Prog Op Resp ε) where
  pure := ret
  bind := Prog.bind

@[simp] theorem pure_eq (a : α) : (pure a : Prog Op Resp ε α) = ret a := rfl

@[simp] theorem ret_bind (a : α) (f : α → Prog Op Resp ε β) : (ret a >>= f) = f a := rfl

@[simp] theorem fail_bind (e : ε) (f : α → Prog Op Resp ε β) :
    ((fail e : Prog Op Resp ε α) >>= f) = fail e := rfl

@[simp] theorem call_bind (o : Op) (k : Resp o → Prog Op Resp ε α) (f : α → Prog Op Resp ε β) :
    (call o k >>= f) = call o fun r => k r >>= f := rfl

instance : LawfulMonad (Prog Op Resp ε) := LawfulMonad.mk' _
  (fun p => by
    show p.bind (fun a => ret a) = p
    induction p with
    | ret a => rfl
    | fail e => rfl
    | call o k ih => exact congrArg (call o) (funext ih))
  (fun _ _ => rfl)
  (fun p f g => by
    show (p.bind f).bind g = p.bind fun a => (f a).bind g
    induction p with
    | ret a => rfl
    | fail e => rfl
    | call o k ih => exact congrArg (call o) (funext ih))

/-- Call one operation and return its answer. -/
def perform (o : Op) : Prog Op Resp ε (Resp o) := call o ret

/-- `?` on a value: return it or fail with its error. -/
def ofExcept : Except ε α → Prog Op Resp ε α
  | .ok a => ret a
  | .error e => fail e

@[simp] theorem ofExcept_ok (a : α) : (ofExcept (.ok a) : Prog Op Resp ε α) = ret a := rfl

@[simp] theorem ofExcept_error (e : ε) :
    (ofExcept (.error e : Except ε α) : Prog Op Resp ε α) = fail e := rfl

/-- Rewrite the error a program fails with. -/
def mapError (f : ε → ε') : Prog Op Resp ε α → Prog Op Resp ε' α
  | ret a => ret a
  | fail e => fail (f e)
  | call o k => call o fun r => (k r).mapError f

/-- Return the outcome, a failure included. -/
def attempt : Prog Op Resp ε α → Prog Op Resp ε' (Except ε α)
  | ret a => ret (.ok a)
  | fail e => ret (.error e)
  | call o k => call o fun r => (k r).attempt

theorem attempt_bind (p : Prog Op Resp ε α) (f : α → Prog Op Resp ε β) :
    ((p >>= f).attempt : Prog Op Resp ε' (Except ε β)) = p.attempt >>= fun
      | .ok a => (f a).attempt
      | .error e => ret (.error e) := by
  induction p with
  | ret a => rfl
  | fail e => rfl
  | call o k ih => exact congrArg (call o) (funext ih)

/-- `for x in xs { body }`. -/
def each : List α → (α → Prog Op Resp ε Unit) → Prog Op Resp ε Unit
  | [], _ => ret ()
  | x :: xs, body => do body x; each xs body

@[simp] theorem each_nil (body : α → Prog Op Resp ε Unit) : each [] body = ret () := rfl

@[simp] theorem each_cons (x : α) (xs : List α) (body : α → Prog Op Resp ε Unit) :
    each (x :: xs) body = (body x >>= fun _ => each xs body) := rfl

/-- Run a program `n` times and return the results in order. -/
def times : ℕ → Prog Op Resp ε α → Prog Op Resp ε (List α)
  | 0, _ => ret []
  | n + 1, p => do
    let a ← p
    let rest ← times n p
    pure (a :: rest)

/-! ### Running alone -/

/-- A handler answers each operation and changes the state. -/
abbrev Handler (Op : Type) (Resp : Op → Type) (σ : Type) := (o : Op) → σ → Resp o × σ

def run (h : Handler Op Resp σ) : Prog Op Resp ε α → σ → Except ε α × σ
  | ret a, s => (.ok a, s)
  | fail e, s => (.error e, s)
  | call o k, s => (k (h o s).1).run h (h o s).2

variable (h : Handler Op Resp σ)

@[simp] theorem run_ret (a : α) (s : σ) : (ret a : Prog Op Resp ε α).run h s = (.ok a, s) := rfl

@[simp] theorem run_fail (e : ε) (s : σ) :
    (fail e : Prog Op Resp ε α).run h s = (.error e, s) := rfl

@[simp] theorem run_call (o : Op) (k : Resp o → Prog Op Resp ε α) (s : σ) :
    (call o k).run h s = (k (h o s).1).run h (h o s).2 := rfl

@[simp] theorem run_perform (o : Op) (s : σ) :
    (perform o : Prog Op Resp ε _).run h s = (.ok (h o s).1, (h o s).2) := rfl

theorem run_bind (p : Prog Op Resp ε α) (f : α → Prog Op Resp ε β) (s : σ) :
    (p >>= f).run h s =
      match p.run h s with
      | (.ok a, s') => (f a).run h s'
      | (.error e, s') => (.error e, s') := by
  induction p generalizing s with
  | ret a => rfl
  | fail e => rfl
  | call o k ih => exact ih _ _

theorem run_bind_ok {p : Prog Op Resp ε α} {f : α → Prog Op Resp ε β} {s s' : σ} {a : α}
    (hp : p.run h s = (.ok a, s')) : (p >>= f).run h s = (f a).run h s' := by
  rw [run_bind, hp]

theorem run_bind_error {p : Prog Op Resp ε α} {f : α → Prog Op Resp ε β} {s s' : σ} {e : ε}
    (hp : p.run h s = (.error e, s')) : (p >>= f).run h s = (.error e, s') := by
  rw [run_bind, hp]

theorem run_bind_eq_ok {p : Prog Op Resp ε α} {f : α → Prog Op Resp ε β} {s s'' : σ} {b : β} :
    (p >>= f).run h s = (.ok b, s'') ↔
      ∃ a s', p.run h s = (.ok a, s') ∧ (f a).run h s' = (.ok b, s'') := by
  rw [run_bind]
  rcases hp : p.run h s with ⟨_ | a, s'⟩
  · simp
  · simp

theorem run_ofExcept (x : Except ε α) (s : σ) :
    (ofExcept x : Prog Op Resp ε α).run h s = (x, s) := by
  cases x <;> rfl

/-- **The loop rule.**  If the body, from a state with `I` before each element,
returns normally in a state with `I` after it, then so does the loop, and `I`
has been carried to the end of the list. -/
theorem run_each_inv (body : α → Prog Op Resp ε Unit) (xs : List α) (I : List α → σ → Prop)
    (hstep : ∀ done x rest s, xs = done ++ x :: rest → I done s →
      ∃ s', (body x).run h s = (.ok (), s') ∧ I (done ++ [x]) s')
    (s : σ) (h0 : I [] s) : ∃ s', (each xs body).run h s = (.ok (), s') ∧ I xs s' := by
  -- the induction is on what is left, with what is done as an accumulator
  suffices H : ∀ rest done s, xs = done ++ rest → I done s →
      ∃ s', (each rest body).run h s = (.ok (), s') ∧ I xs s' from H xs [] s rfl h0
  intro rest
  induction rest with
  | nil => intro done s hxs h1; exact ⟨s, rfl, by simpa [hxs] using h1⟩
  | cons x rest ih =>
    intro done s hxs h1
    obtain ⟨s₁, hx, h2⟩ := hstep done x rest s hxs h1
    obtain ⟨s₂, hrest, h3⟩ := ih (done ++ [x]) s₁ (by simp [hxs]) h2
    exact ⟨s₂, by rw [each_cons, run_bind_ok h hx, hrest], h3⟩

end Prog
end NightBridge.Effect
