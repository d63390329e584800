/-
# A state and the log of its calls

A handler answers calls one after another and changes its state.  `traced` lists
the calls made so far, each with the state it found and the answer it got;
`answers` forgets the states.  A component *refines its log* when what it says
now can be read off the log: a reading takes the last call of a kind (`lastOf`),
the first one (`List.findSome?`), or only what came after the last call of some
kind (`List.rtakeWhile`).

Each reading has a lemma for one more call.  `answers_of_inserted` compares two
runs, one of which has calls that the other has not.

Nothing here depends on what the calls are.
-/

import NightBridge.Effect.Trace
import Mathlib.Data.List.DropRight

namespace NightBridge.Effect

/-! ### Reading a log -/

section reading

variable {α β : Type}

theorem filterMap_concat (f : α → Option β) (log : List α) (e : α) :
    (log ++ [e]).filterMap f = log.filterMap f ++ (f e).toList := by
  rw [List.filterMap_append]
  cases h : f e <;> simp [h]

/-- What the last element that says something says. -/
def lastOf (f : α → Option β) (log : List α) : Option β := (log.filterMap f).getLast?

@[simp] theorem lastOf_nil (f : α → Option β) : lastOf f [] = none := rfl

/-- **One more element** has the last word, if it says something. -/
@[simp] theorem lastOf_concat (f : α → Option β) (log : List α) (e : α) :
    lastOf f (log ++ [e]) = (f e).or (lastOf f log) := by
  rw [lastOf, List.filterMap_append, List.getLast?_append]
  cases h : f e <;> simp [lastOf, h]

@[simp] theorem lastOf_singleton (f : α → Option β) (e : α) : lastOf f [e] = f e :=
  (lastOf_concat f [] e).trans (Option.or_none)

theorem lastOf_eq_none_iff {f : α → Option β} {log : List α} :
    lastOf f log = none ↔ ∀ e ∈ log, f e = none := by
  rw [lastOf, List.getLast?_eq_none_iff, List.filterMap_eq_nil_iff]

end reading

/-! ### Calls one after another -/

section calls

variable {Op : Type} {Resp : Op → Type} {σ : Type} (h : Prog.Handler Op Resp σ)

def after (s : σ) (calls : List Op) : σ := calls.foldl (fun s o => (h o s).2) s

/-- The calls, each with the state it found and the answer it got. -/
def traced : σ → List Op → List (Prog.Seen Op Resp σ)
  | _, [] => []
  | s, o :: calls => (s, ⟨o, (h o s).1⟩) :: traced (h o s).2 calls

def answers (s : σ) (calls : List Op) : History Op Resp := (traced h s calls).map Prod.snd

variable {h} {s : σ}

@[simp] theorem after_nil : after h s [] = s := rfl

@[simp] theorem after_cons {o : Op} {calls : List Op} :
    after h s (o :: calls) = after h (h o s).2 calls := rfl

theorem after_append {calls calls' : List Op} :
    after h s (calls ++ calls') = after h (after h s calls) calls' :=
  List.foldl_append

@[simp] theorem after_concat {calls : List Op} {o : Op} :
    after h s (calls ++ [o]) = (h o (after h s calls)).2 := after_append

@[simp] theorem traced_nil : traced h s [] = [] := rfl

@[simp] theorem traced_cons {o : Op} {calls : List Op} :
    traced h s (o :: calls) = (s, ⟨o, (h o s).1⟩) :: traced h (h o s).2 calls := rfl

theorem traced_append {calls calls' : List Op} :
    traced h s (calls ++ calls') = traced h s calls ++ traced h (after h s calls) calls' := by
  induction calls generalizing s with
  | nil => rfl
  | cons o calls ih => rw [List.cons_append, traced_cons, ih]; rfl

@[simp] theorem traced_concat {calls : List Op} {o : Op} :
    traced h s (calls ++ [o]) = traced h s calls ++
      [(after h s calls, ⟨o, (h o (after h s calls)).1⟩)] := traced_append

@[simp] theorem answers_nil : answers h s [] = [] := rfl

@[simp] theorem answers_cons {o : Op} {calls : List Op} :
    answers h s (o :: calls) = ⟨o, (h o s).1⟩ :: answers h (h o s).2 calls := rfl

theorem answers_append {calls calls' : List Op} :
    answers h s (calls ++ calls') = answers h s calls ++ answers h (after h s calls) calls' := by
  rw [answers, traced_append, List.map_append]
  rfl

@[simp] theorem answers_concat {calls : List Op} {o : Op} :
    answers h s (calls ++ [o]) = answers h s calls ++ [⟨o, (h o (after h s calls)).1⟩] :=
  answers_append

/-- **Inserted calls that are not noticed.**  `R` relates the state of a run
without the inserted calls to that of the run with them, before the calls still
to come.  If an inserted call keeps it, and any other call keeps it and is
answered alike as far as `keep` says, then the answers that are kept are the
same in both runs. -/
theorem answers_of_inserted (inserted keep : Op → Bool) (R : List Op → σ → σ → Prop)
    (hskip : ∀ o calls s s', inserted o = true → R (o :: calls) s s' → R calls s (h o s').2)
    (hstep : ∀ o calls s s', inserted o = false → R (o :: calls) s s' →
      (keep o = true → (h o s').1 = (h o s).1) ∧ R calls (h o s).2 (h o s').2)
    {calls : List Op} {s s' : σ} (hR : R calls s s') :
    (answers h s' calls).filter (fun e => !inserted e.op && keep e.op) =
      (answers h s (calls.filter fun o => !inserted o)).filter fun e => keep e.op := by
  induction calls generalizing s s' with
  | nil => rfl
  | cons o calls ih =>
    cases hinserted : inserted o with
    | true => simpa [hinserted] using ih (hskip o calls s s' hinserted hR)
    | false =>
      obtain ⟨hanswer, hnext⟩ := hstep o calls s s' hinserted hR
      cases hkeep : keep o with
      | true => simpa [hinserted, hkeep, hanswer hkeep] using ih hnext
      | false => simpa [hinserted, hkeep] using ih hnext

end calls

end NightBridge.Effect
