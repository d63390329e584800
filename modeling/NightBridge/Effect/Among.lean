/-
# A program among others, with a state of its own

`Prog.wp` lets every call be answered in any way.  A program of a pool has a
state of its own as well, which nobody else changes: what its calls do to that
state, and what they answer from it, is known.  `Prog.among` follows a program
with its own state, through every shared state that its calls could find and
that `J` allows.

`Pool.among_rest` is why it is used: what `among` says of a program holds of
what is left of it at any time, whatever the others do.

Nothing here depends on what the operations are.
-/

import NightBridge.Effect.Pool

namespace NightBridge.Effect
namespace Prog

variable {Op : Type} {Resp : Op → Type} {ε ε' α β σ τ : Type}

/-- Every call of the program satisfies `G` and every outcome `Q`, if each call
finds a shared state with `J`. -/
def among (exec : (o : Op) → σ → τ → Resp o × σ × τ) (J : σ → Prop)
    (G : List (Seen Op Resp σ) → τ → Op → Prop) (Q : List (Seen Op Resp σ) → τ → Except ε α → Prop) :
    Prog Op Resp ε α → τ → List (Seen Op Resp σ) → Prop
  | ret a, t, seen => Q seen t (.ok a)
  | fail e, t, seen => Q seen t (.error e)
  | call o k, t, seen => G seen t o ∧ ∀ s, J s →
      (k (exec o s t).1).among exec J G Q (exec o s t).2.2 (seen ++ [(s, ⟨o, (exec o s t).1⟩)])

variable {exec : (o : Op) → σ → τ → Resp o × σ × τ} {J : σ → Prop}
  {G : List (Seen Op Resp σ) → τ → Op → Prop} {Q : List (Seen Op Resp σ) → τ → Except ε α → Prop}
  {t : τ} {seen : List (Seen Op Resp σ)}

/-- The first program is followed until it returns, and then the second. -/
theorem among_bind {p : Prog Op Resp ε α} {f : α → Prog Op Resp ε β}
    {R : List (Seen Op Resp σ) → τ → Except ε β → Prop}
    (h : p.among exec J G (fun seen t r => (∀ a, r = .ok a → (f a).among exec J G R t seen) ∧
      ∀ e, r = .error e → R seen t (.error e)) t seen) :
    (p >>= f).among exec J G R t seen := by
  induction p generalizing t seen with
  | ret a => exact h.1 a rfl
  | fail e => exact h.2 e rfl
  | call o k ih => exact ⟨h.1, fun s hs => ih _ (h.2 s hs)⟩

theorem among_attempt {p : Prog Op Resp ε α}
    {R : List (Seen Op Resp σ) → τ → Except ε' (Except ε α) → Prop}
    (h : p.among exec J G (fun seen t r => R seen t (.ok r)) t seen) :
    (p.attempt : Prog Op Resp ε' (Except ε α)).among exec J G R t seen := by
  induction p generalizing t seen with
  | ret a => exact h
  | fail e => exact h
  | call o k ih => exact ⟨h.1, fun s hs => ih _ (h.2 s hs)⟩

/-- **`among` holds along every run** whose calls find shared states with `J`. -/
theorem Open.among {p q : Prog Op Resp ε α} {t' : τ} (hrun : Open exec p t seen q t')
    (hJ : ∀ e ∈ seen, J e.1) (h : p.among exec J G Q t []) : q.among exec J G Q t' seen := by
  induction hrun with
  | refl => exact h
  | tail before s ih =>
    have hbefore := ih fun e he => hJ e (by simp [he])
    exact hbefore.2 s (hJ _ (List.mem_append_right _ (List.mem_singleton_self _)))

end Prog

namespace Pool

variable {Op : Type} {Resp : Op → Type} {ε α σ τ ι : Type} [DecidableEq ι]
  {exec : (o : Op) → σ → τ → Resp o × σ × τ} {s : σ} {p : ι → Prog Op Resp ε α} {t : ι → τ} {i : ι}
  {J : σ → Prop} {G : List (Prog.Seen Op Resp σ) → τ → Op → Prop}
  {Q : List (Prog.Seen Op Resp σ) → τ → Except ε α → Prop} {schedule : List ι}

/-- A call of the pool after a step was there before, or is the one just made. -/
theorem mem_seen_step {pool : Pool Op Resp ε α σ τ ι} {j : ι} {o : Op} {k : Resp o → Prog Op Resp ε α}
    {e : Prog.Seen Op Resp σ} (h : pool.rest i = .call o k) (he : e ∈ (pool.step exec i).seen j) :
    e ∈ pool.seen j ∨ e = (pool.shared, ⟨o, (exec o pool.shared (pool.own i)).1⟩) := by
  rw [step_of_call h] at he
  by_cases hj : j = i
  · subst hj
    simp only [Function.update_self, List.mem_append, List.mem_singleton] at he
    exact he
  · simp only [Function.update_of_ne hj] at he
    exact .inl he

/-- **What `among` says of a program holds of what it has still to do.** -/
theorem among_rest (h : (p i).among exec J G Q (t i) [])
    (hJ : ∀ e ∈ ((start s p t).run exec schedule).seen i, J e.1) :
    (((start s p t).run exec schedule).rest i).among exec J G Q
      (((start s p t).run exec schedule).own i) (((start s p t).run exec schedule).seen i) :=
  (open_run schedule i).among hJ h

end Pool
end NightBridge.Effect
