/-
# Bounded programs and blocking calls

`Prog.Within n p` says that `p` makes at most `n` calls, whatever the answers
are.

In a pool where calls may have to wait, `ready` says which calls can be answered
now, and `Pool.can` is whether a program has a call that can.  A schedule in
which every step is one that can be taken is `Orderly` with that rule.  If the
programs are bounded then such a schedule is no longer than the sum of the
bounds (`length_le_of_within`), so every run of the pool comes to an end, and
where it ends no program can go on.
-/

import NightBridge.Effect.Pool
import Mathlib.Algebra.BigOperators.Group.Finset.Basic
import Mathlib.Algebra.Order.BigOperators.Group.Finset

namespace NightBridge.Effect

namespace Prog

variable {Op : Type} {Resp : Op → Type} {ε ε' α β : Type} {p : Prog Op Resp ε α} {m n : ℕ}

def Within : ℕ → Prog Op Resp ε α → Prop
  | _, .ret _ => True
  | _, .fail _ => True
  | 0, .call _ _ => False
  | n + 1, .call _ k => ∀ r, Within n (k r)

@[simp] theorem within_ret (n : ℕ) (a : α) : (ret a : Prog Op Resp ε α).Within n := by
  cases n <;> trivial

@[simp] theorem within_fail (n : ℕ) (e : ε) : (fail e : Prog Op Resp ε α).Within n := by
  cases n <;> trivial

theorem within_call {o : Op} {k : Resp o → Prog Op Resp ε α} (h : ∀ r, (k r).Within n) :
    (call o k).Within (n + 1) := h

theorem Within.mono (h : p.Within m) (hmn : m ≤ n) : p.Within n := by
  induction p generalizing m n with
  | ret a => exact within_ret n a
  | fail e => exact within_fail n e
  | call o k ih =>
    match m, n with
    | 0, _ => exact absurd h id
    | m + 1, 0 => exact absurd hmn (by omega)
    | m + 1, n + 1 => exact fun r => ih r (h r) (by omega)

theorem Within.bind {f : α → Prog Op Resp ε β} (hp : p.Within m) (hf : ∀ a, (f a).Within n) :
    (p >>= f).Within (m + n) := by
  induction p generalizing m with
  | ret a => exact (hf a).mono (by omega)
  | fail e => exact within_fail _ e
  | call o k ih =>
    match m with
    | 0 => exact absurd hp id
    | m + 1 =>
      rw [call_bind, Nat.add_right_comm]
      exact within_call fun r => ih r (hp r)

theorem Within.attempt (hp : p.Within n) : (p.attempt : Prog Op Resp ε' (Except ε α)).Within n := by
  induction p generalizing n with
  | ret a => exact within_ret n _
  | fail e => exact within_ret n _
  | call o k ih =>
    match n with
    | 0 => exact absurd hp id
    | n + 1 => exact fun r => ih r (hp r)

theorem within_each {body : α → Prog Op Resp ε Unit} (h : ∀ x, (body x).Within n) (xs : List α) :
    (each xs body).Within (xs.length * n) := by
  induction xs with
  | nil => exact within_ret _ _
  | cons x xs ih =>
    rw [each_cons, List.length_cons, Nat.succ_mul, Nat.add_comm]
    exact (h x).bind fun _ => ih

end Prog

namespace Pool

variable {Op : Type} {Resp : Op → Type} {ε α σ τ ι : Type}

/-- A program has a call to make that can be answered now. -/
def can (ready : Op → σ → Bool) (pool : Pool Op Resp ε α σ τ ι) (i : ι) : Bool :=
  match pool.rest i with
  | .call o _ => ready o pool.shared
  | _ => false

variable {ready : Op → σ → Bool} {pool : Pool Op Resp ε α σ τ ι} {i : ι} {o : Op}
  {k : Resp o → Prog Op Resp ε α}

theorem can_of_call (h : pool.rest i = .call o k) : pool.can ready i = ready o pool.shared := by
  rw [can, h]

theorem exists_call_of_can (h : pool.can ready i = true) : ∃ o k, pool.rest i = .call o k := by
  rw [can] at h
  split at h
  · exact ⟨_, _, by assumption⟩
  · cases h

variable [DecidableEq ι] (exec : (o : Op) → σ → τ → Resp o × σ × τ) (s : σ) {p : ι → Prog Op Resp ε α}
  (t : ι → τ)

/-- A bounded program has calls left for what it has still to do. -/
theorem within_rest {n : ℕ} (h : (p i).Within n) (schedule : List ι) :
    ∃ left, (((start s p t).run exec schedule).calls i).length + left = n ∧
      (((start s p t).run exec schedule).rest i).Within left := by
  refine run_inv (I := fun pool => ∃ left, (pool.calls i).length + left = n ∧ (pool.rest i).Within left)
    (fun schedule j o k hI hj => ?_) ⟨n, Nat.zero_add n, h⟩ schedule
  obtain ⟨left, hlength, hwithin⟩ := hI
  by_cases hij : i = j
  · subst hij
    rw [hj] at hwithin
    match left with
    | 0 => exact absurd hwithin id
    | left + 1 =>
      refine ⟨left, ?_, ?_⟩
      · rw [calls_step_self hj, List.length_append, List.length_singleton]
        omega
      · rw [step_of_call hj]
        simp only [Function.update_self]
        exact hwithin _
  · rw [calls_step_of_ne hij, rest_step_of_ne hij]
    exact ⟨left, hlength, hwithin⟩

variable {bound : ι → ℕ} {tasks : Finset ι}

/-- In a schedule without idle steps every step is a call of one of the programs. -/
theorem length_eq_sum_calls (hwithin : ∀ i, (p i).Within (bound i)) (htasks : ∀ i ∉ tasks, bound i = 0)
    {schedule : List ι}
    (hok : Orderly exec (fun pool i => pool.can ready i = true) (start s p t) schedule) :
    schedule.length = ∑ i ∈ tasks, (((start s p t).run exec schedule).calls i).length := by
  induction schedule using List.reverseRecOn with
  | nil => simp [start, calls]
  | append_singleton schedule j ih =>
    obtain ⟨hbefore, hcan, -⟩ := orderly_append.mp hok
    obtain ⟨o, k, hj⟩ := exists_call_of_can hcan
    have hmem : j ∈ tasks := by
      by_contra hj'
      obtain ⟨left, hlength, hleft⟩ := within_rest exec s t (hwithin j) schedule
      obtain rfl : left = 0 := by
        have := htasks j hj'
        omega
      rw [hj] at hleft
      exact hleft
    have hothers : ∑ i ∈ tasks.erase j, ((((start s p t).run exec schedule).step exec j).calls i).length =
        ∑ i ∈ tasks.erase j, (((start s p t).run exec schedule).calls i).length :=
      Finset.sum_congr rfl fun i hi => by rw [calls_step_of_ne (Finset.ne_of_mem_erase hi)]
    rw [List.length_append, List.length_singleton, ih hbefore, run_concat, ← Finset.add_sum_erase _ _ hmem,
      ← Finset.add_sum_erase _ _ hmem, calls_step_self hj, List.length_append, List.length_singleton, hothers]
    omega

/-- **Bounded programs come to an end**: a schedule without idle steps is not
longer than all bounds together. -/
theorem length_le_of_within (hwithin : ∀ i, (p i).Within (bound i)) (htasks : ∀ i ∉ tasks, bound i = 0)
    {schedule : List ι}
    (hok : Orderly exec (fun pool i => pool.can ready i = true) (start s p t) schedule) :
    schedule.length ≤ ∑ i ∈ tasks, bound i := by
  rw [length_eq_sum_calls exec s t hwithin htasks hok]
  refine Finset.sum_le_sum fun i _ => ?_
  obtain ⟨left, hlength, -⟩ := within_rest exec s t (hwithin i) schedule
  omega

end Pool
end NightBridge.Effect
