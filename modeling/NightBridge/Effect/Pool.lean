/-
# Programs that run side by side

A `Pool` holds a family of programs that call operations on one shared state,
each with a state of its own.  A schedule says who makes the next call; a
program that is not scheduled again has been cut off.  So the runs of a pool are
all interleavings of complete or unfinished runs of its programs.

Each program of a pool makes an open run (`open_run`), so what `Prog.wp` says of
it holds at each of its calls, whatever the others do (`guarded`).  Invariants
of a pool are proved step by step (`run_inv`, and `orderly_inv` for schedules
that keep to a rule), where a step is one call (`step_cases`).

Nothing here depends on what the operations are.
-/

import NightBridge.Effect.Trace
import Mathlib.Logic.Function.Basic

namespace NightBridge.Effect

/-- Programs that share a state. -/
structure Pool (Op : Type) (Resp : Op → Type) (ε α σ τ ι : Type) where
  shared : σ
  /-- What each program has still to do. -/
  rest : ι → Prog Op Resp ε α
  /-- The state each program has to itself. -/
  own : ι → τ
  /-- The calls each program has made. -/
  seen : ι → List (Prog.Seen Op Resp σ)

namespace Pool

variable {Op : Type} {Resp : Op → Type} {ε α σ τ ι : Type}

def start (s : σ) (p : ι → Prog Op Resp ε α) (t : ι → τ) : Pool Op Resp ε α σ τ ι :=
  ⟨s, p, t, fun _ => []⟩

def calls (pool : Pool Op Resp ε α σ τ ι) (i : ι) : History Op Resp := (pool.seen i).map Prod.snd

variable [DecidableEq ι] (exec : (o : Op) → σ → τ → Resp o × σ × τ)

/-- Let a program make its next call. -/
def step (pool : Pool Op Resp ε α σ τ ι) (i : ι) : Pool Op Resp ε α σ τ ι :=
  match pool.rest i with
  | .call o k =>
    let r := exec o pool.shared (pool.own i)
    { shared := r.2.1
      rest := Function.update pool.rest i (k r.1)
      own := Function.update pool.own i r.2.2
      seen := Function.update pool.seen i (pool.seen i ++ [(pool.shared, ⟨o, r.1⟩)]) }
  | _ => pool

/-- Let the programs make calls in the order of the schedule. -/
def run (pool : Pool Op Resp ε α σ τ ι) (schedule : List ι) : Pool Op Resp ε α σ τ ι :=
  schedule.foldl (step exec) pool

variable {exec} {pool : Pool Op Resp ε α σ τ ι} {i j : ι} {o : Op} {k : Resp o → Prog Op Resp ε α}

@[simp] theorem run_nil : pool.run exec [] = pool := rfl

theorem run_append (xs ys : List ι) : pool.run exec (xs ++ ys) = (pool.run exec xs).run exec ys :=
  List.foldl_append

theorem run_concat (xs : List ι) : pool.run exec (xs ++ [i]) = (pool.run exec xs).step exec i :=
  run_append xs [i]

theorem step_of_call (h : pool.rest i = .call o k) :
    pool.step exec i =
      { shared := (exec o pool.shared (pool.own i)).2.1
        rest := Function.update pool.rest i (k (exec o pool.shared (pool.own i)).1)
        own := Function.update pool.own i (exec o pool.shared (pool.own i)).2.2
        seen := Function.update pool.seen i
          (pool.seen i ++ [(pool.shared, ⟨o, (exec o pool.shared (pool.own i)).1⟩)]) } := by
  rw [step, h]

/-- **One step**: the program has ended and nothing happens, or it makes its
next call. -/
theorem step_cases (exec : (o : Op) → σ → τ → Resp o × σ × τ) (pool : Pool Op Resp ε α σ τ ι) (i : ι) :
    pool.step exec i = pool ∨ ∃ o k, pool.rest i = .call o k := by
  cases h : pool.rest i with
  | ret a => exact .inl (by rw [step, h])
  | fail e => exact .inl (by rw [step, h])
  | call o k => exact .inr ⟨o, k, rfl⟩

theorem shared_step (h : pool.rest i = .call o k) :
    (pool.step exec i).shared = (exec o pool.shared (pool.own i)).2.1 := by
  rw [step_of_call h]

theorem calls_step_self (h : pool.rest i = .call o k) :
    (pool.step exec i).calls i = pool.calls i ++ [⟨o, (exec o pool.shared (pool.own i)).1⟩] := by
  rw [step_of_call h]
  simp [calls]

theorem calls_step_of_ne (h : j ≠ i) : (pool.step exec i).calls j = pool.calls j := by
  rcases step_cases exec pool i with hs | ⟨o, k, hi⟩
  · rw [hs]
  · rw [step_of_call hi]
    simp [calls, h]

theorem rest_step_of_ne (h : j ≠ i) : (pool.step exec i).rest j = pool.rest j := by
  rcases step_cases exec pool i with hs | ⟨o, k, hi⟩
  · rw [hs]
  · rw [step_of_call hi]
    exact Function.update_of_ne h _ _

theorem mem_calls_step {e : Event Op Resp} (h : pool.rest i = .call o k)
    (he : e ∈ (pool.step exec i).calls j) :
    e ∈ pool.calls j ∨ (j = i ∧ e = ⟨o, (exec o pool.shared (pool.own i)).1⟩) := by
  by_cases hj : j = i
  · subst hj
    rw [calls_step_self h, List.mem_append, List.mem_singleton] at he
    exact he.imp (fun he => he) fun he => ⟨rfl, he⟩
  · rw [calls_step_of_ne hj] at he
    exact .inl he

theorem calls_prefix_step : pool.calls j <+: (pool.step exec i).calls j := by
  rcases step_cases exec pool i with hs | ⟨o, k, hi⟩
  · rw [hs]
  · by_cases hj : j = i
    · subst hj
      rw [calls_step_self hi]
      exact List.prefix_append _ _
    · rw [calls_step_of_ne hj]

theorem calls_prefix_run (schedule : List ι) : pool.calls j <+: (pool.run exec schedule).calls j := by
  induction schedule generalizing pool with
  | nil => exact List.prefix_rfl
  | cons i schedule ih => exact calls_prefix_step.trans ih

theorem run_of_returned {a : α} (h : pool.rest i = .ret a) (schedule : List ι) :
    (pool.run exec schedule).rest i = .ret a ∧ (pool.run exec schedule).calls i = pool.calls i := by
  induction schedule generalizing pool with
  | nil => exact ⟨h, rfl⟩
  | cons j schedule ih =>
    by_cases hij : i = j
    · subst hij
      have hstep : pool.step exec i = pool := by rw [step, h]
      show (Pool.run exec (pool.step exec i) schedule).rest i = _ ∧ _
      rw [show pool.run exec (i :: schedule) =
        pool.run exec schedule from congrArg (run exec · schedule) hstep,
        hstep]
      exact ih h
    · have hrest : (pool.step exec j).rest i = .ret a := (rest_step_of_ne hij).trans h
      obtain ⟨hret, hcalls⟩ := ih hrest
      exact ⟨hret, hcalls.trans (calls_step_of_ne hij)⟩

/-! ### Invariants -/

/-- Every step of the schedule is taken where `ok` holds. -/
def Orderly (exec : (o : Op) → σ → τ → Resp o × σ × τ) (ok : Pool Op Resp ε α σ τ ι → ι → Prop) :
    Pool Op Resp ε α σ τ ι → List ι → Prop
  | _, [] => True
  | pool, i :: schedule => ok pool i ∧ Orderly exec ok (pool.step exec i) schedule

/-- Whether a schedule keeps to a rule can be decided by running it. -/
instance decidableOrderly {ok : Pool Op Resp ε α σ τ ι → ι → Prop} [∀ pool i, Decidable (ok pool i)] :
    (pool : Pool Op Resp ε α σ τ ι) → (schedule : List ι) → Decidable (Orderly exec ok pool schedule)
  | _, [] => .isTrue trivial
  | pool, i :: schedule =>
    @instDecidableAnd _ _ _ (decidableOrderly (pool.step exec i) schedule)

theorem orderly_append {ok : Pool Op Resp ε α σ τ ι → ι → Prop} {xs ys : List ι} :
    Orderly exec ok pool (xs ++ ys) ↔
      Orderly exec ok pool xs ∧ Orderly exec ok (pool.run exec xs) ys := by
  induction xs generalizing pool with
  | nil => simp [Orderly]
  | cons x xs ih => simp only [List.cons_append, Orderly, ih, and_assoc]; rfl

/-! ### What a program of a pool does -/

variable {s : σ} {p : ι → Prog Op Resp ε α} {t : ι → τ}

/-- **The invariant rule**, from some time on, for schedules whose steps are all
`ok`. -/
theorem orderly_inv_from {ok : Pool Op Resp ε α σ τ ι → ι → Prop} {I : Pool Op Resp ε α σ τ ι → Prop}
    (hstep : ∀ schedule i o k, I ((start s p t).run exec schedule) →
      ((start s p t).run exec schedule).rest i = .call o k → ok ((start s p t).run exec schedule) i →
      I (((start s p t).run exec schedule).step exec i))
    (before : List ι) (h0 : I ((start s p t).run exec before)) {after : List ι}
    (hok : Orderly exec ok (start s p t) (before ++ after)) :
    I ((start s p t).run exec (before ++ after)) := by
  induction after using List.reverseRecOn with
  | nil => rwa [List.append_nil]
  | append_singleton after i ih =>
    rw [← List.append_assoc] at hok ⊢
    obtain ⟨hbefore, hlast, -⟩ := orderly_append.mp hok
    rw [run_concat]
    rcases step_cases exec ((start s p t).run exec (before ++ after)) i with hs | ⟨o, k, hi⟩
    · rw [hs]
      exact ih hbefore
    · exact hstep _ i o k (ih hbefore) hi hlast

theorem orderly_inv {ok : Pool Op Resp ε α σ τ ι → ι → Prop} {I : Pool Op Resp ε α σ τ ι → Prop}
    (hstep : ∀ schedule i o k, I ((start s p t).run exec schedule) →
      ((start s p t).run exec schedule).rest i = .call o k → ok ((start s p t).run exec schedule) i →
      I (((start s p t).run exec schedule).step exec i))
    (h0 : I (start s p t)) {schedule : List ι} (hok : Orderly exec ok (start s p t) schedule) :
    I ((start s p t).run exec schedule) :=
  orderly_inv_from hstep [] h0 hok

theorem orderly_true (schedule : List ι) : Orderly exec (fun _ _ => True) pool schedule := by
  induction schedule generalizing pool with
  | nil => trivial
  | cons i schedule ih => exact ⟨trivial, ih⟩

theorem run_inv {I : Pool Op Resp ε α σ τ ι → Prop}
    (hstep : ∀ schedule i o k, I ((start s p t).run exec schedule) →
      ((start s p t).run exec schedule).rest i = .call o k →
      I (((start s p t).run exec schedule).step exec i))
    (h0 : I (start s p t)) (schedule : List ι) : I ((start s p t).run exec schedule) :=
  orderly_inv (fun schedule i o k hI hi _ => hstep schedule i o k hI hi) h0 (orderly_true schedule)

/-- **Each program makes an open run.** -/
theorem open_run (schedule : List ι) (i : ι) :
    Prog.Open exec (p i) (t i) (((start s p t).run exec schedule).seen i)
      (((start s p t).run exec schedule).rest i) (((start s p t).run exec schedule).own i) := by
  induction schedule using List.reverseRecOn with
  | nil => exact .refl
  | append_singleton schedule j ih =>
    rw [run_concat]
    rcases step_cases exec ((start s p t).run exec schedule) j with hs | ⟨o, k, hj⟩
    · rwa [hs]
    · rw [step_of_call hj]
      by_cases hij : i = j
      · subst hij
        simp only [Function.update_self]
        rw [hj] at ih
        exact ih.tail _
      · simpa only [Function.update_of_ne hij] using ih

/-- **What `wp` says of a program holds of what it has still to do.** -/
theorem wp_rest (exec : (o : Op) → σ → τ → Resp o × σ × τ) (s : σ) (t : ι → τ)
    {G : History Op Resp → Op → Prop} {Q : History Op Resp → α → Prop} (h : (p i).wp G Q [])
    (schedule : List ι) : (((start s p t).run exec schedule).rest i).wp G Q
      (((start s p t).run exec schedule).calls i) :=
  (open_run schedule i).wp h

theorem guarded {G : History Op Resp → Op → Prop} {Q : History Op Resp → α → Prop}
    {schedule : List ι} (h : (p i).wp G Q [])
    (hrest : ((start s p t).run exec schedule).rest i = .call o k) :
    G (((start s p t).run exec schedule).calls i) o := by
  have hcall := wp_rest exec s t h schedule
  rw [hrest] at hcall
  exact hcall.1

/-- **What every call of a program keeps** holds of its calls and its own state
at any time. -/
theorem own_inv {G : History Op Resp → Op → Prop} {Q : History Op Resp → α → Prop}
    {I : History Op Resp → τ → Prop} (h : (p i).wp G Q [])
    (hcall : ∀ h o s t, G h o → I h t → I (h ++ [⟨o, (exec o s t).1⟩]) (exec o s t).2.2)
    (h0 : I [] (t i)) (schedule : List ι) :
    I (((start s p t).run exec schedule).calls i) (((start s p t).run exec schedule).own i) := by
  refine run_inv (I := fun pool => I (pool.calls i) (pool.own i)) (fun schedule j o k hI hj => ?_) h0
    schedule
  by_cases hij : i = j
  · subst hij
    rw [calls_step_self hj, step_of_call hj]
    simp only [Function.update_self]
    exact hcall _ _ _ _ (guarded h hj) hI
  · rw [calls_step_of_ne hij, step_of_call hj]
    simp only [Function.update_of_ne hij]
    exact hI

theorem calls_inv {G : History Op Resp → Op → Prop} {Q : History Op Resp → α → Prop}
    {I : History Op Resp → Prop} (h : (p i).wp G Q [])
    (hcall : ∀ h o r, G h o → I h → I (h ++ [⟨o, r⟩])) (h0 : I []) (schedule : List ι) :
    I (((start s p t).run exec schedule).calls i) :=
  own_inv (I := fun h _ => I h) h (fun h o _ _ ho hI => hcall h o _ ho hI) h0 schedule

theorem returned {G : History Op Resp → Op → Prop} {Q : History Op Resp → α → Prop}
    {schedule : List ι} (h : (p i).wp G Q []) {a : α}
    (hrest : ((start s p t).run exec schedule).rest i = .ret a) :
    Q (((start s p t).run exec schedule).calls i) a := by
  have hret := wp_rest exec s t h schedule
  rwa [hrest] at hret

end Pool
end NightBridge.Effect
