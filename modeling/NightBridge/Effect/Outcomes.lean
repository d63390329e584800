/-
# How a program can end

`Prog.Ends p hist r`: if the calls of `p` are answered as in `hist`, it ends
with `r`.  The answers are arbitrary, so what holds of every `hist` and `r`
holds whatever the operations do.  `ends_bind` and `ends_attempt` take a program
apart into what its parts did.

`Prog.Only P p` says of which kind the calls of a program are, whatever it is
answered.

Nothing here depends on what the operations are.
-/

import NightBridge.Effect.Trace

namespace NightBridge.Effect
namespace Prog

variable {Op : Type} {Resp : Op → Type} {ε ε' α β : Type}

/-- The program ends with `r` if its calls are answered as in `hist`. -/
def Ends : Prog Op Resp ε α → History Op Resp → Except ε α → Prop
  | ret a, hist, r => hist = [] ∧ r = .ok a
  | fail e, hist, r => hist = [] ∧ r = .error e
  | call o k, hist, r => ∃ x rest, hist = ⟨o, x⟩ :: rest ∧ (k x).Ends rest r

variable {p : Prog Op Resp ε α} {hist : History Op Resp} {r : Except ε α}

@[simp] theorem ends_ret {a : α} : (ret a : Prog Op Resp ε α).Ends hist r ↔ hist = [] ∧ r =
    .ok a := Iff.rfl

@[simp] theorem ends_pure {a : α} : (pure a : Prog Op Resp ε α).Ends hist r ↔ hist = [] ∧ r = .ok a :=
  Iff.rfl

@[simp] theorem ends_fail {e : ε} : (fail e : Prog Op Resp ε α).Ends hist r ↔ hist = [] ∧ r = .error e :=
  Iff.rfl

@[simp] theorem ends_call {o : Op} {k : Resp o → Prog Op Resp ε α} :
    (call o k).Ends hist r ↔ ∃ x rest, hist = ⟨o, x⟩ :: rest ∧ (k x).Ends rest r := Iff.rfl

theorem ends_ofExcept {x : Except ε α} :
    (ofExcept x : Prog Op Resp ε α).Ends hist r ↔ hist = [] ∧ r = x := by
  cases x <;> rfl

/-- The first part returns and the second goes on, or the first fails. -/
theorem ends_bind {f : α → Prog Op Resp ε β} {r : Except ε β} :
    (p >>= f).Ends hist r ↔
      (∃ hist₁ hist₂ a, hist = hist₁ ++ hist₂ ∧ p.Ends hist₁ (.ok a) ∧ (f a).Ends hist₂ r) ∨
        ∃ e, p.Ends hist (.error e) ∧ r = .error e := by
  induction p generalizing hist with
  | ret a => simp
  | fail e => simp
  | call o k ih =>
    rw [call_bind, ends_call]
    constructor
    · rintro ⟨x, rest, rfl, hrest⟩
      rcases (ih x).mp hrest with ⟨hist₁, hist₂, a, rfl, hp, hf⟩ | ⟨e, hp, rfl⟩
      · exact .inl ⟨⟨o, x⟩ :: hist₁, hist₂, a, rfl, ⟨x, hist₁, rfl, hp⟩, hf⟩
      · exact .inr ⟨e, ⟨x, rest, rfl, hp⟩, rfl⟩
    · rintro (⟨_, hist₂, a, rfl, ⟨x, hist₁, rfl, hp⟩, hf⟩ | ⟨e, ⟨x, rest, rfl, hp⟩, rfl⟩)
      · exact ⟨x, hist₁ ++ hist₂, rfl, (ih x).mpr (.inl ⟨hist₁, hist₂, a, rfl, hp, hf⟩)⟩
      · exact ⟨x, rest, rfl, (ih x).mpr (.inr ⟨e, hp, rfl⟩)⟩

theorem Ends.mapError {a : α} {f : ε → ε'} (h : p.Ends hist (.ok a)) :
    (p.mapError f).Ends hist (.ok a) := by
  induction p generalizing hist with
  | ret b =>
    obtain ⟨rfl, hb⟩ := h
    cases hb
    exact ⟨rfl, rfl⟩
  | fail e => cases h.2
  | call o k ih =>
    obtain ⟨x, rest, rfl, hrest⟩ := h
    exact ⟨x, rest, rfl, ih x hrest⟩

theorem Ends.bind {a : α} {f : α → Prog Op Resp ε β} {hist' : History Op Resp} {r : Except ε β}
    (hp : p.Ends hist (.ok a)) (hf : (f a).Ends hist' r) : (p >>= f).Ends (hist ++ hist') r :=
  ends_bind.mpr (.inl ⟨hist, hist', a, rfl, hp, hf⟩)

theorem ends_attempt {r : Except ε' (Except ε α)} :
    (p.attempt : Prog Op Resp ε' _).Ends hist r ↔ ∃ x, r = .ok x ∧ p.Ends hist x := by
  induction p generalizing hist with
  | ret a =>
    simp only [attempt, ends_ret]
    exact ⟨fun ⟨hnil, hr⟩ => ⟨_, hr, hnil, rfl⟩, fun ⟨x, hr, hnil, hx⟩ => ⟨hnil, hx ▸ hr⟩⟩
  | fail e =>
    simp only [attempt, ends_ret, ends_fail]
    exact ⟨fun ⟨hnil, hr⟩ => ⟨_, hr, hnil, rfl⟩, fun ⟨x, hr, hnil, hx⟩ => ⟨hnil, hx ▸ hr⟩⟩
  | call o k ih =>
    simp only [attempt, ends_call, ih]
    constructor
    · rintro ⟨x, rest, rfl, y, rfl, hy⟩
      exact ⟨y, rfl, x, rest, rfl, hy⟩
    · rintro ⟨y, rfl, x, rest, rfl, hy⟩
      exact ⟨x, rest, rfl, y, rfl, hy⟩

/-! ### The calls of a program -/

/-- Every call the program makes satisfies `P`. -/
inductive Only (P : Op → Prop) : Prog Op Resp ε α → Prop
  | ret (a : α) : Only P (ret a)
  | fail (e : ε) : Only P (fail e)
  | call {o : Op} {k : Resp o → Prog Op Resp ε α} (ho : P o) (hk : ∀ x, Only P (k x)) : Only P (call o k)

variable {P : Op → Prop}

theorem Only.mono {P' : Op → Prop} (h : p.Only P) (hP : ∀ o, P o → P' o) : p.Only P' := by
  induction h with
  | ret a => exact .ret a
  | fail e => exact .fail e
  | call ho _ ih => exact .call (hP _ ho) ih

theorem only_ofExcept (x : Except ε α) : (ofExcept x : Prog Op Resp ε α).Only P := by
  cases x with
  | ok a => exact .ret a
  | error e => exact .fail e

theorem Only.bind {f : α → Prog Op Resp ε β} (hp : p.Only P) (hf : ∀ a, (f a).Only P) :
    (p >>= f).Only P := by
  induction hp with
  | ret a => exact hf a
  | fail e => exact .fail e
  | call ho _ ih => exact .call ho ih

theorem Only.mapError {f : ε → ε'} (hp : p.Only P) : (p.mapError f).Only P := by
  induction hp with
  | ret a => exact .ret a
  | fail e => exact .fail (f e)
  | call ho _ ih => exact .call ho ih

theorem Only.attempt (hp : p.Only P) : (p.attempt : Prog Op Resp ε' (Except ε α)).Only P := by
  induction hp with
  | ret a => exact .ret _
  | fail e => exact .ret _
  | call ho _ ih => exact .call ho ih

theorem only_ite {c : Prop} [Decidable c] {q : Prog Op Resp ε α} (hp : p.Only P) (hq : q.Only P) :
    (if c then p else q).Only P := by
  split_ifs
  · exact hp
  · exact hq

theorem only_each {body : α → Prog Op Resp ε Unit} (h : ∀ x, (body x).Only P) (xs : List α) :
    (each xs body).Only P := by
  induction xs with
  | nil => exact .ret ()
  | cons x xs ih => exact (h x).bind fun _ => ih

theorem Only.ends (h : p.Only P) (hends : p.Ends hist r) : ∀ e ∈ hist, P e.op := by
  induction h generalizing hist with
  | ret a => rw [hends.1]; nofun
  | fail e => rw [hends.1]; nofun
  | call ho _ ih =>
    obtain ⟨x, rest, rfl, hrest⟩ := hends
    rw [List.forall_mem_cons]
    exact ⟨ho, ih x hrest⟩

/-! ### Parts of a run -/

/-- Among the answered calls there is a run of the program that returned `a`. -/
def Returned (p : Prog Op Resp ε α) (hist : History Op Resp) (a : α) : Prop :=
  ∃ before during later, hist = before ++ during ++ later ∧ p.Ends during (.ok a)

theorem Returned.mono {a : α} {hist' : History Op Resp} (h : p.Returned hist a)
    (hlater : hist <+: hist') :
    p.Returned hist' a := by
  obtain ⟨before, during, later, rfl, hends⟩ := h
  obtain ⟨rest, rfl⟩ := hlater
  exact ⟨before, during, later ++ rest, by simp, hends⟩

/-- A part that makes calls of one kind, with the calls before it. -/
theorem Only.wp_ends {G : History Op Resp → Op → Prop} (h : p.Only P) (before : History Op Resp)
    (hG : ∀ during o, (∀ e ∈ during, P e.op) → P o → G (before ++ during) o) :
    p.wp G (fun hist a => ∃ during, hist = before ++ during ∧ p.Ends during (.ok a)) before := by
  -- the calls made so far are kept apart from those of the part
  suffices H : ∀ {q : Prog Op Resp ε α}, q.Only P → ∀ during, (∀ e ∈ during, P e.op) →
      (∀ rest r, q.Ends rest r → p.Ends (during ++ rest) r) →
      q.wp G (fun hist a => ∃ during, hist = before ++ during ∧ p.Ends during (.ok a)) (before ++ during) by
    have hnone : ∀ e ∈ ([] : History Op Resp), P e.op := fun _ he => absurd he List.not_mem_nil
    simpa using H h [] hnone fun rest r hends => hends
  intro q hq
  induction hq with
  | ret a =>
    intro during _ hp
    exact ⟨during, rfl, by simpa using hp [] (.ok a) ⟨rfl, rfl⟩⟩
  | fail e => exact fun _ _ _ => trivial
  | call ho _ ih =>
    intro during hduring hp
    refine ⟨hG _ _ hduring ho, fun x => ?_⟩
    rw [List.append_assoc]
    refine ih x _ ?_ fun rest r hends => ?_
    · rw [List.forall_mem_append, List.forall_mem_singleton]
      exact ⟨hduring, ho⟩
    · rw [List.append_assoc]
      exact hp _ r ⟨x, rest, rfl, hends⟩

theorem Only.wp_returned {G : History Op Resp → Op → Prop} (h : p.Only P) (hG : ∀ hist o, P o → G hist o)
    (hist : History Op Resp) : p.wp G p.Returned hist := by
  refine wp_mono (h.wp_ends hist fun during o _ ho => hG _ o ho) (fun _ _ _ hg => hg) ?_
  rintro _ a - ⟨during, rfl, hends⟩
  exact ⟨hist, during, [], by simp, hends⟩

end Prog
end NightBridge.Effect
