/-
# Programs that may stop anywhere

A crash stops a program between two of its calls and leaves the state as the
calls made so far have it.  `Prog.cut h n p s` is that: the calls of `p` up to
the `n`th, and the state they leave.

`Prog.crashWp h I Q p hist s` says that `I` holds of the calls made and of the
state wherever `p` may stop, before its first call and after its last included,
and that `Q` holds where it ends.  It follows the one run there is, so a proof
of it executes the program symbolically.

Nothing here depends on what the operations are.
-/

import NightBridge.Effect.Trace

namespace NightBridge.Effect
namespace Prog

variable {Op : Type} {Resp : Op → Type} {ε α β σ : Type}

/-- Run a program alone for at most `n` calls: the calls, and the state they
leave. -/
def cut (h : Handler Op Resp σ) : ℕ → Prog Op Resp ε α → σ → History Op Resp × σ
  | n + 1, call o k, s =>
    let rest := cut h n (k (h o s).1) (h o s).2
    (⟨o, (h o s).1⟩ :: rest.1, rest.2)
  | _, _, s => ([], s)

/-- `I` holds wherever the program may stop, and `Q` where it ends. -/
def crashWp (h : Handler Op Resp σ) (I : History Op Resp → σ → Prop)
    (Q : History Op Resp → σ → Except ε α → Prop) : Prog Op Resp ε α → History Op Resp → σ → Prop
  | ret a, hist, s => I hist s ∧ Q hist s (.ok a)
  | fail e, hist, s => I hist s ∧ Q hist s (.error e)
  | call o k, hist, s =>
    I hist s ∧ (k (h o s).1).crashWp h I Q (hist ++ [⟨o, (h o s).1⟩]) (h o s).2

variable {h : Handler Op Resp σ} {I : History Op Resp → σ → Prop}
  {Q : History Op Resp → σ → Except ε α → Prop} {hist : History Op Resp} {s : σ}

@[simp] theorem crashWp_ret {a : α} :
    (ret a).crashWp h I Q hist s ↔ I hist s ∧ Q hist s (.ok a) := Iff.rfl

@[simp] theorem crashWp_pure {a : α} :
    (pure a : Prog Op Resp ε α).crashWp h I Q hist s ↔ I hist s ∧ Q hist s (.ok a) := Iff.rfl

@[simp] theorem crashWp_fail {e : ε} :
    (fail e).crashWp h I Q hist s ↔ I hist s ∧ Q hist s (.error e) := Iff.rfl

theorem crashWp_call {o : Op} {k : Resp o → Prog Op Resp ε α} {r : Resp o} {s' : σ}
    (hcall : h o s = (r, s')) (hI : I hist s)
    (hrest : (k r).crashWp h I Q (hist ++ [⟨o, r⟩]) s') : (call o k).crashWp h I Q hist s := by
  refine ⟨hI, ?_⟩
  rw [hcall]
  exact hrest

theorem crashWp_mono {p : Prog Op Resp ε α} {R : History Op Resp → σ → Except ε α → Prop}
    (hp : p.crashWp h I Q hist s) (hQ : ∀ hist s r, Q hist s r → R hist s r) :
      p.crashWp h I R hist s := by
  induction p generalizing hist s with
  | ret a => exact ⟨hp.1, hQ hist s _ hp.2⟩
  | fail e => exact ⟨hp.1, hQ hist s _ hp.2⟩
  | call o k ih => exact ⟨hp.1, ih _ hp.2⟩

theorem crashWp_bind_of {p : Prog Op Resp ε α} {f : α → Prog Op Resp ε β}
    {R : History Op Resp → σ → Except ε β → Prop} (hp : p.crashWp h I Q hist s)
    (hok : ∀ hist s a, I hist s → Q hist s (.ok a) → (f a).crashWp h I R hist s)
    (herror : ∀ hist s e, Q hist s (.error e) → R hist s (.error e)) :
    (p >>= f).crashWp h I R hist s := by
  induction p generalizing hist s with
  | ret a => exact hok hist s a hp.1 hp.2
  | fail e => exact ⟨hp.1, herror hist s e hp.2⟩
  | call o k ih => exact ⟨hp.1, ih _ hp.2⟩

/-- **Wherever the program is cut, `I` holds.** -/
theorem crashWp.cut {p : Prog Op Resp ε α} (hp : p.crashWp h I Q hist s) (n : ℕ) :
    I (hist ++ (p.cut h n s).1) (p.cut h n s).2 := by
  induction n generalizing p hist s with
  | zero =>
    rw [Prog.cut, List.append_nil]
    · cases p with
      | ret a => exact hp.1
      | fail e => exact hp.1
      | call o k => exact hp.1
    · exact fun _ _ _ hn => nomatch hn
  | succ n ih =>
    cases p with
    | ret a => simpa [Prog.cut] using hp.1
    | fail e => simpa [Prog.cut] using hp.1
    | call o k =>
      have hrest := ih hp.2
      rwa [List.append_assoc] at hrest

/-- **Run to its end, it ends with `Q`.** -/
theorem crashWp.run {p : Prog Op Resp ε α} (hp : p.crashWp h I Q hist s) :
    ∃ hist', Q hist' (p.run h s).2 (p.run h s).1 := by
  induction p generalizing hist s with
  | ret a => exact ⟨hist, hp.2⟩
  | fail e => exact ⟨hist, hp.2⟩
  | call o k ih => exact ih _ hp.2

end Prog
end NightBridge.Effect
