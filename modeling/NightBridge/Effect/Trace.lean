/-
# What a program does, whatever it is answered

`Prog.wp G Q p hist` follows a program through every answer its calls could get:
each call `o`, made after the answered calls `hist`, satisfies `G hist o`, and what
the program returns satisfies `Q`.  A failure ends the program and asks for
nothing.  The rules (`wp_bind`, `wp_mono`, `wp_each`, …) follow the program's text.

`Prog.Open` is a run in which others act between any two calls: a state of its
own goes with the program, and the shared state each call finds is arbitrary.
Whatever `wp` says holds along such a run (`Open.wp`).

Nothing here depends on what the operations are.
-/

import NightBridge.Effect.Prog
import Mathlib.Data.List.Infix

namespace NightBridge.Effect

structure Event (Op : Type) (Resp : Op → Type) where
  op : Op
  resp : Resp op

/-- The answered calls of a program, the first one first. -/
abbrev History (Op : Type) (Resp : Op → Type) := List (Event Op Resp)

namespace Prog

variable {Op : Type} {Resp : Op → Type} {ε ε' α β σ τ : Type}

/-- Every call of the program satisfies `G` and every result satisfies `Q`. -/
def wp (G : History Op Resp → Op → Prop) (Q : History Op Resp → α → Prop) :
    Prog Op Resp ε α → History Op Resp → Prop
  | ret a, hist => Q hist a
  | fail _, _ => True
  | call o k, hist => G hist o ∧ ∀ r, (k r).wp G Q (hist ++ [⟨o, r⟩])

variable {G G' : History Op Resp → Op → Prop} {Q Q' : History Op Resp → α → Prop}
  {hist : History Op Resp}

@[simp] theorem wp_ret {a : α} : (ret a : Prog Op Resp ε α).wp G Q hist ↔ Q hist a := Iff.rfl

@[simp] theorem wp_pure {a : α} : (pure a : Prog Op Resp ε α).wp G Q hist ↔ Q hist a := Iff.rfl

@[simp] theorem wp_fail {e : ε} : (fail e : Prog Op Resp ε α).wp G Q hist ↔ True := Iff.rfl

@[simp] theorem wp_call {o : Op} {k : Resp o → Prog Op Resp ε α} :
    (call o k).wp G Q hist ↔ G hist o ∧ ∀ r, (k r).wp G Q (hist ++ [⟨o, r⟩]) := Iff.rfl

theorem wp_ofExcept {x : Except ε α} :
    (ofExcept x : Prog Op Resp ε α).wp G Q hist ↔ ∀ a, x = .ok a → Q hist a := by
  cases x with
  | error e => simp [ofExcept]
  | ok a => simp [ofExcept]

theorem wp_ofExcept_mapError {x : Except ε' α} {f : ε' → ε} :
    (ofExcept (x.mapError f) : Prog Op Resp ε α).wp G Q hist ↔ ∀ a, x = .ok a → Q hist a := by
  cases x with
  | error e => simp [ofExcept, Except.mapError]
  | ok a => simp [ofExcept, Except.mapError]

theorem wp_bind {p : Prog Op Resp ε α} {f : α → Prog Op Resp ε β} {Q : History Op Resp → β → Prop} :
    (p >>= f).wp G Q hist ↔ p.wp G (fun h a => (f a).wp G Q h) hist := by
  induction p generalizing hist with
  | ret a => rfl
  | fail e => rfl
  | call o k ih => exact and_congr Iff.rfl (forall_congr' fun r => ih r)

theorem wp_mapError {f : ε → ε'} {p : Prog Op Resp ε α} :
    (p.mapError f).wp G Q hist ↔ p.wp G Q hist := by
  induction p generalizing hist with
  | ret a => rfl
  | fail e => rfl
  | call o k ih => exact and_congr Iff.rfl (forall_congr' fun r => ih r)

theorem wp_ite {c : Prop} [Decidable c] {p q : Prog Op Resp ε α} (hp : c → p.wp G Q hist)
    (hq : ¬ c → q.wp G Q hist) : (if c then p else q).wp G Q hist := by
  split_ifs with h
  · exact hp h
  · exact hq h

/-- **Consequence**, at histories that go on from where the program starts. -/
theorem wp_mono {p : Prog Op Resp ε α} (h : p.wp G Q hist)
    (hG : ∀ h o, hist <+: h → G h o → G' h o) (hQ : ∀ h a, hist <+: h → Q h a → Q' h a) :
    p.wp G' Q' hist := by
  induction p generalizing hist with
  | ret a => exact hQ hist a List.prefix_rfl h
  | fail e => trivial
  | call o k ih =>
    refine ⟨hG hist o List.prefix_rfl h.1, fun r => ih r (h.2 r) (fun h' o' hh => ?_) fun h' a hh => ?_⟩
    · exact hG h' o' ((List.prefix_append _ _).trans hh)
    · exact hQ h' a ((List.prefix_append _ _).trans hh)

theorem wp_bind_of {p : Prog Op Resp ε α} {f : α → Prog Op Resp ε β} {R : History Op Resp → β → Prop}
    (hp : p.wp G Q hist) (hf : ∀ h a, hist <+: h → Q h a → (f a).wp G R h) :
    (p >>= f).wp G R hist :=
  wp_bind.mpr (wp_mono hp (fun _ _ _ h => h) hf)

/-- **The loop rule.**  An invariant of the history that every round keeps. -/
theorem wp_each {body : α → Prog Op Resp ε Unit} {xs : List α} {I : History Op Resp → Prop}
    (hbody : ∀ h x, x ∈ xs → hist <+: h → I h → (body x).wp G (fun h' _ => I h') h) (h0 : I hist) :
    (each xs body).wp G (fun h _ => I h) hist := by
  -- the loop goes on from a later history, so the start is kept apart from it
  suffices H : ∀ ys, (∀ x ∈ ys, x ∈ xs) → ∀ h, hist <+: h → I h →
      (each ys body).wp G (fun h _ => I h) h from H xs (fun _ hx => hx) hist List.prefix_rfl h0
  intro ys
  induction ys with
  | nil => exact fun _ _ _ h1 => h1
  | cons y ys ih =>
    intro hys h hh h1
    rw [each_cons]
    refine wp_bind_of (hbody h y (hys y (by simp)) hh h1) fun h' _ hh' h2 => ?_
    exact ih (fun x hx => hys x (by simp [hx])) h' (hh.trans hh') h2

/-- A loop whose rounds each establish a lasting fact about their element. -/
theorem wp_each_forall {body : α → Prog Op Resp ε Unit} {P : α → History Op Resp → Prop}
    (hmono : ∀ x h h', h <+: h' → P x h → P x h') {xs : List α}
    (hbody : ∀ h x, x ∈ xs → hist <+: h → (body x).wp G (fun h' _ => P x h') h) :
    (each xs body).wp G (fun h _ => ∀ x ∈ xs, P x h) hist := by
  induction xs generalizing hist with
  | nil => simp
  | cons x xs ih =>
    rw [each_cons]
    refine wp_bind_of (hbody hist x (by simp) List.prefix_rfl) fun h _ hh hx => ?_
    have hrest := ih fun h' y hy (hh' : h <+: h') => hbody h' y (by simp [hy]) (hh.trans hh')
    refine wp_mono hrest (fun _ _ _ hg => hg) fun h' _ hh' hxs y hy => ?_
    rcases List.mem_cons.mp hy with rfl | hy
    · exact hmono y h h' hh' hx
    · exact hxs y hy

/-- **The invariant rule.**  What every call of the program keeps holds at its
calls and at its end. -/
theorem wp_inv {p : Prog Op Resp ε α} {I : History Op Resp → Prop} (h : p.wp G Q hist)
    (hcall : ∀ h o r, G h o → I h → I (h ++ [⟨o, r⟩])) (h0 : I hist) :
    p.wp (fun h o => G h o ∧ I h) (fun h a => Q h a ∧ I h) hist := by
  induction p generalizing hist with
  | ret a => exact ⟨h, h0⟩
  | fail e => trivial
  | call o k ih => exact ⟨⟨h.1, h0⟩, fun r => ih r (h.2 r) (hcall hist o r h.1 h0)⟩

/-- **The run rule.**  What every call of the program keeps of the state, a run
of it alone keeps, however it ends. -/
theorem run_inv_of_wp {handler : Handler Op Resp σ} {I : σ → Prop} {p : Prog Op Resp ε α}
    (h : p.wp G Q hist) (hcall : ∀ h o s, G h o → I s → I (handler o s).2) {s : σ} (h0 : I s) :
    I (p.run handler s).2 := by
  induction p generalizing hist s with
  | ret a => exact h0
  | fail e => exact h0
  | call o k ih => exact ih _ (h.2 _) (hcall hist o s h.1 h0)

/-- The answered calls of a program that runs alone. -/
def calls (h : Handler Op Resp σ) : Prog Op Resp ε α → σ → History Op Resp
  | call o k, s => ⟨o, (h o s).1⟩ :: (k (h o s).1).calls h (h o s).2
  | _, _ => []

theorem calls_bind_ok {h : Handler Op Resp σ} {p : Prog Op Resp ε α} {f : α → Prog Op Resp ε β}
    {s s' : σ} {a : α} (hp : p.run h s = (.ok a, s')) :
    (p >>= f).calls h s = p.calls h s ++ (f a).calls h s' := by
  induction p generalizing s with
  | ret b =>
    obtain ⟨hb, rfl⟩ := Prod.mk.inj hp
    obtain rfl := Except.ok.inj hb
    rfl
  | fail e => cases hp
  | call o k ih => exact congrArg (List.cons _) (ih _ hp)

/-- **The calls of a run** are calls `wp` speaks of. -/
theorem mem_calls_of_wp {h : Handler Op Resp σ} {p : Prog Op Resp ε α} (hwp : p.wp G Q hist) {s : σ}
    {e : Event Op Resp} (he : e ∈ p.calls h s) : ∃ hist', G hist' e.op := by
  induction p generalizing hist s with
  | ret a => cases he
  | fail err => cases he
  | call o k ih =>
    rcases List.mem_cons.mp he with rfl | he
    · exact ⟨hist, hwp.1⟩
    · exact ih _ (hwp.2 _) he

/-! ### Outcomes

`wp` asks nothing of a failure; of a program whose failures matter it is used on
`attempt`. -/

theorem wp_attempt {p : Prog Op Resp ε α} (h : p.wp G Q hist) :
    (p.attempt : Prog Op Resp ε' _).wp G (fun h r => ∀ a, r = .ok a → Q h a) hist := by
  induction p generalizing hist with
  | ret a => rintro _ ⟨⟩; exact h
  | fail e => rintro _ ⟨⟩
  | call o k ih => exact ⟨h.1, fun r => ih r (h.2 r)⟩

theorem wp_attempt_bind_of {p : Prog Op Resp ε α} {f : α → Prog Op Resp ε β}
    {Q : History Op Resp → Except ε α → Prop} {R : History Op Resp → Except ε β → Prop}
    (hp : (p.attempt : Prog Op Resp ε' _).wp G Q hist)
    (hok : ∀ h a, hist <+: h → Q h (.ok a) → ((f a).attempt : Prog Op Resp ε' _).wp G R h)
    (herror : ∀ h e, hist <+: h → Q h (.error e) → R h (.error e)) :
    ((p >>= f).attempt : Prog Op Resp ε' _).wp G R hist := by
  rw [attempt_bind]
  refine wp_bind_of hp fun h r hh hr => ?_
  cases r with
  | ok a => exact hok h a hh hr
  | error e => exact herror h e hh hr

/-! ### Runs among others -/

/-- A call as made: the shared state it found, and its answer. -/
abbrev Seen (Op : Type) (Resp : Op → Type) (σ : Type) := σ × Event Op Resp

/-- A run of `p` from the private state `t`, with any shared state at each call. -/
inductive Open (exec : (o : Op) → σ → τ → Resp o × σ × τ) (p : Prog Op Resp ε α) (t : τ) :
    List (Seen Op Resp σ) → Prog Op Resp ε α → τ → Prop
  | refl : Open exec p t [] p t
  | tail {seen : List (Seen Op Resp σ)} {o : Op} {k : Resp o → Prog Op Resp ε α} {t' : τ}
      (before : Open exec p t seen (call o k) t') (s : σ) :
      Open exec p t (seen ++ [(s, ⟨o, (exec o s t').1⟩)]) (k (exec o s t').1) (exec o s t').2.2

variable {exec : (o : Op) → σ → τ → Resp o × σ × τ} {p q : Prog Op Resp ε α} {t t' : τ}
  {seen : List (Seen Op Resp σ)}

/-- **`wp` holds along every run.** -/
theorem Open.wp (hrun : Open exec p t seen q t') (h : p.wp G Q hist) :
    q.wp G Q (hist ++ seen.map Prod.snd) := by
  induction hrun with
  | refl => simpa using h
  | @tail seen o k t' before s ih =>
    rw [List.map_append, ← List.append_assoc]
    exact ih.2 (exec o s t').1

/-- A property of one's own state that every call keeps, and of all answers seen. -/
theorem Open.inv {I : τ → Prop} {P : Seen Op Resp σ → Prop} (hrun : Open exec p t seen q t')
    (hstep : ∀ o s t, I t → I (exec o s t).2.2 ∧ P (s, ⟨o, (exec o s t).1⟩)) (h0 : I t) :
    I t' ∧ ∀ e ∈ seen, P e := by
  induction hrun with
  | refl => exact ⟨h0, by simp⟩
  | tail before s ih =>
    obtain ⟨hI, hP⟩ := ih
    obtain ⟨hI', hP'⟩ := hstep _ s _ hI
    refine ⟨hI', fun e he => ?_⟩
    rcases List.mem_append.mp he with he | he
    · exact hP e he
    · rwa [List.mem_singleton.mp he]

/-- Run with one shared state for every call, for at most `n` calls. -/
def drive (exec : (o : Op) → σ → τ → Resp o × σ × τ) (s : σ) :
    ℕ → Prog Op Resp ε α → τ → List (Seen Op Resp σ) × Prog Op Resp ε α × τ
  | n + 1, call o k, t =>
    let (seen, q, t') := drive exec s n (k (exec o s t).1) (exec o s t).2.2
    ((s, ⟨o, (exec o s t).1⟩) :: seen, q, t')
  | _, p, t => ([], p, t)

/-- How a program has stopped, if it has. -/
def outcome? : Prog Op Resp ε α → Option (Except ε α)
  | ret a => some (.ok a)
  | fail e => some (.error e)
  | call _ _ => none

def next? : Prog Op Resp ε α → Option Op
  | call o _ => some o
  | _ => none

theorem eq_call_of_next? {o : Op} (h : p.next? = some o) : ∃ k, p = call o k := by
  cases p with
  | call o' k =>
    obtain rfl := Option.some.inj h
    exact ⟨k, rfl⟩
  | ret => cases h
  | fail => cases h

theorem next?_eq_none {r : Except ε α} (h : p.outcome? = some r) : p.next? = none := by
  cases p with
  | call => cases h
  | ret => rfl
  | fail => rfl

theorem Open.head {o : Op} {k : Resp o → Prog Op Resp ε α} (s : σ)
    (h : Open exec (k (exec o s t).1) (exec o s t).2.2 seen q t') :
    Open exec (call o k) t ((s, ⟨o, (exec o s t).1⟩) :: seen) q t' := by
  induction h with
  | refl => exact Open.tail .refl s
  | tail _ s' ih => exact ih.tail s'

theorem Open.head_of_eq {o : Op} {k : Resp o → Prog Op Resp ε α} {s : σ} {r : Resp o} {t₁ : τ}
    (hr : (exec o s t).1 = r) (ht : (exec o s t).2.2 = t₁) (h : Open exec (k r) t₁ seen q t') :
    Open exec (call o k) t ((s, ⟨o, r⟩) :: seen) q t' := by
  subst hr ht
  exact Open.head s h

theorem open_drive (s : σ) (n : ℕ) (p : Prog Op Resp ε α) (t : τ) :
    Open exec p t (drive exec s n p t).1 (drive exec s n p t).2.1 (drive exec s n p t).2.2 := by
  induction n generalizing p t with
  | zero => exact .refl
  | succ n ih =>
    cases p with
    | ret => exact .refl
    | fail => exact .refl
    | call o k => exact Open.head s (ih _ _)

theorem eq_ret_of_outcome? {a : α} (h : p.outcome? = some (.ok a)) : p = ret a := by
  cases p with
  | ret b => rw [Except.ok.inj (Option.some.inj h)]
  | fail | call => cases h

theorem eq_ret_of_next? {p : Prog Op Resp Empty α} (h : p.next? = none) : ∃ a, p = ret a := by
  cases p with
  | ret a => exact ⟨a, rfl⟩
  | fail e => exact e.elim
  | call o k => cases h

section drive

-- the run has a name, since comparing two calls of `drive` would evaluate them
variable {s : σ} {n : ℕ} {run : List (Seen Op Resp σ) × Prog Op Resp ε α × τ}
    (hdrive : run = drive exec s n p t)

include hdrive

theorem open_drive_call {o : Op} (h : run.2.1.next? = some o) :
    ∃ k, Open exec p t run.1 (call o k) run.2.2 := by
  subst hdrive
  obtain ⟨k, hk⟩ := eq_call_of_next? h
  exact ⟨k, hk ▸ open_drive s n p t⟩

theorem open_drive_bind {f : Op → Option β} {b : β} (h : run.2.1.next?.bind f = some b) :
    ∃ o k, f o = some b ∧ Open exec p t run.1 (call o k) run.2.2 := by
  obtain ⟨o, ho, hf⟩ := Option.bind_eq_some_iff.mp h
  obtain ⟨k, hrun⟩ := open_drive_call hdrive ho
  exact ⟨o, k, hf, hrun⟩

end drive

end Prog
end NightBridge.Effect
