/-
# Two programs on one connection

Two programs talk over a connection with a stream in each direction.  What one
sends has arrived at the other at once and in order; an operation that needs
more than has arrived waits, unless the other program has stopped.  `Link` says
this of a family of operations: `feed` adds to what has arrived, and an
operation that need not wait does the same whether or not more arrives first.

So the steps of the two programs commute (`turn_comm`).  If one schedule brings
a session to its end, every schedule does (`Path.ends`), and what holds of one
program along that schedule holds of it along every other (`Path.always`).  A
proof about a session chooses its schedule and follows one program at a time:
`Runs` is a stretch of one program, and `Runs.left` and `Runs.right` make it a
stretch of the session.

Nothing here depends on what the operations are.
-/

import NightBridge.Effect.Trace
import Mathlib.Logic.Relation

namespace NightBridge.Effect

/-- One end of a connection on which `β`s travel. -/
structure Link (Op : Type) (Resp : Op → Type) (σ β : Type) where
  exec : Prog.Handler Op Resp σ
  /-- More has to arrive before the operation can be answered. -/
  waits : Op → σ → Bool
  /-- What the operation sends. -/
  sends : Op → List β
  /-- More has arrived. -/
  feed : List β → σ → σ
  feed_nil : ∀ s, feed [] s = s
  feed_append : ∀ bs bs' s, feed (bs ++ bs') s = feed bs' (feed bs s)
  waits_feed : ∀ o bs s, waits o s = false → waits o (feed bs s) = false
  exec_feed : ∀ o bs s, waits o s = false →
    exec o (feed bs s) = ((exec o s).1, feed bs (exec o s).2)

structure Side (Op : Type) (Resp : Op → Type) (ε α σ : Type) where
  rest : Prog Op Resp ε α
  state : σ

/-- Two programs on one connection. -/
structure Session (Op : Type) (Resp : Op → Type) (ε α σ : Type) where
  left : Side Op Resp ε α σ
  right : Side Op Resp ε α σ

section session

variable {Op : Type} {Resp : Op → Type} {ε ε' α γ δ σ β : Type} (L : Link Op Resp σ β)

/-- More has arrived at one side. -/
def Side.feed (bs : List β) (a : Side Op Resp ε α σ) : Side Op Resp ε α σ :=
  { a with state := L.feed bs a.state }

/-- `a` makes its next call, if it need not wait or `b` has stopped. -/
def Side.turn (a b : Side Op Resp ε α σ) : Option (Side Op Resp ε α σ × Side Op Resp ε α σ) :=
  match a.rest with
  | .call o k =>
    if L.waits o a.state = false ∨ b.rest.next? = none then
      some (⟨k (L.exec o a.state).1, (L.exec o a.state).2⟩, b.feed L (L.sends o))
    else none
  | _ => none

/-- The left side makes its next call, or the right one. -/
def Session.turn (s : Session Op Resp ε α σ) : Bool → Option (Session Op Resp ε α σ)
  | true => (s.left.turn L s.right).map fun (a, b) => ⟨a, b⟩
  | false => (s.right.turn L s.left).map fun (b, a) => ⟨a, b⟩

/-- One call of either side. -/
def Session.Step (s s' : Session Op Resp ε α σ) : Prop := ∃ who, s.turn L who = some s'

/-- Some schedule leads from one session to the other. -/
abbrev Session.Reaches : Session Op Resp ε α σ → Session Op Resp ε α σ → Prop :=
  Relation.ReflTransGen (Session.Step L)

/-- `P` holds of the right side whatever the schedule. -/
def Session.Always (P : σ → Prop) (s : Session Op Resp ε α σ) : Prop :=
  ∀ s', Session.Reaches L s s' → P s'.right.state

/-- **Every schedule leads from `s` to `f`** and ends there: `f` can make no
step, and whatever step is made before, the rest leads to `f`. -/
inductive Session.Ends : Session Op Resp ε α σ → Session Op Resp ε α σ → Prop
  | stop {f : Session Op Resp ε α σ} (h : ∀ s, ¬ f.Step L s) : Ends f f
  | step {s s' f : Session Op Resp ε α σ} (some : s.Step L s') (all : ∀ s', s.Step L s' → Ends s' f) :
      Ends s f

/-- Follow a schedule. -/
def Session.play : List Bool → Session Op Resp ε α σ → Option (Session Op Resp ε α σ)
  | [], s => some s
  | who :: rest, s => (s.turn L who).bind (play rest)

variable {L}

theorem Side.turn_eq_some {a b : Side Op Resp ε α σ} {r : Side Op Resp ε α σ × Side Op Resp ε α σ}
    (h : a.turn L b = some r) :
    ∃ o k, a.rest = .call o k ∧ (L.waits o a.state = false ∨ b.rest.next? = none) ∧
      r = (⟨k (L.exec o a.state).1, (L.exec o a.state).2⟩, b.feed L (L.sends o)) := by
  unfold turn at h
  split at h
  · rename_i o k hrest
    split_ifs at h with hwait
    exact ⟨o, k, hrest, hwait, (Option.some.inj h).symm⟩
  · cases h

theorem Side.turn_call {o : Op} {k : Resp o → Prog Op Resp ε α} {s : σ} (b : Side Op Resp ε α σ)
    (h : L.waits o s = false) : (⟨.call o k, s⟩ : Side Op Resp ε α σ).turn L b =
      some (⟨k (L.exec o s).1, (L.exec o s).2⟩, b.feed L (L.sends o)) := if_pos (.inl h)

/-- **The two sides do not disturb each other**: when each can make a call, the
order makes no difference. -/
theorem Side.turn_comm {a b a₁ b₁ a₂ b₂ : Side Op Resp ε α σ} (hl : a.turn L b = some (a₁, b₁))
    (hr : b.turn L a = some (b₂, a₂)) :
    ∃ bs bs', b₁.turn L a₁ = some (b₂.feed L bs, a₁.feed L bs') ∧
      a₂.turn L b₂ = some (a₁.feed L bs', b₂.feed L bs) := by
  obtain ⟨pa, sa⟩ := a
  obtain ⟨pb, sb⟩ := b
  obtain ⟨o, k, hpa, hwa, h₁⟩ := turn_eq_some hl
  obtain ⟨o', k', hpb, hwb, h₂⟩ := turn_eq_some hr
  dsimp only at hpa hpb
  subst hpa hpb
  obtain ⟨rfl, rfl⟩ := Prod.mk.inj h₁
  obtain ⟨rfl, rfl⟩ := Prod.mk.inj h₂
  have hwa' : L.waits o sa = false := hwa.resolve_right nofun
  have hwb' : L.waits o' sb = false := hwb.resolve_right nofun
  refine ⟨L.sends o, L.sends o', ?_, ?_⟩
  · refine (turn_call _ (L.waits_feed o' _ _ hwb')).trans ?_
    rw [L.exec_feed o' _ _ hwb']
    rfl
  · refine (turn_call _ (L.waits_feed o _ _ hwa')).trans ?_
    rw [L.exec_feed o _ _ hwa']
    rfl

/-- **Steps commute.**  Two steps from one session are the same, or lead on to
one session; the right side of the second one is then as it was or as it will
be, but for what arrives. -/
theorem Session.Step.diamond {s s₁ s₂ : Session Op Resp ε α σ} (h₁ : s.Step L s₁) (h₂ : s.Step L s₂) :
    s₁ = s₂ ∨ ∃ s₃, s₁.Step L s₃ ∧ s₂.Step L s₃ ∧ ∃ bs,
      s₂.right.state = L.feed bs s.right.state ∨ s₃.right.state = L.feed bs s₂.right.state := by
  obtain ⟨who₁, h₁⟩ := h₁
  obtain ⟨who₂, h₂⟩ := h₂
  by_cases hsame : who₁ = who₂
  · subst hsame
    rw [h₁] at h₂
    exact .inl (Option.some.inj h₂)
  · right
    -- the left side's call and the right side's, in either order
    have key : ∀ {s₁ s₂}, s.turn L true = some s₁ → s.turn L false = some s₂ → ∃ s₃ bs bs',
        s₁.turn L false = some s₃ ∧ s₂.turn L true = some s₃ ∧
          s₁.right.state = L.feed bs s.right.state ∧ s₃.right.state = L.feed bs' s₂.right.state := by
      intro s₁ s₂ hs₁ hs₂
      obtain ⟨⟨a₁, b₁⟩, hl, rfl⟩ := Option.map_eq_some_iff.mp hs₁
      obtain ⟨⟨b₂, a₂⟩, hr, rfl⟩ := Option.map_eq_some_iff.mp hs₂
      obtain ⟨bs, bs', hlr, hrl⟩ := Side.turn_comm hl hr
      obtain ⟨o, k, -, -, hfed⟩ := Side.turn_eq_some hl
      obtain ⟨-, rfl⟩ := Prod.mk.inj hfed
      exact ⟨⟨a₁.feed L bs', b₂.feed L bs⟩, L.sends o, bs, by rw [turn, hlr]; rfl, by rw [turn, hrl]; rfl,
        rfl, rfl⟩
    cases who₁ with
    | true =>
      cases who₂ with
      | true => exact absurd rfl hsame
      | false =>
        obtain ⟨s₃, -, bs, h13, h23, -, hfed⟩ := key h₁ h₂
        exact ⟨s₃, ⟨_, h13⟩, ⟨_, h23⟩, bs, .inr hfed⟩
    | false =>
      cases who₂ with
      | true =>
        obtain ⟨s₃, bs, -, h23, h13, hfed, -⟩ := key h₂ h₁
        exact ⟨s₃, ⟨_, h13⟩, ⟨_, h23⟩, bs, .inl hfed⟩
      | false => exact absurd rfl hsame

theorem Session.Ends.head {s s₁ f : Session Op Resp ε α σ} (hstep : s.Step L s₁) (h : s₁.Ends L f) :
    s.Ends L f := by
  induction h generalizing s with
  | stop hf =>
    refine .step hstep fun s₂ h₂ => ?_
    rcases hstep.diamond h₂ with rfl | ⟨s₃, h13, -⟩
    · exact .stop hf
    · exact absurd h13 (hf s₃)
  | @step s₁ s' f hsome hall ih =>
    refine .step hstep fun s₂ h₂ => ?_
    rcases hstep.diamond h₂ with rfl | ⟨s₃, h13, h23, -⟩
    · exact .step hsome hall
    · exact ih s₃ h13 h23

/-! ### Schedules -/

/-- A schedule from one session to the other, with `P` of the right side at
every moment. -/
inductive Path (L : Link Op Resp σ β) (P : σ → Prop) :
    Session Op Resp ε α σ → Session Op Resp ε α σ → Prop
  | refl {s : Session Op Resp ε α σ} (h : P s.right.state) : Path L P s s
  | head {s s' f : Session Op Resp ε α σ} (h : P s.right.state) (step : s.Step L s')
      (rest : Path L P s' f) : Path L P s f

section path

variable {P : σ → Prop} {s s' f : Session Op Resp ε α σ}

theorem Path.trans (h : Path L P s s') (h' : Path L P s' f) : Path L P s f := by
  induction h with
  | refl => exact h'
  | head hP step _ ih => exact .head hP step (ih h')

theorem Path.reaches (h : Path L P s f) : s.Reaches L f := by
  induction h with
  | refl => exact .refl
  | head _ step _ ih => exact .head step ih

/-- **If one schedule ends, every schedule ends there.** -/
theorem Path.ends (h : Path L P s f) (hf : ∀ s', ¬ f.Step L s') : s.Ends L f := by
  induction h with
  | refl => exact .stop hf
  | head _ step _ ih => exact .head step (ih hf)

theorem Path.mono {Q : σ → Prop} (h : Path L P s f) (hPQ : ∀ s, P s → Q s) : Path L Q s f := by
  induction h with
  | refl h => exact .refl (hPQ _ h)
  | head h step _ ih => exact .head (hPQ _ h) step ih

variable (hP : ∀ bs s, P (L.feed bs s) ↔ P s)

include hP

/-- **What a schedule makes sure of, every schedule does**: if `P` holds of the
right side now, and always after some step, then it always holds. -/
theorem Session.Always.head (hstep : s.Step L s') (hs : P s.right.state) (h : s'.Always L P) :
    s.Always L P := by
  intro s'' hreach
  induction hreach using Relation.ReflTransGen.head_induction_on generalizing s' with
  | refl => exact hs
  | @head s s₂ h₂ hrest ih =>
    rcases hstep.diamond h₂ with rfl | ⟨s₃, h13, h23, bs, hfed | hfed⟩
    · exact h _ hrest
    · exact ih h23 (by rw [hfed, hP]; exact hs) fun s' hs' => h s' (.head h13 hs')
    · refine ih h23 ((hP bs _).mp ?_) fun s' hs' => h s' (.head h13 hs')
      rw [← hfed]
      exact h s₃ (.single h13)

/-- **What holds of a side along one schedule, and always after it, holds of it
always.** -/
theorem Path.always (h : Path L P s f) (hf : f.Always L P) : s.Always L P := by
  induction h with
  | refl => exact hf
  | head hs step _ ih => exact .head hP step hs (ih hf)

end path

theorem path_play {s f : Session Op Resp ε α σ} {schedule : List Bool}
    (h : s.play L schedule = some f) : Path L (fun _ => True) s f := by
  induction schedule generalizing s with
  | nil =>
    obtain rfl := Option.some.inj h
    exact .refl trivial
  | cons who rest ih =>
    obtain ⟨s', hs', h⟩ := Option.bind_eq_some_iff.mp h
    exact .head trivial ⟨who, hs'⟩ (ih h)

theorem not_step_of_stopped {f : Session Op Resp ε α σ} (hl : f.left.rest.next? = none)
    (hr : f.right.rest.next? = none) (s : Session Op Resp ε α σ) : ¬ f.Step L s := by
  have stuck : ∀ {a b : Side Op Resp ε α σ}, a.rest.next? = none → a.turn L b = none := by
    intro a b ha
    unfold Side.turn
    split
    · rename_i hcall
      rw [hcall] at ha
      cases ha
    · rfl
  rintro ⟨who, h⟩
  cases who with
  | true => rw [Session.turn, stuck hl] at h; cases h
  | false => rw [Session.turn, stuck hr] at h; cases h

/-- How the two programs have stopped, if they have. -/
def Session.outcomes? (s : Session Op Resp ε α σ) : Option (Except ε α × Except ε α) :=
  s.left.rest.outcome?.bind fun a => s.right.rest.outcome?.map (a, ·)

/-- A schedule at the end of which both programs have stopped. -/
theorem ends_play {s : Session Op Resp ε α σ} (schedule : List Bool) {a b : Except ε α}
    (h : (s.play L schedule).bind Session.outcomes? = some (a, b)) :
    ∃ f, s.Ends L f ∧ f.left.rest.outcome? = some a ∧ f.right.rest.outcome? = some b := by
  obtain ⟨f, hplay, hf⟩ := Option.bind_eq_some_iff.mp h
  obtain ⟨a', ha, hmap⟩ := Option.bind_eq_some_iff.mp hf
  obtain ⟨b', hb, hab⟩ := Option.map_eq_some_iff.mp hmap
  obtain ⟨rfl, rfl⟩ := Prod.mk.inj hab
  exact ⟨f, (path_play hplay).ends (not_step_of_stopped (Prog.next?_eq_none ha)
    (Prog.next?_eq_none hb)), ha, hb⟩

/-! ### One program at a time -/

/-- The program returns `a` from `s` without waiting, having sent `bs`; `I`
holds after each of its calls. -/
inductive Runs (L : Link Op Resp σ β) (I : σ → Prop) :
    Prog Op Resp ε γ → σ → List β → γ → σ → Prop
  | ret {a : γ} {s : σ} : Runs L I (.ret a) s [] a s
  | call {o : Op} {k : Resp o → Prog Op Resp ε γ} {s s' : σ} {bs : List β} {a : γ}
      (ready : L.waits o s = false) (inv : I (L.exec o s).2)
      (rest : Runs L I (k (L.exec o s).1) (L.exec o s).2 bs a s') :
      Runs L I (.call o k) s (L.sends o ++ bs) a s'

section runs

variable {I : σ → Prop} {s s' s'' : σ} {bs bs' : List β}

theorem Runs.one {o : Op} {k : Resp o → Prog Op Resp ε γ} {r : Resp o} {a : γ}
    (ready : L.waits o s = false) (hexec : L.exec o s = (r, s')) (inv : I s') (hk : k r = .ret a) :
    Runs L I (.call o k) s (L.sends o) a s' := by
  have hrest : Runs L I (k (L.exec o s).1) (L.exec o s).2 [] a s' := by
    rw [hexec, hk]
    exact .ret
  have h := Runs.call ready (by rw [hexec]; exact inv) hrest
  rwa [List.append_nil] at h

theorem Runs.bind {p : Prog Op Resp ε γ} {f : γ → Prog Op Resp ε δ} {a : γ} {b : δ}
    (hp : Runs L I p s bs a s') (hf : Runs L I (f a) s' bs' b s'') :
    Runs L I (p >>= f) s (bs ++ bs') b s'' := by
  induction hp with
  | ret => exact hf
  | call ready inv _ ih =>
    rw [List.append_assoc]
    exact .call ready inv (ih hf)

theorem Runs.then {p : Prog Op Resp ε γ} {f : γ → Prog Op Resp ε δ} {a : γ} {b : δ}
    (hp : Runs L I p s [] a s') (hf : Runs L I (f a) s' bs b s'') : Runs L I (p >>= f) s bs b s'' :=
  hp.bind hf

theorem Runs.mapError {p : Prog Op Resp ε γ} {a : γ} (f : ε → ε') (h : Runs L I p s bs a s') :
    Runs L I (p.mapError f) s bs a s' := by
  induction h with
  | ret => exact .ret
  | call ready inv _ ih => exact .call ready inv ih

theorem Runs.ofExcept {x : Except ε γ} {a : γ} (h : x = .ok a) :
    Runs L I (.ofExcept x : Prog Op Resp ε γ) s [] a s := by
  rw [h]
  exact .ret

/-- **The loop rule.**  If each round runs, from a state with `J` before its
element to one with `J` after it, then so does the loop. -/
theorem Runs.each {ι : Type} {body : ι → Prog Op Resp ε Unit} {xs : List ι} {sent : ι → List β}
    (J : List ι → σ → Prop)
    (hbody : ∀ done x rest s, xs = done ++ x :: rest → J done s →
      ∃ s', Runs L I (body x) s (sent x) () s' ∧ J (done ++ [x]) s')
    (h0 : J [] s) : ∃ s', Runs L I (Prog.each xs body) s (xs.flatMap sent) () s' ∧ J xs s' := by
  -- the induction is on what is left, with what is done as an accumulator
  suffices H : ∀ rest done s, xs = done ++ rest → J done s →
      ∃ s', Runs L I (Prog.each rest body) s (rest.flatMap sent) () s' ∧ J xs s' from H xs [] s rfl h0
  intro rest
  induction rest with
  | nil => exact fun done s hxs h1 => ⟨s, .ret, by simpa [hxs] using h1⟩
  | cons x rest ih =>
    intro done s hxs h1
    obtain ⟨s₁, hx, h2⟩ := hbody done x rest s hxs h1
    obtain ⟨s₂, hrest, h3⟩ := ih (done ++ [x]) s₁ (by simp [hxs]) h2
    exact ⟨s₂, hx.bind hrest, h3⟩

/-- **A stretch of the left side** is a stretch of the session. -/
theorem Runs.left {P : σ → Prop} (hP : ∀ bs s, P (L.feed bs s) ↔ P s) {p : Prog Op Resp ε γ}
    {f : γ → Prog Op Resp ε α} {a : γ} {b : Side Op Resp ε α σ} (h : Runs L I p s bs a s')
    (hb : P b.state) : Path L P ⟨⟨p >>= f, s⟩, b⟩ ⟨⟨f a, s'⟩, b.feed L bs⟩ := by
  induction h generalizing b with
  | ret =>
    rw [Side.feed, L.feed_nil]
    exact .refl hb
  | @call o k s s' bs a ready _ _ ih =>
    rw [show b.feed L (L.sends o ++ bs) = (b.feed L (L.sends o)).feed L bs by
      rw [Side.feed, L.feed_append]; rfl]
    exact .head hb ⟨true, by rw [Session.turn, Prog.call_bind, Side.turn_call _ ready]; rfl⟩
      (ih ((hP _ _).mpr hb))

/-- **A stretch of the right side** is a stretch of the session. -/
theorem Runs.right {p : Prog Op Resp ε γ} {f : γ → Prog Op Resp ε α} {a : γ}
    {b : Side Op Resp ε α σ} (h : Runs L I p s bs a s') (hs : I s) :
    Path L I ⟨b, ⟨p >>= f, s⟩⟩ ⟨b.feed L bs, ⟨f a, s'⟩⟩ := by
  induction h generalizing b with
  | ret =>
    rw [Side.feed, L.feed_nil]
    exact .refl hs
  | @call o k s s' bs a ready inv _ ih =>
    rw [show b.feed L (L.sends o ++ bs) = (b.feed L (L.sends o)).feed L bs by
      rw [Side.feed, L.feed_append]; rfl]
    exact .head hs ⟨false, by rw [Session.turn, Prog.call_bind, Side.turn_call _ ready]; rfl⟩
      (ih inv)

theorem Runs.left_quiet {P : σ → Prop} (hP : ∀ bs s, P (L.feed bs s) ↔ P s) {p : Prog Op Resp ε γ}
    {f : γ → Prog Op Resp ε α} {a : γ} {b : Side Op Resp ε α σ} (h : Runs L I p s [] a s')
    (hb : P b.state) : Path L P ⟨⟨p >>= f, s⟩, b⟩ ⟨⟨f a, s'⟩, b⟩ := by
  have hpath := h.left (f := f) hP hb
  rwa [Side.feed, L.feed_nil] at hpath

theorem Runs.right_quiet {p : Prog Op Resp ε γ} {f : γ → Prog Op Resp ε α} {a : γ}
    {b : Side Op Resp ε α σ} (h : Runs L I p s [] a s') (hs : I s) :
    Path L I ⟨b, ⟨p >>= f, s⟩⟩ ⟨b, ⟨f a, s'⟩⟩ := by
  have hpath := h.right (f := f) (b := b) hs
  rwa [Side.feed, L.feed_nil] at hpath

end runs

end session

end NightBridge.Effect
