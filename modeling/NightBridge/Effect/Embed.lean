/-
# Programs of two components on one state

A component has its own operations.  An `Embedding` renames them into a larger
family, and reads back from a history the calls that came from the component.
What `Prog.wp` says of a program holds of its renaming, about the calls that are
read back (`wp_embed`).

`Embedding.left` and `Embedding.right` put two families side by side.

Nothing here depends on what the operations are.
-/

import NightBridge.Effect.Trace

namespace NightBridge.Effect

/-- One family of operations inside another. -/
structure Embedding (Op : Type) (Resp : Op → Type) (Op' : Type) (Resp' : Op' → Type) where
  op : Op → Op'
  answer : (o : Op) → Resp' (op o) → Resp o
  /-- The call of the component that a call is. -/
  event : Event Op' Resp' → Option (Event Op Resp)
  event_op : ∀ o r, event ⟨op o, r⟩ = some ⟨o, answer o r⟩

section embed

variable {Op Op' : Type} {Resp : Op → Type} {Resp' : Op' → Type} {ε α : Type}
  (e : Embedding Op Resp Op' Resp')

/-- The calls of the component. -/
def Embedding.calls (hist : History Op' Resp') : History Op Resp := hist.filterMap e.event

@[simp] theorem Embedding.calls_nil : e.calls [] = [] := rfl

theorem Embedding.calls_concat (hist : History Op' Resp') (o : Op) (r : Resp' (e.op o)) :
    e.calls (hist ++ [⟨e.op o, r⟩]) = e.calls hist ++ [⟨o, e.answer o r⟩] := by
  simp [Embedding.calls, e.event_op]

/-- The program with its operations renamed. -/
def Prog.embed : Prog Op Resp ε α → Prog Op' Resp' ε α
  | .ret a => .ret a
  | .fail err => .fail err
  | .call o k => .call (e.op o) fun r => (k (e.answer o r)).embed

variable {e}

/-- **What holds of a program holds of its renaming.** -/
theorem Prog.wp_embed {G : History Op Resp → Op → Prop} {Q : History Op Resp → α → Prop}
    {p : Prog Op Resp ε α} {hist : History Op' Resp'} (h : p.wp G Q (e.calls hist)) :
    (p.embed e).wp (fun h o' => ∃ o, o' = e.op o ∧ G (e.calls h) o)
      (fun h a => Q (e.calls h) a) hist := by
  induction p generalizing hist with
  | ret a => exact h
  | fail err => trivial
  | call o k ih =>
    refine ⟨⟨o, rfl, h.1⟩, fun r => ih (e.answer o r) ?_⟩
    rw [e.calls_concat]
    exact h.2 (e.answer o r)

end embed

section sum

variable {Op₁ Op₂ : Type} {Resp₁ : Op₁ → Type} {Resp₂ : Op₂ → Type}

/-- What an operation of either family answers. -/
@[reducible] def SumResp (Resp₁ : Op₁ → Type) (Resp₂ : Op₂ → Type) : Op₁ ⊕ Op₂ → Type
  | .inl o => Resp₁ o
  | .inr o => Resp₂ o

def Embedding.left : Embedding Op₁ Resp₁ (Op₁ ⊕ Op₂) (SumResp Resp₁ Resp₂) where
  op := .inl
  answer _ r := r
  event
    | ⟨.inl o, r⟩ => some ⟨o, r⟩
    | ⟨.inr _, _⟩ => none
  event_op _ _ := rfl

def Embedding.right : Embedding Op₂ Resp₂ (Op₁ ⊕ Op₂) (SumResp Resp₁ Resp₂) where
  op := .inr
  answer _ r := r
  event
    | ⟨.inl _, _⟩ => none
    | ⟨.inr o, r⟩ => some ⟨o, r⟩
  event_op _ _ := rfl

variable {hist : History (Op₁ ⊕ Op₂) (SumResp Resp₁ Resp₂)}

theorem Embedding.left_calls_inl (o : Op₁) (r : Resp₁ o) :
    left.calls (hist ++ [⟨.inl o, r⟩]) = left.calls hist ++ [⟨o, r⟩] :=
  left.calls_concat hist o r

theorem Embedding.left_calls_inr (o : Op₂) (r : Resp₂ o) :
    left.calls (hist ++ [⟨.inr o, r⟩]) = left.calls hist := by
  simp [Embedding.calls, Embedding.left]

theorem Embedding.right_calls_inl (o : Op₁) (r : Resp₁ o) :
    right.calls (hist ++ [⟨.inl o, r⟩]) = right.calls hist := by
  simp [Embedding.calls, Embedding.right]

theorem Embedding.right_calls_inr (o : Op₂) (r : Resp₂ o) :
    right.calls (hist ++ [⟨.inr o, r⟩]) = right.calls hist ++ [⟨o, r⟩] :=
  right.calls_concat hist o r

end sum

end NightBridge.Effect
