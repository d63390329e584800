/-
# Where a pattern first occurs

`indexOf?` is `indexOf` of a string: the first place at which a pattern occurs.
What follows does not change where it occurs (`indexOf?_append`), so an
occurrence can be acted on before the rest has been read.  For an empty line,
which is two breaks in a row, the first occurrence is found line by line
(`indexOf?_line`, `indexOf?_lastLine`, `indexOf?_twoLines`).
-/

import Mathlib.Data.List.Infix
import Mathlib.Tactic.Common

namespace NightBridge.Data

variable {α : Type} [DecidableEq α]

/-- The first place at which the pattern occurs. -/
def indexOf? (pattern : List α) : List α → Option ℕ
  | [] => if pattern = [] then some 0 else none
  | x :: l => if pattern.isPrefixOf (x :: l) then some 0 else (indexOf? pattern l).map (· + 1)

theorem indexOf?_cons (pattern : List α) (x : α) (l : List α) : indexOf? pattern (x :: l) =
    if pattern <+: x :: l then some 0 else (indexOf? pattern l).map (· + 1) := by
  rw [indexOf?]
  simp only [List.isPrefixOf_iff_prefix]

theorem add_length_le_of_indexOf? {pattern l : List α} {i : ℕ} (h : indexOf? pattern l = some i) :
    i + pattern.length ≤ l.length := by
  induction l generalizing i with
  | nil =>
    rw [indexOf?] at h
    split_ifs at h with hnil
    obtain rfl := Option.some.inj h
    simp [hnil]
  | cons x l ih =>
    rw [indexOf?_cons] at h
    split_ifs at h with hpre
    · obtain rfl := Option.some.inj h
      simpa using hpre.length_le
    · obtain ⟨j, hj, rfl⟩ := Option.map_eq_some_iff.mp h
      have := ih hj
      rw [List.length_cons]
      omega

/-- **What follows does not matter.** -/
theorem indexOf?_append {pattern l : List α} {i : ℕ} (h : indexOf? pattern l = some i) (m : List α) :
    indexOf? pattern (l ++ m) = some i := by
  induction l generalizing i with
  | nil =>
    rw [indexOf?] at h
    split_ifs at h with hnil
    obtain rfl := Option.some.inj h
    cases m with
    | nil => rw [List.append_nil, indexOf?, if_pos hnil]
    | cons y m => rw [List.nil_append, indexOf?_cons, if_pos (hnil ▸ List.nil_prefix)]
  | cons x l ih =>
    rw [indexOf?_cons] at h
    rw [List.cons_append, indexOf?_cons]
    split_ifs at h with hpre
    · have hlong : pattern <+: x :: (l ++ m) := hpre.trans (List.prefix_append (x :: l) m)
      rw [if_pos hlong, ← h]
    · obtain ⟨j, hj, rfl⟩ := Option.map_eq_some_iff.mp h
      -- the pattern fits into what is there, so it does not begin here
      have hfit := add_length_le_of_indexOf? hj
      have hnot : ¬ pattern <+: x :: (l ++ m) := fun hlong => by
        refine hpre (List.prefix_of_prefix_length_le hlong (List.prefix_append (x :: l) m) ?_)
        rw [List.length_cons]
        omega
      rw [if_neg hnot, ih hj]
      rfl

/-! ### The first empty line -/

section lines

variable {newline : α}

theorem indexOf?_line {line : List α} (hline : newline ∉ line) {c : α} (hc : c ≠ newline) (rest : List α) :
    indexOf? [newline, newline] (line ++ newline :: c :: rest) =
      (indexOf? [newline, newline] (c :: rest)).map (· + (line.length + 1)) := by
  induction line with
  | nil =>
    have hnot : ¬ [newline, newline] <+: newline :: c :: rest := by
      simp [List.cons_prefix_cons, hc.symm]
    rw [List.nil_append, indexOf?_cons, if_neg hnot]
    rfl
  | cons x line ih =>
    obtain ⟨hx, hline⟩ := not_or.mp (mt List.mem_cons.mpr hline)
    have hnot : ¬ [newline, newline] <+: x :: (line ++ newline :: c :: rest) := by
      simp [List.cons_prefix_cons, hx]
    rw [List.cons_append, indexOf?_cons, if_neg hnot, ih hline, Option.map_map]
    congr 1

theorem indexOf?_lastLine {line : List α} (hline : newline ∉ line) (rest : List α) :
    indexOf? [newline, newline] (line ++ newline :: newline :: rest) = some line.length := by
  induction line with
  | nil =>
    rw [List.nil_append, indexOf?_cons, if_pos (by simp [List.cons_prefix_cons])]
    rfl
  | cons x line ih =>
    obtain ⟨hx, hline⟩ := not_or.mp (mt List.mem_cons.mpr hline)
    have hnot : ¬ [newline, newline] <+: x :: (line ++ newline :: newline :: rest) := by
      simp [List.cons_prefix_cons, hx]
    rw [List.cons_append, indexOf?_cons, if_neg hnot, ih hline]
    rfl

theorem indexOf?_twoLines {line₁ line₂ : List α} (h₁ : newline ∉ line₁) (h₂ : newline ∉ line₂)
    (hne : line₂ ≠ [])
    (rest : List α) : indexOf? [newline, newline] ((line₁ ++ newline :: line₂) ++ newline :: newline :: rest) =
      some (line₁ ++ newline :: line₂).length := by
  obtain ⟨c, line, rfl⟩ := List.exists_cons_of_ne_nil hne
  have hc : c ≠ newline := fun h => h₂ (h ▸ List.mem_cons_self)
  rw [List.append_assoc, List.cons_append, List.cons_append, indexOf?_line h₁ hc, ← List.cons_append,
    indexOf?_lastLine h₂, Option.map_some]
  simp only [List.length_append, List.length_cons, Option.some.injEq]
  omega

end lines

end NightBridge.Data
