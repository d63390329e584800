/-
# Trimmed fields

White space at the ends of a text and of the fields that a separator cuts it
into.  Both ends can be trimmed in either order (`dropWhile_rdropWhile`), so
trimming is idempotent; and a text may be trimmed before it is cut, if its
fields are trimmed afterwards (`map_trimChars_splitOn`).
-/

import NightBridge.Data.Text
import Mathlib.Data.List.DropRight

namespace NightBridge.Data

section ends

variable {α : Type} (p : α → Bool)

theorem rdropWhile_cons (c : α) (cs : List α) :
    (c :: cs).rdropWhile p = if cs.rdropWhile p = [] ∧ p c then [] else c :: cs.rdropWhile p := by
  unfold List.rdropWhile
  rw [List.reverse_cons, List.dropWhile_append]
  by_cases hnil : cs.reverse.dropWhile p = []
  · by_cases hc : p c <;> simp [hnil, hc]
  · simp [hnil]

/-- **The ends can be trimmed in either order.** -/
theorem dropWhile_rdropWhile (cs : List α) :
    (cs.rdropWhile p).dropWhile p = (cs.dropWhile p).rdropWhile p := by
  induction cs with
  | nil => rfl
  | cons c cs ih =>
    rw [rdropWhile_cons]
    by_cases hc : p c
    · rw [List.dropWhile_cons_of_pos hc, ← ih]
      split_ifs with hnil
      · rw [hnil.1]
      · rw [List.dropWhile_cons_of_pos hc]
    · rw [if_neg (fun h => hc h.2), List.dropWhile_cons_of_neg hc, List.dropWhile_cons_of_neg hc,
        rdropWhile_cons, if_neg (fun h => hc h.2)]

end ends

/-! ### Trimming a text -/

theorem trimChars_eq (cs : List Char) :
    trimChars cs = (cs.rdropWhile isWhitespace).dropWhile isWhitespace :=
  (dropWhile_rdropWhile isWhitespace cs).symm

theorem trimChars_trimChars (cs : List Char) : trimChars (trimChars cs) = trimChars cs := by
  change ((trimChars cs).dropWhile isWhitespace).rdropWhile isWhitespace = trimChars cs
  rw [trimChars_eq, List.dropWhile_idempotent, dropWhile_rdropWhile, List.rdropWhile_idempotent]

@[simp] theorem trim_trim (s : String) : trim (trim s) = trim s := by
  rw [trim, trim, String.toList_ofList, trimChars_trimChars]

theorem trim_eq_self {s : String} (h : ∀ c ∈ s.toList, isWhitespace c = false) : trim s = s := by
  have hdrop : ∀ cs : List Char, (∀ c ∈ cs, isWhitespace c = false) → cs.dropWhile isWhitespace = cs := by
    intro cs hcs
    cases cs with
    | nil => rfl
    | cons c cs => exact List.dropWhile_cons_of_neg (by simp [hcs c (by simp)])
  rw [trim, trimChars, hdrop _ h, hdrop _ fun c hc => h c (List.mem_reverse.mp hc), List.reverse_reverse,
    String.ofList_toList]

theorem mem_trim {s : String} {c : Char} (h : c ∈ s.toList) (hc : isWhitespace c = false) :
    c ∈ (trim s).toList := by
  have hdrop : ∀ cs : List Char, c ∈ cs → c ∈ cs.dropWhile isWhitespace := by
    intro cs hcs
    rw [← List.takeWhile_append_dropWhile (p := isWhitespace) (l := cs)] at hcs
    refine (List.mem_append.mp hcs).resolve_left fun htake => ?_
    rw [List.mem_takeWhile_imp htake] at hc
    cases hc
  rw [trim, String.toList_ofList, trimChars, List.mem_reverse]
  exact hdrop _ (List.mem_reverse.mpr (hdrop _ h))

/-! ### Cutting a text -/

section cut

variable {α : Type} [DecidableEq α] (p : α → Bool) {sep : α} (hsep : p sep = false)

omit [DecidableEq α] in
/-- What stands before fields with the same right ends does not tell them apart. -/
theorem map_rdropWhile_modifyHead {fs gs : List (List α)} (c : α)
    (h : fs.map (List.rdropWhile p) = gs.map (List.rdropWhile p)) :
    (fs.modifyHead (List.cons c)).map (List.rdropWhile p) =
      (gs.modifyHead (List.cons c)).map (List.rdropWhile p) := by
  cases fs with
  | nil =>
    cases gs with
    | nil => rfl
    | cons g gs => cases h
  | cons f fs =>
    cases gs with
    | nil => cases h
    | cons g gs =>
      simp only [List.map_cons, List.cons.injEq] at h
      simp only [List.modifyHead_cons, List.map_cons, rdropWhile_cons, h.1, h.2]

include hsep

theorem map_dropWhile_splitOn (cs : List α) :
    ((cs.dropWhile p).splitOn sep).map (List.dropWhile p) = (cs.splitOn sep).map (List.dropWhile p) := by
  induction cs with
  | nil => rfl
  | cons c cs ih =>
    by_cases hc : p c
    · have hne : ¬ (c == sep) = true := fun h => by
        rw [beq_iff_eq.mp h, hsep] at hc
        cases hc
      rw [List.dropWhile_cons_of_pos hc, ih, List.splitOn_cons_eq_if_modifyHead, if_neg hne]
      cases cs.splitOn sep with
      | nil => rfl
      | cons f fs => rw [List.modifyHead_cons, List.map_cons, List.map_cons, List.dropWhile_cons_of_pos hc]
    · rw [List.dropWhile_cons_of_neg hc]

theorem map_rdropWhile_splitOn (cs : List α) :
    ((cs.rdropWhile p).splitOn sep).map (List.rdropWhile p) =
      (cs.splitOn sep).map (List.rdropWhile p) := by
  induction cs with
  | nil => rfl
  | cons c cs ih =>
    rw [rdropWhile_cons, List.splitOn_cons_eq_if_modifyHead c cs]
    split_ifs with htrimmed heq heq
    · rw [beq_iff_eq.mp heq, hsep] at htrimmed
      cases htrimmed.2
    · -- nothing but white space is left, in one field
      rw [htrimmed.1] at ih
      rw [← map_rdropWhile_modifyHead p c ih, List.splitOn_nil, List.modifyHead_cons, List.map_singleton,
        List.map_singleton, rdropWhile_cons, if_pos ⟨rfl, htrimmed.2⟩]
      rfl
    · rw [List.splitOn_cons_eq_if_modifyHead, if_pos heq, List.map_cons, List.map_cons, ih]
    · rw [List.splitOn_cons_eq_if_modifyHead, if_neg heq]
      exact map_rdropWhile_modifyHead p c ih

end cut

/-- **Trimming before a text is cut changes nothing** if the fields are trimmed
afterwards. -/
theorem map_trimChars_splitOn {sep : Char} (hsep : isWhitespace sep = false) (cs : List Char) :
    ((trimChars cs).splitOn sep).map trimChars = (cs.splitOn sep).map trimChars := by
  have hfront : trimChars = List.rdropWhile isWhitespace ∘ List.dropWhile isWhitespace := rfl
  have hback : trimChars = List.dropWhile isWhitespace ∘ List.rdropWhile isWhitespace :=
    funext trimChars_eq
  calc ((trimChars cs).splitOn sep).map trimChars
      = (((cs.dropWhile isWhitespace).rdropWhile isWhitespace).splitOn sep).map trimChars := rfl
    _ = ((cs.dropWhile isWhitespace).splitOn sep).map trimChars := by
        rw [hback, ← List.map_map, ← List.map_map, map_rdropWhile_splitOn _ hsep]
    _ = (cs.splitOn sep).map trimChars := by
        rw [hfront, ← List.map_map, ← List.map_map, map_dropWhile_splitOn _ hsep]

end NightBridge.Data
