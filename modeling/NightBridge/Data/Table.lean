/-
# Tables with a primary key

A table is a list of rows no two of which have the same key; the statements a
program runs on it are the usual four.  `insert` is a plain `INSERT`, which a
duplicate key refuses; `replace` is `INSERT OR REPLACE`, which deletes the row
with that key first; `modify` is `UPDATE … WHERE key = ?` and `delete` is
`DELETE … WHERE key = ?`.  A hash map whose order does not matter is such a
table too, with `replace` for its `insert` and `retain` for its `retain`.
Uniqueness of the keys is a field of the table, so every statement has to keep
it and a lookup never has to choose.
-/

import Mathlib.Data.List.Nodup
import Mathlib.Data.List.Basic
import Mathlib.Tactic.Common

namespace NightBridge.Data

/-- Rows of type `ρ` with pairwise distinct keys. -/
@[ext]
structure Table (ρ : Type) {κ : Type} (key : ρ → κ) where
  rows : List ρ
  nodup : (rows.map key).Nodup

namespace Table

variable {ρ κ : Type} {key : ρ → κ}

def empty : Table ρ key := ⟨[], List.nodup_nil⟩

@[simp] theorem empty_rows : (empty : Table ρ key).rows = [] := rfl

instance : Inhabited (Table ρ key) := ⟨empty⟩

theorem eq_of_key (t : Table ρ key) {r r' : ρ} (hr : r ∈ t.rows) (hr' : r' ∈ t.rows)
    (hk : key r = key r') : r = r' :=
  List.inj_on_of_nodup_map t.nodup hr hr' hk

variable [DecidableEq κ]

/-- `SELECT … WHERE key = ?`. -/
def find? (t : Table ρ key) (k : κ) : Option ρ := t.rows.find? fun r => key r = k

theorem find?_eq_some_iff {t : Table ρ key} {k : κ} {r : ρ} :
    t.find? k = some r ↔ r ∈ t.rows ∧ key r = k := by
  constructor
  · intro h
    exact ⟨List.mem_of_find?_eq_some h, by simpa using List.find?_some h⟩
  · rintro ⟨hr, hk⟩
    cases hf : t.find? k with
    | none => simpa [hk] using List.find?_eq_none.mp hf r hr
    | some r' =>
      have h' : key r' = k := by simpa using List.find?_some hf
      rw [t.eq_of_key (List.mem_of_find?_eq_some hf) hr (h'.trans hk.symm)]

theorem find?_eq_none_iff {t : Table ρ key} {k : κ} :
    t.find? k = none ↔ ∀ r ∈ t.rows, key r ≠ k := by
  simp [find?, List.find?_eq_none]

/-- `INSERT`: refused when the key is taken. -/
def insert (t : Table ρ key) (r : ρ) : Option (Table ρ key) :=
  if h : key r ∈ t.rows.map key then none
  else some ⟨t.rows ++ [r], by
    rw [List.map_append, List.map_singleton]
    exact List.Nodup.append t.nodup (List.nodup_singleton _) (by simpa using h)⟩

theorem insert_eq_some_iff {t t' : Table ρ key} {r : ρ} :
    t.insert r = some t' ↔ t.find? (key r) = none ∧ t'.rows = t.rows ++ [r] := by
  rw [find?_eq_none_iff]
  unfold insert
  split_ifs with h
  · obtain ⟨r', hr', hk⟩ := List.mem_map.mp h
    simp only [false_iff, not_and]
    exact fun hn => absurd hk (hn r' hr')
  · simp only [Option.some.injEq, Table.ext_iff]
    constructor
    · intro he
      exact ⟨fun r' hr' hk => h (List.mem_map.mpr ⟨r', hr', hk⟩), he.symm⟩
    · exact fun he => he.2.symm

theorem insert_eq_none_iff {t : Table ρ key} {r : ρ} :
    t.insert r = none ↔ t.find? (key r) ≠ none := by
  rw [Ne, find?_eq_none_iff]
  unfold insert
  split_ifs with h
  · obtain ⟨r', hr', hk⟩ := List.mem_map.mp h
    simpa using ⟨r', hr', hk⟩
  · simpa using h

/-- `DELETE … WHERE key = ?`. -/
def delete (t : Table ρ key) (k : κ) : Table ρ key :=
  ⟨t.rows.filter fun r => key r ≠ k, (List.filter_sublist.map key).nodup t.nodup⟩

@[simp] theorem mem_delete {t : Table ρ key} {k : κ} {r : ρ} :
    r ∈ (t.delete k).rows ↔ r ∈ t.rows ∧ key r ≠ k := by
  simp [delete]

/-- `INSERT OR REPLACE`: the row with that key goes, the new one comes. -/
def replace (t : Table ρ key) (r : ρ) : Table ρ key :=
  ⟨(t.delete (key r)).rows ++ [r], by
    rw [List.map_append, List.map_singleton]
    refine List.Nodup.append (t.delete (key r)).nodup (List.nodup_singleton _) ?_
    intro k hk hk'
    obtain ⟨r', hr', rfl⟩ := List.mem_map.mp hk
    exact (mem_delete.mp hr').2 (List.mem_singleton.mp hk')⟩

@[simp] theorem mem_replace {t : Table ρ key} {r r' : ρ} :
    r' ∈ (t.replace r).rows ↔ (r' ∈ t.rows ∧ key r' ≠ key r) ∨ r' = r := by
  simp [replace]

/-- `UPDATE … WHERE key = ?` with an assignment that leaves the key alone. -/
def modify (t : Table ρ key) (k : κ) (f : ρ → ρ) (hf : ∀ r, key (f r) = key r) : Table ρ key :=
  ⟨t.rows.map fun r => if key r = k then f r else r, by
    have : (t.rows.map fun r => if key r = k then f r else r).map key = t.rows.map key := by
      rw [List.map_map]
      refine List.map_congr_left fun r _ => ?_
      simp only [Function.comp_apply]
      split_ifs
      · exact hf r
      · rfl
    rw [this]
    exact t.nodup⟩

@[simp] theorem mem_modify {t : Table ρ key} {k : κ} {f : ρ → ρ} {hf : ∀ r, key (f r) = key r}
    {r : ρ} : r ∈ (t.modify k f hf).rows ↔
      (r ∈ t.rows ∧ key r ≠ k) ∨ ∃ r₀ ∈ t.rows, key r₀ = k ∧ r = f r₀ := by
  simp only [modify, List.mem_map]
  constructor
  · rintro ⟨r₀, h₀, rfl⟩
    split_ifs with hk
    · exact Or.inr ⟨r₀, h₀, hk, rfl⟩
    · exact Or.inl ⟨h₀, hk⟩
  · rintro (⟨h₀, hk⟩ | ⟨r₀, h₀, hk, rfl⟩)
    · exact ⟨r, h₀, if_neg hk⟩
    · exact ⟨r₀, h₀, if_pos hk⟩

theorem find?_modify {t : Table ρ key} {k k' : κ} {f : ρ → ρ} {hf : ∀ r, key (f r) = key r} :
    (t.modify k f hf).find? k' = if k' = k then (t.find? k').map f else t.find? k' := by
  ext r
  rw [find?_eq_some_iff, mem_modify]
  split_ifs with hk
  · subst hk
    simp only [Option.map_eq_some_iff, find?_eq_some_iff]
    constructor
    · rintro ⟨⟨_, h⟩ | ⟨r₀, h₀, h₁, rfl⟩, hk⟩
      · exact absurd hk h
      · exact ⟨r₀, ⟨h₀, h₁⟩, rfl⟩
    · rintro ⟨r₀, ⟨h₀, h₁⟩, rfl⟩
      exact ⟨Or.inr ⟨r₀, h₀, h₁, rfl⟩, (hf r₀).trans h₁⟩
  · rw [find?_eq_some_iff]
    constructor
    · rintro ⟨⟨h, _⟩ | ⟨r₀, h₀, h₁, rfl⟩, rfl⟩
      · exact ⟨h, rfl⟩
      · exact absurd ((hf r₀).trans h₁) hk
    · rintro ⟨h, rfl⟩
      exact ⟨Or.inl ⟨h, hk⟩, rfl⟩

/-- `INSERT … ON CONFLICT(key) DO UPDATE SET …`: the assignment `f` is applied to
the row that is there. -/
def upsert (t : Table ρ key) (r : ρ) (f : ρ → ρ) (hf : ∀ r, key (f r) = key r) : Table ρ key :=
  match t.insert r with
  | some t' => t'
  | none => t.modify (key r) f hf

theorem find?_upsert {t : Table ρ key} {r : ρ} {f : ρ → ρ} {hf : ∀ r, key (f r) = key r} {k : κ} :
    (t.upsert r f hf).find? k =
      if k = key r then some (((t.find? k).map f).getD r) else t.find? k := by
  unfold upsert
  cases hi : t.insert r with
  | some t' =>
    obtain ⟨hn, hrows⟩ := insert_eq_some_iff.mp hi
    simp only [find?, hrows, List.find?_append, List.find?_singleton] at hn ⊢
    by_cases hk : k = key r
    · subst hk
      simp [hn]
    · simp [hk, Ne.symm hk]
  | none =>
    rw [find?_modify]
    split_ifs with hk
    · subst hk
      cases hr : t.find? (key r) with
      | none => exact absurd hr (insert_eq_none_iff.mp hi)
      | some r' => rfl
    · rfl

theorem find?_delete {t : Table ρ key} {k k' : κ} :
    (t.delete k).find? k' = if k' = k then none else t.find? k' := by
  ext r
  rw [find?_eq_some_iff, mem_delete]
  split_ifs with hk
  · subst hk
    simp
  · rw [find?_eq_some_iff]
    constructor
    · rintro ⟨⟨h, _⟩, hk'⟩
      exact ⟨h, hk'⟩
    · rintro ⟨h, rfl⟩
      exact ⟨⟨h, hk⟩, rfl⟩

theorem find?_replace {t : Table ρ key} {r : ρ} {k : κ} :
    (t.replace r).find? k = if k = key r then some r else t.find? k := by
  ext r'
  rw [find?_eq_some_iff, mem_replace]
  split_ifs with hk
  · constructor
    · rintro ⟨⟨-, hne⟩ | rfl, hk'⟩
      · exact absurd (hk'.trans hk) hne
      · rfl
    · rintro ⟨⟩
      exact ⟨.inr rfl, hk.symm⟩
  · rw [find?_eq_some_iff]
    constructor
    · rintro ⟨⟨hr', -⟩ | rfl, hk'⟩
      · exact ⟨hr', hk'⟩
      · exact absurd hk'.symm hk
    · rintro ⟨hr', rfl⟩
      exact ⟨.inl ⟨hr', hk⟩, rfl⟩

/-! Rows that come one after another. -/

section foldl

variable {ι : Type} {f : ι → ρ} {is : List ι} {t : Table ρ key}

theorem mem_foldl_replace {r : ρ} (h : r ∈ (is.foldl (fun acc i => acc.replace (f i)) t).rows) :
    r ∈ t.rows ∨ ∃ i ∈ is, r = f i := by
  induction is generalizing t with
  | nil => exact .inl h
  | cons i is ih =>
    rcases ih h with hr | ⟨j, hj, rfl⟩
    · rcases mem_replace.mp hr with ⟨hr, -⟩ | rfl
      · exact .inl hr
      · exact .inr ⟨i, List.mem_cons_self .., rfl⟩
    · exact .inr ⟨j, List.mem_cons_of_mem _ hj, rfl⟩

/-- A key that has a row keeps one, and every new row leaves one with its key. -/
theorem exists_mem_foldl_replace {k : κ} (h : (∃ r ∈ t.rows, key r = k) ∨ ∃ i ∈ is, key (f i) = k) :
    ∃ r ∈ (is.foldl (fun acc i => acc.replace (f i)) t).rows, key r = k := by
  induction is generalizing t with
  | nil => simpa using h
  | cons i is ih =>
    refine ih ?_
    by_cases hi : key (f i) = k
    · exact .inl ⟨f i, mem_replace.mpr (.inr rfl), hi⟩
    · rcases h with ⟨r, hr, hk⟩ | ⟨j, hj, hk⟩
      · exact .inl ⟨r, mem_replace.mpr (.inl ⟨hr, fun hrk => hi (hrk.symm.trans hk)⟩), hk⟩
      · rcases List.mem_cons.mp hj with rfl | hj
        · exact absurd hk hi
        · exact .inr ⟨j, hj, hk⟩

end foldl

/-- Keep the rows that satisfy `p`. -/
def retain (t : Table ρ key) (p : ρ → Bool) : Table ρ key :=
  ⟨t.rows.filter p, (List.filter_sublist.map key).nodup t.nodup⟩

theorem find?_retain {t : Table ρ key} {p : ρ → Bool} {k : κ} :
    (t.retain p).find? k = (t.find? k).filter p := by
  ext r
  simp only [Option.filter_eq_some_iff, find?_eq_some_iff, retain, List.mem_filter]
  tauto

end Table
end NightBridge.Data
