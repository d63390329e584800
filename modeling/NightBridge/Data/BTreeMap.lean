/-
# Ordered maps

`BTreeMap<K, V>` of the standard library: the list of its entries, in the order
of their keys, which is also the order in which a program iterates over them.
That the keys increase is a field, so no key occurs twice and a lookup never has
to choose; every operation has to keep it.

What an operation does is said by the lookups after it (`get?_insert`,
`get?_remove`, `get?_retain`, `get?_adjust`).
-/

import Mathlib.Data.List.Nodup
import Mathlib.Order.Lattice
import Mathlib.Tactic.Common

namespace NightBridge.Data

/-- A map, as its entries in the order of their keys. -/
@[ext]
structure BTreeMap (κ ν : Type) [LinearOrder κ] where
  entries : List (κ × ν)
  sorted : (entries.map Prod.fst).Pairwise (· < ·)

namespace BTreeMap

variable {κ ν ν' : Type} [LinearOrder κ]

def empty : BTreeMap κ ν := ⟨[], List.Pairwise.nil⟩

instance : Inhabited (BTreeMap κ ν) := ⟨empty⟩

def get? (m : BTreeMap κ ν) (k : κ) : Option ν := (m.entries.find? fun e => e.1 = k).map Prod.snd

def containsKey (m : BTreeMap κ ν) (k : κ) : Bool := (m.get? k).isSome

def len (m : BTreeMap κ ν) : ℕ := m.entries.length

theorem eq_of_mem {m : BTreeMap κ ν} {k : κ} {v v' : ν} (h : (k, v) ∈ m.entries)
    (h' : (k, v') ∈ m.entries) : v = v' := by
  have hnodup : (m.entries.map Prod.fst).Nodup := m.sorted.imp ne_of_lt
  exact congrArg Prod.snd (List.inj_on_of_nodup_map hnodup h h' rfl)

theorem get?_eq_some_iff {m : BTreeMap κ ν} {k : κ} {v : ν} :
    m.get? k = some v ↔ (k, v) ∈ m.entries := by
  constructor
  · intro h
    obtain ⟨e, he, rfl⟩ := Option.map_eq_some_iff.mp h
    have hk : e.1 = k := by simpa using List.find?_some he
    exact hk ▸ List.mem_of_find?_eq_some he
  · intro h
    cases hf : m.entries.find? fun e => e.1 = k with
    | none => simpa using List.find?_eq_none.mp hf (k, v) h
    | some e =>
      have hk : e.1 = k := by simpa using List.find?_some hf
      have he : (k, e.2) ∈ m.entries := hk ▸ List.mem_of_find?_eq_some hf
      rw [get?, hf, Option.map_some, eq_of_mem h he]

theorem sorted_of_sublist {entries : List (κ × ν)} (m : BTreeMap κ ν)
    (h : List.Sublist entries m.entries) : (entries.map Prod.fst).Pairwise (· < ·) :=
  m.sorted.sublist (h.map Prod.fst)

/-- `BTreeMap::insert`: the value of a key that is there is replaced. -/
def insert (m : BTreeMap κ ν) (k : κ) (v : ν) : BTreeMap κ ν where
  entries := m.entries.filter (fun e => e.1 < k) ++ (k, v) :: m.entries.filter fun e => k < e.1
  sorted := by
    rw [List.map_append, List.map_cons, List.pairwise_append, List.pairwise_cons]
    refine ⟨m.sorted_of_sublist List.filter_sublist, ⟨?_, m.sorted_of_sublist List.filter_sublist⟩, ?_⟩
    · intro k' hk'
      obtain ⟨e, he, rfl⟩ := List.mem_map.mp hk'
      simpa using (List.mem_filter.mp he).2
    · intro k₁ h₁ k₂ h₂
      obtain ⟨e, he, rfl⟩ := List.mem_map.mp h₁
      have hlt : e.1 < k := by simpa using (List.mem_filter.mp he).2
      rcases List.mem_cons.mp h₂ with rfl | h₂
      · exact hlt
      · obtain ⟨e', he', rfl⟩ := List.mem_map.mp h₂
        exact hlt.trans (by simpa using (List.mem_filter.mp he').2)

def retain (m : BTreeMap κ ν) (p : κ → ν → Bool) : BTreeMap κ ν :=
  ⟨m.entries.filter fun e => p e.1 e.2, m.sorted_of_sublist List.filter_sublist⟩

def remove (m : BTreeMap κ ν) (k : κ) : BTreeMap κ ν := m.retain fun k' _ => k' ≠ k

/-- Compute each value anew, from its place in the iteration and the value
before. -/
def mapIdx (m : BTreeMap κ ν) (f : ℕ → ν → ν') : BTreeMap κ ν' where
  entries := m.entries.mapIdx fun i e => (e.1, f i e.2)
  sorted := by
    have hkeys : (m.entries.mapIdx fun i e => (e.1, f i e.2)).map Prod.fst = m.entries.map Prod.fst := by
      exact List.ext_getElem (by simp) fun i _ _ => by simp
    rw [hkeys]
    exact m.sorted

/-- Compute each value anew. -/
def map (m : BTreeMap κ ν) (f : ν → ν') : BTreeMap κ ν' := m.mapIdx fun _ => f

/-- Write through `BTreeMap::get_mut`. -/
def adjust (m : BTreeMap κ ν) (k : κ) (f : ν → ν) : BTreeMap κ ν where
  entries := m.entries.map fun e => (e.1, if e.1 = k then f e.2 else e.2)
  sorted := by
    rw [List.map_map]
    exact m.sorted

section lookups

variable {m : BTreeMap κ ν} {k k' : κ}

@[simp] theorem get?_empty : (empty : BTreeMap κ ν).get? k = none := rfl

theorem get?_insert {v : ν} : (m.insert k v).get? k' = if k' = k then some v else m.get? k' := by
  ext w
  rw [get?_eq_some_iff, insert, List.mem_append, List.mem_cons, List.mem_filter, List.mem_filter]
  split_ifs with h
  · subst h
    simp [eq_comm]
  · have hne : k' < k ∨ k < k' := lt_or_gt_of_ne h
    simp [h, get?_eq_some_iff, ← and_or_left, hne]

theorem get?_retain {p : κ → ν → Bool} : (m.retain p).get? k = (m.get? k).filter (p k) := by
  ext w
  rw [get?_eq_some_iff, retain, List.mem_filter, Option.filter_eq_some_iff, get?_eq_some_iff]

theorem get?_remove : (m.remove k).get? k' = if k' = k then none else m.get? k' := by
  rw [remove, get?_retain]
  split_ifs with h
  · simp [h]
  · cases m.get? k' <;> simp [h]

theorem get?_mapIdx {f : ℕ → ν → ν'} {w : ν'} :
    (m.mapIdx f).get? k = some w ↔ ∃ i v, m.entries[i]? = some (k, v) ∧ f i v = w := by
  rw [get?_eq_some_iff, mapIdx, List.mem_iff_getElem?]
  refine exists_congr fun i => ?_
  rw [List.getElem?_mapIdx, Option.map_eq_some_iff]
  constructor
  · rintro ⟨⟨k₀, v⟩, he, heq⟩
    obtain ⟨rfl, rfl⟩ := Prod.mk.inj heq
    exact ⟨v, he, rfl⟩
  · rintro ⟨v, he, rfl⟩
    exact ⟨(k, v), he, rfl⟩

theorem keys_mapIdx {f : ℕ → ν → ν'} : (m.mapIdx f).entries.map Prod.fst = m.entries.map Prod.fst := by
  exact List.ext_getElem (by simp [mapIdx]) fun i _ _ => by simp [mapIdx]

/-- The keys that come before one of the entries are the smaller ones. -/
theorem mem_keys_before {done todo : List (κ × ν)} {e : κ × ν} (h : m.entries = done ++ e :: todo) :
    k ∈ done.map Prod.fst ↔ k ∈ m.entries.map Prod.fst ∧ k < e.1 := by
  have hsorted := m.sorted
  rw [h, List.map_append, List.map_cons] at hsorted ⊢
  obtain ⟨-, hrest, hbefore⟩ := List.pairwise_append.mp hsorted
  constructor
  · intro hk
    exact ⟨List.mem_append_left _ hk, hbefore k hk e.1 List.mem_cons_self⟩
  · rintro ⟨hk, hlt⟩
    rcases List.mem_append.mp hk with hk | hk
    · exact hk
    · rcases List.mem_cons.mp hk with rfl | hk
      · exact absurd hlt (lt_irrefl _)
      · exact absurd hlt (lt_asymm ((List.pairwise_cons.mp hrest).1 k hk))

theorem get?_map {f : ν → ν'} : (m.map f).get? k = (m.get? k).map f := by
  ext w
  rw [map, get?_mapIdx, Option.map_eq_some_iff]
  constructor
  · rintro ⟨i, v, he, rfl⟩
    exact ⟨v, get?_eq_some_iff.mpr (List.mem_of_getElem? he), rfl⟩
  · rintro ⟨v, hv, rfl⟩
    obtain ⟨i, hi⟩ := List.mem_iff_getElem?.mp (get?_eq_some_iff.mp hv)
    exact ⟨i, v, hi, rfl⟩

theorem get?_adjust {f : ν → ν} :
    (m.adjust k f).get? k' = if k' = k then (m.get? k').map f else m.get? k' := by
  ext w
  rw [get?_eq_some_iff, adjust, List.mem_map]
  constructor
  · rintro ⟨⟨k₀, v⟩, he, heq⟩
    obtain ⟨rfl, rfl⟩ := Prod.mk.inj heq
    rw [get?_eq_some_iff.mpr he]
    split_ifs <;> rfl
  · intro h
    split_ifs at h with hk
    · obtain ⟨v, hv, rfl⟩ := Option.map_eq_some_iff.mp h
      exact ⟨(k', v), get?_eq_some_iff.mp hv, by simp [hk]⟩
    · exact ⟨(k', w), get?_eq_some_iff.mp h, by simp [hk]⟩

/-- The first key whose value is wanted is the least one. -/
theorem findSome?_eq_some_iff {p : ν → Bool} :
    (m.entries.findSome? fun e => if p e.2 then some e.1 else none) = some k ↔
      (∃ v, m.get? k = some v ∧ p v) ∧ ∀ k' v', m.get? k' = some v' → p v' → k ≤ k' := by
  have hfirst : ∀ {k}, (m.entries.findSome? fun e => if p e.2 then some e.1 else none) = some k →
      (∃ v, m.get? k = some v ∧ p v) ∧ ∀ k' v', m.get? k' = some v' → p v' → k ≤ k' := by
    intro k h
    obtain ⟨before, ⟨k₀, v⟩, later, hentries, hk, hbefore⟩ := List.findSome?_eq_some_iff.mp h
    obtain ⟨hv, rfl⟩ : p v ∧ k₀ = k := by simpa using hk
    refine ⟨⟨v, get?_eq_some_iff.mpr (by simp [hentries]), hv⟩, fun k' v' hget hv' => ?_⟩
    have hmem := get?_eq_some_iff.mp hget
    have hsorted := m.sorted
    rw [hentries, List.mem_append, List.mem_cons] at hmem
    rw [hentries, List.map_append, List.map_cons, List.pairwise_append, List.pairwise_cons] at hsorted
    rcases hmem with hmem | heq | hmem
    · simpa [hv'] using hbefore _ hmem
    · exact (Prod.mk.inj heq).1.ge
    · exact (hsorted.2.1.1 k' (List.mem_map_of_mem hmem)).le
  refine ⟨hfirst, ?_⟩
  rintro ⟨⟨v, hget, hv⟩, hle⟩
  cases hfind : m.entries.findSome? fun e => if p e.2 then some e.1 else none with
  | none =>
    have hnone := List.findSome?_eq_none_iff.mp hfind (k, v) (get?_eq_some_iff.mp hget)
    simp [hv] at hnone
  | some k₀ =>
    obtain ⟨⟨v₀, hget₀, hv₀⟩, hle₀⟩ := hfirst hfind
    exact congrArg some (le_antisymm (hle₀ k v hget hv) (hle k₀ v₀ hget₀ hv₀))

end lookups

end BTreeMap
end NightBridge.Data
