/-
# Renaming files one after another

A list of renames, each to a path at which nothing is yet.  When no target is
also a source, the renames do not disturb each other: every source must have
been a regular file from the start and is named once, its bytes end at its
target, and every other path is as before.
-/

import NightBridge.Data.Posix

namespace NightBridge.Data
namespace Fs

/-- `fs'` results from `fs` by the renames of the list, each to a free path. -/
inductive Renames : Fs → List (Path × Path) → Fs → Prop
  | nil (fs : Fs) : Renames fs [] fs
  | cons {fs fs₁ fs' : Fs} {p q : Path} {ms : List (Path × Path)} (free : fs.lookup q = none)
      (head : fs.rename p q = .ok fs₁) (tail : Renames fs₁ ms fs') : Renames fs ((p, q) :: ms) fs'

theorem rename_free_ne {fs fs' : Fs} {p q : Path} (free : fs.lookup q = none)
    (h : fs.rename p q = .ok fs') : resolve q ≠ resolve p := by
  intro he
  obtain ⟨i, hi, -⟩ := rename_spec h
  rw [lookup, ← he] at hi
  rw [lookup, hi] at free
  cases free

namespace Renames

variable {fs fs' : Fs} {ms : List (Path × Path)}

/-- What exists and is not moved stays, and no target is there. -/
theorem kept (h : Renames fs ms fs') {r : Path} (hr : ∀ m ∈ ms, resolve r ≠ resolve m.1)
    (hex : (fs.lookup r).isSome) :
    (∀ m ∈ ms, resolve r ≠ resolve m.2) ∧ fs'.lookup r = fs.lookup r ∧
      fs'.contents r = fs.contents r := by
  induction h with
  | nil => exact ⟨by simp, rfl, rfl⟩
  | @cons fs fs₁ fs' p q ms free head tail ih =>
    have hq : resolve r ≠ resolve q := by
      intro he
      rw [lookup, he, ← lookup, free] at hex
      cases hex
    obtain ⟨-, -, -, frame⟩ := contents_rename head (rename_free_ne free head)
    obtain ⟨hl, hc⟩ := frame r (hr (p, q) List.mem_cons_self) hq
    obtain ⟨h1, h2, h3⟩ := ih (fun m hm => hr m (by simp [hm])) (by rw [hl]; exact hex)
    refine ⟨?_, h2.trans hl, h3.trans hc⟩
    intro m hm
    rcases List.mem_cons.mp hm with rfl | hm
    · exact hq
    · exact h1 m hm

/-- What does not exist and is no target stays absent, and is not moved. -/
theorem absent (h : Renames fs ms fs') {r : Path} (hr : ∀ m ∈ ms, resolve r ≠ resolve m.2)
    (hno : fs.lookup r = none) :
    (∀ m ∈ ms, resolve r ≠ resolve m.1) ∧ fs'.lookup r = none := by
  induction h with
  | nil => exact ⟨by simp, hno⟩
  | @cons fs fs₁ fs' p q ms free head tail ih =>
    have hp : resolve r ≠ resolve p := by
      intro he
      obtain ⟨i, hi, -⟩ := rename_spec head
      rw [lookup, ← he, ← lookup, hno] at hi
      cases hi
    obtain ⟨-, -, -, frame⟩ := contents_rename head (rename_free_ne free head)
    obtain ⟨h1, h2⟩ := ih (fun m hm => hr m (by simp [hm]))
      (by rw [(frame r hp (hr (p, q) List.mem_cons_self)).1, hno])
    refine ⟨?_, h2⟩
    intro m hm
    rcases List.mem_cons.mp hm with rfl | hm
    · exact hp
    · exact h1 m hm

/-- **Paths that are neither source nor target are as before.** -/
theorem frame (h : Renames fs ms fs') {r : Path}
    (hr : ∀ m ∈ ms, resolve r ≠ resolve m.1 ∧ resolve r ≠ resolve m.2) :
    fs'.lookup r = fs.lookup r ∧ fs'.contents r = fs.contents r := by
  cases hl : fs.lookup r with
  | none =>
    have h' := (h.absent (fun m hm => (hr m hm).2) hl).2
    exact ⟨h', by rw [contents, contents, hl, h']⟩
  | some n =>
    have h' := (h.kept (fun m hm => (hr m hm).1) (by rw [hl]; rfl)).2
    rwa [hl] at h'

/-- **The bytes of each source end at its target**, when no target is a source:
the sources are distinct files of the first tree and gone in the last one, and
the targets are distinct and were free. -/
theorem moved (h : Renames fs ms fs') (hd : ∀ m ∈ ms, ∀ m' ∈ ms, resolve m.1 ≠ resolve m'.2) :
    (ms.map fun m => resolve m.1).Nodup ∧ (ms.map fun m => resolve m.2).Nodup ∧
      ∀ m ∈ ms, (fs.contents m.1).isSome ∧ fs.lookup m.2 = none ∧ fs'.lookup m.1 = none ∧
        fs'.contents m.2 = fs.contents m.1 := by
  induction h with
  | nil => exact ⟨List.nodup_nil, List.nodup_nil, by simp⟩
  | @cons fs fs₁ fs' p q ms free head tail ih =>
    obtain ⟨i, hi, -⟩ := rename_spec head
    obtain ⟨hcq, hsome, hgone, hframe⟩ := contents_rename head (rename_free_ne free head)
    have hsrc : ∀ m ∈ ms, resolve m.1 ≠ resolve q := fun m hm =>
      hd m (by simp [hm]) (p, q) List.mem_cons_self
    have htgt : ∀ m ∈ ms, resolve p ≠ resolve m.2 := fun m hm =>
      hd (p, q) List.mem_cons_self m (by simp [hm])
    obtain ⟨hnd, hnd', hall⟩ := ih fun m hm m' hm' => hd m (by simp [hm]) m' (by simp [hm'])
    -- the first source is gone, and the first target is taken, for the rest of the list
    obtain ⟨hp, hpgone⟩ := tail.absent htgt hgone
    obtain ⟨hq, -, hqc⟩ := tail.kept (fun m hm => (hsrc m hm).symm) hsome
    refine ⟨?_, ?_, ?_⟩
    · rw [List.map_cons, List.nodup_cons]
      refine ⟨?_, hnd⟩
      intro hm
      obtain ⟨m, hm, he⟩ := List.mem_map.mp hm
      exact hp m hm he.symm
    · rw [List.map_cons, List.nodup_cons]
      refine ⟨?_, hnd'⟩
      intro hm
      obtain ⟨m, hm, he⟩ := List.mem_map.mp hm
      exact hq m hm he.symm
    · intro m hm
      rcases List.mem_cons.mp hm with rfl | hm
      · exact ⟨by rw [contents_of_file hi]; rfl, free, hpgone, hqc.trans hcq⟩
      · obtain ⟨h1, h2, h3, h4⟩ := hall m hm
        have hs := hframe m.1 (hp m hm).symm (hsrc m hm)
        have ht := hframe m.2 (htgt m hm).symm (hq m hm).symm
        exact ⟨hs.2 ▸ h1, ht.1.symm.trans h2, h3, h4.trans hs.2⟩

end Renames
end Fs
end NightBridge.Data
