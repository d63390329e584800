/-
# A POSIX directory tree

Paths are lists of components; `resolve` walks `.` and `..`.  The tree maps a
resolved path to a directory or to a regular file, and a regular file is only
an inode number: its bytes are kept per inode, so an open handle goes on
writing to the inode it was opened on, whatever the path is renamed to
meanwhile, and `rename` moves the inode without touching its bytes.

Four facts are fields of the tree: the root is a directory, whatever exists
lies in a directory, linked inodes have been allocated, and no inode is linked
twice (there are no hard links).  Every operation has to keep them.
Not every text is a name: a target of `rename` has no NUL and at most 255 bytes.
Symbolic links, permissions and full disks are not in the model; nor are names
that are too long where a program makes them itself, from ids.
-/

import NightBridge.Data.Bytes
import Mathlib.Logic.Function.Basic

namespace NightBridge.Data

/-- A path, as its components from the root. -/
abbrev Path := List String

/-- Walk `.` and `..`. -/
def resolve (p : Path) : Path :=
  p.foldl (fun acc c => if c = "." then acc else if c = ".." then acc.dropLast else acc ++ [c]) []

/-- A component that names an entry of its directory. -/
def NormalName (c : String) : Prop := c ≠ "." ∧ c ≠ ".."

instance (c : String) : Decidable (NormalName c) := inferInstanceAs (Decidable (_ ∧ _))

theorem resolve_append_normal (p : Path) {c : String} (hc : NormalName c) :
    resolve (p ++ [c]) = resolve p ++ [c] := by
  simp [resolve, hc.1, hc.2]

theorem dot_or_dotdot {name : String} (h : ¬ NormalName name) : name = "." ∨ name = ".." := by
  unfold NormalName at h
  tauto

theorem normalName_of_mem {c : String} (ch : Char) (h : ch ∈ c.toList) (hch : ch ≠ '.') :
    NormalName c := by
  have hdots : ∀ n, c.toList = List.replicate n '.' → False := fun n hc => by
    rw [hc] at h
    exact hch (List.eq_of_mem_replicate h)
  exact ⟨fun hc => hdots 1 (by rw [hc]; decide), fun hc => hdots 2 (by rw [hc]; decide)⟩

theorem normalName_part (file : String) : NormalName (file ++ ".part") :=
  normalName_of_mem 'p' (by simp) (by decide)

theorem length_resolve_of_not_normal (p : Path) {c : String} (hc : ¬ NormalName c) :
    (resolve (p ++ [c])).length ≤ (resolve p).length := by
  rcases dot_or_dotdot hc with rfl | rfl
  · simp [resolve]
  · simp [resolve]

theorem length_resolve_append_le (p : Path) (c : String) :
    (resolve (p ++ [c])).length ≤ (resolve p).length + 1 := by
  by_cases hc : NormalName c
  · rw [resolve_append_normal p hc, List.length_append]
    rfl
  · exact (length_resolve_of_not_normal p hc).trans (Nat.le_succ _)

theorem le_length_resolve_append (p : Path) (c : String) :
    (resolve p).length ≤ (resolve (p ++ [c])).length + 1 := by
  by_cases hc : NormalName c
  · rw [resolve_append_normal p hc, List.length_append]
    omega
  · rcases dot_or_dotdot hc with rfl | rfl
    · simp [resolve]
    · simp only [resolve, List.foldl_append, List.foldl_cons, List.foldl_nil]
      simp only [String.reduceEq, if_false, if_true, List.length_dropLast]
      omega

theorem dropLast_append_getLastD {p : Path} (hp : p ≠ []) :
    p.dropLast ++ [p.getLastD ""] = p := by
  rw [List.getLastD_eq_getLast?, List.getLast?_eq_some_getLast hp, Option.getD_some,
    List.dropLast_append_getLast]

/-- `Path::file_stem` of a component: without its last dot and what follows,
unless the name begins there. -/
def fileStem (name : String) : String :=
  match name.toList.reverse.dropWhile (· ≠ '.') with
  | _ :: c :: cs => if name = ".." then name else String.ofList (c :: cs).reverse
  | _ => name

/-- `Path::with_extension`, of a path that ends in a name. -/
def withExtension (p : Path) (extension : String) : Path :=
  p.dropLast ++ [fileStem (p.getLastD "") ++ "." ++ extension]

theorem withExtension_append (p : Path) (name extension : String) :
    withExtension (p ++ [name]) extension = p ++ [fileStem name ++ "." ++ extension] := by
  simp [withExtension]

inductive Node
  | dir
  | file (ino : ℕ)
  deriving DecidableEq, Repr

/-- The failures of file operations a program can meet. -/
inductive IoError
  | notFound
  | notADirectory
  | isADirectory
  | unexpectedEof
  | nulInName
  | nameTooLong
  | invalidArgument
  deriving DecidableEq, Repr

/-- What is wrong with a component as the name of an entry. -/
def nameError? (c : String) : Option IoError :=
  if c.toList.contains '\x00' then some .nulInName
  else if 255 < c.utf8ByteSize then some .nameTooLong
  else none

/-- A component that an entry can have as its name. -/
def nameFits (c : String) : Bool := (nameError? c).isNone

/-- A directory tree with the bytes of its inodes. -/
structure Fs where
  entries : Path → Option Node
  data : ℕ → Bytes
  next : ℕ
  root : entries [] = some .dir
  parent : ∀ p c, (entries (p ++ [c])).isSome → entries p = some .dir
  fresh : ∀ p i, entries p = some (.file i) → i < next
  unique : ∀ p q i, entries p = some (.file i) → entries q = some (.file i) → p = q

namespace Fs

def empty : Fs where
  entries p := if p = [] then some .dir else none
  data _ := []
  next := 0
  root := rfl
  parent p c h := by simp at h
  fresh p i h := by by_cases hp : p = [] <;> simp [hp] at h
  unique p q i h := by by_cases hp : p = [] <;> simp [hp] at h

instance : Inhabited Fs := ⟨empty⟩

def lookup (fs : Fs) (p : Path) : Option Node := fs.entries (resolve p)

/-- `fs::metadata(p).is_ok()`; a name that no entry can have is not there. -/
def exists? (fs : Fs) (p : Path) : Bool := (fs.lookup p).isSome

def contents (fs : Fs) (p : Path) : Option Bytes :=
  match fs.lookup p with
  | some (.file i) => some (fs.data i)
  | _ => none

theorem ne_nil_of_none (fs : Fs) {p : Path} (h : fs.entries p = none) : p ≠ [] := by
  rintro rfl
  rw [fs.root] at h
  cases h

/-- A name is put into a directory: a new directory, or a new empty file. -/
def link (fs : Fs) (p : Path) (c : String) (n : Node) (hn : n = .dir ∨ n = .file fs.next)
    (hp : fs.entries p = some .dir) (hc : fs.entries (p ++ [c]) = none) : Fs where
  entries := Function.update fs.entries (p ++ [c]) (some n)
  data := fs.data
  next := fs.next + 1
  root := by rw [Function.update_of_ne (by simp), fs.root]
  parent q d h := by
    have hq : fs.entries q = some .dir := by
      by_cases hqd : q ++ [d] = p ++ [c]
      · rw [(List.append_inj' hqd rfl).1]; exact hp
      · rw [Function.update_of_ne hqd] at h
        exact fs.parent q d h
    rw [Function.update_of_ne (fun he => by rw [he, hc] at hq; cases hq), hq]
  fresh q i h := by
    by_cases hq : q = p ++ [c]
    · rw [hq, Function.update_self, Option.some.injEq] at h
      rcases hn with rfl | rfl <;> cases h
      exact Nat.lt_succ_self _
    · rw [Function.update_of_ne hq] at h
      exact (fs.fresh q i h).trans (Nat.lt_succ_self _)
  unique q r i hq hr := by
    -- the new inode is not linked elsewhere, its number being the next free one
    have key : ∀ q' r', fs.entries q' = some (.file i) →
        Function.update fs.entries (p ++ [c]) (some n) r' = some (.file i) → q' = r' := by
      intro q' r' hq' hr'
      by_cases hrc : r' = p ++ [c]
      · rw [hrc, Function.update_self, Option.some.injEq] at hr'
        have := fs.fresh q' i hq'
        rcases hn with rfl | rfl
        · cases hr'
        · exact absurd (Node.file.inj hr') (by omega)
      · rw [Function.update_of_ne hrc] at hr'
        exact fs.unique q' r' i hq' hr'
    by_cases hqc : q = p ++ [c] <;> by_cases hrc : r = p ++ [c]
    · rw [hqc, hrc]
    · rw [Function.update_of_ne hrc] at hr
      exact (key r q hr hq).symm
    · rw [Function.update_of_ne hqc] at hq
      exact key q r hq hr
    · rw [Function.update_of_ne hqc] at hq
      exact key q r hq hr

theorem link_entries_of_ne {fs : Fs} {p : Path} {c : String} {n : Node}
    {hn : n = .dir ∨ n = .file fs.next} {hp : fs.entries p = some .dir}
    {hc : fs.entries (p ++ [c]) = none} {q : Path} (hq : q ≠ p ++ [c]) :
    (fs.link p c n hn hp hc).entries q = fs.entries q :=
  Function.update_of_ne hq _ _

/-- Create the directories of `cs` below `p`, those that are missing. -/
def mkdirs (fs : Fs) (p : Path) : List String → Except IoError Fs
  | [] => .ok fs
  | c :: cs =>
    match hc : fs.entries (p ++ [c]) with
    | some .dir => fs.mkdirs (p ++ [c]) cs
    | some (.file _) => .error .notADirectory
    | none =>
      if hp : fs.entries p = some .dir then
        (fs.link p c .dir (.inl rfl) hp hc).mkdirs (p ++ [c]) cs
      else .error .notFound

def createDirAll (fs : Fs) (p : Path) : Except IoError Fs := fs.mkdirs [] (resolve p)

/-- `OpenOptions::new().create(true).truncate(false).write(true).open(p)`: the
inode at `p`, a new empty one when nothing is there. -/
def openWrite (fs : Fs) (p : Path) : Except IoError (ℕ × Fs) :=
  match hc : fs.entries (resolve p) with
  | some (.file i) => .ok (i, fs)
  | some .dir => .error .isADirectory
  | none =>
    if hp : fs.entries (resolve p).dropLast = some .dir then
      .ok (fs.next, { fs.link (resolve p).dropLast ((resolve p).getLastD "") (.file fs.next)
        (.inr rfl) hp (by rw [dropLast_append_getLastD (fs.ne_nil_of_none hc), hc]) with
        data := Function.update fs.data fs.next [] })
    else .error .notFound

/-- Seek to `off` on an open inode and write `bs`. -/
def writeAt (fs : Fs) (i off : ℕ) (bs : Bytes) : Fs :=
  { fs with data := Function.update fs.data i (overwrite (fs.data i) off bs) }

/-- `File::create(p)`: the inode at `p`, a new one when nothing is there,
without its bytes. -/
def create (fs : Fs) (p : Path) : Except IoError (ℕ × Fs) :=
  match fs.openWrite p with
  | .ok (i, fs) => .ok (i, { fs with data := Function.update fs.data i [] })
  | .error e => .error e

/-- `fs::write(p, bs)`. -/
def write (fs : Fs) (p : Path) (bs : Bytes) : Except IoError Fs :=
  match fs.create p with
  | .ok (i, fs) => .ok (fs.writeAt i 0 bs)
  | .error e => .error e

/-- `File::open(p)` for reading. -/
def openRead (fs : Fs) (p : Path) : Except IoError ℕ :=
  match fs.lookup p with
  | some (.file i) => .ok i
  | some .dir => .error .isADirectory
  | none => .error .notFound

/-- Seek to `off` on an open inode and `read_exact` `len` bytes. -/
def readExactAt (fs : Fs) (i off len : ℕ) : Except IoError Bytes :=
  if off + len ≤ (fs.data i).length then .ok (slice (fs.data i) off len)
  else .error .unexpectedEof

/-- `fs::read(p)`. -/
def read (fs : Fs) (p : Path) : Except IoError Bytes :=
  match fs.lookup p with
  | some (.file i) => .ok (fs.data i)
  | some .dir => .error .isADirectory
  | none => .error .notFound

/-- The file at `src` gets the name `dst`, which names no directory. -/
def relink (fs : Fs) (src dst : Path) (i : ℕ) (hs : fs.entries src = some (.file i))
    (hd : fs.entries dst ≠ some .dir) (hp : fs.entries dst.dropLast = some .dir) : Fs where
  entries := Function.update (Function.update fs.entries src none) dst (some (.file i))
  data := fs.data
  next := fs.next
  root := by
    have h1 : ([] : Path) ≠ dst := by rintro rfl; exact hd fs.root
    have h2 : ([] : Path) ≠ src := by rintro rfl; rw [fs.root] at hs; cases hs
    rw [Function.update_of_ne h1, Function.update_of_ne h2, fs.root]
  parent p c h := by
    have hdir : fs.entries p = some .dir := by
      by_cases hd' : p ++ [c] = dst
      · rw [← hd', List.dropLast_concat] at hp
        exact hp
      · rw [Function.update_of_ne hd'] at h
        by_cases hs' : p ++ [c] = src
        · exact fs.parent p c (by rw [hs', hs]; rfl)
        · rw [Function.update_of_ne hs'] at h
          exact fs.parent p c h
    -- a directory is neither the moved file nor what the target was
    have h1 : p ≠ dst := by rintro rfl; exact hd hdir
    have h2 : p ≠ src := by rintro rfl; rw [hdir] at hs; cases hs
    rw [Function.update_of_ne h1, Function.update_of_ne h2, hdir]
  fresh p j h := by
    by_cases hd' : p = dst
    · rw [hd', Function.update_self, Option.some.injEq, Node.file.injEq] at h
      exact h ▸ fs.fresh src i hs
    · rw [Function.update_of_ne hd'] at h
      by_cases hs' : p = src
      · rw [hs', Function.update_self] at h
        cases h
      · rw [Function.update_of_ne hs'] at h
        exact fs.fresh p j h
  unique p q j hp' hq' := by
    -- away from the target, a path of the new tree is a path of the old one other than `src`
    have old : ∀ r, r ≠ dst → Function.update (Function.update fs.entries src none) dst
        (some (.file i)) r = some (.file j) → r ≠ src ∧ fs.entries r = some (.file j) := by
      intro r hr h
      rw [Function.update_of_ne hr] at h
      by_cases hs' : r = src
      · rw [hs', Function.update_self] at h
        cases h
      · rw [Function.update_of_ne hs'] at h
        exact ⟨hs', h⟩
    have new : ∀ r, r ≠ dst → Function.update (Function.update fs.entries src none) dst
        (some (.file i)) r = some (.file j) → j ≠ i := by
      rintro r hr h rfl
      obtain ⟨h1, h2⟩ := old r hr h
      exact h1 (fs.unique r src j h2 hs)
    have at_dst : Function.update (Function.update fs.entries src none) dst
        (some (.file i)) dst = some (.file j) → j = i := by
      rw [Function.update_self, Option.some.injEq, Node.file.injEq]
      exact Eq.symm
    by_cases hpd : p = dst <;> by_cases hqd : q = dst
    · rw [hpd, hqd]
    · exact absurd (at_dst (hpd ▸ hp')) (new q hqd hq')
    · exact absurd (at_dst (hqd ▸ hq')) (new p hpd hp')
    · exact fs.unique p q j (old p hpd hp').2 (old q hqd hq').2

/-- `fs::rename(src, dst)` of a regular file; it replaces a regular file at
`dst`, whose name has to be one.  No program here renames a directory. -/
def rename (fs : Fs) (src dst : Path) : Except IoError Fs :=
  match nameError? (dst.getLastD "") with
  | some e => .error e
  | none =>
    match hs : fs.entries (resolve src) with
    | none => .error .notFound
    | some .dir => .error .isADirectory
    | some (.file i) =>
      if resolve dst = resolve src then .ok fs
      else if hd : fs.entries (resolve dst) = some .dir then .error .isADirectory
      else if hp : fs.entries (resolve dst).dropLast = some .dir then
        .ok (fs.relink (resolve src) (resolve dst) i hs hd hp)
      else .error .notFound

/-! ### What each operation does -/

section specs

variable {fs fs' : Fs} {p q : Path}

theorem lookup_eq_dir_or_file_or_none (fs : Fs) (p : Path) :
    fs.lookup p = none ∨ fs.lookup p = some .dir ∨ ∃ i, fs.lookup p = some (.file i) := by
  cases fs.lookup p with
  | none => exact .inl rfl
  | some n => cases n with
    | dir => exact .inr (.inl rfl)
    | file i => exact .inr (.inr ⟨i, rfl⟩)

theorem read_eq_ok_iff {bs : Bytes} : fs.read p = .ok bs ↔ fs.contents p = some bs := by
  unfold read contents
  rcases lookup_eq_dir_or_file_or_none fs p with h | h | ⟨i, h⟩ <;> simp [h]

theorem contents_of_file {i : ℕ} (h : fs.lookup p = some (.file i)) :
    fs.contents p = some (fs.data i) := by
  rw [contents, h]

theorem contents_congr (fs : Fs) (h : resolve p = resolve q) : fs.contents p = fs.contents q := by
  rw [contents, contents, lookup, lookup, h]

theorem openRead_of_file {i : ℕ} (h : fs.lookup p = some (.file i)) : fs.openRead p = .ok i := by
  rw [openRead, h]

/-- What `mkdirs` adds are directories along its path. -/
theorem mkdirs_spec (cs : List String) {fs fs' : Fs} {p : Path} (h : fs.mkdirs p cs = .ok fs')
    (hp : fs.entries p = some .dir) :
    fs'.data = fs.data ∧ fs.next ≤ fs'.next ∧ fs'.entries (p ++ cs) = some .dir ∧
      ∀ q, fs'.entries q = fs.entries q ∨
        (fs.entries q = none ∧ fs'.entries q = some .dir ∧ ∃ ds, ds <+: cs ∧ q = p ++ ds) := by
  -- each level either exists or is linked, and the rest goes on below it
  induction cs generalizing fs p with
  | nil =>
    obtain rfl : fs = fs' := by simpa [mkdirs] using h
    exact ⟨rfl, le_rfl, by simpa using hp, fun q => .inl rfl⟩
  | cons c cs ih =>
    rw [mkdirs] at h
    split at h
    · rename_i hc
      obtain ⟨h1, h2, h3, h4⟩ := ih h hc
      refine ⟨h1, h2, by simpa using h3, fun q => ?_⟩
      rcases h4 q with h4 | ⟨h5, h6, ds, h7, rfl⟩
      · exact .inl h4
      · exact .inr ⟨h5, h6, c :: ds, List.cons_prefix_cons.mpr ⟨rfl, h7⟩, by simp⟩
    · cases h
    · rename_i hc
      rw [dif_pos hp] at h
      obtain ⟨h1, h2, h3, h4⟩ := ih h (by simp [link])
      refine ⟨h1, (Nat.le_succ _).trans h2, by simpa using h3, fun q => ?_⟩
      rcases h4 q with h4 | ⟨h5, h6, ds, h7, rfl⟩
      · by_cases hq : q = p ++ [c]
        · subst hq
          exact .inr ⟨hc, by rw [h4]; simp [link], [c], by simp, rfl⟩
        · exact .inl (by rw [h4]; simp [link, hq])
      · refine .inr ⟨?_, h6, c :: ds, List.cons_prefix_cons.mpr ⟨rfl, h7⟩, by simp⟩
        by_cases hq : p ++ [c] ++ ds = p ++ [c]
        · rw [hq, hc]
        · exact (link_entries_of_ne hq).symm.trans h5

/-- `mkdirs` fails only when a regular file is in the way. -/
theorem mkdirs_isOk (cs : List String) {fs : Fs} {p : Path} (hp : fs.entries p = some .dir)
    (h : ∀ ds, ds <+: cs → ∀ i, fs.entries (p ++ ds) ≠ some (.file i)) :
    ∃ fs', fs.mkdirs p cs = .ok fs' := by
  induction cs generalizing fs p with
  | nil => exact ⟨fs, rfl⟩
  | cons c cs ih =>
    rw [mkdirs]
    split
    · rename_i hc
      exact ih hc fun ds hds i => by
        simpa using h (c :: ds) (List.cons_prefix_cons.mpr ⟨rfl, hds⟩) i
    · rename_i i hc
      exact absurd hc (h [c] (by simp) i)
    · rename_i hc
      rw [dif_pos hp]
      refine ih (by simp [link]) fun ds hds i => ?_
      have := h (c :: ds) (List.cons_prefix_cons.mpr ⟨rfl, hds⟩) i
      by_cases hq : p ++ [c] ++ ds = p ++ [c]
      · simp [link, hq]
      · rw [link_entries_of_ne hq]
        simpa using this

/-- **`create_dir_all`** adds directories, along its path only, and keeps every
file with its bytes. -/
theorem createDirAll_spec (h : fs.createDirAll p = .ok fs') :
    fs'.data = fs.data ∧ fs.next ≤ fs'.next ∧ fs'.lookup p = some .dir ∧
      ∀ q, fs'.entries q = fs.entries q ∨
        (fs.entries q = none ∧ fs'.entries q = some .dir ∧ q <+: resolve p) := by
  obtain ⟨h1, h2, h3, h4⟩ := mkdirs_spec _ h fs.root
  refine ⟨h1, h2, by simpa [lookup] using h3, fun q => ?_⟩
  rcases h4 q with h4 | ⟨h5, h6, ds, h7, rfl⟩
  · exact .inl h4
  · exact .inr ⟨h5, h6, by simpa using h7⟩

theorem createDirAll_isOk (h : ∀ q, q <+: resolve p → ∀ i, fs.entries q ≠ some (.file i)) :
    ∃ fs', fs.createDirAll p = .ok fs' :=
  mkdirs_isOk _ fs.root fun ds hds i => by simpa using h ds hds i

theorem entries_above (fs : Fs) {q r : Path} (hr : (fs.entries (q ++ r)).isSome) :
    r = [] ∨ fs.entries q = some .dir := by
  induction r using List.reverseRecOn with
  | nil => exact .inl rfl
  | append_singleton r c ih =>
    rw [← List.append_assoc] at hr
    have hdir := fs.parent _ _ hr
    rcases ih (by rw [hdir]; rfl) with rfl | h
    · exact .inr (by simpa using hdir)
    · exact .inr h

theorem entries_above_dir {q : Path} (hp : fs.lookup p = some .dir) (hq : q <+: resolve p) :
    fs.entries q = some .dir := by
  obtain ⟨r, hr⟩ := hq
  rw [lookup, ← hr] at hp
  rcases fs.entries_above (by rw [hp]; rfl) with rfl | h
  · simpa using hp
  · exact h

/-- A directory that exists is left alone, and so is the rest of the tree. -/
theorem createDirAll_of_dir (hp : fs.lookup p = some .dir) : fs.createDirAll p = .ok fs := by
  have dirs : ∀ (cs : List String) (q : Path), q ++ cs <+: resolve p → fs.mkdirs q cs = .ok fs := by
    intro cs
    induction cs with
    | nil => intro q _; rfl
    | cons c cs ih =>
      intro q hq
      have hpre : q ++ [c] ++ cs <+: resolve p := by simpa using hq
      have hc := entries_above_dir hp ((List.prefix_append _ _).trans hpre)
      rw [mkdirs]
      split
      · exact ih _ hpre
      · rename_i i hi; rw [hc] at hi; cases hi
      · rename_i hn; rw [hc] at hn; cases hn
  exact dirs _ _ (by simp)

/-- **Opening for writing** returns the inode at the path; when nothing was
there, a new empty one. -/
theorem openWrite_spec {i : ℕ} (h : fs.openWrite p = .ok (i, fs')) :
    (fs' = fs ∧ fs.lookup p = some (.file i)) ∨
      (fs.lookup p = none ∧ i = fs.next ∧ fs'.next = fs.next + 1 ∧
        fs'.entries = Function.update fs.entries (resolve p) (some (.file i)) ∧
        fs'.data = Function.update fs.data i []) := by
  unfold openWrite at h
  split at h
  · rename_i j hj
    cases h
    exact .inl ⟨rfl, hj⟩
  · cases h
  · rename_i hc
    split at h
    · cases h
      refine .inr ⟨hc, rfl, rfl, ?_, rfl⟩
      simp only [link, dropLast_append_getLastD (fs.ne_nil_of_none hc)]
    · cases h

theorem openWrite_isOk {q : Path} {c : String} (hp : resolve p = resolve q ++ [c])
    (hq : fs.lookup q = some .dir) (hd : fs.lookup p ≠ some .dir) :
    ∃ i fs', fs.openWrite p = .ok (i, fs') := by
  unfold openWrite
  split
  · exact ⟨_, _, rfl⟩
  · rename_i h; exact absurd h hd
  · rw [dif_pos (by rw [hp, List.dropLast_concat]; exact hq)]
    exact ⟨_, _, rfl⟩

/-- **Creating** empties the inode at the path; when nothing was there, it is a
new one. -/
theorem create_spec {i : ℕ} (h : fs.create p = .ok (i, fs')) :
    fs'.data = Function.update fs.data i [] ∧
      ((fs.lookup p = some (.file i) ∧ fs'.entries = fs.entries ∧ fs'.next = fs.next) ∨
        (fs.lookup p = none ∧ i = fs.next ∧ fs'.next = fs.next + 1 ∧
          fs'.entries = Function.update fs.entries (resolve p) (some (.file i)))) := by
  unfold create at h
  cases ho : fs.openWrite p with
  | error e => rw [ho] at h; cases h
  | ok r =>
    obtain ⟨j, fs₁⟩ := r
    rw [ho] at h
    cases h
    rcases openWrite_spec ho with ⟨rfl, hj⟩ | ⟨hn, rfl, hnext, he, hd⟩
    · exact ⟨rfl, .inl ⟨hj, rfl, rfl⟩⟩
    · exact ⟨by simp [hd], .inr ⟨hn, rfl, hnext, he⟩⟩

/-- **`rename`** moves the inode and nothing else. -/
theorem rename_spec (h : fs.rename p q = .ok fs') :
    ∃ i, fs.lookup p = some (.file i) ∧ fs'.data = fs.data ∧ fs'.next = fs.next ∧
      ((resolve q = resolve p ∧ fs' = fs) ∨ (resolve q ≠ resolve p ∧ fs.lookup q ≠ some .dir ∧
        fs'.entries = Function.update (Function.update fs.entries (resolve p) none)
          (resolve q) (some (.file i)))) := by
  unfold rename at h
  split at h
  · cases h
  split at h
  · cases h
  · cases h
  · rename_i i hi
    split_ifs at h with h1 h2 h3
    · cases h
      exact ⟨i, hi, rfl, rfl, .inl ⟨h1, rfl⟩⟩
    · cases h
      exact ⟨i, hi, rfl, rfl, .inr ⟨h1, h2, rfl⟩⟩

theorem fits_of_rename {c : String} (h : fs.rename p (q ++ [c]) = .ok fs') : nameFits c := by
  unfold rename at h
  split at h
  · cases h
  · rename_i hname
    rw [List.getLastD_concat] at hname
    rw [nameFits, hname]
    rfl

theorem rename_isOk {i : ℕ} {r : Path} {c : String} (hp : fs.lookup p = some (.file i))
    (hfits : nameFits (q.getLastD "")) (hq : resolve q = resolve r ++ [c])
    (hr : fs.lookup r = some .dir) (hd : fs.lookup q ≠ some .dir) :
    ∃ fs', fs.rename p q = .ok fs' := by
  unfold rename
  rw [Option.isNone_iff_eq_none.mp hfits]
  dsimp only
  split
  · rename_i h; rw [lookup, h] at hp; cases hp
  · rename_i h; rw [lookup, h] at hp; cases hp
  · split_ifs with h1 h2 h3
    · exact ⟨_, rfl⟩
    · exact absurd h2 hd
    · exact ⟨_, rfl⟩
    · exact absurd (by rw [hq, List.dropLast_concat]; exact hr) h3

/-! ### The same, in terms of file contents -/

/-- Nothing is in the way of `create_dir_all p`. -/
def DirOk (fs : Fs) (p : Path) : Prop := ∀ q, q <+: resolve p → ∀ i, fs.entries q ≠ some (.file i)

theorem dirOk_empty (p : Path) : empty.DirOk p := by
  intro q _ i hq
  by_cases hnil : q = [] <;> simp [empty, hnil] at hq

theorem dirOk_of_dir (h : fs.lookup p = some .dir) : fs.DirOk p := by
  intro q hq i hi
  rw [entries_above_dir h hq] at hi
  cases hi

theorem contents_createDirAll (h : fs.createDirAll p = .ok fs') (q : Path) :
    fs'.contents q = fs.contents q := by
  obtain ⟨hd, -, -, he⟩ := createDirAll_spec h
  unfold contents lookup
  rcases he (resolve q) with h1 | ⟨h1, h2, -⟩
  · rw [h1, hd]
  · rw [h1, h2]

theorem lookup_createDirAll (h : fs.createDirAll p = .ok fs') (q : Path) :
    fs'.lookup q = fs.lookup q ∨
      (fs.lookup q = none ∧ fs'.lookup q = some .dir ∧ resolve q <+: resolve p) :=
  (createDirAll_spec h).2.2.2 (resolve q)

theorem contents_eq_none_iff : fs.contents p = none ↔ ∀ i, fs.lookup p ≠ some (.file i) := by
  unfold contents
  rcases lookup_eq_dir_or_file_or_none fs p with h | h | ⟨i, h⟩ <;> simp [h]

theorem lookup_of_contents {bs : Bytes} (h : fs.contents p = some bs) :
    ∃ i, fs.lookup p = some (.file i) ∧ fs.data i = bs := by
  unfold contents at h
  split at h
  · rename_i i hi
    exact ⟨i, hi, Option.some.inj h⟩
  · cases h

/-- **Creating** changes no other path. -/
theorem contents_create {i : ℕ} (h : fs.create p = .ok (i, fs')) :
    (fs'.lookup p = some (.file i) ∧ fs'.data i = []) ∧
      ∀ q, resolve q ≠ resolve p → fs'.lookup q = fs.lookup q ∧ fs'.contents q = fs.contents q := by
  obtain ⟨hd, hcases⟩ := create_spec h
  -- the inode is at the path and at no other
  have hother : ∀ q, resolve q ≠ resolve p → fs'.lookup q = fs.lookup q ∧
    fs.lookup q ≠ some (.file i) := by
    intro q hq
    rcases hcases with ⟨hp, he, -⟩ | ⟨hp, rfl, -, he⟩
    · exact ⟨by rw [lookup, he]; rfl, fun hqi => hq (fs.unique _ _ i hqi hp)⟩
    · exact ⟨by rw [lookup, he, Function.update_of_ne hq]; rfl,
        fun hqi => (fs.fresh _ _ hqi).ne rfl⟩
  refine ⟨⟨?_, by rw [hd, Function.update_self]⟩, fun q hq => ⟨(hother q hq).1, ?_⟩⟩
  · rcases hcases with ⟨hp, he, -⟩ | ⟨hp, rfl, -, he⟩
    · rw [lookup, he]
      exact hp
    · rw [lookup, he, Function.update_self]
  · obtain ⟨hl, hne⟩ := hother q hq
    unfold contents
    rw [hl]
    rcases lookup_eq_dir_or_file_or_none fs q with h' | h' | ⟨j, h'⟩
    · rw [h']
    · rw [h']
    · have hij : j ≠ i := by
        rintro rfl
        exact hne h'
      simp only [h', hd, Function.update_of_ne hij]

theorem contents_writeAt {i : ℕ} (off : ℕ) (bs : Bytes) (h : fs.lookup p = some (.file i)) :
    (fs.writeAt i off bs).contents p = some (overwrite (fs.data i) off bs) := by
  have hl : (fs.writeAt i off bs).lookup p = some (.file i) := h
  rw [contents_of_file hl]
  simp [writeAt]

theorem contents_writeAt_of_ne {i : ℕ} (off : ℕ) (bs : Bytes)
    (h : fs.lookup p = some (.file i)) {q : Path}
    (hq : resolve q ≠ resolve p) : (fs.writeAt i off bs).contents q = fs.contents q := by
  have hl : (fs.writeAt i off bs).lookup q = fs.lookup q := rfl
  unfold contents
  rw [hl]
  rcases lookup_eq_dir_or_file_or_none fs q with h' | h' | ⟨j, h'⟩
  · rw [h']
  · rw [h']
  · have hij : j ≠ i := by
      rintro rfl
      exact hq (fs.unique _ _ _ h' h)
    simp only [h', writeAt, Function.update_of_ne hij]

/-- **Opening** adds at most an empty file at the path. -/
theorem contents_openWrite {i : ℕ} (h : fs.openWrite p = .ok (i, fs')) :
    fs'.lookup p = some (.file i) ∧ fs'.contents p = some ((fs.contents p).getD []) ∧
      ∀ q, resolve q ≠ resolve p → fs'.lookup q = fs.lookup q ∧ fs'.contents q = fs.contents q := by
  rcases openWrite_spec h with ⟨rfl, hi⟩ | ⟨hn, rfl, -, he, hd⟩
  · exact ⟨hi, by rw [contents_of_file hi]; rfl, fun _ _ => ⟨rfl, rfl⟩⟩
  · have hp : fs'.lookup p = some (.file fs.next) := by simp [lookup, he]
    refine ⟨hp, ?_, fun q hq => ?_⟩
    · rw [contents_of_file hp, contents, hn]
      simp [hd]
    · have hl : fs'.lookup q = fs.lookup q := by simp [lookup, he, hq]
      refine ⟨hl, ?_⟩
      unfold contents
      rw [hl]
      rcases lookup_eq_dir_or_file_or_none fs q with h' | h' | ⟨j, h'⟩
      · rw [h']
      · rw [h']
      · have hij : j ≠ fs.next := (fs.fresh _ _ h').ne
        rw [h']
        simp [hd, hij]

/-- **Opening and writing** changes the bytes of that path and of no other, and
adds no other entry. -/
theorem contents_openWrite_writeAt {i : ℕ} (off : ℕ) (bs : Bytes)
    (h : fs.openWrite p = .ok (i, fs')) :
    (fs'.writeAt i off bs).contents p =
        some (overwrite ((fs.contents p).getD []) off bs) ∧
      (∀ q, resolve q ≠ resolve p → (fs'.writeAt i off bs).lookup q = fs.lookup q ∧
        (fs'.writeAt i off bs).contents q = fs.contents q) ∧
      (fs'.writeAt i off bs).lookup p = some (.file i) := by
  obtain ⟨hi, hc, hother⟩ := contents_openWrite h
  rw [contents_of_file hi] at hc
  refine ⟨?_, fun q hq => ⟨(hother q hq).1, ?_⟩, hi⟩
  · rw [contents_writeAt off bs hi, Option.some.inj hc]
  · rw [contents_writeAt_of_ne off bs hi hq, (hother q hq).2]

/-- **Renaming** moves the bytes to the new path, and changes no other path. -/
theorem contents_rename (h : fs.rename p q = .ok fs') (hpq : resolve q ≠ resolve p) :
    fs'.contents q = fs.contents p ∧ (fs'.lookup q).isSome ∧ fs'.lookup p = none ∧
      ∀ r, resolve r ≠ resolve p → resolve r ≠ resolve q →
        fs'.lookup r = fs.lookup r ∧ fs'.contents r = fs.contents r := by
  obtain ⟨i, hi, hd, -, ⟨he, -⟩ | ⟨-, hq, he⟩⟩ := rename_spec h
  · exact absurd he hpq
  · have hq' : fs'.lookup q = some (.file i) := by simp [lookup, he]
    have hp' : fs'.lookup p = none := by
      rw [lookup, he, Function.update_of_ne (Ne.symm hpq), Function.update_self]
    refine ⟨?_, by rw [hq']; rfl, hp', fun r hr1 hr2 => ?_⟩
    · rw [contents_of_file hq', contents_of_file hi, hd]
    · have hl : fs'.lookup r = fs.lookup r := by
        rw [lookup, he, Function.update_of_ne hr2, Function.update_of_ne hr1]
        rfl
      exact ⟨hl, by unfold contents; rw [hl, hd]⟩

/-! ### The same, in one reading of a path -/

/-- What is at a path: nothing, a directory, or a file with its bytes. -/
def view (fs : Fs) (p : Path) : Option (Option Bytes) :=
  (fs.lookup p).map fun
    | .dir => none
    | .file i => some (fs.data i)

theorem view_eq_none_iff : fs.view p = none ↔ fs.lookup p = none := Option.map_eq_none_iff

theorem view_eq_dir_iff : fs.view p = some none ↔ fs.lookup p = some .dir := by
  unfold view
  rcases lookup_eq_dir_or_file_or_none fs p with h | h | ⟨i, h⟩ <;> simp [h]

theorem view_eq_file_iff {bs : Bytes} : fs.view p = some (some bs) ↔ fs.contents p = some bs := by
  unfold view contents
  rcases lookup_eq_dir_or_file_or_none fs p with h | h | ⟨i, h⟩ <;> simp [h]

theorem view_eq_of (hlookup : fs'.lookup p = fs.lookup p) (hcontents : fs'.contents p = fs.contents p) :
    fs'.view p = fs.view p := by
  unfold contents at hcontents
  unfold view
  rw [hlookup] at hcontents ⊢
  rcases lookup_eq_dir_or_file_or_none fs p with h | h | ⟨i, h⟩ <;> simp_all

theorem exists?_eq_view (fs : Fs) (p : Path) : fs.exists? p = (fs.view p).isSome := by
  rw [exists?, view, Option.isSome_map]

theorem read_eq_ok_iff_view {bs : Bytes} : fs.read p = .ok bs ↔ fs.view p = some (some bs) :=
  read_eq_ok_iff.trans view_eq_file_iff.symm

theorem view_createDirAll (h : fs.createDirAll p = .ok fs') :
    fs'.view p = some none ∧ ∀ q, ¬ resolve q <+: resolve p → fs'.view q = fs.view q := by
  refine ⟨view_eq_dir_iff.mpr (createDirAll_spec h).2.2.1, fun q hq => ?_⟩
  refine view_eq_of ?_ (contents_createDirAll h q)
  rcases lookup_createDirAll h q with heq | ⟨-, -, habove⟩
  · exact heq
  · exact absurd habove hq

/-- `write` leaves its bytes at the path, and changes no other. -/
theorem view_write {bs : Bytes} (h : fs.write p bs = .ok fs') :
    fs'.view p = some (some bs) ∧ ∀ q, resolve q ≠ resolve p → fs'.view q = fs.view q := by
  unfold write at h
  cases hcreate : fs.create p with
  | error e => rw [hcreate] at h; cases h
  | ok r =>
    obtain ⟨i, fs₁⟩ := r
    rw [hcreate] at h
    cases h
    obtain ⟨⟨hi, hempty⟩, hother⟩ := contents_create hcreate
    refine ⟨view_eq_file_iff.mpr ?_, fun q hq => view_eq_of (hother q hq).1 ?_⟩
    · rw [contents_writeAt 0 bs hi, hempty]
      simp [overwrite]
    · rw [contents_writeAt_of_ne 0 bs hi hq, (hother q hq).2]

theorem write_isOk {c : String} (hp : resolve p = resolve q ++ [c]) (hq : fs.view q = some none)
    (hd : fs.view p ≠ some none) (bs : Bytes) : ∃ fs', fs.write p bs = .ok fs' := by
  obtain ⟨i, fs₁, ho⟩ := openWrite_isOk hp (view_eq_dir_iff.mp hq) (mt view_eq_dir_iff.mpr hd)
  rw [write, create, ho]
  exact ⟨_, rfl⟩

/-- `rename` moves what is at the path, and changes no other. -/
theorem view_rename (h : fs.rename p q = .ok fs') (hpq : resolve q ≠ resolve p) :
    fs'.view q = fs.view p ∧ fs'.view p = none ∧
      ∀ r, resolve r ≠ resolve p → resolve r ≠ resolve q → fs'.view r = fs.view r := by
  obtain ⟨hq, -, hp, hother⟩ := contents_rename h hpq
  obtain ⟨i, hi, -, -, -⟩ := rename_spec h
  refine ⟨?_, view_eq_none_iff.mpr hp, fun r h1 h2 => view_eq_of (hother r h1 h2).1 (hother r h1 h2).2⟩
  rw [contents_of_file hi] at hq
  rw [view_eq_file_iff.mpr hq, view_eq_file_iff.mpr (contents_of_file hi)]

theorem rename_isOk_of_view {r : Path} {c : String} {bs : Bytes} (hp : fs.view p = some (some bs))
    (hfits : nameFits (q.getLastD "")) (hq : resolve q = resolve r ++ [c])
    (hr : fs.view r = some none) (hd : fs.view q ≠ some none) : ∃ fs', fs.rename p q = .ok fs' := by
  obtain ⟨i, hi, -⟩ := lookup_of_contents (view_eq_file_iff.mp hp)
  exact rename_isOk hi hfits hq (view_eq_dir_iff.mp hr) (mt view_eq_dir_iff.mpr hd)

end specs

end Fs
end NightBridge.Data
