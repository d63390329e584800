/-
# One inbox, two receivers

The daemon publishes what the native receiver finishes and what LocalSend
uploads into one directory.  Both look for a free name first and rename to it
afterwards, and neither keeps the name in between.

The calls of both run side by side on one tree (`Stores`).  `Unraced` says that
a call does not rename to a name that another one has found free and is about to
rename to, and that a write goes to the staged file that was opened for it.
Then a name that a call has found free stays so until the call renames to it
(`free_run`).  Without it an upload replaces a file that a native transfer has
just published (`inbox_replaced`).
-/

import Mathlib.Data.Set.Card
import Mathlib.Algebra.BigOperators.Group.Finset.Basic
import NightBridge.Effect.Embed
import NightBridge.LocalSend.Integrity
import NightBridge.Native.Race

namespace NightBridge.Daemon

open Data Effect
open Native.NativeTransferReceiver (partPath stagingRoot)

/-! ### The names of the inbox -/

/-- The files of the inbox, by name. -/
def inboxFiles (inboxDir : Path) (fs : Fs) : Set String :=
  {name | NormalName name ∧ (fs.contents (inboxDir ++ [name])).isSome = true}

/-- The tree has gained this file in the inbox, if any, and lost or changed none. -/
def Gains (inboxDir : Path) (fs fs' : Fs) : Option String → Prop
  | none => ∀ name, fs'.contents (inboxDir ++ [name]) = fs.contents (inboxDir ++ [name])
  | some name => NormalName name ∧ fs.contents (inboxDir ++ [name]) = none ∧
    (fs'.contents (inboxDir ++ [name])).isSome = true ∧
    ∀ name', name' ≠ name → fs'.contents (inboxDir ++ [name']) = fs.contents (inboxDir ++ [name'])

section gains

variable {inboxDir : Path} {fs fs' : Fs} {added : Option String}

theorem Gains.same (h : Gains inboxDir fs fs' added) {name : String} (hne : added ≠ some name) :
    fs'.contents (inboxDir ++ [name]) = fs.contents (inboxDir ++ [name]) := by
  cases added with
  | none => exact h name
  | some name' => exact h.2.2.2 name fun he => hne (he ▸ rfl)

theorem Gains.kept (h : Gains inboxDir fs fs' added) {name : String} {bytes : Bytes}
    (hb : fs.contents (inboxDir ++ [name]) = some bytes) :
    fs'.contents (inboxDir ++ [name]) = some bytes := by
  refine (h.same ?_).trans hb
  rintro rfl
  rw [h.2.1] at hb
  cases hb

theorem Gains.encard (h : Gains inboxDir fs fs' added) :
    (inboxFiles inboxDir fs').encard = (inboxFiles inboxDir fs).encard + added.toList.length := by
  cases added with
  | none =>
    have heq : inboxFiles inboxDir fs' = inboxFiles inboxDir fs := by
      ext name
      simp only [inboxFiles, Set.mem_ofPred_eq, h name]
    rw [heq]
    simp
  | some name =>
    obtain ⟨hname, hnone, hsome, hother⟩ := h
    have hnew : name ∉ inboxFiles inboxDir fs := by
      rintro ⟨-, h⟩
      rw [hnone] at h
      cases h
    have heq : inboxFiles inboxDir fs' = insert name (inboxFiles inboxDir fs) := by
      ext name'
      by_cases hn : name' = name
      · subst hn
        simp [inboxFiles, hname, hsome]
      · simp [inboxFiles, hn, hother name' hn]
    rw [heq, Set.encard_insert_of_notMem hnew]
    rfl

theorem contents_of_absent {path : Path} (h : fs.exists? path = false) : fs.contents path = none := by
  rw [Fs.contents, Option.not_isSome_iff_eq_none.mp (Bool.eq_false_iff.mp h)]

/-- A rename succeeds where no file is only if nothing is there. -/
theorem free_of_renamed {source target : Path} (hne : resolve target ≠ resolve source)
    (hnone : fs.contents target = none) (h : fs.rename source target = .ok fs') :
    fs.lookup target = none := by
  obtain ⟨-, -, -, -, ⟨he, -⟩ | ⟨-, hdir, -⟩⟩ := Fs.rename_spec h
  · exact absurd he hne
  · rcases fs.lookup_eq_dir_or_file_or_none target with h | h | ⟨file, h⟩
    · exact h
    · exact absurd h hdir
    · rw [Fs.contents_of_file h] at hnone
      cases hnone

/-- **A rename to a name without a file adds one.** -/
theorem gains_rename {source : Path} {name : String} (hname : NormalName name)
    (hsource : ∀ name', resolve (inboxDir ++ [name']) ≠ resolve source)
    (hnone : fs.contents (inboxDir ++ [name]) = none)
    (h : fs.rename source (inboxDir ++ [name]) = .ok fs') : Gains inboxDir fs fs' (some name) := by
  obtain ⟨file, hfile, -⟩ := Fs.rename_spec h
  obtain ⟨hmoved, -, -, hother⟩ := Fs.contents_rename h (hsource name)
  refine ⟨hname, hnone, ?_, fun name' hne => ?_⟩
  · rw [hmoved, Fs.contents_of_file hfile]
    rfl
  · exact (hother _ (hsource name') fun heq => hne (Native.resolve_name_inj hname heq)).2

end gains

/-! ### The native receiver -/

section native

variable [Primitives] {inboxDir : Path} {t : String} {hist : Native.Calls} {o : Native.Op}
  {s : Native.Store} {w : Native.Wire}

/-- **A call of the native receiver** adds the file that it renames, if its
handle is still at the staged path and there is no file under its name. -/
theorem gains_native (ho : Native.Concerns inboxDir t hist o)
    (hwrite : ∀ file offset bytes, o = .writeAt file offset bytes → ∀ path ∈ Native.opened file hist,
      s.fs.lookup path = some (.file file))
    (hrename : ∀ source target, o = .rename source target → s.fs.contents target = none) :
    ∃ added : Option String, (Native.renames (hist ++ [⟨o, (Native.exec o s w).1⟩])).length =
        (Native.renames hist).length + added.toList.length ∧
      Gains inboxDir s.fs (Native.exec o s w).2.1.fs added ∧
      ∀ name ∈ added, ∃ source, o = .rename source (inboxDir ++ [name]) := by
  by_cases hren : ∃ source target, o = .rename source target
  · obtain ⟨source, target, rfl⟩ := hren
    obtain ⟨file, name, -, hsource, rfl, -⟩ := ho
    rw [Native.exec]
    cases hfs : s.fs.rename source (inboxDir ++ [name]) with
    | error e => exact ⟨none, by simp [Native.renames, Native.onFs], fun _ => rfl, nofun⟩
    | ok fs' =>
      have hnone := hrename _ _ rfl
      have hname : NormalName name := by
        have hfree := free_of_renamed (hsource.ne_name name) hnone hfs
        obtain ⟨d, f, -, -, rfl⟩ := hsource
        obtain ⟨i, hi, -⟩ := Fs.rename_spec hfs
        exact Native.normalName_of_free (Native.lookup_inbox_of_staged (by rw [hi]; rfl))
          (by rw [Native.takenIn, Fs.exists?, hfree]; rfl)
      refine ⟨some name, by simp [Native.renames, Native.onFs],
        gains_rename hname hsource.ne_name hnone hfs, ?_⟩
      rintro _ ⟨rfl⟩
      exact ⟨source, rfl⟩
  · have hne : ∀ source target, o ≠ .rename source target :=
      fun source target he => hren ⟨source, target, he⟩
    refine ⟨none, by rw [Native.renames_concat hne]; rfl,
      fun name => (Native.fs_exec (w := w) fun htouch => ?_).1, nofun⟩
    cases o with
    | openWrite q =>
      obtain ⟨f, hq⟩ := ho
      exact hq.ne_name name htouch
    | writeAt file offset bytes =>
      obtain ⟨path, f, hopened, hpath⟩ := ho
      have hhandle := hwrite file offset bytes rfl path (Native.mem_opened hopened)
      exact hpath.ne_name name (s.fs.unique _ _ _ htouch hhandle)
    | rename source target => exact hne source target rfl
    | _ => exact htouch

end native

/-! ### LocalSend -/

section localSend

variable {inboxDir : Path} {hist : LocalSend.Calls} {o : LocalSend.Op} {s : LocalSend.Store}
  {b : LocalSend.Body}

/-- **A call of the inbox writer** adds the file that it renames, if its handle
is still at the staged path and there is no file under its name. -/
theorem gains_localSend (ho : LocalSend.Writes inboxDir hist o)
    (hstaged : ∀ e ∈ (LocalSend.progress hist).created,
      LocalSend.Below (LocalSend.incomingDir inboxDir) e.1)
    (hwrite : ∀ file offset bytes, o = .writeAll file offset bytes →
      ∀ e ∈ (LocalSend.progress hist).created, s.fs.lookup e.1 = some (.file e.2))
    (hrename : ∀ source target, o = .rename source target → s.fs.contents target = none) :
    ∃ added : Option String, (LocalSend.published (hist ++ [⟨o, (LocalSend.exec o s b).1⟩])).length =
        (LocalSend.published hist).length + added.toList.length ∧
      Gains inboxDir s.fs (LocalSend.exec o s b).2.1.fs added ∧
      ∀ name ∈ added, ∃ source, o = .rename source (inboxDir ++ [name]) := by
  by_cases hren : ∃ source target, o = .rename source target
  · obtain ⟨source, target, rfl⟩ := hren
    obtain ⟨⟨file, hcreated⟩, -, -, ⟨name, rfl, hname⟩, -⟩ := ho
    rw [LocalSend.length_published, LocalSend.length_published, LocalSend.progress_concat,
      LocalSend.exec]
    cases hfs : s.fs.rename source (inboxDir ++ [name]) with
    | error e => exact ⟨none, rfl, fun _ => rfl, by simp⟩
    | ok fs' =>
      have hbelow := hstaged (source, file) (by rw [hcreated]; exact List.mem_singleton.mpr rfl)
      refine ⟨some name, by simp [LocalSend.onFs, LocalSend.Progress.after],
        gains_rename hname hbelow.ne_name (hrename _ _ rfl) hfs, ?_⟩
      rintro _ ⟨rfl⟩
      exact ⟨source, rfl⟩
  · have hne : ∀ source target, o ≠ .rename source target :=
      fun source target he => hren ⟨source, target, he⟩
    refine ⟨none, by rw [LocalSend.published_concat hne]; rfl, fun name => ?_, by simp⟩
    cases o with
    | createDirAll path =>
      rw [LocalSend.exec]
      cases hfs : s.fs.createDirAll path with
      | error e => rfl
      | ok fs' => exact Fs.contents_createDirAll hfs _
    | create path =>
      rw [LocalSend.exec]
      cases hfs : s.fs.create path with
      | error e => rfl
      | ok r => exact ((Fs.contents_create hfs).2 _ (ho.2.ne_name name)).2
    | writeAll file offset bytes =>
      obtain ⟨⟨path, hcreated⟩, -⟩ := ho
      have hmem : (path, file) ∈ (LocalSend.progress hist).created := by
        rw [hcreated]
        exact List.mem_singleton.mpr rfl
      exact Fs.contents_writeAt_of_ne offset bytes (hwrite file offset bytes rfl _ hmem)
        ((hstaged _ hmem).ne_name name)
    | rename source target => exact absurd rfl (hne source target)
    | _ => rfl

end localSend

/-! ### Side by side -/

/-- The operations of the two receivers. -/
abbrev InboxOp := Native.Op ⊕ LocalSend.Op

abbrev InboxResp : InboxOp → Type := SumResp Native.Resp LocalSend.Resp

/-- The stores of the two receivers, on one tree. -/
structure Stores where
  native : Native.Store
  localSend : LocalSend.Store
  same : localSend.fs = native.fs

/-- Run an operation of either receiver. -/
def execInbox : (o : InboxOp) → Stores → Native.Wire × LocalSend.Body →
    InboxResp o × Stores × (Native.Wire × LocalSend.Body)
  | .inl o, s, t =>
    let r := Native.exec o s.native t.1
    (r.1, ⟨r.2.1, { s.localSend with fs := r.2.1.fs }, rfl⟩, (r.2.2, t.2))
  | .inr o, s, t =>
    let r := LocalSend.exec o s.localSend t.2
    (r.1, ⟨{ s.native with fs := r.2.1.fs }, r.2.1, rfl⟩, (t.1, r.2.2))

/-- The calls of either receiver in a history. -/
abbrev nativeCalls (hist : History InboxOp InboxResp) : Native.Calls := Embedding.left.calls hist

abbrev localSendCalls (hist : History InboxOp InboxResp) : LocalSend.Calls := Embedding.right.calls hist

/-- A call of one of the receivers. -/
inductive Receiving
  | native (call : Native.Call)
  | upload (authorized : LocalSend.AuthorizedUpload)

def Receiving.prog [Primitives] (receiver : Native.NativeTransferReceiver) :
    Receiving → Prog InboxOp InboxResp (Native.NativeError ⊕ LocalSend.LocalSendError) Unit
  | .native call => ((call.exec receiver).mapError .inl).embed .left
  | .upload authorized =>
    (do
      let _ ← (LocalSend.InboxWriter.writeUpload ⟨receiver.inboxDir⟩ authorized).mapError Sum.inr
      pure ()).embed .right

/-- The number of files a call has renamed into the inbox. -/
def publications (hist : History InboxOp InboxResp) : ℕ :=
  (Native.renames (nativeCalls hist)).length + (LocalSend.published (localSendCalls hist)).length

/-- A handle is still at its path. -/
def HandleKept (fs : Fs) (hist : History InboxOp InboxResp) : InboxOp → Bool
  | .inl (.writeAt file _ _) =>
    (Native.opened file (nativeCalls hist)).all fun path => fs.lookup path = some (.file file)
  | .inr (.writeAll ..) =>
    (LocalSend.progress (localSendCalls hist)).created.all fun e => fs.lookup e.1 = some (.file e.2)
  | _ => true

def target? : InboxOp → Option Path
  | .inl (.rename _ target) => some target
  | .inr (.rename _ target) => some target
  | _ => none

/-- The calls a receiving program makes.  It is one of a single receiver, and
what it renames to it has just found free. -/
def Receives [Primitives] (inboxDir : Path) (hist : History InboxOp InboxResp) : InboxOp → Prop
  | .inl o => (∃ t, Native.Concerns inboxDir t (nativeCalls hist) o) ∧ localSendCalls hist = []
  | .inr o => (LocalSend.Writes inboxDir (localSendCalls hist) o ∧ ∀ source target,
      o = .rename source target → LocalSend.Probed (localSendCalls hist) target) ∧ nativeCalls hist = []

section step

variable [Primitives] {inboxDir : Path} {hist : History InboxOp InboxResp} {o : InboxOp}

theorem wp_receiving (receiver : Native.NativeTransferReceiver) (receiving : Receiving) :
    (receiving.prog receiver).wp (Receives receiver.inboxDir) (fun _ _ => True) [] := by
  cases receiving with
  | native call =>
    refine Prog.wp_mono (Prog.wp_inv (I := fun h => localSendCalls h = [])
      (Prog.wp_embed (Prog.wp_mapError.mpr (Native.wp_callExec receiver call))) ?_ rfl) ?_
      fun _ _ _ _ => trivial
    · rintro h _ r ⟨o, rfl, -⟩ hnone
      exact (Embedding.right_calls_inl o r).trans hnone
    · rintro h _ - ⟨⟨o, rfl, ho⟩, hnone⟩
      exact ⟨⟨_, ho⟩, hnone⟩
  | upload authorized =>
    have hwrites : (do
        let _ ← (LocalSend.InboxWriter.writeUpload ⟨receiver.inboxDir⟩ authorized).mapError
          (Sum.inr : _ → Native.NativeError ⊕ LocalSend.LocalSendError)
        pure () : Prog _ _ _ Unit).wp (fun h o => LocalSend.Writes receiver.inboxDir h o ∧
          ∀ source target, o = .rename source target → LocalSend.Probed h target) (fun _ _ => True)
        (localSendCalls []) :=
      Prog.wp_bind_of (Prog.wp_mapError.mpr (LocalSend.wp_inboxWriter_probed authorized rfl)) fun _ _
        _ _ => trivial
    refine Prog.wp_mono (Prog.wp_inv (I := fun h => nativeCalls h = []) (Prog.wp_embed hwrites) ?_ rfl) ?_
      fun _ _ _ _ => trivial
    · rintro h _ r ⟨o, rfl, -⟩ hnone
      exact (Embedding.left_calls_inr o r).trans hnone
    · rintro h _ - ⟨⟨o, rfl, ho⟩, hnone⟩
      exact ⟨ho, hnone⟩

theorem Receives.target (ho : Receives inboxDir hist o) {target : Path} (h : target? o = some target) :
    ∃ name, target = inboxDir ++ [name] := by
  cases o with
  | inl o => cases o with
    | rename source target' =>
      obtain ⟨⟨-, -, name, -, -, rfl, -⟩, -⟩ := ho
      exact ⟨name, (Option.some.inj h).symm⟩
    | _ => cases h
  | inr o => cases o with
    | rename source target' =>
      obtain ⟨⟨⟨-, -, -, ⟨name, rfl, -⟩, -⟩, -⟩, -⟩ := ho
      exact ⟨name, (Option.some.inj h).symm⟩
    | _ => cases h

/-- **A name is free just after it was found so.** -/
theorem Receives.free {o' : InboxOp} {s : Stores} {t : Native.Wire × LocalSend.Body}
    (ho : Receives inboxDir (hist ++ [⟨o', (execInbox o' s t).1⟩]) o) {target : Path}
    (h : target? o = some target) : (execInbox o' s t).2.1.native.fs.contents target = none := by
  cases o with
  | inl o => cases o with
    | rename source target' =>
      obtain rfl := Option.some.inj h
      obtain ⟨⟨-, -, -, -, -, -, hlast⟩, hpure⟩ := ho
      cases o' with
      | inl o' =>
        rw [show nativeCalls _ = _ from Embedding.left_calls_inl o' _, List.getLast?_concat] at hlast
        obtain ⟨rfl, hanswer⟩ := Event.mk.inj (Option.some.inj hlast)
        exact contents_of_absent (eq_of_heq hanswer)
      | inr o' =>
        rw [show localSendCalls _ = _ from Embedding.right_calls_inr o' _] at hpure
        simp at hpure
    | _ => cases h
  | inr o => cases o with
    | rename source target' =>
      obtain rfl := Option.some.inj h
      obtain ⟨⟨-, hprobed⟩, hpure⟩ := ho
      have hlast := hprobed source _ rfl
      cases o' with
      | inl o' =>
        rw [show nativeCalls _ = _ from Embedding.left_calls_inl o' _] at hpure
        simp at hpure
      | inr o' =>
        rw [LocalSend.Probed, show localSendCalls _ = _ from Embedding.right_calls_inr o' _,
          List.getLast?_concat] at hlast
        obtain ⟨rfl, hanswer⟩ := Event.mk.inj (Option.some.inj hlast)
        have hfound : LocalSend.foundAt s.localSend.fs target' = .ok false := eq_of_heq hanswer
        unfold LocalSend.foundAt at hfound
        split at hfound
        · cases hfound
        · exact contents_of_absent (Except.ok.inj hfound)
    | _ => cases h

/-- What an upload has created is staged. -/
def StagedBelow (inboxDir : Path) (hist : History InboxOp InboxResp) : Prop :=
  ∀ e ∈ (LocalSend.progress (localSendCalls hist)).created,
    LocalSend.Below (LocalSend.incomingDir inboxDir) e.1

theorem Receives.below (ho : Receives inboxDir hist o) (r : InboxResp o)
    (h : StagedBelow inboxDir hist) :
    StagedBelow inboxDir (hist ++ [⟨o, r⟩]) := by
  cases o with
  | inl o =>
    rw [StagedBelow, localSendCalls, Embedding.right_calls_inl]
    exact h
  | inr o =>
    rw [StagedBelow, localSendCalls, Embedding.right_calls_inr]
    exact LocalSend.Writes.below ho.1.1 r h

/-- **A call of either receiver** adds the file that it renames. -/
theorem gains_exec {s : Stores} {t : Native.Wire × LocalSend.Body} (ho : Receives inboxDir hist o)
    (hstaged : StagedBelow inboxDir hist) (hkept : HandleKept s.native.fs hist o = true)
    (hfree : ∀ target, target? o = some target → s.native.fs.contents target = none) :
    ∃ added : Option String,
      publications (hist ++ [⟨o, (execInbox o s t).1⟩]) = publications hist + added.toList.length ∧
      Gains inboxDir s.native.fs (execInbox o s t).2.1.native.fs added ∧
      ∀ name ∈ added, target? o = some (inboxDir ++ [name]) := by
  cases o with
  | inl o =>
    obtain ⟨⟨id, ho⟩, -⟩ := ho
    obtain ⟨added, hcount, hgains, hadded⟩ := gains_native (w := t.1) ho
      (fun file offset bytes he => by subst he; simpa [HandleKept] using hkept)
      (fun source target he => hfree target (by rw [he]; rfl))
    have hnative : nativeCalls (hist ++ [⟨.inl o, (execInbox (.inl o) s t).1⟩]) = _ :=
      Embedding.left_calls_inl o _
    have hlocalSend : localSendCalls (hist ++ [⟨.inl o, (execInbox (.inl o) s t).1⟩]) =
      localSendCalls hist :=
      Embedding.right_calls_inl o _
    refine ⟨added, ?_, hgains, fun name hname => ?_⟩
    · rw [publications, publications, hnative, hlocalSend]
      exact (congrArg (· + _) hcount).trans (Nat.add_right_comm ..)
    · obtain ⟨source, rfl⟩ := hadded name hname
      rfl
  | inr o =>
    obtain ⟨added, hcount, hgains, hadded⟩ := gains_localSend (s := s.localSend) (b := t.2) ho.1.1 hstaged
      (fun file offset bytes he => by subst he; rw [s.same]; simpa [HandleKept] using hkept)
      (fun source target he => by rw [s.same]; exact hfree target (by rw [he]; rfl))
    rw [s.same] at hgains
    have hnative : nativeCalls (hist ++ [⟨.inr o, (execInbox (.inr o) s t).1⟩]) = nativeCalls hist :=
      Embedding.left_calls_inr o _
    have hlocalSend : localSendCalls (hist ++ [⟨.inr o, (execInbox (.inr o) s t).1⟩]) = _ :=
      Embedding.right_calls_inr o _
    refine ⟨added, ?_, hgains, fun name hname => ?_⟩
    · rw [publications, publications, hnative, hlocalSend]
      exact (congrArg (_ + ·) hcount).trans (Nat.add_assoc ..).symm
    · obtain ⟨source, rfl⟩ := hadded name hname
      rfl

end step

/-- Calls of the two receivers that run side by side. -/
abbrev Receivers (ι : Type) :=
  Pool InboxOp InboxResp (Native.NativeError ⊕ LocalSend.LocalSendError) Unit Stores
    (Native.Wire × LocalSend.Body) ι

def receivers [Primitives] {ι : Type} (receiver : Native.NativeTransferReceiver) (s : Stores)
    (receiving : ι → Receiving) (body : ι → LocalSend.Body) : Receivers ι :=
  .start s (fun i => (receiving i).prog receiver) fun i => (.fresh, body i)

/-- The name that the call `i` has found free and is about to rename to. -/
def pending {ι : Type} (pool : Receivers ι) (i : ι) : Option Path := (pool.rest i).next?.bind target?

/-- The next step of `i` does not rename to a name that another call is about to
rename to, and writes through a handle that is still at its path. -/
def Unraced {ι : Type} (pool : Receivers ι) (i : ι) : Prop :=
  (pool.rest i).next?.all (HandleKept pool.shared.native.fs (pool.calls i)) = true ∧
    ∀ j, j ≠ i → pending pool i = none ∨ pending pool j ≠ pending pool i

instance {ι : Type} [Fintype ι] [DecidableEq ι] (pool : Receivers ι) (i : ι) : Decidable (Unraced pool i) :=
  inferInstanceAs (Decidable (_ ∧ _))

/-- There is no file under a name that a call is about to rename to. -/
def Free {ι : Type} (pool : Receivers ι) : Prop :=
  ∀ i target, pending pool i = some target → pool.shared.native.fs.contents target = none

section run

variable [Primitives] {ι : Type} [DecidableEq ι] {receiver : Native.NativeTransferReceiver} {s : Stores}
  {receiving : ι → Receiving} {body : ι → LocalSend.Body}

theorem receives_call {schedule : List ι} {i : ι} {o : InboxOp}
    {k : InboxResp o → Prog InboxOp InboxResp (Native.NativeError ⊕ LocalSend.LocalSendError) Unit}
    (hi : ((receivers receiver s receiving body).run execInbox schedule).rest i = .call o k) :
    Receives receiver.inboxDir (((receivers receiver s receiving body).run execInbox
      schedule).calls i) o :=
  Pool.guarded (p := fun i => (receiving i).prog receiver) (wp_receiving receiver (receiving i)) hi

theorem receives_pending (schedule : List ι) {i : ι} {target : Path}
    (h : pending ((receivers receiver s receiving body).run execInbox schedule) i = some target) :
    ∃ o, target? o = some target ∧ Receives receiver.inboxDir
      (((receivers receiver s receiving body).run execInbox schedule).calls i) o := by
  obtain ⟨o, ho, htarget⟩ := Option.bind_eq_some_iff.mp h
  obtain ⟨k, hi⟩ := Prog.eq_call_of_next? ho
  exact ⟨o, htarget, receives_call hi⟩

theorem stagedBelow_run (schedule : List ι) (i : ι) :
    StagedBelow receiver.inboxDir (((receivers receiver s receiving body).run execInbox
      schedule).calls i) :=
  Pool.calls_inv (p := fun i => (receiving i).prog receiver) (wp_receiving receiver (receiving i))
    (fun _ _ r ho h => Receives.below ho r h) nofun schedule

/-- **A step** adds the file that it renames. -/
theorem gains_step {schedule : List ι} {i : ι}
    (hfree : Free ((receivers receiver s receiving body).run execInbox schedule))
    (hok : Unraced ((receivers receiver s receiving body).run execInbox schedule) i) :
    ∃ added : Option String, (∀ j, publications (((receivers receiver s receiving body).run execInbox
      (schedule ++ [i])).calls j) =
        publications (((receivers receiver s receiving body).run execInbox schedule).calls j) +
          if j = i then added.toList.length else 0) ∧
      Gains receiver.inboxDir ((receivers receiver s receiving body).run execInbox
        schedule).shared.native.fs
        ((receivers receiver s receiving body).run execInbox (schedule ++ [i])).shared.native.fs added ∧
      ∀ name ∈ added, pending ((receivers receiver s receiving body).run execInbox schedule) i =
        some (receiver.inboxDir ++ [name]) := by
  rw [Pool.run_concat]
  rcases Pool.step_cases execInbox ((receivers receiver s receiving body).run execInbox schedule) i with
    hs | ⟨o, k, hi⟩
  · rw [hs]
    exact ⟨none, fun j => by simp, fun _ => rfl, nofun⟩
  · have hpending : pending ((receivers receiver s receiving body).run execInbox schedule) i = target? o := by
      rw [pending, hi]
      rfl
    have hkept := hok.1
    rw [hi] at hkept
    obtain ⟨added, hcount, hgains, hadded⟩ := gains_exec (receives_call hi) (stagedBelow_run schedule i)
      hkept fun target htarget => hfree i target (hpending.trans htarget)
    refine ⟨added, fun j => ?_, by rw [Pool.shared_step hi]; exact hgains,
      fun name hname => hpending.trans (hadded name hname)⟩
    by_cases hj : j = i
    · subst hj
      rw [Pool.calls_step_self hi, if_pos rfl]
      exact hcount
    · rw [Pool.calls_step_of_ne hj, if_neg hj, Nat.add_zero]

/-- **A free name stays free** until the call that has found it renames to it. -/
theorem free_step {schedule : List ι} {i : ι} {o : InboxOp}
    {k : InboxResp o → Prog InboxOp InboxResp (Native.NativeError ⊕ LocalSend.LocalSendError) Unit}
    (hfree : Free ((receivers receiver s receiving body).run execInbox schedule))
    (hi : ((receivers receiver s receiving body).run execInbox schedule).rest i = .call o k)
    (hok : Unraced ((receivers receiver s receiving body).run execInbox schedule) i) :
    Free (((receivers receiver s receiving body).run execInbox schedule).step execInbox i) := by
  intro j target hj
  rw [← Pool.run_concat] at hj ⊢
  obtain ⟨o', htarget, hreceives⟩ := receives_pending _ hj
  by_cases hji : j = i
  · -- its last call was the one that found the name
    subst hji
    rw [Pool.run_concat, Pool.calls_step_self hi] at hreceives
    rw [Pool.run_concat, Pool.shared_step hi]
    exact hreceives.free htarget
  · -- the step renames to another name
    obtain ⟨name, rfl⟩ := hreceives.target htarget
    rw [Pool.run_concat, pending, Pool.rest_step_of_ne hji] at hj
    obtain ⟨added, -, hgains, hadded⟩ := gains_step hfree hok
    refine (hgains.same ?_).trans (hfree j _ hj)
    rintro rfl
    have hsame := hadded name rfl
    rcases hok.2 j hji with hnone | hne
    · rw [hnone] at hsame
      cases hsame
    · exact hne (Eq.trans hj hsame.symm)

theorem free_run {schedule : List ι}
    (hok : Pool.Orderly execInbox Unraced (receivers receiver s receiving body) schedule) :
    Free ((receivers receiver s receiving body).run execInbox schedule) := by
  refine Pool.orderly_inv (I := Free) (fun schedule i o k hfree hi hlast => free_step hfree hi hlast) ?_ hok
  -- nothing has been found yet
  intro i target hi
  obtain ⟨o, htarget, hreceives⟩ := receives_pending [] hi
  cases o with
  | inl o => cases o with
    | rename => cases hreceives.1.choose_spec.choose_spec.choose_spec.2.2.2
    | _ => cases htarget
  | inr o => cases o with
    | rename source target => cases hreceives.1.2 source target rfl
    | _ => cases htarget

/-- The files of the inbox stay as they are, between any two states of a run. -/
theorem contents_kept {before after : List ι}
    (hok : Pool.Orderly execInbox Unraced (receivers receiver s receiving body) (before ++ after))
    {name : String} {bytes : Bytes}
    (hb : ((receivers receiver s receiving body).run execInbox before).shared.native.fs.contents
      (receiver.inboxDir ++ [name]) = some bytes) :
    ((receivers receiver s receiving body).run execInbox (before ++ after)).shared.native.fs.contents
      (receiver.inboxDir ++ [name]) = some bytes := by
  have hfree := free_run (Pool.orderly_append.mp hok).1
  refine (Pool.orderly_inv_from (I := fun pool => Free pool ∧ pool.shared.native.fs.contents
    (receiver.inboxDir ++ [name]) = some bytes) (fun schedule i o k ih hi hlast => ?_) before ⟨hfree, hb⟩
    hok).2
  obtain ⟨added, -, hgains, -⟩ := gains_step ih.1 hlast
  rw [Pool.run_concat] at hgains
  exact ⟨free_step ih.1 hi hlast, hgains.kept ih.2⟩

/-- The files of the inbox, counted. -/
theorem encard_inboxFiles {schedule : List ι} (calls : Finset ι) (hcalls : ∀ i ∈ schedule, i ∈ calls)
    (hok : Pool.Orderly execInbox Unraced (receivers receiver s receiving body) schedule) :
    (inboxFiles receiver.inboxDir
        ((receivers receiver s receiving body).run execInbox schedule).shared.native.fs).encard =
      (inboxFiles receiver.inboxDir s.native.fs).encard +
        (∑ i ∈ calls, publications (((receivers receiver s receiving body).run execInbox
          schedule).calls i) : ℕ) := by
  induction schedule using List.reverseRecOn with
  | nil =>
    have hnone : ∑ i ∈ calls, publications ((receivers receiver s receiving body).calls i) = 0 :=
      Finset.sum_eq_zero fun _ _ => rfl
    rw [Pool.run_nil, hnone, Nat.cast_zero, add_zero]
    rfl
  | append_singleton schedule i ih =>
    obtain ⟨hbefore, hlast, -⟩ := Pool.orderly_append.mp hok
    obtain ⟨added, hcount, hgains, -⟩ := gains_step (free_run hbefore) hlast
    rw [hgains.encard, ih (fun j hj => hcalls j (by simp [hj])) hbefore]
    have hsum : ∑ j ∈ calls, publications
        (((receivers receiver s receiving body).run execInbox (schedule ++ [i])).calls j) =
        ∑ j ∈ calls, publications (((receivers receiver s receiving body).run execInbox
          schedule).calls j) + added.toList.length := by
      simp only [hcount, Finset.sum_add_distrib, Finset.sum_ite_eq', hcalls i (by simp), if_true]
    rw [hsum, Nat.cast_add, add_assoc]

/-- **Receiving never overwrites**, when no two calls race for a name or a
staged file: a file that is in the inbox at some time keeps its bytes, and the
run adds one file for each publication. -/
theorem inbox_kept {before after : List ι}
    (hok : Pool.Orderly execInbox Unraced (receivers receiver s receiving body) (before ++ after)) :
    (∀ name bytes,
        ((receivers receiver s receiving body).run execInbox before).shared.native.fs.contents
          (receiver.inboxDir ++ [name]) = some bytes →
        ((receivers receiver s receiving body).run execInbox (before ++ after)).shared.native.fs.contents
          (receiver.inboxDir ++ [name]) = some bytes) ∧
      (inboxFiles receiver.inboxDir
          ((receivers receiver s receiving body).run execInbox
            (before ++ after)).shared.native.fs).encard =
        (inboxFiles receiver.inboxDir s.native.fs).encard + (∑ i ∈ (before ++ after).toFinset,
          publications (((receivers receiver s receiving body).run execInbox
            (before ++ after)).calls i) : ℕ) :=
  ⟨fun _ _ hb => contents_kept hok hb, encard_inboxFiles _ (fun _ hi => List.mem_toFinset.mpr hi) hok⟩

end run

/-! ### Two receivers, one name -/

/-- A native transfer of a file `a.txt` is ready to be finished. -/
def readyStores : Stores :=
  ⟨Native.digestStore, { LocalSend.Store.fresh 60 with fs := Native.digestStore.fs }, rfl⟩

/-- It is finished, and a file of the same name is uploaded. -/
def twoReceivers : Receivers Bool :=
  @receivers .sample Bool Native.sampleReceiver readyStores
    (fun second => if second then .upload ⟨"session", "file-1", "token", LocalSend.oneByteFile⟩
      else .native (.finish "tx")) fun _ => ⟨[[2]], false⟩

/-- The upload is staged, then the transfer is finished, and then the upload
looks for a name. -/
def orderlySchedule : List Bool := List.replicate 6 true ++ List.replicate 12 false

/-- The second file gets another name. -/
theorem inbox_kept_interleaved :
    (∀ name bytes,
        (twoReceivers.run execInbox orderlySchedule).shared.native.fs.contents
          (["inbox"] ++ [name]) = some bytes →
        (twoReceivers.run execInbox (orderlySchedule ++ List.replicate 3 true)).shared.native.fs.contents
          (["inbox"] ++ [name]) = some bytes) ∧
      (inboxFiles ["inbox"] (twoReceivers.run execInbox
          (orderlySchedule ++ List.replicate 3 true)).shared.native.fs).encard =
        (inboxFiles ["inbox"] readyStores.native.fs).encard + 2 := by
  have horderly : Pool.Orderly execInbox Unraced twoReceivers
      (orderlySchedule ++ List.replicate 3 true) := by decide +kernel
  have hcount : ∑ i ∈ (orderlySchedule ++ List.replicate 3 true).toFinset,
      publications ((twoReceivers.run execInbox (orderlySchedule ++ List.replicate 3 true)).calls i) = 2 := by
    decide +kernel
  obtain ⟨hkept, hcard⟩ := @inbox_kept .sample Bool _ Native.sampleReceiver readyStores _ _ _ _ horderly
  exact ⟨hkept, hcard.trans (congrArg (fun n : ℕ => (inboxFiles ["inbox"] readyStores.native.fs).encard +
    (n : ℕ∞)) hcount)⟩

/-- The upload has found its name free; then the transfer is finished, and the
upload goes on for a number of steps. -/
def racedReceivers (n : ℕ) : Receivers Bool :=
  twoReceivers.run execInbox (List.replicate 7 true ++ List.replicate 12 false ++ List.replicate n true)

/-- **A file in the inbox is replaced**: the rename of the upload overwrites
what the transfer has published, and two publications have left one file. -/
theorem inbox_replaced :
    (racedReceivers 0).shared.native.fs.contents ["inbox", "a.txt"] = some [1] ∧
      (racedReceivers 1).shared.native.fs.contents ["inbox", "a.txt"] = some [2] ∧
      publications ((racedReceivers 1).calls false) = 1 ∧
      publications ((racedReceivers 1).calls true) = 1 ∧
      (racedReceivers 1).shared.native.fs.contents ["inbox", "a (1).txt"] = none := by
  decide +kernel

end NightBridge.Daemon
