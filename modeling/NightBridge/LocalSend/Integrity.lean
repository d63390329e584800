/-
# Uploads that write side by side

`InboxWriter::write_upload` streams a body to a file below `.incoming`, and
renames it to a name it has found free.  The name of the staged file is made
from the two ids, with every other character replaced by a dash; `File::create`
empties whatever is there.

| shared | by |
| --- | --- |
| the staged file | uploads of one file, or of ids that differ in replaced characters |
| the name in the inbox | uploads that found it free at the same time |

`Exclusive` says that neither happens: no call creates a staged file that
another running call has created, and no rename finds its target taken.  Then a
call that returns has published its own body, and nobody changes the file any
more (`upload_intact`).  Without it a file gets the bytes of another upload
(`upload_mixed`).
-/

import Mathlib.Data.Fintype.Basic
import NightBridge.Effect.Pool
import NightBridge.LocalSend.Footprint

namespace NightBridge.LocalSend

open Data Effect

/-! ### What one call does -/

/-- A call of an upload that has done `d`, on the tree. -/
inductive Acts (inboxDir : Path) (d : Progress) (fs : Fs) : Progress → Fs → Prop
  | quiet {d' : Progress} {fs' : Fs} (created : d'.created = d.created)
      (written : d'.written = d.written)
      (renamed : d'.renamed = d.renamed) (contents : ∀ q, fs'.contents q = fs.contents q)
      (lookup : ∀ q file, fs.lookup q = some (.file file) → fs'.lookup q = some (.file file)) :
      Acts inboxDir d fs d' fs'
  | create {path : Path} {file : ℕ} {fs' : Fs} (fresh : d = ⟨[], [], [], false, []⟩)
      (below : Below (incomingDir inboxDir) path) (made : fs.create path = .ok (file, fs')) :
      Acts inboxDir d fs ⟨[(path, file)], [], [], false, []⟩ fs'
  | write {path : Path} {file : ℕ} (bytes : Bytes) (created : d.created = [(path, file)])
      (unpublished : d.renamed = []) :
      Acts inboxDir d fs { d with written := d.written ++ bytes }
        (fs.writeAt file d.written.length bytes)
  | rename {source target : Path} {file : ℕ} {fs' : Fs} (created : d.created = [(source, file)])
      (unpublished : d.renamed = []) (below : Below inboxDir target)
      (moved : fs.rename source target = .ok fs') :
      Acts inboxDir d fs { d with renamed := [(source, target)] } fs'

theorem acts_of_eq {inboxDir : Path} {d d' : Progress} {fs : Fs} (created : d'.created = d.created)
    (written : d'.written = d.written) (renamed : d'.renamed = d.renamed) : Acts inboxDir d fs d' fs :=
  .quiet created written renamed (fun _ => rfl) fun _ _ h => h

/-- **Every call of the inbox writer is one of these.** -/
theorem acts_exec {inboxDir : Path} {hist : Calls} {o : Op} (ho : Writes inboxDir hist o) (s : Store)
    (b : Body) : Acts inboxDir (progress hist) s.fs (progress (hist ++ [⟨o, (exec o s b).1⟩]))
      (exec o s b).2.1.fs := by
  rw [progress_concat]
  cases o with
  | newUuid => exact acts_of_eq rfl rfl rfl
  | tryExists path => exact acts_of_eq rfl rfl rfl
  | createDirAll path =>
    rw [exec]
    cases hfs : s.fs.createDirAll path with
    | error e => exact acts_of_eq rfl rfl rfl
    | ok fs' =>
      refine .quiet rfl rfl rfl (Fs.contents_createDirAll hfs) fun q file hq => ?_
      rcases Fs.lookup_createDirAll hfs q with h | ⟨h, -⟩
      · exact h.trans hq
      · rw [h] at hq
        cases hq
  | create path =>
    obtain ⟨hd, hbelow⟩ := ho
    rw [exec]
    cases hfs : s.fs.create path with
    | error e => exact acts_of_eq rfl rfl rfl
    | ok r =>
      rw [hd]
      exact .create rfl hbelow hfs
  | writeAll file offset bytes =>
    obtain ⟨⟨path, hcreated⟩, rfl, -, -, hrenamed⟩ := ho
    exact .write bytes hcreated hrenamed
  | readBody max =>
    rw [exec]
    cases (Body.read max b.broken b.frames).1 with
    | error e => exact acts_of_eq rfl rfl rfl
    | ok bytes => exact acts_of_eq rfl rfl rfl
  | rename source target =>
    obtain ⟨⟨file, hcreated⟩, -, -, hbelow, hrenamed⟩ := ho
    rw [exec]
    cases hfs : s.fs.rename source target with
    | error e => exact acts_of_eq rfl rfl rfl
    | ok fs' =>
      have hafter : (progress hist).after ⟨.rename source target, .ok ()⟩ =
          { progress hist with renamed := [(source, target)] } := by
        simp [Progress.after, hrenamed]
      exact hafter ▸ .rename hcreated hrenamed hbelow hfs
  | _ => exact ho.elim

/-! ### The body -/

/-- **A read takes its bytes off the body**, and is empty only at its end. -/
theorem Body.read_bytes {max : ℕ} (hmax : 0 < max) {broken : Bool} (frames : List Bytes) {bytes : Bytes}
    (h : (Body.read max broken frames).1 = .ok bytes) :
    bytes ++ (Body.read max broken frames).2.bytes = frames.flatten ∧
      (bytes = [] → (Body.read max broken frames).2.bytes = []) := by
  fun_induction Body.read max broken frames with
  | case1 =>
    cases broken with
    | true => cases h
    | false =>
      obtain rfl := Except.ok.inj h
      exact ⟨rfl, fun _ => rfl⟩
  | case2 rest ih => exact ih h
  | case3 frame rest hne =>
    obtain rfl := Except.ok.inj h
    refine ⟨?_, fun hnil => ?_⟩
    · rw [Body.bytes, List.flatten_cons, List.flatten_cons, ← List.append_assoc, List.take_append_drop]
    · rcases List.take_eq_nil_iff.mp hnil with h0 | h0
      · omega
      · exact absurd h0 hne

theorem Body.read_error {max : ℕ} {broken : Bool} (frames : List Bytes) {e : IoFailure}
    (h : (Body.read max broken frames).1 = .error e) :
    (Body.read max broken frames).2.bytes = frames.flatten := by
  fun_induction Body.read max broken frames with
  | case1 => rfl
  | case2 rest ih => exact ih h
  | case3 frame rest hne => cases h

/-- What was read and what is left are the body, and the body has ended when a
read was empty. -/
def Streams (body : Body) (d : Progress) (b : Body) : Prop :=
  d.read ++ b.bytes = body.bytes ∧ (d.finished = true → b.bytes = [])

theorem Streams.exec {inboxDir : Path} {hist : Calls} {o : Op} {body b : Body} {s : Store}
    (ho : Writes inboxDir hist o) (h : Streams body (progress hist) b) :
    Streams body (progress (hist ++ [⟨o, (exec o s b).1⟩])) (exec o s b).2.2 := by
  rw [progress_concat]
  cases o with
  | newUuid => exact h
  | tryExists path => exact h
  | createDirAll path =>
    rw [LocalSend.exec]
    cases s.fs.createDirAll path <;> exact h
  | create path =>
    rw [LocalSend.exec]
    cases s.fs.create path <;> exact h
  | writeAll file offset bytes => exact h
  | rename source target =>
    rw [LocalSend.exec]
    cases s.fs.rename source target <;> exact h
  | readBody max =>
    obtain ⟨hmax, -, hfinished, -⟩ := ho
    rw [LocalSend.exec]
    cases hread : (Body.read max b.broken b.frames).1 with
    | error e =>
      have hrest := Body.read_error b.frames hread
      rw [Streams, hrest]
      exact h
    | ok bytes =>
      obtain ⟨happend, hend⟩ := Body.read_bytes hmax b.frames hread
      refine ⟨?_, fun hlast => hend ?_⟩
      · show (progress hist).read ++ bytes ++ _ = _
        rw [List.append_assoc, happend]
        exact h.1
      · simpa [Progress.after, hfinished] using hlast
  | _ => exact ho.elim

/-! ### Side by side -/

/-- Calls of the inbox writer that run side by side. -/
abbrev Writers (ι : Type) := Pool Op Resp LocalSendError WrittenUpload Store Body ι

def writers [Primitives] {ι : Type} (inboxDir : Path) (store : Store) (upload : ι → AuthorizedUpload)
    (body : ι → Body) : Writers ι :=
  .start store (fun i => InboxWriter.writeUpload ⟨inboxDir⟩ (upload i)) body

def creating : Op → Option Path
  | .create path => some path
  | _ => none

def renamingTo : Op → Option Path
  | .rename _ target => some target
  | _ => none

theorem creating_of_created {d : Progress} {o : Op} {r : Resp o} {e : Path × ℕ} (h : d.created = [])
    (h' : (d.after ⟨o, r⟩).created = [e]) : creating o = some e.1 := by
  rcases created_after d o r with heq | ⟨path, file, rfl, heq⟩
  · rw [heq, h] at h'
    cases h'
  · rw [heq, h] at h'
    obtain rfl := List.head_eq_of_cons_eq h'
    rfl

theorem renamingTo_of_renamed {d : Progress} {o : Op} {r : Resp o} {e : Path × Path} (h : d.renamed = [])
    (h' : (d.after ⟨o, r⟩).renamed = [e]) : renamingTo o = some e.2 := by
  by_cases hrename : ∃ source target, o = .rename source target
  · obtain ⟨source, target, rfl⟩ := hrename
    cases r with
    | error _ =>
      rw [show (d.after ⟨.rename source target, .error _⟩).renamed = d.renamed from rfl, h] at h'
      cases h'
    | ok u =>
      rw [Progress.after, h] at h'
      obtain rfl := List.head_eq_of_cons_eq h'
      rfl
  · rw [renamed_after fun source target he => hrename ⟨source, target, he⟩, h] at h'
    cases h'

/-- If `i` is about to create a file, no other running call has created it; if
it is about to rename, the name is free. -/
def Exclusive {ι : Type} (pool : Writers ι) (i : ι) : Prop :=
  (∀ path ∈ (pool.rest i).next?.bind creating, ∀ j, j ≠ i → (pool.rest j).next?.isSome = true →
    ∀ e ∈ (progress (pool.calls j)).created, resolve e.1 ≠ resolve path) ∧
  ∀ target ∈ (pool.rest i).next?.bind renamingTo, pool.shared.fs.lookup target = none

instance {ι : Type} [Fintype ι] [DecidableEq ι] (pool : Writers ι) (i : ι) :
    Decidable (Exclusive pool i) :=
  inferInstanceAs (Decidable (_ ∧ _))

/-- The call is running and has not renamed its file. -/
def Active {ι : Type} (pool : Writers ι) (i : ι) : Prop :=
  (pool.rest i).next?.isSome = true ∧ (progress (pool.calls i)).renamed = []

/-- What the calls have staged and published is theirs. -/
structure Intact {ι : Type} (inboxDir : Path) (pool : Writers ι) : Prop where
  staged : ∀ i path file, Active pool i → (progress (pool.calls i)).created = [(path, file)] →
    Below (incomingDir inboxDir) path ∧ pool.shared.fs.lookup path = some (.file file) ∧
      pool.shared.fs.contents path = some (progress (pool.calls i)).written
  apart : ∀ i j e e', i ≠ j → Active pool i → Active pool j → (progress (pool.calls i)).created = [e] →
    (progress (pool.calls j)).created = [e'] → resolve e.1 ≠ resolve e'.1
  published : ∀ i source target, (source, target) ∈ (progress (pool.calls i)).renamed →
    Below inboxDir target ∧ pool.shared.fs.contents target = some (progress (pool.calls i)).written

section step

variable {ι : Type} {inboxDir : Path} {pool pool' : Writers ι} {i : ι}

/-- A step of one call, as the other calls see it. -/
structure Moves (pool pool' : Writers ι) (i : ι) : Prop where
  running : (pool.rest i).next?.isSome = true
  calls : ∀ j, j ≠ i → pool'.calls j = pool.calls j
  rest : ∀ j, j ≠ i → pool'.rest j = pool.rest j

theorem Moves.active (h : Moves pool pool' i) {j : ι} (hj : j ≠ i) (hactive : Active pool' j) :
    Active pool j := by
  rw [Active, h.calls j hj, h.rest j hj] at hactive
  exact hactive

/-- **The frame**: a step keeps what the other calls have, if it leaves their
files alone, and it remains to look at the call itself. -/
theorem Intact.frame (h : Intact inboxDir pool) (hm : Moves pool pool' i)
    (hstaged : ∀ j e, j ≠ i → Active pool j → (progress (pool.calls j)).created = [e] →
      pool'.shared.fs.lookup e.1 = pool.shared.fs.lookup e.1 ∧
      pool'.shared.fs.contents e.1 = pool.shared.fs.contents e.1)
    (hpublished : ∀ target bytes, Below inboxDir target → pool.shared.fs.contents target = some bytes →
      pool'.shared.fs.contents target = some bytes)
    (hself : ∀ path file, Active pool' i → (progress (pool'.calls i)).created = [(path, file)] →
      Below (incomingDir inboxDir) path ∧ pool'.shared.fs.lookup path = some (.file file) ∧
      pool'.shared.fs.contents path = some (progress (pool'.calls i)).written)
    (hapart : ∀ j e e', j ≠ i → Active pool' i → Active pool j →
      (progress (pool'.calls i)).created = [e] →
      (progress (pool.calls j)).created = [e'] → resolve e'.1 ≠ resolve e.1)
    (hrenamed : ∀ source target, (source, target) ∈ (progress (pool'.calls i)).renamed →
      Below inboxDir target ∧
        pool'.shared.fs.contents target = some (progress (pool'.calls i)).written) :
    Intact inboxDir pool' := by
  constructor
  · intro j path file hactive hcreated
    by_cases hj : j = i
    · subst hj
      exact hself path file hactive hcreated
    · have hbefore := hm.active hj hactive
      rw [hm.calls j hj] at hcreated ⊢
      obtain ⟨hb, hl, hc⟩ := h.staged j path file hbefore hcreated
      obtain ⟨hl', hc'⟩ := hstaged j (path, file) hj hbefore hcreated
      exact ⟨hb, hl'.trans hl, hc'.trans hc⟩
  · intro j j' e e' hne hactive hactive' hcreated hcreated'
    by_cases hj : j = i
    · subst hj
      have hbefore := hm.active hne.symm hactive'
      rw [hm.calls j' hne.symm] at hcreated'
      exact (hapart j' e e' hne.symm hactive hbefore hcreated hcreated').symm
    · have hbefore := hm.active hj hactive
      rw [hm.calls j hj] at hcreated
      by_cases hj' : j' = i
      · subst hj'
        exact hapart j e' e hj hactive' hbefore hcreated' hcreated
      · rw [hm.calls j' hj'] at hcreated'
        exact h.apart j j' e e' hne hbefore (hm.active hj' hactive') hcreated hcreated'
  · intro j source target hmem
    by_cases hj : j = i
    · subst hj
      exact hrenamed source target hmem
    · rw [hm.calls j hj] at hmem ⊢
      obtain ⟨hb, hc⟩ := h.published j source target hmem
      exact ⟨hb, hpublished target _ hb hc⟩

/-- **One call keeps it**, if it finds what it needs free. -/
theorem Intact.acts (h : Intact inboxDir pool) (hm : Moves pool pool' i)
    (hacts : Acts inboxDir (progress (pool.calls i)) pool.shared.fs (progress (pool'.calls i))
      pool'.shared.fs)
    (hcreate : ∀ e, (progress (pool.calls i)).created = [] → (progress (pool'.calls i)).created = [e] →
      ∀ j, j ≠ i → (pool.rest j).next?.isSome = true →
        ∀ e' ∈ (progress (pool.calls j)).created, resolve e'.1 ≠ resolve e.1)
    (hrename : ∀ e, (progress (pool.calls i)).renamed = [] → (progress (pool'.calls i)).renamed = [e] →
      pool.shared.fs.lookup e.2 = none) : Intact inboxDir pool' := by
  have hactive : (progress (pool.calls i)).renamed = [] → Active pool i :=
    fun hnone => ⟨hm.running, hnone⟩
  generalize hd : progress (pool'.calls i) = d', hfs : pool'.shared.fs = fs' at hacts
  cases hacts with
  | quiet hcreated hwritten hrenamed hcontents hlookup =>
    subst hd hfs
    refine h.frame hm (fun j e hj hact he => ?_)
      (fun target bytes _ hb => (hcontents target).trans hb) ?_ ?_ ?_
    · obtain ⟨-, hl, -⟩ := h.staged j e.1 e.2 hact he
      exact ⟨(hlookup e.1 e.2 hl).trans hl.symm, hcontents e.1⟩
    · intro path file hact he
      obtain ⟨hb, hl, hc⟩ := h.staged i path file (hactive (hrenamed ▸ hact.2)) (hcreated ▸ he)
      exact ⟨hb, hlookup path file hl, by rw [hcontents, hc, hwritten]⟩
    · intro j e e' hj hact hact' he he'
      exact h.apart j i e' e hj hact' (hactive (hrenamed ▸ hact.2)) he' (hcreated ▸ he)
    · intro source target hmem
      obtain ⟨hb, hc⟩ := h.published i source target (hrenamed ▸ hmem)
      exact ⟨hb, by rw [hcontents, hc, hwritten]⟩
  | @create path file _ hfresh hbelow hmade =>
    subst hfs
    have hfree := hcreate (path, file) (by rw [hfresh]) (by rw [hd])
    obtain ⟨⟨hlookup, hempty⟩, hother⟩ := Fs.contents_create hmade
    refine h.frame hm (fun j e hj hact he => hother e.1 ?_) (fun target bytes hb hc => ?_) ?_ ?_ ?_
    · exact hfree j hj hact.1 e (by rw [he]; exact List.mem_singleton.mpr rfl)
    · exact (hother target (hb.ne_staged hbelow)).2.trans hc
    · intro path' file' _ he
      rw [hd] at he ⊢
      obtain ⟨rfl, rfl⟩ := Prod.mk.inj (List.head_eq_of_cons_eq he)
      exact ⟨hbelow, hlookup, by rw [Fs.contents_of_file hlookup, hempty]⟩
    · intro j e e' hj _ hact he he'
      rw [hd] at he
      obtain rfl := List.head_eq_of_cons_eq he
      exact hfree j hj hact.1 e' (by rw [he']; exact List.mem_singleton.mpr rfl)
    · intro source target hmem
      rw [hd] at hmem
      cases hmem
  | @write path file bytes hcreated hnone =>
    obtain ⟨hbelow, hlookup, hcontents⟩ := h.staged i path file (hactive hnone) hcreated
    have hother : ∀ q, resolve q ≠ resolve path →
        pool'.shared.fs.contents q = pool.shared.fs.contents q := by
      intro q hq
      rw [hfs]
      exact Fs.contents_writeAt_of_ne _ bytes hlookup hq
    refine h.frame hm (fun j e hj hact he => ⟨by rw [hfs]; rfl, hother e.1 ?_⟩)
      (fun target bytes hb hc => (hother target (hb.ne_staged hbelow)).trans hc) ?_ ?_ ?_
    · exact h.apart j i e (path, file) hj hact (hactive hnone) he hcreated
    · intro path' file' _ he
      rw [hd] at he ⊢
      obtain ⟨rfl, rfl⟩ := Prod.mk.inj (List.head_eq_of_cons_eq (hcreated.symm.trans he))
      have hdata : pool.shared.fs.data file = (progress (pool.calls i)).written :=
        Option.some.inj ((Fs.contents_of_file hlookup).symm.trans hcontents)
      refine ⟨hbelow, by rw [hfs]; exact hlookup, ?_⟩
      rw [hfs, Fs.contents_writeAt _ bytes hlookup, hdata, overwrite_length]
    · intro j e e' hj _ hact he he'
      rw [hd] at he
      exact h.apart j i e' e hj hact (hactive hnone) he' he
    · intro source target hmem
      rw [hd] at hmem
      exact absurd (hnone ▸ hmem) List.not_mem_nil
  | @rename source target file _ hcreated hnone hbelow hmoved =>
    subst hfs
    obtain ⟨hbelow', hlookup, hcontents⟩ := h.staged i source file (hactive hnone) hcreated
    have hfree := hrename (source, target) hnone (by rw [hd])
    obtain ⟨hmovedTo, -, -, hother⟩ := Fs.contents_rename hmoved (hbelow.ne_staged hbelow')
    refine h.frame hm (fun j e hj hact he => hother e.1 ?_ ?_) (fun target' bytes hb hc => ?_) ?_ ?_ ?_
    · exact h.apart j i e (source, file) hj hact (hactive hnone) he hcreated
    · exact (hbelow.ne_staged (h.staged j e.1 e.2 hact he).1).symm
    · refine (hother target' (hb.ne_staged hbelow') fun heq => ?_).2.trans hc
      rw [Fs.contents, Fs.lookup, heq, ← Fs.lookup, hfree] at hc
      cases hc
    · intro path file' hact _
      rw [Active, hd] at hact
      exact absurd hact.2 (List.cons_ne_nil _ _)
    · intro j e e' _ hact _ _ _
      rw [Active, hd] at hact
      exact absurd hact.2 (List.cons_ne_nil _ _)
    · intro source' target' hmem
      rw [hd] at hmem ⊢
      obtain ⟨rfl, rfl⟩ := Prod.mk.inj (List.mem_singleton.mp hmem)
      exact ⟨hbelow, hmovedTo.trans hcontents⟩

end step

section run

variable [Primitives] {ι : Type} [DecidableEq ι] {inboxDir : Path} {store : Store}
  {upload : ι → AuthorizedUpload} {body : ι → Body}

theorem writes_call {schedule : List ι} {i : ι} {o : Op} {k : Resp o → Io WrittenUpload}
    (hi : ((writers inboxDir store upload body).run exec schedule).rest i = .call o k) :
    Writes inboxDir (((writers inboxDir store upload body).run exec schedule).calls i) o :=
  Pool.guarded (p := fun i => InboxWriter.writeUpload ⟨inboxDir⟩ (upload i))
    (wp_inboxWriter (upload i) rfl) hi

theorem writer_returned {schedule : List ι} {i : ι} {w : WrittenUpload}
    (hr : ((writers inboxDir store upload body).run exec schedule).rest i = .ret w) :
    ∃ source file bytes, progress (((writers inboxDir store upload body).run exec schedule).calls i) =
        ⟨[(source, file)], bytes, bytes, true, [(source, w.path)]⟩ ∧
      w.bytesWritten = bytes.length ∧ w.sha256 = sha256Hex bytes :=
  Pool.returned (p := fun i => InboxWriter.writeUpload ⟨inboxDir⟩ (upload i))
    (wp_inboxWriter (upload i) rfl) hr

theorem intact_run {schedule : List ι}
    (hok : Pool.Orderly exec Exclusive (writers inboxDir store upload body) schedule) :
    Intact inboxDir ((writers inboxDir store upload body).run exec schedule) := by
  refine Pool.orderly_inv (fun schedule i o k h hi hfree => ?_) ?_ hok
  · have ho : Writes inboxDir _ o := writes_call hi
    have hnext : (Pool.rest _ i).next? = some o := congrArg Prog.next? hi
    refine h.acts ⟨by rw [hnext]; rfl, fun _ => Pool.calls_step_of_ne, fun _ => Pool.rest_step_of_ne⟩ ?_
      (fun e hnone hone => ?_) fun e hnone hone => ?_
    · rw [Pool.calls_step_self hi, Pool.shared_step hi]
      exact acts_exec ho _ _
    · rw [Pool.calls_step_self hi, progress_concat] at hone
      exact hfree.1 e.1 (by rw [hnext]; exact creating_of_created hnone hone)
    · rw [Pool.calls_step_self hi, progress_concat] at hone
      exact hfree.2 e.2 (by rw [hnext]; exact renamingTo_of_renamed hnone hone)
  · exact ⟨fun _ _ _ _ h => (nomatch h), fun _ _ _ _ _ _ _ h => (nomatch h), fun _ _ _ h => (nomatch h)⟩

theorem streams_run (schedule : List ι) (i : ι) :
    Streams (body i) (progress (((writers inboxDir store upload body).run exec schedule).calls i))
      (((writers inboxDir store upload body).run exec schedule).own i) :=
  Pool.own_inv (p := fun i => InboxWriter.writeUpload ⟨inboxDir⟩ (upload i))
    (I := fun h b => Streams (body i) (progress h) b) (wp_inboxWriter (upload i) rfl)
    (fun _ _ _ _ ho h => h.exec ho) ⟨rfl, nofun⟩ schedule

/-- **A call that returns has published its own body**, when the calls do not
share a staged file and no name is taken: the file it returns has the bytes of
the body, as many as it returns and with the digest it returns, and keeps them
whatever the calls do from then on. -/
theorem upload_intact {before after : List ι}
    (hok : Pool.Orderly exec Exclusive (writers inboxDir store upload body) (before ++ after)) {i : ι}
    {w : WrittenUpload} (hr : ((writers inboxDir store upload body).run exec before).rest i = .ret w) :
    w.bytesWritten = (body i).bytes.length ∧ w.sha256 = sha256Hex (body i).bytes ∧
      ((writers inboxDir store upload body).run exec before).shared.fs.contents w.path =
        some (body i).bytes ∧
      ((writers inboxDir store upload body).run exec (before ++ after)).shared.fs.contents w.path =
        some (body i).bytes := by
  obtain ⟨source, file, bytes, hd, hlen, hsha⟩ := writer_returned hr
  have hbytes : bytes = (body i).bytes := by
    obtain ⟨hread, hend⟩ : Streams (body i)
        (progress (((writers inboxDir store upload body).run exec before).calls i)) _ :=
          streams_run before i
    rw [hd] at hread hend
    rw [← hread, hend rfl, List.append_nil]
  subst hbytes
  -- the file is published in every state in which the call has made these calls
  have hpublished : ∀ schedule, Pool.Orderly exec Exclusive
    (writers inboxDir store upload body) schedule →
      ((writers inboxDir store upload body).run exec schedule).calls i =
        ((writers inboxDir store upload body).run exec before).calls i →
      ((writers inboxDir store upload body).run exec schedule).shared.fs.contents w.path =
        some (body i).bytes := by
    intro schedule hok hcalls
    have hd' : progress (((writers inboxDir store upload body).run exec schedule).calls i) = _ :=
      (congrArg progress hcalls).trans hd
    obtain ⟨-, hcontents⟩ := (intact_run hok).published i source w.path
      (by rw [hd']; exact List.mem_singleton.mpr rfl)
    rw [hd'] at hcontents
    exact hcontents
  refine ⟨hlen, hsha, hpublished before (Pool.orderly_append.mp hok).1 rfl, hpublished _ hok ?_⟩
  rw [Pool.run_append]
  exact (Pool.run_of_returned hr after).2

end run

/-! ### Two ids, one staged file -/

/-- Two ids that differ in a character that is replaced. -/
def collidingId (second : Bool) : String := if second then "a-b" else "a.b"

/-- The file with one of the ids. -/
def collidingFile (second : Bool) : FileMeta := { oneByteFile with id := collidingId second }

/-- An offer of both. -/
def collidingOffer : PrepareUploadRequest where
  info := oneFileOffer.info
  files := (BTreeMap.empty.insert "a.b" (collidingFile false)).insert "a-b" (collidingFile true)

/-- The uploads of the two files; the tokens are issued in the order of the ids. -/
def collidingUploads (second : Bool) : AuthorizedUpload :=
  ⟨tally 0, collidingId second, tally (if second then 1 else 2), collidingFile second⟩

/-- Both are uploaded, one byte each. -/
def twoWriters : Writers Bool :=
  @writers .sample Bool ["inbox"] (.fresh 60) collidingUploads fun second =>
    ⟨[[if second then 2 else 1]], false⟩

/-- One upload after the other shares nothing. -/
theorem upload_intact_in_turn :
    1 = [(1 : UInt8)].length ∧ @sha256Hex .sample [1] = @sha256Hex .sample [1] ∧
      (twoWriters.run exec (List.replicate 8 false)).shared.fs.contents ["inbox", "a.txt"] = some [1] ∧
      (twoWriters.run exec (List.replicate 8 false ++ List.replicate 9 true)).shared.fs.contents
        ["inbox", "a.txt"] = some [1] := by
  have horderly : Pool.Orderly exec Exclusive twoWriters
      (List.replicate 8 false ++ List.replicate 9 true) := by decide +kernel
  exact @upload_intact .sample Bool _ ["inbox"] (.fresh 60) collidingUploads _ _ _ horderly false
    ⟨["inbox", "a.txt"], 1, @sha256Hex .sample [1]⟩ rfl

/-- The first upload has written its byte, the second one creates its file and
writes its own, and then the first one goes on. -/
def mixedUploads : Writers Bool :=
  twoWriters.run exec (List.replicate 5 false ++ List.replicate 5 true ++ List.replicate 3 false)

/-- **A file gets the bytes of another upload**: both uploads are authorized,
the first call returns with the digest of its own body, and the file it has
published holds the other one's. -/
theorem upload_mixed :
    (∀ second, (((SessionManager.new 60).prepare 0 tally collidingOffer).2.authorizeUpload 0 (tally 0)
        (collidingId second) (tally (if second then 1 else 2))).1 = .ok (collidingUploads second)) ∧
      mixedUploads.rest false = .ret ⟨["inbox", "a.txt"], 1, @sha256Hex .sample [1]⟩ ∧
      mixedUploads.shared.fs.contents ["inbox", "a.txt"] = some [2] ∧
      @sha256Hex .sample [2] ≠ @sha256Hex .sample [1] := by
  refine ⟨fun second => by cases second <;> rfl, rfl, ?_⟩
  decide +kernel

end NightBridge.LocalSend
