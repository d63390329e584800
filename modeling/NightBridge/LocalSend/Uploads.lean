/-
# Uploads side by side

`write_upload` takes the lock of the session manager twice: `authorize_upload`
looks at the flag of the file, `mark_uploaded` sets it, and in between the body
is streamed and the file is published.  Nothing holds the two together.

Two requests for one file that are both authorized before either is marked both
publish it (`published_twice`); `Alone` rules this out.  A session that is
cancelled or runs out after the rename makes `mark_uploaded` fail, and the
request is answered with an error although its file is in the inbox
(`published_forbidden`); `StillLive` rules that out.
-/

import Mathlib.Data.Fintype.Basic
import NightBridge.Effect.Pool
import NightBridge.LocalSend.Footprint
import NightBridge.LocalSend.TokenTable

namespace NightBridge.LocalSend

open Data Effect

/-- Requests that are served side by side, with the store they share. -/
abbrev Server (ι : Type) := Pool Op Resp Empty (Except LocalSendError StatusCode) Store Body ι

def requests [Primitives] {ι : Type} (state : ServerState) (store : Store) (request : ι → Request)
    (body : ι → Body) : Server ι :=
  .start store (fun i => ((request i).handle state).attempt) body

/-! ### Tokens that are used up -/

/-- No token of the file of the session is accepted any more. -/
def Spent (store : Store) (s f : String) : Prop :=
  ∀ now, store.instants.time 0 ≤ now → ∀ token fileMeta,
    ¬ Waits store.sessions.sessions now s f token fileMeta

/-- Only the methods of the session manager change the sessions. -/
theorem sessions_exec {o : Op} (ho : ∀ o', o ≠ .session o') (store : Store) (b : Body) :
    (exec o store b).2.1.sessions = store.sessions ∧ (exec o store b).2.1.instants = store.instants := by
  cases o with
  | session o' => exact absurd rfl (ho o')
  | createDirAll path =>
    rw [exec]
    cases store.fs.createDirAll path <;> exact ⟨rfl, rfl⟩
  | create path =>
    rw [exec]
    cases store.fs.create path <;> exact ⟨rfl, rfl⟩
  | rename source target =>
    rw [exec]
    cases store.fs.rename source target <;> exact ⟨rfl, rfl⟩
  | _ => exact ⟨rfl, rfl⟩

section spent

variable {store : Store} {b : Body} {s f : String}

theorem spent_session {o : SessionOp}
    (h : ∀ now, store.instants.time 0 ≤ now → ∀ token fileMeta,
      ¬ Waits (store.sessions.exec (store.instants.time 0) store.uuids o).2.sessions now s f
        token fileMeta) :
    Spent (exec (.session o) store b).2.1 s f := by
  intro now hnow
  exact h now ((store.instants.mono (Nat.zero_le 1)).trans hnow)

/-- **Marking a file uses its tokens up**, whether the mark is accepted or the
session is gone. -/
theorem spent_markUploaded : Spent (exec (.session (.markUploaded s f)) store b).2.1 s f := by
  refine spent_session fun now hnow token fileMeta hwaits => ?_
  obtain ⟨hbefore, hends⟩ := (waits_markUploaded hnow).mp hwaits
  obtain ⟨session, hsession, -, hfile⟩ := (waits_live store.sessions.sessions hnow).mpr hbefore
  have hfound := findFile_eq_ok_iff.mpr ⟨session, hsession, hfile⟩
  refine hends ?_
  simp only [SessionManager.markUploaded, hfound]
  exact ⟨rfl, rfl⟩

/-- What is used up stays so. -/
theorem Spent.exec {inboxDir : Path} {hist : Calls} {o : Op} (h : Spent store s f)
    (ho : Uploads inboxDir hist o) : Spent (exec o store b).2.1 s f := by
  have hother : (∀ o', o ≠ .session o') → Spent (LocalSend.exec o store b).2.1 s f := by
    intro hne
    obtain ⟨hsessions, hinstants⟩ := sessions_exec hne store b
    rw [Spent, hsessions, hinstants]
    exact h
  cases o with
  | session o => cases o with
    | sessionIdForFile | authorizeUpload =>
      exact spent_session fun now hnow token fileMeta hwaits =>
        h now hnow token fileMeta ((waits_live store.sessions.sessions hnow).mp hwaits)
    | markUploaded s' f' =>
      exact spent_session fun now hnow token fileMeta hwaits =>
        h now hnow token fileMeta ((waits_markUploaded hnow).mp hwaits).1
    | prepare | cancel | cancelAll | pruneExpired => exact ho.1.elim
  | _ => exact hother fun _ h => by cases h

theorem Spent.not_authorized {token : String} {upload : AuthorizedUpload} (h : Spent store s f) :
    (LocalSend.exec (.session (.authorizeUpload s f token)) store b).1 ≠ .ok upload := by
  intro hok
  obtain ⟨fileMeta, -, hwaits⟩ := authorizeUpload_eq_ok_iff.mp hok
  exact h _ le_rfl token fileMeta hwaits

end spent

/-! ### At most once -/

/-- The session and the file a call asks to authorize. -/
def authorizing : Op → Option (String × String)
  | .session (.authorizeUpload s f _) => some (s, f)
  | _ => none

/-- If `i` is about to be authorized for a file, every other request that was
authorized for it has ended. -/
def Alone {ι : Type} (pool : Server ι) (i : ι) : Prop :=
  ∀ key ∈ (pool.rest i).next?.bind authorizing, ∀ j, j ≠ i → key ∈ authorized (pool.calls j) →
    (pool.rest j).next? = none

instance {ι : Type} [Fintype ι] [DecidableEq ι] (pool : Server ι) (i : ι) : Decidable (Alone pool i) :=
  inferInstanceAs (Decidable (∀ _ ∈ _, _))

/-- The request has ended and published nothing. -/
def Idle {ι : Type} (pool : Server ι) (i : ι) : Prop :=
  (pool.rest i).next? = none ∧ published (pool.calls i) = []

/-- What keeps a file from being published twice. -/
structure Once {ι : Type} (pool : Server ι) : Prop where
  spent : ∀ i s f r, ⟨.session (.markUploaded s f), r⟩ ∈ pool.calls i → Spent pool.shared s f
  single : ∀ i j key, i ≠ j → key ∈ authorized (pool.calls i) → key ∈ authorized (pool.calls j) →
    Idle pool i ∨ Idle pool j

section once

variable {ι : Type} {pool : Server ι} {inboxDir : Path}

/-- An upload that has ended and published something has been marked. -/
theorem marked_of_published {i : ι}
    (hwp : (pool.rest i).wp (Uploads inboxDir) Outcome (pool.calls i))
    (hend : (pool.rest i).next? = none) (hpub : published (pool.calls i) ≠ []) :
    ∃ s f r, authorized (pool.calls i) = [(s, f)] ∧
      ⟨.session (.markUploaded s f), r⟩ ∈ pool.calls i := by
  obtain ⟨r, hr⟩ := Prog.eq_ret_of_next? hend
  rw [hr] at hwp
  match r, hwp with
  | .ok .ok, ⟨_, s, f, hkey, hmark⟩ => exact ⟨s, f, _, hkey, hmark⟩
  | .ok .badRequest, hnone | .ok .forbidden, hnone | .ok .conflict, hnone
  | .ok .internalServerError, hnone => exact absurd hnone hpub
  | .error _, .inl hnone => exact absurd hnone hpub
  | .error _, .inr ⟨_, s, f, e, hkey, hmark⟩ => exact ⟨s, f, _, hkey, hmark⟩

/-- **A file is authorized again only if nobody has published it.** -/
theorem Once.idle (honce : Once pool) {i j : ι} {s f token : String} {upload : AuthorizedUpload}
    (hwp : (pool.rest j).wp (Uploads inboxDir) Outcome (pool.calls j)) (halone : Alone pool i)
    (hi : (pool.rest i).next? = some (.session (.authorizeUpload s f token)))
    (hok : (exec (.session (.authorizeUpload s f token)) pool.shared (pool.own i)).1 = .ok upload)
    (hne : j ≠ i) (hj : (s, f) ∈ authorized (pool.calls j)) : Idle pool j := by
  have hend := halone (s, f) (by rw [hi]; rfl) j hne hj
  refine ⟨hend, ?_⟩
  by_contra hpub
  obtain ⟨s', f', r, hkey, hmark⟩ := marked_of_published hwp hend hpub
  rw [hkey, List.mem_singleton] at hj
  obtain ⟨rfl, rfl⟩ := Prod.mk.inj hj
  exact (honce.spent j _ _ r hmark).not_authorized hok

variable [DecidableEq ι]

theorem Idle.step {i j : ι} {o : Op} {k : Resp o → Prog Op Resp Empty (Except LocalSendError StatusCode)}
    (h : Idle pool j) (hi : pool.rest i = .call o k) : Idle (pool.step exec i) j := by
  have hne : j ≠ i := by
    rintro rfl
    have := h.1
    rw [hi] at this
    cases this
  rw [Idle, Pool.rest_step_of_ne hne, Pool.calls_step_of_ne hne]
  exact h

/-- **One call keeps it.** -/
theorem Once.step (honce : Once pool) (hwp : ∀ i,
    (pool.rest i).wp (Uploads inboxDir) Outcome (pool.calls i))
    {i : ι} {o : Op} {k : Resp o → Prog Op Resp Empty (Except LocalSendError StatusCode)}
    (hi : pool.rest i = .call o k) (halone : Alone pool i) : Once (pool.step exec i) := by
  have ho : Uploads inboxDir (pool.calls i) o := by
    have hcall := hwp i
    rw [hi] at hcall
    exact hcall.1
  -- a request is authorized already, or by this call
  have hauth : ∀ j s f, (s, f) ∈ authorized ((pool.step exec i).calls j) →
      (s, f) ∈ authorized (pool.calls j) ∨ (j = i ∧ ∃ token upload,
        (pool.rest i).next? = some (.session (.authorizeUpload s f token)) ∧
        (exec (.session (.authorizeUpload s f token)) pool.shared (pool.own i)).1 = .ok upload) := by
    intro j s f hkey
    obtain ⟨token, upload, he⟩ := mem_authorized.mp hkey
    rcases Pool.mem_calls_step hi he with hbefore | ⟨rfl, hevent⟩
    · exact .inl (mem_authorized.mpr ⟨token, upload, hbefore⟩)
    · obtain ⟨rfl, hanswer⟩ := Event.mk.inj hevent
      exact .inr ⟨rfl, token, upload, by rw [hi]; rfl, (eq_of_heq hanswer).symm⟩
  constructor
  · intro j s f r hmark
    rw [Pool.shared_step hi]
    rcases Pool.mem_calls_step hi hmark with hbefore | ⟨rfl, hevent⟩
    · exact (honce.spent j s f r hbefore).exec ho
    · obtain ⟨rfl, -⟩ := Event.mk.inj hevent
      exact spent_markUploaded
  · rintro j j' ⟨s, f⟩ hne hj hj'
    rcases hauth j s f hj with hold | ⟨rfl, token, upload, hnext, hok⟩
    · rcases hauth j' s f hj' with hold' | ⟨rfl, token, upload, hnext, hok⟩
      · exact (honce.single j j' (s, f) hne hold hold').imp (·.step hi) (·.step hi)
      · exact .inl ((honce.idle (hwp j) halone hnext hok hne hold).step hi)
    · rcases hauth j' s f hj' with hold' | ⟨rfl, -⟩
      · exact .inr ((honce.idle (hwp j') halone hnext hok hne.symm hold').step hi)
      · exact absurd rfl hne

end once

section served

variable [Primitives] {ι : Type} [DecidableEq ι] {state : ServerState} {store : Store}
  {request : ι → Request} {body : ι → Body} {schedule : List ι}

theorem wp_requests {i : ι} (h : (request i).IsUpload = true) (schedule : List ι) :
    (((requests state store request body).run exec schedule).rest i).wp (Uploads state.inboxDir) Outcome
      (((requests state store request body).run exec schedule).calls i) :=
  Pool.wp_rest (p := fun i => ((request i).handle state).attempt) exec store body
    (wp_handle state h) schedule

theorem uploads_call {i : ι} {o : Op} {k : Resp o →
    Prog Op Resp Empty (Except LocalSendError StatusCode)}
    (h : (request i).IsUpload = true)
    (hcall : ((requests state store request body).run exec schedule).rest i = .call o k) :
    Uploads state.inboxDir (((requests state store request body).run exec schedule).calls i) o :=
  Pool.guarded (p := fun i => ((request i).handle state).attempt) (wp_handle state h) hcall

theorem upload_outcome {i : ι} {r : Except LocalSendError StatusCode} (h : (request i).IsUpload = true)
    (hr : ((requests state store request body).run exec schedule).rest i = .ret r) :
    Outcome (((requests state store request body).run exec schedule).calls i) r :=
  Pool.returned (p := fun i => ((request i).handle state).attempt) (wp_handle state h) hr

theorem once_run (hrequest : ∀ i, (request i).IsUpload = true)
    (hok : Pool.Orderly exec Alone (requests state store request body) schedule) :
    Once ((requests state store request body).run exec schedule) := by
  refine Pool.orderly_inv (fun schedule i o k honce hi halone => ?_) ?_ hok
  · exact honce.step (fun j => wp_requests (hrequest j) schedule) hi halone
  · exact ⟨fun _ _ _ _ h => (nomatch h), fun _ _ _ _ h => (nomatch h)⟩

theorem length_published_le {i : ι} (h : (request i).IsUpload = true) (schedule : List ι) :
    (published (((requests state store request body).run exec schedule).calls i)).length ≤ 1 :=
  Pool.calls_inv (p := fun i => ((request i).handle state).attempt) (I :=
    fun h => (published h).length ≤ 1)
    (wp_handle state h) (fun _ _ r ho hle => ho.length_published_le hle r) (Nat.zero_le 1) schedule

/-- **A file of a session is published at most once**, when no request is
authorized for it while another one that was authorized for it is still running:
each request publishes at most one file, and of two requests that were
authorized for one file and have published, one is the other. -/
theorem published_once (hrequest : ∀ i, (request i).IsUpload = true)
    (hok : Pool.Orderly exec Alone (requests state store request body) schedule) :
    (∀ i, (published (((requests state store request body).run exec schedule).calls i)).length ≤ 1) ∧
      ∀ i j s f, (s, f) ∈ authorized (((requests state store request body).run exec schedule).calls i) →
        (s, f) ∈ authorized (((requests state store request body).run exec schedule).calls j) →
        published (((requests state store request body).run exec schedule).calls i) ≠ [] →
        published (((requests state store request body).run exec schedule).calls j) ≠ [] → i = j := by
  refine ⟨fun i => length_published_le (hrequest i) schedule, fun i j s f hi hj hpub hpub' => ?_⟩
  by_contra hne
  rcases (once_run hrequest hok).single i j (s, f) hne hi hj with hidle | hidle
  · exact hpub hidle.2
  · exact hpub' hidle.2

end served

/-! ### Two uploads of one file -/

/-- A server that takes every offer. -/
def openServer : ServerState := ⟨["inbox"], .auto, [], none, none⟩

/-- One file has been prepared for upload. -/
def preparedStore : Store := (exec (.session (.prepare oneFileOffer)) (.fresh 60) .empty).2.1

def oneUpload : Request := .upload ⟨tally 0, "file-1", tally 1⟩

/-- Two requests upload it, one byte each. -/
def twoUploads : Server Bool :=
  @requests .sample Bool openServer preparedStore (fun _ => oneUpload) fun second =>
    ⟨[[if second then 2 else 1]], false⟩

/-- One upload after the other: the second one is refused. -/
theorem published_once_refused :
    published ((twoUploads.run exec (List.replicate 10 false ++ [true])).calls false) =
      [["inbox", "a.txt"]] ∧
      ((∀ i, (published ((twoUploads.run exec (List.replicate 10 false ++ [true])).calls
        i)).length ≤ 1) ∧
        ∀ i j s f, (s, f) ∈ authorized ((twoUploads.run exec
          (List.replicate 10 false ++ [true])).calls i) →
          (s, f) ∈ authorized ((twoUploads.run exec (List.replicate 10 false ++ [true])).calls j) →
          published ((twoUploads.run exec (List.replicate 10 false ++ [true])).calls i) ≠ [] →
          published ((twoUploads.run exec (List.replicate 10 false ++ [true])).calls j) ≠
            [] → i = j) := by
  have horderly : Pool.Orderly exec Alone twoUploads (List.replicate 10 false ++ [true]) := by
    decide +kernel
  refine ⟨by decide +kernel, ?_⟩
  exact @published_once .sample Bool _ openServer preparedStore (fun _ => oneUpload) _ _
    (fun _ => rfl) horderly

/-- **One file is published twice**: both requests are authorized before either
goes on. -/
theorem published_twice :
    authorized ((twoUploads.run exec ([false, true] ++ List.replicate 9 false ++ List.replicate
      10 true)).calls
        false) = [(tally 0, "file-1")] ∧
      authorized ((twoUploads.run exec ([false, true] ++ List.replicate 9 false ++ List.replicate
        10 true)).calls
        true) = [(tally 0, "file-1")] ∧
      published ((twoUploads.run exec ([false, true] ++ List.replicate 9 false ++ List.replicate
        10 true)).calls
        false) = [["inbox", "a.txt"]] ∧
      published ((twoUploads.run exec ([false, true] ++ List.replicate 9 false ++ List.replicate
        10 true)).calls
        true) = [["inbox", "a (1).txt"]] := by
  decide +kernel

/-! ### Answers -/

/-- The session and the file a call marks. -/
def marking : Op → Option (String × String)
  | .session (.markUploaded s f) => some (s, f)
  | _ => none

/-- If `i` is about to mark a file, its session is live and has the file. -/
def StillLive {ι : Type} (pool : Server ι) (i : ι) : Prop :=
  ∀ key ∈ (pool.rest i).next?.bind marking,
    (findFile (live (pool.shared.instants.time 0) pool.shared.sessions.sessions) key.1 key.2).isOk = true

instance {ι : Type} (pool : Server ι) (i : ι) : Decidable (StillLive pool i) :=
  inferInstanceAs (Decidable (∀ _ ∈ _, _))

theorem markUploaded_isOk {store : Store} {b : Body} {s f : String}
    (h : (findFile (live (store.instants.time 0) store.sessions.sessions) s f).isOk = true) :
    (exec (.session (.markUploaded s f)) store b).1 = .ok () := by
  show (SessionManager.markUploaded ..).1 = _
  unfold SessionManager.markUploaded
  cases hfile : findFile (live (store.instants.time 0) store.sessions.sessions) s f with
  | error e => rw [hfile] at h; cases h
  | ok file => simp only [hfile]

/-- A call other than a rename puts no file into the inbox. -/
theorem contents_eq_none_exec {inboxDir path : Path} {hist : Calls} {o : Op} {store : Store} {b : Body}
    (ho : Uploads inboxDir hist o) (hpub : published (hist ++ [⟨o, (exec o store b).1⟩]) = [])
    (hbelow : Below inboxDir path) (hnone : store.fs.contents path = none) :
    (exec o store b).2.1.fs.contents path = none := by
  cases o with
  | createDirAll dir =>
    rw [exec]
    cases hfs : store.fs.createDirAll dir with
    | error e => exact hnone
    | ok fs => exact (Fs.contents_createDirAll hfs path).trans hnone
  | create staged =>
    rw [exec]
    cases hfs : store.fs.create staged with
    | error e => exact hnone
    | ok r => exact ((Fs.contents_create hfs).2 path (hbelow.ne_staged ho.1.2)).2.trans hnone
  | writeAll file offset bytes =>
    rw [Fs.contents_eq_none_iff] at hnone ⊢
    exact hnone
  | rename source target =>
    rw [exec] at hpub ⊢
    cases hfs : store.fs.rename source target with
    | error e => exact hnone
    | ok fs =>
      rw [hfs, published, progress_concat] at hpub
      simp [onFs, Progress.after] at hpub
  | _ => exact hnone

theorem apiError_ne_ok (e : LocalSendError) : apiError e ≠ some .ok := by
  cases e <;> exact nofun

section answers

variable [Primitives] {ι : Type} [DecidableEq ι] {state : ServerState} {store : Store}
  {request : ι → Request} {body : ι → Body} {schedule : List ι}

/-- A session that is still there is marked. -/
theorem no_mark_fails (hok : Pool.Orderly exec StillLive (requests state store request body) schedule)
    (i : ι) (s f : String) (e : LocalSendError) : ⟨.session (.markUploaded s f), .error e⟩ ∉
      ((requests state store request body).run exec schedule).calls i := by
  revert i s f e
  refine Pool.orderly_inv (I := fun pool => ∀ i s f e,
    (⟨.session (.markUploaded s f), .error e⟩ : Event Op Resp) ∉ pool.calls i)
    (fun schedule i o k ih hi hlive => ?_) (fun _ _ _ _ h => nomatch h) hok
  intro j s f e hmark
  rcases Pool.mem_calls_step hi hmark with hbefore | ⟨rfl, hevent⟩
  · exact ih j s f e hbefore
  · obtain ⟨rfl, hanswer⟩ := Event.mk.inj hevent
    have hmarked := markUploaded_isOk (b :=
      ((requests state store request body).run exec schedule).own j)
      (hlive (s, f) (by rw [show (Pool.run _ _ _).rest j = _ from hi]; rfl))
    exact absurd ((eq_of_heq hanswer).trans hmarked) nofun

/-- An upload that published nothing put no file into the inbox. -/
theorem contents_eq_none_of_unpublished {before after : List ι} {i : ι} {path : Path}
    (hi : (request i).IsUpload = true)
    (hpub : published (((requests state store request body).run exec
      (before ++ i :: after)).calls i) = [])
    (hbelow : Below state.inboxDir path)
    (hnone : ((requests state store request body).run exec before).shared.fs.contents path = none) :
    ((requests state store request body).run exec (before ++ [i])).shared.fs.contents path = none := by
  rw [Pool.run_concat]
  rcases Pool.step_cases exec ((requests state store request body).run exec before)
    i with hs | ⟨o, k, hcall⟩
  · rw [hs]
    exact hnone
  · have hlast : published (((requests state store request body).run exec
      (before ++ [i])).calls i) = [] := by
      rw [List.append_cons, Pool.run_append] at hpub
      exact List.prefix_nil.mp (hpub ▸ published_mono (Pool.calls_prefix_run after))
    rw [Pool.run_concat, Pool.calls_step_self hcall] at hlast
    rw [Pool.shared_step hcall]
    exact contents_eq_none_exec (uploads_call hi hcall) hlast hbelow hnone

/-- **The answer is 200 exactly for the uploads that have published**, when the
session is still there at each mark; and no step of an upload that is answered
otherwise puts a file into the inbox.  The other requests are arbitrary. -/
theorem answer_ok_iff_published {i : ι} (hi : (request i).IsUpload = true)
    (hok : Pool.Orderly exec StillLive (requests state store request body) schedule)
    {r : Except LocalSendError StatusCode}
    (hr : ((requests state store request body).run exec schedule).rest i = .ret r) :
    (answer r = some .ok ↔
        published (((requests state store request body).run exec schedule).calls i) ≠ []) ∧
      (answer r ≠ some .ok → ∀ before after path, schedule = before ++ i :: after →
        Below state.inboxDir path →
        ((requests state store request body).run exec before).shared.fs.contents path = none →
        ((requests state store request body).run exec (before ++ [i])).shared.fs.contents
          path = none) := by
  have hiff : answer r = some .ok ↔
      published (((requests state store request body).run exec schedule).calls i) ≠ [] := by
    match r, upload_outcome hi hr with
    | .ok .ok, ⟨hone, _⟩ =>
      exact iff_of_true rfl (List.ne_nil_of_length_pos (hone ▸ Nat.one_pos))
    | .ok .badRequest, hnone | .ok .forbidden, hnone | .ok .conflict, hnone
    | .ok .internalServerError, hnone => exact iff_of_false nofun (not_not.mpr hnone)
    | .error e, .inl hnone => exact iff_of_false (apiError_ne_ok e) (not_not.mpr hnone)
    | .error _, .inr ⟨_, s, f, e, _, hmark⟩ => exact absurd hmark (no_mark_fails hok i s f e)
  refine ⟨hiff, fun hanswer before after path hsplit hbelow hnone => ?_⟩
  subst hsplit
  have hpub := not_not.mp fun h => hanswer (hiff.mpr h)
  exact contents_eq_none_of_unpublished hi hpub hbelow hnone

end answers

/-! ### An upload and a cancel -/

/-- One request uploads the file, another one cancels its session. -/
def uploadAndCancel : Server Bool :=
  @requests .sample Bool openServer preparedStore
    (fun second => if second then .cancel (tally 0) else oneUpload) fun _ => ⟨[[1]], false⟩

/-- The cancel comes after the mark. -/
theorem answer_ok_iff_published_cancelled :
    (answer (.ok .ok) = some .ok ↔
        published ((uploadAndCancel.run exec (List.replicate 10 false ++ [true])).calls false) ≠ []) ∧
      (answer (.ok .ok) ≠ some .ok → ∀ before after path,
        List.replicate 10 false ++ [true] = before ++ false :: after → Below ["inbox"] path →
        (uploadAndCancel.run exec before).shared.fs.contents path = none →
        (uploadAndCancel.run exec (before ++ [false])).shared.fs.contents path = none) := by
  have horderly : Pool.Orderly exec StillLive uploadAndCancel (List.replicate 10 false ++ [true]) := by
    decide +kernel
  exact @answer_ok_iff_published .sample Bool _ openServer preparedStore
    (fun second => if second then .cancel (tally 0) else oneUpload) _ _ false rfl horderly _ rfl

/-- **An upload is answered with an error although its file is in the inbox**:
the session is cancelled between the rename and the mark. -/
theorem published_forbidden :
    (uploadAndCancel.run exec (List.replicate 9 false ++ [true, false])).rest false =
        .ret (.error (.session "unknown session")) ∧
      published ((uploadAndCancel.run exec (List.replicate 9 false ++ [true, false])).calls false) =
        [["inbox", "a.txt"]] ∧
      (uploadAndCancel.run exec (List.replicate 9 false ++ [true, false])).shared.fs.contents
        ["inbox", "a.txt"] = some [1] ∧
      answer (.error (.session "unknown session")) = some .forbidden := by
  refine ⟨rfl, ?_⟩
  decide +kernel

end NightBridge.LocalSend
