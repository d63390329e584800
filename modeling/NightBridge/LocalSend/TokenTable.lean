/-
# The session manager as a log of calls

What `authorize_upload` answers can be read off the calls made so far, with no
table at all: the token was returned by a `prepare`, that session has not run
out, and nothing since has ended it.  The manager keeps a table instead, and
drops what has expired whenever some method happens to look.

`Waits` is what the table says, `Logged.Grants` and `Logged.Ends` are what one
logged call says.  `waits_exec` is the step: a token waits after a call if it
waited before and the call does not end it, or if the call grants it.  Lookups
at the time of the call or later are compared only, and so it does not matter
when expired sessions are dropped.
-/

import NightBridge.LocalSend.Session

namespace NightBridge.LocalSend

open Data

/-! ### The table -/

/-- The token waits for the upload of the file, at a time. -/
def Waits (sessions : Sessions) (now : ℕ) (s f token : String) (fileMeta : FileMeta) : Prop :=
  ∃ session, sessions.get? s = some session ∧ now < session.expiresAt ∧
    session.files.get? f = some ⟨token, fileMeta, false⟩

section table

variable {sessions : Sessions} {now now' : ℕ} {s f token : String} {fileMeta : FileMeta}

theorem get?_live : (live now sessions).get? s =
    (sessions.get? s).filter fun session => decide (now < session.expiresAt) :=
  BTreeMap.get?_retain

theorem get?_live_eq_some_iff {session : Session} :
    (live now sessions).get? s = some session ↔
      sessions.get? s = some session ∧ now < session.expiresAt := by
  rw [get?_live, Option.filter_eq_some_iff, decide_eq_true_iff]

theorem waits_live (sessions : Sessions) (h : now ≤ now') :
    Waits (live now sessions) now' s f token fileMeta ↔ Waits sessions now' s f token fileMeta := by
  refine exists_congr fun session => ?_
  rw [get?_live_eq_some_iff]
  constructor
  · rintro ⟨⟨hs, -⟩, hlater, hf⟩
    exact ⟨hs, hlater, hf⟩
  · rintro ⟨hs, hlater, hf⟩
    exact ⟨⟨hs, h.trans_lt hlater⟩, hlater, hf⟩

theorem findFile_eq_ok_iff {file : SessionFile} :
    findFile sessions s f = .ok file ↔
      ∃ session, sessions.get? s = some session ∧ session.files.get? f = some file := by
  unfold findFile
  cases sessions.get? s with
  | none => simp [sessionError]
  | some session => cases hf : session.files.get? f <;> simp [hf, sessionError]

/-- **`authorize_upload` looks the token up.** -/
theorem authorizeUpload_eq_ok_iff {self : SessionManager} {upload : AuthorizedUpload} :
    (self.authorizeUpload now s f token).1 = .ok upload ↔
      ∃ fileMeta, upload = ⟨s, f, token, fileMeta⟩ ∧ Waits self.sessions now s f token fileMeta := by
  have hwaits : ∀ fileMeta, Waits self.sessions now s f token fileMeta ↔
      findFile (live now self.sessions) s f = .ok ⟨token, fileMeta, false⟩ := by
    intro fileMeta
    rw [findFile_eq_ok_iff]
    refine exists_congr fun session => ?_
    rw [get?_live_eq_some_iff, and_assoc]
  simp only [hwaits, SessionManager.authorizeUpload]
  cases findFile (live now self.sessions) s f with
  | error e => simp
  | ok file =>
    obtain ⟨token', fileMeta, uploaded⟩ := file
    cases uploaded with
    | true => simp [sessionError]
    | false =>
      by_cases ht : token' = token
      · simp [ht, eq_comm]
      · simp [ht, sessionError]

end table

/-! ### The log -/

/-- One call, with its time and its answer. -/
structure Logged where
  time : ℕ
  op : SessionOp
  resp : op.Resp

/-- A `prepare` that returned this token for the file of the session. -/
def Logged.Grants (s f token : String) (fileMeta : FileMeta) : Logged → Prop
  | ⟨_, .prepare request, .ok prepared⟩ =>
    prepared.sessionId = s ∧ prepared.files.get? f = some token ∧ request.files.get? f = some fileMeta
  | _ => False

/-- A call after which the file of the session can no longer be uploaded: it was
marked, or its session cancelled. -/
def Logged.Ends (s f : String) : Logged → Prop
  | ⟨_, .markUploaded s' f', .ok ()⟩ => s' = s ∧ f' = f
  | ⟨_, .cancel s', _⟩ => s' = s
  | ⟨_, .cancelAll, _⟩ => True
  | _ => False

/-- The log says that the token was granted at a time, and no call since has
ended it. -/
def Granted (log : List Logged) (time : ℕ) (s f token : String) (fileMeta : FileMeta) : Prop :=
  ∃ before e after, log = before ++ e :: after ∧ e.time = time ∧ e.Grants s f token fileMeta ∧
    ∀ e' ∈ after, ¬ e'.Ends s f

/-- **One more call**: what was granted stays unless the call ends it, and the
call may grant something itself. -/
theorem granted_concat {log : List Logged} {e : Logged} {time : ℕ} {s f token : String}
    {fileMeta : FileMeta} :
    Granted (log ++ [e]) time s f token fileMeta ↔
      (Granted log time s f token fileMeta ∧ ¬ e.Ends s f) ∨
        (e.time = time ∧ e.Grants s f token fileMeta) := by
  constructor
  · rintro ⟨before, e', after, hlog, htime, hgrants, hafter⟩
    rcases List.eq_nil_or_concat after with rfl | ⟨after, last, rfl⟩
    · obtain ⟨-, he⟩ := List.append_inj' hlog rfl
      obtain rfl : e = e' := by simpa using he
      exact .inr ⟨htime, hgrants⟩
    · rw [List.concat_eq_append, ← List.cons_append, ← List.append_assoc] at hlog
      obtain ⟨rfl, he⟩ := List.append_inj' hlog rfl
      obtain rfl : e = last := by simpa using he
      exact .inl ⟨⟨before, e', after, rfl, htime, hgrants, fun x hx => hafter x (by simp [hx])⟩,
        hafter e (by simp)⟩
  · rintro (⟨⟨before, e', after, rfl, htime, hgrants, hafter⟩, he⟩ | ⟨htime, hgrants⟩)
    · refine ⟨before, e', after ++ [e], by simp, htime, hgrants, fun x hx => ?_⟩
      rcases List.mem_append.mp hx with hx | hx
      · exact hafter x hx
      · rwa [List.mem_singleton.mp hx]
    · exact ⟨log, e, [], rfl, htime, hgrants, by simp⟩

/-! ### One call -/

section step

variable {self : SessionManager} {now now' : ℕ} {uuids : ℕ → String} {s f token : String}
  {fileMeta : FileMeta}

/-- `prepare` adds the tokens it returns; the id of the new session is not in
use. -/
theorem waits_prepare {request : PrepareUploadRequest} (hfresh : self.sessions.get? (uuids 0) = none) :
    Waits (self.prepare now uuids request).2.sessions now' s f token fileMeta ↔
      Waits self.sessions now' s f token fileMeta ∨
        (Logged.Grants s f token fileMeta ⟨now, .prepare request, (self.prepare now uuids request).1⟩ ∧
          now' < now + self.ttl) := by
  unfold SessionManager.prepare
  cases validateFileIds request with
  | error e => simp [Logged.Grants]
  | ok u =>
    have htoken : ∀ file : SessionFile, (issue uuids request.files).get? f = some file →
        file.uploaded = false ∧ request.files.get? f = some file.fileMeta := by
      intro file hfile
      obtain ⟨i, v, hv, rfl⟩ := BTreeMap.get?_mapIdx.mp hfile
      exact ⟨rfl, BTreeMap.get?_eq_some_iff.mpr (List.mem_of_getElem? hv)⟩
    simp only [Waits, BTreeMap.get?_insert, Logged.Grants, BTreeMap.get?_map]
    by_cases hs : s = uuids 0
    · subst hs
      simp only [if_true, Option.some.injEq, exists_eq_left', hfresh, reduceCtorEq, false_and,
        exists_false, false_or, true_and]
      constructor
      · rintro ⟨hlt, hfile⟩
        exact ⟨⟨by rw [hfile]; rfl, (htoken _ hfile).2⟩, hlt⟩
      · rintro ⟨⟨hmap, hmeta⟩, hlt⟩
        obtain ⟨file, hfile, rfl⟩ := Option.map_eq_some_iff.mp hmap
        obtain ⟨huploaded, hmeta'⟩ := htoken file hfile
        obtain rfl := Option.some.inj (hmeta.symm.trans hmeta')
        refine ⟨hlt, hfile.trans ?_⟩
        obtain ⟨t, m, u⟩ := file
        exact congrArg (fun u => some (SessionFile.mk t m u)) huploaded
    · simp [hs, Ne.symm hs]

/-- `mark_uploaded`, when it succeeds, ends the token of its file and no other. -/
theorem waits_markUploaded {s' f' : String} (h : now ≤ now') :
    Waits (self.markUploaded now s' f').2.sessions now' s f token fileMeta ↔
      Waits self.sessions now' s f token fileMeta ∧
        ¬ Logged.Ends s f ⟨now, .markUploaded s' f', (self.markUploaded now s' f').1⟩ := by
  rw [← waits_live self.sessions h]
  simp only [SessionManager.markUploaded]
  cases findFile (live now self.sessions) s' f' with
  | error e => simp [Logged.Ends]
  | ok file =>
    simp only [Waits, BTreeMap.get?_adjust, Logged.Ends]
    by_cases hs : s = s'
    · subst hs
      cases (live now self.sessions).get? s with
      | none => simp
      | some session =>
        by_cases hf : f = f'
        · subst hf
          simp [BTreeMap.get?_adjust]
        · simp [BTreeMap.get?_adjust, hf, Ne.symm hf]
    · simp [hs, Ne.symm hs]

theorem waits_cancel {s' : String} (h : now ≤ now') :
    Waits (self.cancel now s').2.sessions now' s f token fileMeta ↔
      Waits self.sessions now' s f token fileMeta ∧ s' ≠ s := by
  rw [← waits_live self.sessions h, SessionManager.cancel]
  simp only [Waits, BTreeMap.get?_remove]
  by_cases hs : s = s'
  · simp [hs]
  · simp [hs, Ne.symm hs]

/-- **The step.**  After a call a token waits if it waited and the call does not
end it, or if the call grants it. -/
theorem waits_exec {o : SessionOp} (h : now ≤ now') (hfresh : self.sessions.get? (uuids 0) = none) :
    Waits (self.exec now uuids o).2.sessions now' s f token fileMeta ↔
      (Waits self.sessions now' s f token fileMeta ∧
          ¬ Logged.Ends s f ⟨now, o, (self.exec now uuids o).1⟩) ∨
        (Logged.Grants s f token fileMeta ⟨now, o, (self.exec now uuids o).1⟩ ∧
          now' < now + self.ttl) := by
  cases o with
  | prepare request =>
    simp only [Logged.Ends, not_false_eq_true, and_true]
    exact waits_prepare hfresh
  | markUploaded s' f' =>
    simp only [Logged.Grants, false_and, or_false]
    exact waits_markUploaded h
  | cancel s' =>
    simp only [Logged.Grants, Logged.Ends, false_and, or_false]
    exact waits_cancel h
  | cancelAll => simp [SessionManager.exec, SessionManager.cancelAll, Waits, Logged.Ends, Logged.Grants]
  | authorizeUpload | sessionIdForFile | pruneExpired =>
    simp only [Logged.Grants, Logged.Ends, not_false_eq_true, and_true, false_and, or_false]
    exact waits_live self.sessions h

/-- A call adds no session but the one it issues. -/
theorem get?_exec {o : SessionOp} (h : ((self.exec now uuids o).2.sessions.get? s).isSome) :
    (self.sessions.get? s).isSome ∨ (s = uuids 0 ∧ o.draws ≠ 0) := by
  have hlive : ((live now self.sessions).get? s).isSome → (self.sessions.get? s).isSome := by
    intro h
    obtain ⟨session, hsession⟩ := Option.isSome_iff_exists.mp h
    rw [(get?_live_eq_some_iff.mp hsession).1]
    rfl
  cases o with
  | prepare request =>
    simp only [SessionManager.exec, SessionManager.prepare, SessionOp.draws] at h ⊢
    cases hvalid : validateFileIds request with
    | error e => rw [hvalid] at h; exact .inl h
    | ok u =>
      simp only [hvalid, BTreeMap.get?_insert] at h
      by_cases hs : s = uuids 0
      · exact .inr ⟨hs, by simp⟩
      · exact .inl (by simpa [hs] using h)
  | markUploaded s' f' =>
    simp only [SessionManager.exec, SessionManager.markUploaded] at h
    refine .inl (hlive ?_)
    cases hfind : findFile (live now self.sessions) s' f' with
    | error e => rwa [hfind] at h
    | ok file =>
      simp only [hfind, BTreeMap.get?_adjust] at h
      split_ifs at h
      · simpa using h
      · exact h
  | cancel s' =>
    simp only [SessionManager.exec, SessionManager.cancel, BTreeMap.get?_remove] at h
    split_ifs at h
    · cases h
    · exact .inl (hlive h)
  | cancelAll => cases h
  | authorizeUpload s' f' t' => exact .inl (hlive h)
  | sessionIdForFile f' => exact .inl (hlive h)
  | pruneExpired => exact .inl (hlive h)

theorem ttl_exec {o : SessionOp} : (self.exec now uuids o).2.ttl = self.ttl := by
  cases o with
  | prepare request =>
    simp only [SessionManager.exec, SessionManager.prepare]
    cases validateFileIds request <;> rfl
  | markUploaded s' f' =>
    simp only [SessionManager.exec, SessionManager.markUploaded]
    cases findFile (live now self.sessions) s' f' <;> rfl
  | _ => rfl

end step

/-! ### Sequences of calls -/

/-- A manager after some calls, with the UUIDs still to come and the log of the
calls. -/
structure SessionRun where
  manager : SessionManager
  uuids : ℕ → String
  log : List Logged

/-- One more call, at a time. -/
def SessionRun.call (r : SessionRun) (c : ℕ × SessionOp) : SessionRun where
  manager := (r.manager.exec c.1 r.uuids c.2).2
  uuids k := r.uuids (k + c.2.draws)
  log := r.log ++ [⟨c.1, c.2, (r.manager.exec c.1 r.uuids c.2).1⟩]

/-- Calls of a new manager, one after another. -/
def sessionRun (ttl : ℕ) (uuids : ℕ → String) (calls : List (ℕ × SessionOp)) : SessionRun :=
  calls.foldl SessionRun.call ⟨.new ttl, uuids, []⟩

/-- The `prepare` of this request returned the token for the file of the
session, the session has not run out, and no call since has ended it. -/
def Issued (log : List Logged) (ttl now : ℕ) (request : PrepareUploadRequest) (s f token : String) :
    Prop :=
  ∃ before after time prepared, log = before ++ ⟨time, .prepare request, .ok prepared⟩ :: after ∧
    prepared.sessionId = s ∧ prepared.files.get? f = some token ∧ now < time + ttl ∧
    ∀ e ∈ after, ¬ e.Ends s f

theorem grants_iff {e : Logged} {s f token : String} {fileMeta : FileMeta} :
    e.Grants s f token fileMeta ↔
      ∃ time request prepared, e = ⟨time, .prepare request, .ok prepared⟩ ∧ prepared.sessionId = s ∧
        prepared.files.get? f = some token ∧ request.files.get? f = some fileMeta := by
  constructor
  · intro h
    unfold Logged.Grants at h
    split at h
    · exact ⟨_, _, _, rfl, h⟩
    · cases h
  · rintro ⟨time, request, prepared, rfl, h⟩
    exact h

theorem granted_iff_issued {log : List Logged} {ttl now : ℕ} {s f token : String} {fileMeta : FileMeta} :
    (∃ time, Granted log time s f token fileMeta ∧ now < time + ttl) ↔
      ∃ request, Issued log ttl now request s f token ∧ request.files.get? f = some fileMeta := by
  constructor
  · rintro ⟨time, ⟨before, e, after, rfl, rfl, hgrants, hafter⟩, hnow⟩
    obtain ⟨time, request, prepared, rfl, hs, hf, hmeta⟩ := grants_iff.mp hgrants
    exact ⟨request, ⟨before, after, time, prepared, rfl, hs, hf, hnow, hafter⟩, hmeta⟩
  · rintro ⟨request, ⟨before, after, time, prepared, rfl, hs, hf, hnow, hafter⟩, hmeta⟩
    exact ⟨time, ⟨before, _, after, rfl, rfl, ⟨hs, hf, hmeta⟩, hafter⟩, hnow⟩

theorem Issued.concat {log : List Logged} {ttl now : ℕ} {request : PrepareUploadRequest}
    {s f token : String} {e : Logged} (h : Issued log ttl now request s f token) (he : ¬ e.Ends s f) :
    Issued (log ++ [e]) ttl now request s f token := by
  obtain ⟨before, after, time, prepared, rfl, hs, hf, hnow, hafter⟩ := h
  refine ⟨before, after ++ [e], time, prepared, by simp, hs, hf, hnow, fun e' he' => ?_⟩
  rcases List.mem_append.mp he' with he' | he'
  · exact hafter e' he'
  · rwa [List.mem_singleton.mp he']

/-- A `prepare` returns tokens for files of its request only. -/
theorem prepare_files {self : SessionManager} {now : ℕ} {uuids : ℕ → String}
    {request : PrepareUploadRequest} {prepared : PreparedSession}
    (h : (self.prepare now uuids request).1 = .ok prepared) {f token : String}
    (hf : prepared.files.get? f = some token) : ∃ fileMeta, request.files.get? f = some fileMeta := by
  unfold SessionManager.prepare at h
  cases hvalid : validateFileIds request with
  | error e => rw [hvalid] at h; cases h
  | ok u =>
    rw [hvalid] at h
    obtain rfl := Except.ok.inj h
    rw [BTreeMap.get?_map, Option.map_eq_some_iff] at hf
    obtain ⟨file, hfile, -⟩ := hf
    obtain ⟨i, fileMeta, hentry, -⟩ := BTreeMap.get?_mapIdx.mp hfile
    exact ⟨fileMeta, BTreeMap.get?_eq_some_iff.mpr (List.mem_of_getElem? hentry)⟩

/-- What holds after calls up to a time: from then on the table and the log say
the same. -/
structure Refines (ttl now : ℕ) (r : SessionRun) : Prop where
  ttl_eq : r.manager.ttl = ttl
  distinct : Function.Injective r.uuids
  unused : ∀ s, (r.manager.sessions.get? s).isSome → ∀ k, s ≠ r.uuids k
  waits : ∀ now', now ≤ now' → ∀ s f token fileMeta, Waits r.manager.sessions now' s f token fileMeta ↔
    ∃ time, Granted r.log time s f token fileMeta ∧ now' < time + ttl
  honest : ∀ time request prepared, ⟨time, .prepare request, .ok prepared⟩ ∈ r.log →
    ∀ f token, prepared.files.get? f = some token → ∃ fileMeta, request.files.get? f = some fileMeta

theorem Refines.mono {ttl now now' : ℕ} {r : SessionRun} (h : Refines ttl now r) (hle : now ≤ now') :
    Refines ttl now' r :=
  { h with waits := fun t ht => h.waits t (hle.trans ht) }

/-- **One more call keeps it.** -/
theorem Refines.call {ttl now : ℕ} {r : SessionRun} (h : Refines ttl now r) {c : ℕ × SessionOp}
    (hle : now ≤ c.1) : Refines ttl c.1 (r.call c) where
  ttl_eq := ttl_exec.trans h.ttl_eq
  distinct k k' hk := Nat.add_right_cancel (h.distinct hk)
  unused s hs k hk := by
    rcases get?_exec hs with hold | ⟨rfl, hdraws⟩
    · exact h.unused s hold _ hk
    · have := h.distinct hk
      omega
  waits now' hle' s f token fileMeta := by
    have hfresh : r.manager.sessions.get? (r.uuids 0) = none := by
      rw [← Option.not_isSome_iff_eq_none]
      exact fun hsome => h.unused _ hsome 0 rfl
    rw [SessionRun.call, waits_exec hle' hfresh, h.waits now' (hle.trans hle')]
    simp only [granted_concat, h.ttl_eq]
    constructor
    · rintro (⟨⟨time, hgranted, hnow⟩, hends⟩ | ⟨hgrants, hnow⟩)
      · exact ⟨time, .inl ⟨hgranted, hends⟩, hnow⟩
      · exact ⟨c.1, .inr ⟨rfl, hgrants⟩, hnow⟩
    · rintro ⟨time, ⟨hgranted, hends⟩ | ⟨rfl, hgrants⟩, hnow⟩
      · exact .inl ⟨⟨time, hgranted, hnow⟩, hends⟩
      · exact .inr ⟨hgrants, hnow⟩
  honest time request prepared hmem f token hf := by
    rcases List.mem_append.mp hmem with hmem | hmem
    · exact h.honest time request prepared hmem f token hf
    · obtain ⟨t, o⟩ := c
      obtain ⟨rfl, rfl, hresp⟩ := Logged.mk.inj (List.mem_singleton.mp hmem)
      exact prepare_files (eq_of_heq hresp).symm hf

/-- **Every sequence of calls keeps it**, when the clock does not go back. -/
theorem refines_sessionRun {ttl : ℕ} {uuids : ℕ → String} (hdistinct : Function.Injective uuids)
    {calls : List (ℕ × SessionOp)} {now : ℕ} (htimes : (calls.map Prod.fst ++ [now]).Pairwise (· ≤ ·)) :
    Refines ttl now (sessionRun ttl uuids calls) := by
  induction calls using List.reverseRecOn generalizing now with
  | nil =>
    refine ⟨rfl, hdistinct, fun s hs => (nomatch hs), fun now' _ s f token fileMeta => ?_,
      fun _ _ _ hmem => (nomatch hmem)⟩
    simp [sessionRun, SessionManager.new, Waits, Granted]
  | append_singleton calls c ih =>
    rw [List.map_append, List.map_singleton, List.pairwise_append] at htimes
    obtain ⟨hbefore, -, hnow⟩ := htimes
    rw [sessionRun, List.foldl_append]
    exact ((ih hbefore).call le_rfl).mono (hnow c.1 (by simp) now (by simp))

section refines

variable {ttl now : ℕ} {r : SessionRun} {s f token : String}

theorem Refines.waits_iff_issued (h : Refines ttl now r) {fileMeta : FileMeta} :
    Waits r.manager.sessions now s f token fileMeta ↔
      ∃ request, Issued r.log ttl now request s f token ∧ request.files.get? f = some fileMeta :=
  (h.waits now le_rfl s f token fileMeta).trans granted_iff_issued

/-- An issued token is accepted, with the metadata it was issued for. -/
theorem Refines.authorizeUpload_of_issued (h : Refines ttl now r) {request : PrepareUploadRequest}
    (hissued : Issued r.log ttl now request s f token) :
    ∃ fileMeta, request.files.get? f = some fileMeta ∧
      (r.manager.authorizeUpload now s f token).1 = .ok ⟨s, f, token, fileMeta⟩ := by
  obtain ⟨before, after, time, prepared, hlog, -, hf, -, -⟩ := id hissued
  obtain ⟨fileMeta, hmeta⟩ := h.honest time request prepared (by rw [hlog]; simp) f token hf
  exact ⟨fileMeta, hmeta, authorizeUpload_eq_ok_iff.mpr
    ⟨fileMeta, rfl, h.waits_iff_issued.mpr ⟨request, hissued, hmeta⟩⟩⟩

theorem Refines.issued_of_authorizeUpload (h : Refines ttl now r) {upload : AuthorizedUpload}
    (hok : (r.manager.authorizeUpload now s f token).1 = .ok upload) :
    ∃ request, Issued r.log ttl now request s f token := by
  obtain ⟨fileMeta, -, hwaits⟩ := authorizeUpload_eq_ok_iff.mp hok
  obtain ⟨request, hissued, -⟩ := h.waits_iff_issued.mp hwaits
  exact ⟨request, hissued⟩

end refines

/-- **The session manager refines its token table.**  After any calls at times
that do not decrease, with UUIDs that are all different, `authorize_upload`
succeeds exactly when some `prepare` before returned the token for that file of
that session, the session has not run out, and the file has not been marked nor
the session cancelled since; and what it returns is the metadata that `prepare`
was given. -/
theorem authorizeUpload_iff_issued {ttl : ℕ} {uuids : ℕ → String} (hdistinct : Function.Injective uuids)
    {calls : List (ℕ × SessionOp)} {now : ℕ} (htimes : (calls.map Prod.fst ++ [now]).Pairwise (· ≤ ·))
    (s f token : String) :
    ((∃ upload, ((sessionRun ttl uuids calls).manager.authorizeUpload now s f token).1 = .ok upload) ↔
        ∃ request, Issued (sessionRun ttl uuids calls).log ttl now request s f token) ∧
      ∀ upload request,
        ((sessionRun ttl uuids calls).manager.authorizeUpload now s f token).1 = .ok upload →
        Issued (sessionRun ttl uuids calls).log ttl now request s f token →
        request.files.get? f = some upload.fileMeta ∧ upload.sessionId = s ∧ upload.fileId = f ∧
          upload.token = token := by
  have hrefines : Refines ttl now (sessionRun ttl uuids calls) := refines_sessionRun hdistinct htimes
  refine ⟨⟨?_, ?_⟩, ?_⟩
  · rintro ⟨upload, hupload⟩
    exact hrefines.issued_of_authorizeUpload hupload
  · rintro ⟨request, hissued⟩
    obtain ⟨fileMeta, -, hok⟩ := hrefines.authorizeUpload_of_issued hissued
    exact ⟨_, hok⟩
  · intro upload request hupload hissued
    obtain ⟨fileMeta, hmeta, hok⟩ := hrefines.authorizeUpload_of_issued hissued
    obtain rfl := Except.ok.inj (hupload.symm.trans hok)
    exact ⟨hmeta, rfl, rfl, rfl⟩

/-- One file is offered, and its token presented while the session lasts. -/
theorem authorizeUpload_iff_issued_offer :
    ((sessionRun 10 tally [(0, .prepare oneFileOffer)]).manager.authorizeUpload 5 "x" "file-1" "xx").1 =
        .ok ⟨"x", "file-1", "xx", oneByteFile⟩ ∧
      ∃ request, Issued (sessionRun 10 tally [(0, .prepare oneFileOffer)]).log 10 5 request "x" "file-1"
        "xx" := by
  have hok : ((sessionRun 10 tally [(0, .prepare oneFileOffer)]).manager.authorizeUpload 5 "x" "file-1"
      "xx").1 = .ok ⟨"x", "file-1", "xx", oneByteFile⟩ := by decide +kernel
  exact ⟨hok, (authorizeUpload_iff_issued tally_injective (by decide) "x" "file-1" "xx").1.mp ⟨_, hok⟩⟩

end NightBridge.LocalSend
