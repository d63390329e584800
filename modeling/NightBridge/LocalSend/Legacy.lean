/-
# The session of a legacy upload

`legacy_send` has a file id and a token, and no session.  It asks
`session_id_for_file`, which answers the first live session, in the order of the
ids, that lists the file; the token is then compared with the one that session
issued.  File ids are chosen by the sender, so two sessions may list one id, and
a token of the later session is then refused (`legacySend_shadowed`).

Between the two calls other requests may act, so the sessions they find are
those of a run and of a longer one.
-/

import NightBridge.Effect.Trace
import NightBridge.LocalSend.Server
import NightBridge.LocalSend.TokenTable

namespace NightBridge.LocalSend

open Data Effect

/-- A session that has not run out lists the file, uploaded or not. -/
def Lists (sessions : Sessions) (now : ℕ) (s f : String) : Prop :=
  ∃ session, sessions.get? s = some session ∧ now < session.expiresAt ∧
    session.files.containsKey f = true

theorem Waits.lists {sessions : Sessions} {now : ℕ} {s f token : String} {fileMeta : FileMeta}
    (h : Waits sessions now s f token fileMeta) : Lists sessions now s f := by
  obtain ⟨session, hs, hnow, hf⟩ := h
  exact ⟨session, hs, hnow, by rw [BTreeMap.containsKey, hf]; rfl⟩

/-- **`session_id_for_file` answers the least session that lists the file.** -/
theorem sessionIdForFile_eq_some_iff {self : SessionManager} {now : ℕ} {s f : String} :
    (self.sessionIdForFile now f).1 = .ok (some s) ↔
      Lists self.sessions now s f ∧ ∀ s', Lists self.sessions now s' f → s ≤ s' := by
  have hfirst := BTreeMap.findSome?_eq_some_iff (m := live now self.sessions) (k := s)
    (p := fun session => session.files.containsKey f)
  rw [SessionManager.sessionIdForFile, Except.ok.injEq, hfirst]
  simp only [get?_live_eq_some_iff, Lists, and_assoc, forall_exists_index, and_imp]

/-- **A legacy upload finds the session that issued its token** exactly if no
session with a smaller id lists its file.  The token is good at both calls;
`between` is what others call meanwhile. -/
theorem legacySend_authorized [Primitives] (state : ServerState) (body : Body) {ttl : ℕ}
    {uuids : ℕ → String} (hdistinct : Function.Injective uuids) {calls between : List (ℕ × SessionOp)}
    {s₁ s₂ : Store} {s f token : String} {request : PrepareUploadRequest}
    (htimes : (calls.map Prod.fst ++ s₁.instants.time 0 ::
      (between.map Prod.fst ++ [s₂.instants.time 0])).Pairwise (· ≤ ·)) :
    let r₁ := sessionRun ttl uuids calls
    let r₂ := sessionRun ttl uuids (calls ++ (s₁.instants.time 0, .sessionIdForFile f) :: between)
    s₁.sessions = r₁.manager → s₂.sessions = r₂.manager →
    Issued r₁.log ttl (s₁.instants.time 0) request s f token →
    Issued r₂.log ttl (s₂.instants.time 0) request s f token →
    ((∀ s', Lists s₁.sessions.sessions (s₁.instants.time 0) s' f → s ≤ s') ↔
      ∃ fileMeta, request.files.get? f = some fileMeta ∧
        Prog.Open exec (legacySend state f token) body
          [(s₁, ⟨.session (.sessionIdForFile f), .ok (some s)⟩),
            (s₂, ⟨.session (.authorizeUpload s f token), .ok ⟨s, f, token, fileMeta⟩⟩)]
          (do
            let _ ← InboxWriter.writeUpload ⟨state.inboxDir⟩ ⟨s, f, token, fileMeta⟩
            markUploaded s f
            pure .ok) body) := by
  intro r₁ r₂ hs₁ hs₂ hissued₁ hissued₂
  refine ⟨fun hfirst => ?_, ?_⟩
  swap
  · -- the answer of the first call says which session is the least
    rintro ⟨fileMeta, -, hopen⟩
    obtain ⟨-, hanswers⟩ := hopen.inv (I := fun _ => True)
      (P := fun e => ∃ b, e.2.resp = (exec e.2.op e.1 b).1) (fun _ _ b _ => ⟨trivial, b, rfl⟩) trivial
    obtain ⟨b, hanswer⟩ := hanswers _ List.mem_cons_self
    have hfound : (s₁.sessions.sessionIdForFile (s₁.instants.time 0) f).1 = .ok (some s) := hanswer.symm
    exact (sessionIdForFile_eq_some_iff.mp hfound).2
  have hrefines₁ : Refines ttl (s₁.instants.time 0) r₁ :=
    refines_sessionRun hdistinct (htimes.sublist (by simp))
  have hrefines₂ : Refines ttl (s₂.instants.time 0) r₂ :=
    refines_sessionRun hdistinct (by simpa using htimes)
  obtain ⟨fileMeta, hmeta, hok⟩ := hrefines₂.authorizeUpload_of_issued hissued₂
  have hlists : Lists s₁.sessions.sessions (s₁.instants.time 0) s f := by
    rw [hs₁]
    exact (hrefines₁.waits_iff_issued.mpr ⟨request, hissued₁, hmeta⟩).lists
  have hfound : (exec (.session (.sessionIdForFile f)) s₁ body).1 = .ok (some s) :=
    sessionIdForFile_eq_some_iff.mpr ⟨hlists, hfirst⟩
  have hauthorized : (exec (.session (.authorizeUpload s f token)) s₂ body).1 =
      .ok ⟨s, f, token, fileMeta⟩ := by
    rw [← hok, ← hs₂]
    rfl
  refine ⟨fileMeta, hmeta, ?_⟩
  exact .head_of_eq hfound rfl (.head_of_eq hauthorized rfl .refl)

/-- Two senders offer files with one id.  The upload of the one whose session
has the smaller id is authorized, and the other's is not. -/
theorem legacySend_authorized_smaller :
    letI := Primitives.sample
    let offers : List (ℕ × SessionOp) := [(0, .prepare oneFileOffer), (0, .prepare oneFileOffer)]
    let s₁ : Store := { Store.fresh 10 with sessions := (sessionRun 10 tally offers).manager }
    let s₂ := (exec (.session (.sessionIdForFile "file-1")) s₁ .empty).2.1
    let Authorized (request : PrepareUploadRequest) (s token : String) : Prop :=
      ∃ fileMeta, request.files.get? "file-1" = some fileMeta ∧
        Prog.Open exec (legacySend ⟨[], .auto, [], none, none⟩ "file-1" token) .empty
          [(s₁, ⟨.session (.sessionIdForFile "file-1"), .ok (some s)⟩),
            (s₂, ⟨.session (.authorizeUpload s "file-1" token), .ok ⟨s, "file-1", token, fileMeta⟩⟩)]
          (do
            let _ ← InboxWriter.writeUpload ⟨[]⟩ ⟨s, "file-1", token, fileMeta⟩
            markUploaded s "file-1"
            pure .ok) .empty
    (∃ request, Issued (sessionRun 10 tally offers).log 10 0 request "x" "file-1" "xx" ∧
      Authorized request "x" "xx") ∧
    ∃ request, Issued (sessionRun 10 tally offers).log 10 0 request "xxx" "file-1" "xxxx" ∧
      ¬ Authorized request "xxx" "xxxx" := by
  let _ := Primitives.sample
  intro offers s₁ s₂ Authorized
  have hrefines : Refines 10 0 (sessionRun 10 tally offers) := refines_sessionRun tally_injective (by decide)
  have hok : (s₁.sessions.authorizeUpload 0 "x" "file-1" "xx").1 =
      .ok ⟨"x", "file-1", "xx", oneByteFile⟩ := by decide +kernel
  have hok' : (s₁.sessions.authorizeUpload 0 "xxx" "file-1" "xxxx").1 =
      .ok ⟨"xxx", "file-1", "xxxx", oneByteFile⟩ := by decide +kernel
  have hfound : (s₁.sessions.sessionIdForFile 0 "file-1").1 = .ok (some "x") := by decide +kernel
  obtain ⟨request, hissued⟩ := hrefines.issued_of_authorizeUpload hok
  obtain ⟨request', hissued'⟩ := hrefines.issued_of_authorizeUpload hok'
  obtain ⟨hlists, hleast⟩ := sessionIdForFile_eq_some_iff.mp hfound
  have hexact := fun {s token : String} {request : PrepareUploadRequest}
    (h : Issued (sessionRun 10 tally offers).log 10 0 request s "file-1" token) =>
    @legacySend_authorized _ ⟨[], .auto, [], none, none⟩ .empty 10 tally tally_injective offers [] s₁ s₂ s
      "file-1" token request (by decide +kernel) rfl rfl h (h.concat (by simp [Logged.Ends]))
  refine ⟨⟨request, hissued, (hexact hissued).mp hleast⟩, request', hissued', fun hopen => ?_⟩
  -- the session `"x"` lists the file too, and its id is the smaller one
  have hle : "xxx" ≤ "x" := (hexact hissued').mpr hopen "x" hlists
  exact absurd hle (by decide)

/-- Two senders offer files with one id.  The token of the second is good, and
the legacy upload that carries it is compared with the first sender's
session. -/
theorem legacySend_shadowed :
    letI := Primitives.sample
    let r := sessionRun 10 tally [(0, .prepare oneFileOffer), (0, .prepare oneFileOffer)]
    (∃ request, Issued r.log 10 0 request "xxx" "file-1" "xxxx") ∧
      ((legacySend ⟨[], .auto, [], none, none⟩ "file-1" "xxxx").run handler
        ({ Store.fresh 10 with sessions := r.manager }, .empty)).1 =
          .error (.session "invalid upload token") := by
  intro r
  have hrefines : Refines 10 0 r := refines_sessionRun tally_injective (by decide)
  have hok : (r.manager.authorizeUpload 0 "xxx" "file-1" "xxxx").1 =
      .ok ⟨"xxx", "file-1", "xxxx", oneByteFile⟩ := by decide +kernel
  exact ⟨hrefines.issued_of_authorizeUpload hok, by decide +kernel⟩

end NightBridge.LocalSend
