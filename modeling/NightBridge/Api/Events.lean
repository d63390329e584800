/-
# The events of a send

`send_files` emits `TransferStarted` once it has checked the request, and at its
end `TransferCompleted` or `TransferFailed`.  One way out lies between: the
client for a LocalSend URL is built inside the match, with a `?` that returns
from `send_files`, so that a failure there leaves a transfer that was announced
and never ended (`sendFiles_unpaired`).

The ways of sending announce nothing, and so the events of a send are those its
own body emits.
-/

import NightBridge.Api.Sends

namespace NightBridge.Api

open Data Effect NightBridge.Core NightBridge.Native
open NightBridge.Daemon (DaemonEvent)

def events (hist : Calls) : List DaemonEvent :=
  hist.filterMap fun
    | ⟨.emit event, _⟩ => some event
    | _ => none

/-- `LocalSendClient::new` did not fail. -/
def clientBuilt (hist : Calls) : Bool :=
  hist.all fun
    | ⟨.localSendClientNew, .error _⟩ => false
    | _ => true

/-- The events are paired with the answer: none at all and an error, or the
start followed by the end that is answered. -/
inductive Paired : List DaemonEvent → Except (Raised Status) String → Prop
  | none (status : Status) : Paired [] (.error (.error status))
  | completed (transferId : String) :
      Paired [.transferStarted transferId, .transferCompleted transferId] (.ok transferId)
  | failed (transferId : String) (status : Status) : Paired [.transferStarted transferId,
      .transferFailed transferId status.code.debug status.message] (.error (.error status))

@[simp] theorem events_append (hist hist' : Calls) :
    events (hist ++ hist') = events hist ++ events hist' :=
  List.filterMap_append

theorem events_eq_nil {hist : Calls} (h : ∀ e ∈ hist, e.op.role ≠ .announce) : events hist = [] := by
  rw [events, List.filterMap_eq_nil_iff]
  rintro ⟨o, x⟩ he
  cases o with
  | emit event => exact absurd rfl (h _ he)
  | _ => rfl

/-! ### What the parts of a send do -/

/-- A program that announces nothing, and does not build the client for a
LocalSend URL. -/
abbrev Quiet {ε α : Type} (p : Prog Op Resp ε α) : Prop :=
  p.Only fun o => o.role ≠ .announce ∧ o.role ≠ .build

theorem Looks.quiet {ε α : Type} {p : Prog Op Resp ε α} (h : Looks p) : Quiet p :=
  Prog.Only.mono h fun o ho => by rw [ho]; exact ⟨nofun, nofun⟩

theorem Quiet.events_eq_nil {ε α : Type} {p : Prog Op Resp ε α} (h : Quiet p) {hist : Calls}
    {r : Except ε α} (hends : p.Ends hist r) : events hist = [] :=
  Api.events_eq_nil fun e he => (Prog.Only.ends h hends e he).1

theorem Quiet.clientBuilt {ε α : Type} {p : Prog Op Resp ε α} (h : Quiet p) {hist : Calls}
    {r : Except ε α} (hends : p.Ends hist r) : clientBuilt hist = true := by
  refine List.all_eq_true.mpr ?_
  rintro ⟨o, x⟩ he
  have ho := (Prog.Only.ends h hends _ he).2
  cases o with
  | localSendClientNew => exact absurd rfl ho
  | _ => rfl

theorem quiet_send {o : Op} (ho : o.role = .send) :
    ∀ {k : Resp o → Anyhow Unit}, (∀ x, Quiet (k x)) → Quiet (internalStatus (.call o k)) := fun hk =>
  only_internalStatus (.call ⟨by rw [ho]; exact Role.noConfusion, by rw [ho]; exact Role.noConfusion⟩ hk)

theorem quiet_sendFilesToNativeLanPeer [Primitives] [DebugText] (state : DaemonState) (peerRef : String)
    (paths : List String) : Quiet (sendFilesToNativeLanPeer state peerRef paths) := by
  unfold sendFilesToNativeLanPeer
  refine Prog.Only.bind (only_internalStatus (looks_discover _ _).quiet) fun peers => ?_
  refine Prog.Only.bind (Prog.only_ofExcept _) fun peer => ?_
  refine Prog.Only.bind (looks_parseFingerprint _ _).quiet fun fingerprint => ?_
  refine Prog.Only.bind (looks_getTrusted _ _).quiet fun trusted => ?_
  refine Prog.Only.bind (Prog.only_ofExcept _) fun expected => ?_
  cases peer.nativeCertificateFingerprint with
  | none => exact .fail _
  | some advertised => exact Prog.only_ite (.fail _) (quiet_send rfl Prog.only_ofExcept)

theorem quiet_sendFilesToLocalsendLanPeer [DebugText] (state : DaemonState) (peerRef : String)
    (paths : List String) : Quiet (sendFilesToLocalsendLanPeer state peerRef paths) := by
  unfold sendFilesToLocalsendLanPeer
  refine Prog.Only.bind (looks_resolveLocalsendLanPeer _).quiet fun peer => ?_
  refine Prog.Only.bind (only_internalStatus (looks_call rfl Prog.only_ofExcept).quiet) fun _ => ?_
  exact quiet_send rfl Prog.only_ofExcept

theorem quiet_sendFilesToWanPeer [Primitives] [Rendezvous.SocketAddrs] (state : DaemonState)
    (text : String) (paths : List String) : Quiet (sendFilesToWanPeer state text paths) := by
  unfold sendFilesToWanPeer
  split_ifs
  · exact .fail _
  · refine Prog.Only.bind (looks_parseFingerprint _ _).quiet fun fingerprint => ?_
    refine Prog.Only.bind (looks_getTrusted _ _).quiet fun peer => ?_
    refine Prog.Only.bind (Prog.only_ofExcept _) fun expected => ?_
    refine Prog.Only.bind (only_internalStatus (looks_lookupPeerCandidates _ _ _).quiet)
      fun candidates => ?_
    exact quiet_send rfl Prog.only_ofExcept

/-! ### The events -/

section events

variable [Primitives] [DebugText] [Rendezvous.SocketAddrs] (state : DaemonState)

/-- The match announces nothing, and comes to an end exactly if the client can
be built. -/
theorem ends_dispatch {request : SendRequest} {paths : List String} {target : Target} {hist : Calls}
    {x : Except (Raised Status) (Except (Raised Status) Unit)}
    (hends : (dispatch state request paths target).Ends hist x) :
    events hist = [] ∧ ((clientBuilt hist = true ∧ ∃ result, x = .ok result) ∨
      (clientBuilt hist = false ∧ ∃ status, x = .error (.error status))) := by
  have hattempt : ∀ {p : Handler Unit} {hist : Calls}, Quiet p → (p.attempt : Handler _).Ends hist x →
      events hist = [] ∧ clientBuilt hist = true ∧ ∃ result, x = .ok result := by
    intro p hist hp hends
    obtain ⟨result, rfl, hend⟩ := Prog.ends_attempt.mp hends
    exact ⟨hp.events_eq_nil hend, hp.clientBuilt hend, result, rfl⟩
  cases target with
  | nativeUrl url => exact (hattempt (.fail _) hends).imp_right .inl
  | wanPeer fingerprint => exact (hattempt (quiet_sendFilesToWanPeer state _ _) hends).imp_right .inl
  | peerFingerprint peer =>
    rw [dispatch] at hends
    split_ifs at hends
    · exact (hattempt (quiet_sendFilesToNativeLanPeer state _ _) hends).imp_right .inl
    · exact (hattempt (quiet_sendFilesToLocalsendLanPeer state _ _) hends).imp_right .inl
  | localsendUrl url =>
    obtain ⟨built, rest, rfl, hrest⟩ := hends
    cases built with
    | error e =>
      obtain ⟨rfl, rfl⟩ := hrest
      exact ⟨rfl, .inr ⟨rfl, _, rfl⟩⟩
    | ok _ => exact (hattempt (quiet_send rfl Prog.only_ofExcept) hrest).imp_right .inl

/-- From the announcement on, the end that is announced is the one that is
answered; without a client none is announced. -/
theorem ends_announced {request : SendRequest} {paths : List String} {target : Target}
    {transferId : String} {hist : Calls} {r : Except (Raised Status) String} (hends : (do
      let result ← dispatch state request paths target
      conclude transferId result : Handler String).Ends hist r)
    (hreturns : r ≠ .error .panic) :
    (clientBuilt hist = true ∧ Paired (.transferStarted transferId :: events hist) r) ∨
      (clientBuilt hist = false ∧ events hist = [] ∧ ∃ status, r = .error (.error status)) := by
  rcases Prog.ends_bind.mp hends with ⟨hist₁, hist₂, result, rfl, hdispatch, hconclude⟩ |
    ⟨e, hdispatch, rfl⟩
  · obtain ⟨hquiet, ⟨hbuilt, -⟩ | ⟨-, _, hresult⟩⟩ := ends_dispatch state hdispatch
    swap
    · cases hresult
    rw [events_append, hquiet, List.nil_append]
    left
    rcases result with (status | _) | _
    · obtain ⟨_, _, rfl, rfl, rfl⟩ := hconclude
      exact ⟨by simpa [clientBuilt] using hbuilt, .failed transferId status⟩
    · exact absurd hconclude.2 hreturns
    · obtain ⟨_, _, rfl, rfl, rfl⟩ := hconclude
      exact ⟨by simpa [clientBuilt] using hbuilt, .completed transferId⟩
  · obtain ⟨hquiet, ⟨-, _, hresult⟩ | ⟨hbuilt, status, hresult⟩⟩ := ends_dispatch state hdispatch
    · cases hresult
    · exact .inr ⟨hbuilt, hquiet, status, by rw [Except.error.inj hresult]⟩

/-- **The events of a send are paired with its answer** exactly if the client
for a LocalSend URL, when it is asked for, can be built.  If not, the start is
announced and nothing else. -/
theorem sendFiles_paired {request : SendRequest} {hist : Calls} {r : Except (Raised Status) String}
    (hends : (sendFiles state request).Ends hist r) (hreturns : r ≠ .error .panic) :
    (Paired (events hist) r ↔ clientBuilt hist = true) ∧
      (clientBuilt hist = false → ∃ transferId status,
        events hist = [.transferStarted transferId] ∧ r = .error (.error status)) := by
  -- it is one or the other, and a start alone is not paired
  suffices h : (clientBuilt hist = true ∧ Paired (events hist) r) ∨ (clientBuilt hist = false ∧
      ∃ transferId status, events hist = [.transferStarted transferId] ∧ r = .error (.error status)) by
    rcases h with ⟨hbuilt, hpaired⟩ | ⟨hbuilt, transferId, status, hevents, hr⟩
    · exact ⟨iff_of_true hpaired hbuilt, fun hnot => nomatch hbuilt.symm.trans hnot⟩
    · refine ⟨iff_of_false (fun hpaired => ?_) (by simp [hbuilt]), fun _ => ⟨_, _, hevents, hr⟩⟩
      rw [hevents] at hpaired
      cases hpaired
  rcases Prog.ends_bind.mp hends with ⟨hist₁, hist₂, paths, rfl, hpaths, hrest⟩ | ⟨e, hpaths, rfl⟩
  · have hquiet := (looks_validatedPaths request.paths).quiet.events_eq_nil hpaths
    have hbuilt := (looks_validatedPaths request.paths).quiet.clientBuilt hpaths
    cases htarget : request.target with
    | none =>
      rw [htarget] at hrest
      obtain ⟨rfl, rfl⟩ := hrest
      rw [List.append_nil, hquiet]
      exact .inl ⟨hbuilt, .none _⟩
    | some target =>
      rw [htarget] at hrest
      obtain ⟨transferId, _, rfl, _, rest, rfl, hrest⟩ := hrest
      have hevents : events (hist₁ ++ ⟨.newUuid, transferId⟩ ::
        ⟨.emit (.transferStarted transferId), ()⟩ :: rest) =
          .transferStarted transferId :: events rest := by
        rw [events_append, hquiet]
        rfl
      have hrestBuilt : clientBuilt (hist₁ ++ ⟨.newUuid, transferId⟩ ::
        ⟨.emit (.transferStarted transferId), ()⟩ :: rest) = clientBuilt rest := by
        rw [clientBuilt, List.all_append, ← clientBuilt, hbuilt]
        rfl
      rw [hevents, hrestBuilt]
      refine (ends_announced state hrest hreturns).imp_right ?_
      rintro ⟨hfailed, hnone, status, hr⟩
      exact ⟨hfailed, transferId, status, by rw [hnone], hr⟩
  · rw [(looks_validatedPaths request.paths).quiet.events_eq_nil hpaths]
    cases e with
    | error status => exact .inl ⟨(looks_validatedPaths request.paths).quiet.clientBuilt hpaths, .none _⟩
    | panic => exact absurd rfl hreturns

end events

/-- Two sends to a LocalSend URL: the client is built and the file sent, or it
cannot be built. -/
theorem sendFiles_paired_localsend :
    letI := Primitives.sample
    letI := DebugText.sample
    letI := Rendezvous.SocketAddrs.sample
    let request : SendRequest := ⟨["a.txt"], some (.localsendUrl "https://phone"), false⟩
    let start : Calls := [⟨.metadata "a.txt", .ok true⟩, ⟨.newUuid, "t"⟩,
      ⟨.emit (.transferStarted "t"), ()⟩]
    let sent : Calls := start ++ [⟨.localSendClientNew, .ok ()⟩,
      ⟨.localSendSend none "https://phone" ["a.txt"] (senderInfo .sample), .ok ()⟩,
      ⟨.emit (.transferCompleted "t"), ()⟩]
    let failed : Calls := start ++ [⟨.localSendClientNew, .error "http: builder error"⟩]
    let error : Except (Raised Status) String := .error (.error ⟨.internal, "http: builder error"⟩)
    (sendFiles .sample request).Ends sent (.ok "t") ∧ Paired (events sent) (.ok "t") ∧
      (sendFiles .sample request).Ends failed error ∧ ¬ Paired (events failed) error := by
  let _ := Primitives.sample
  let _ := DebugText.sample
  let _ := Rendezvous.SocketAddrs.sample
  intro request start sent failed error
  have hsent : (sendFiles .sample request).Ends sent (.ok "t") :=
    ⟨_, _, rfl, _, _, rfl, _, _, rfl, _, _, rfl, _, _, rfl, _, _, rfl, rfl, rfl⟩
  have hfailed : (sendFiles .sample request).Ends failed error :=
    ⟨_, _, rfl, _, _, rfl, _, _, rfl, _, _, rfl, rfl, rfl⟩
  refine ⟨hsent, (sendFiles_paired .sample hsent (by simp)).1.mpr (by decide), hfailed, fun h => ?_⟩
  exact absurd ((sendFiles_paired .sample hfailed (by simp [error])).1.mp h) (by decide)

/-- A send to a LocalSend URL whose client cannot be built is announced and
never ends. -/
theorem sendFiles_unpaired :
    letI := Primitives.sample
    letI := DebugText.sample
    letI := Rendezvous.SocketAddrs.sample
    let hist : Calls := [⟨.metadata "a.txt", .ok true⟩, ⟨.newUuid, "t"⟩,
      ⟨.emit (.transferStarted "t"), ()⟩,
      ⟨.localSendClientNew, .error "http: builder error"⟩]
    (sendFiles .sample ⟨["a.txt"], some (.localsendUrl "https://phone"), false⟩).Ends hist
        (.error (.error ⟨.internal, "http: builder error"⟩)) ∧
      events hist = [.transferStarted "t"] :=
  ⟨⟨_, _, rfl, _, _, rfl, _, _, rfl, _, _, rfl, rfl, rfl⟩, rfl⟩

end NightBridge.Api
