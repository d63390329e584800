/-
# Dialer and attempts

The attempts and the dialer of `dial_candidates_with_timing`, in any order of
their steps.

Each attempt waits, dials its pair, reports how that went, and lets go of the
channel (`Attempts`); the dialer spawns them, lets go of its own sender and
takes one report after another (`Leads`).  So the senders that are left are
those of the attempts that have not yet reported (`Held`), and what was sent is
one report of each attempt that has reported, in some order (`Ordered`).
-/

import NightBridge.Native.HolePunch
import NightBridge.Effect.Log
import NightBridge.Effect.Outcomes

namespace NightBridge.Native

open Data Effect

abbrev PunchCalls := History PunchOp PunchOp.Resp

/-! ### An attempt -/

/-- The operations of `dial_pair`. -/
def PunchOp.dials : PunchOp → Bool
  | .bind _ | .connect _ _ | .now | .handshake _ _ _ _ => true
  | _ => false

section attempt

variable (dial : Dial) (index : ℕ) (pair : CandidatePair)

/-- What an attempt has done when it starts to dial. -/
def Dial.waited (now : ℕ) : PunchCalls :=
  [⟨.started index, ()⟩, ⟨.now, now⟩, ⟨.sleepUntil (now + dial.delay index), ()⟩]

def Dial.report (result : Except DialError (Endpoint × Connection)) : Report :=
  (describePair dial.display pair, result)

/-- **What an attempt does next.** -/
inductive Attempts : PunchCalls → PunchOp → Prop
  | started : Attempts [] (.started index)
  | now : Attempts [⟨.started index, ()⟩] .now
  | sleep (now : ℕ) : Attempts [⟨.started index, ()⟩, ⟨.now, now⟩] (.sleepUntil (now + dial.delay index))
  | dial (now : ℕ) {dialed : PunchCalls} {o : PunchOp} (hdialed : ∀ e ∈ dialed, e.op.dials = true)
      (ho : o.dials = true) : Attempts (dial.waited index now ++ dialed) o
  | send (now : ℕ) {dialed : PunchCalls} {result : Except DialError (Endpoint × Connection)}
      (hends : (dial.dialPair pair).Ends dialed result) :
      Attempts (dial.waited index now ++ dialed) (.send (dial.report pair result))
  | drop (now : ℕ) {dialed : PunchCalls} {result : Except DialError (Endpoint × Connection)}
      (hends : (dial.dialPair pair).Ends dialed result) :
      Attempts (dial.waited index now ++ dialed ++ [⟨.send (dial.report pair result), ()⟩]) .dropSender

theorem dials_dialPair : (dial.dialPair pair).Only fun o => o.dials = true := by
  refine Prog.Only.bind (.call rfl fun r => ?_) fun endpoint =>
    Prog.Only.bind (.call rfl fun r => ?_) fun _ => .call rfl fun since => .call rfl fun r => ?_
  · cases r <;> constructor
  · cases r <;> constructor
  · rcases r with _ | _ | _ <;> constructor

/-- **What an attempt does.** -/
theorem wp_attempt :
    (dial.attempt index pair).wp (Attempts dial index pair) (fun hist _ => ⟨.dropSender, ()⟩ ∈ hist) [] := by
  refine ⟨.started, fun _ => ⟨.now, fun now => ⟨.sleep now, fun _ => ?_⟩⟩⟩
  refine Prog.wp_bind_of ((dials_dialPair dial pair).attempt.wp_ends (dial.waited index now)
    fun during o hduring ho => .dial now hduring ho) fun hist result _ hhist => ?_
  obtain ⟨dialed, rfl, hdialed⟩ := hhist
  obtain ⟨_, hresult, hends⟩ := Prog.ends_attempt.mp hdialed
  cases hresult
  exact ⟨.send now hends, fun _ => ⟨.drop now hends, fun _ => List.mem_append_right _ List.mem_cons_self⟩⟩

/-- **A connection of an attempt**: it is one of its pair, and the handshake has
come to its end. -/
theorem connection_of_ends {dial : Dial} {pair : CandidatePair} {dialed : PunchCalls} {endpoint : Endpoint}
    {connection : Connection} (h : (dial.dialPair pair).Ends dialed (.ok (endpoint, connection))) :
    endpoint = ⟨pair.localCandidate.address, dial.trust⟩ ∧
      connection.remote = pair.remoteCandidate.address ∧
      ∃ since deadline, ⟨.handshake endpoint connection.remote since deadline,
        some (.ok connection.certificate)⟩ ∈
        dialed := by
  rcases Prog.ends_bind.mp h with ⟨bound, rest, endpoint', rfl, hbound, hconnect⟩ | ⟨_, -, herror⟩
  · obtain rfl : endpoint' = ⟨pair.localCandidate.address, dial.trust⟩ := by
      obtain ⟨r, _, -, hr⟩ := hbound
      rcases r with error | _
      · cases hr.2
      · exact Except.ok.inj hr.2
    rcases Prog.ends_bind.mp hconnect with ⟨connected, rest, _, rfl, -, hshake⟩ | ⟨_, -, herror⟩
    · obtain ⟨since, _, rfl, answer, _, rfl, hanswer⟩ := hshake
      rcases answer with _ | error | certificate
      · cases hanswer.2
      · cases hanswer.2
      · obtain ⟨rfl, hok⟩ := hanswer
        obtain ⟨rfl, rfl⟩ := Prod.mk.inj (Except.ok.inj hok)
        exact ⟨rfl, rfl, since, since + dial.attemptTimeout, by simp⟩
    · cases herror
  · cases herror

end attempt

/-! ### The dialer -/

section dialer

variable (dial : Dial)

def failure (f : String × DialError) : Report := (f.1, .error f.2)

/-- What the dialer has done after it was told of these failures. -/
def Dial.taking (failed : List (String × DialError)) : PunchCalls :=
  List.replicate dial.pairs.length ⟨.spawn, ()⟩ ++
    ⟨.dropSender, ()⟩ :: failed.map fun f => ⟨.recv, some (failure f)⟩

/-- What the dialer says of its attempts after these failures. -/
def Dial.diagnostics (failed : List (String × DialError)) : PunchDiagnostics :=
  ⟨dial.pairs.map (describePair dial.display), failed.getLast?.map fun f => f.2.text⟩

/-- `no_direct_path_error`, after these failures. -/
def Dial.noDirectPath (failed : List (String × DialError)) : PunchError :=
  noDirectPathError (dial.diagnostics failed).attemptedPairs (onlyServerReflexiveRemoteCandidates dial.pairs)
    (dial.diagnostics failed).lastError

/-- **What the dialer does next.** -/
inductive Leads : PunchCalls → PunchOp → Prop
  | spawn {k : ℕ} (hk : k < dial.pairs.length) : Leads (List.replicate k ⟨.spawn, ()⟩) .spawn
  | drop : Leads (List.replicate dial.pairs.length ⟨.spawn, ()⟩) .dropSender
  | recv (failed : List (String × DialError)) : Leads (dial.taking failed) .recv
  | success (failed : List (String × DialError)) (description : String) (connected : Endpoint × Connection) :
      Leads (dial.taking failed ++ [⟨.recv, some (description, .ok connected)⟩]) .dropReceiver
  | failure (failed : List (String × DialError)) : Leads (dial.taking failed ++ [⟨.recv, none⟩]) .dropReceiver

inductive Concludes : PunchCalls → PunchOutcome → Prop
  | empty (hpairs : dial.pairs = []) : Concludes [] (.error (noDirectPathError [] false none))
  | success (failed : List (String × DialError)) (description : String) (connected : Endpoint × Connection) :
      Concludes (dial.taking failed ++ [⟨.recv, some (description, .ok connected)⟩] ++ [⟨.dropReceiver, ()⟩])
        (.ok ⟨connected.1, connected.2, dial.diagnostics failed⟩)
  | failure (failed : List (String × DialError)) (hpairs : dial.pairs ≠ []) :
      Concludes (dial.taking failed ++ [⟨.recv, none⟩] ++ [⟨.dropReceiver, ()⟩])
        (.error (dial.noDirectPath failed))
  | outOfFuel (failed : List (String × DialError)) (hfailed : dial.pairs.length < failed.length) :
      Concludes (dial.taking failed) (.error .outOfFuel)

variable {dial}

theorem taking_concat (failed : List (String × DialError)) (f : String × DialError) :
    dial.taking failed ++ [⟨.recv, some (failure f)⟩] = dial.taking (failed ++ [f]) := by
  simp [Dial.taking]

theorem wp_spawns {xs : List CandidatePair} {k : ℕ} (hk : k + xs.length = dial.pairs.length) :
    ((Prog.each xs fun _ => .call .spawn fun _ => .ret () : PunchIo PunchError Unit).attempt :
      PunchIo Empty _).wp (Leads dial)
      (fun hist r => hist = List.replicate dial.pairs.length ⟨.spawn, ()⟩ ∧ r = .ok ())
      (List.replicate k ⟨.spawn, ()⟩) := by
  induction xs generalizing k with
  | nil =>
    obtain rfl : k = dial.pairs.length := hk
    exact ⟨rfl, rfl⟩
  | cons x xs ih =>
    rw [List.length_cons] at hk
    refine ⟨.spawn (by omega), fun _ => ?_⟩
    rw [← List.replicate_succ']
    exact ih (by omega)

theorem wp_recvLoop (hpairs : dial.pairs ≠ []) (fuel : ℕ) (failed : List (String × DialError))
    (hfuel : fuel + failed.length = dial.pairs.length + 1) :
    ((dial.recvLoop fuel (dial.diagnostics failed)).attempt : PunchIo Empty _).wp (Leads dial) (Concludes dial)
      (dial.taking failed) := by
  induction fuel generalizing failed with
  | zero => exact .outOfFuel failed (by omega)
  | succ fuel ih =>
    refine ⟨.recv failed, fun r => ?_⟩
    rcases r with _ | ⟨description, error | connected⟩
    · exact ⟨.failure failed, fun _ => .failure failed hpairs⟩
    · have hlast : { dial.diagnostics failed with lastError := some error.text } =
          dial.diagnostics (failed ++ [(description, error)]) := by
        simp [Dial.diagnostics]
      have hnext := ih (failed ++ [(description, error)])
        (by rw [List.length_append, List.length_singleton]; omega)
      rw [← taking_concat, ← hlast] at hnext
      exact hnext
    · exact ⟨.success failed description connected, fun _ => .success failed description connected⟩

/-- **What the dialer does.** -/
theorem wp_dialCandidatesWithTiming (dial : Dial) :
    (dial.dialCandidatesWithTiming.attempt : PunchIo Empty _).wp (Leads dial) (Concludes dial) [] := by
  rw [Dial.dialCandidatesWithTiming]
  by_cases hpairs : dial.pairs = []
  · rw [if_pos (List.isEmpty_iff.mpr hpairs)]
    exact .empty hpairs
  · rw [if_neg (fun h => hpairs (List.isEmpty_iff.mp h)), Prog.attempt_bind]
    refine Prog.wp_bind_of (wp_spawns (k := 0) (Nat.zero_add _)) fun hist r _ hr => ?_
    obtain ⟨rfl, rfl⟩ := hr
    exact ⟨.drop, fun _ => wp_recvLoop hpairs _ [] rfl⟩

end dialer

/-! ### All of them -/

def Reported (pool : Punch mpsc) (i : ℕ) (report : Report) : Prop :=
  ⟨.send report, ()⟩ ∈ pool.calls (.attempt i)

def Left (pool : Punch mpsc) (i : ℕ) : Prop := ⟨.dropSender, ()⟩ ∈ pool.calls (.attempt i)

def PunchOp.spawns : PunchOp → ℕ
  | .spawn => 1
  | _ => 0

def PunchOp.dropsSender : PunchOp → Bool
  | .dropSender => true
  | _ => false

def PunchOp.dropsReceiver : PunchOp → Bool
  | .dropReceiver => true
  | _ => false

/-- What is put into the channel, if somebody receives. -/
def PunchOp.sends : PunchOp → List Report
  | .send report => [report]
  | _ => []

def spawnsOf (hist : PunchCalls) : ℕ := (hist.map fun e => e.op.spawns).sum

/-- The sender of the dialer, until it is dropped. -/
def senderOf (hist : PunchCalls) : ℕ := if hist.any fun e => e.op.dropsSender then 0 else 1

def reportOf : Event PunchOp PunchOp.Resp → Option Report
  | ⟨.recv, report⟩ => report
  | _ => none

def gotOf (hist : PunchCalls) : List Report := hist.filterMap reportOf

@[simp] theorem spawnsOf_concat (hist : PunchCalls) (e : Event PunchOp PunchOp.Resp) :
    spawnsOf (hist ++ [e]) = spawnsOf hist + e.op.spawns := by
  simp [spawnsOf]

@[simp] theorem senderOf_concat (hist : PunchCalls) (e : Event PunchOp PunchOp.Resp) :
    senderOf (hist ++ [e]) = if e.op.dropsSender then 0 else senderOf hist := by
  cases h : e.op.dropsSender <;> simp [senderOf, h]

@[simp] theorem gotOf_concat (hist : PunchCalls) (e : Event PunchOp PunchOp.Resp) :
    gotOf (hist ++ [e]) = gotOf hist ++ (reportOf e).toList := filterMap_concat _ _ _

section histories

variable {o : PunchOp} {dial : Dial} {index : ℕ} {pair : CandidatePair} {hist : PunchCalls}

theorem reportOf_of_ne (h : o ≠ .recv) (r : PunchOp.Resp o) : reportOf ⟨o, r⟩ = none := by
  cases o with
  | recv => exact absurd rfl h
  | _ => rfl

theorem sends_of_ne (h : ∀ report, o ≠ .send report) : o.sends = [] := by
  cases o with
  | send report => exact absurd rfl (h report)
  | _ => rfl

theorem own_of_dials (h : o.dials = true) : o.spawns = 0 ∧ o.dropsReceiver = false ∧ o ≠ .recv ∧
    o.dropsSender = false ∧ ∀ report, o ≠ .send report := by
  cases o with
  | bind | connect | now | handshake => simp [PunchOp.spawns, PunchOp.dropsReceiver, PunchOp.dropsSender]
  | _ => cases h

theorem Attempts.own (h : Attempts dial index pair hist o) :
    o.spawns = 0 ∧ o.dropsReceiver = false ∧ o ≠ .recv := by
  cases h with
  | dial now hdialed ho =>
    obtain ⟨hspawns, hdrops, hrecv, -⟩ := own_of_dials ho
    exact ⟨hspawns, hdrops, hrecv⟩
  | _ => simp [PunchOp.spawns, PunchOp.dropsReceiver]

theorem Attempts.eq_started (h : Attempts dial index pair hist o) (hnil : hist = []) : o = .started index := by
  cases h with
  | started => rfl
  | _ => cases hnil

theorem dials_of_mem_waited {now : ℕ} {dialed : PunchCalls} (hdialed : ∀ e ∈ dialed, e.op.dials = true)
    {e : Event PunchOp PunchOp.Resp} (he : e ∈ dial.waited index now ++ dialed) :
    e.op.dropsSender = false ∧ ∀ report, e.op ≠ .send report := by
  rcases List.mem_append.mp he with he | he
  · simp only [Dial.waited, List.mem_cons, List.not_mem_nil, or_false] at he
    rcases he with rfl | rfl | rfl <;> simp [PunchOp.dropsSender]
  · exact (own_of_dials (hdialed e he)).2.2.2

theorem Attempts.not_reported {report : Report} (h : Attempts dial index pair hist (.send report))
    (other : Report) :
    ⟨.send other, ()⟩ ∉ hist := by
  intro hmem
  cases h with
  | dial now hdialed ho => cases ho
  | send now hends =>
    exact (dials_of_mem_waited ((dials_dialPair dial pair).ends hends) hmem).2 other rfl

/-- An attempt drops its sender once, and has reported before. -/
theorem Attempts.not_left (h : Attempts dial index pair hist .dropSender) :
    ⟨.dropSender, ()⟩ ∉ hist ∧ ∃ report, ⟨.send report, ()⟩ ∈ hist := by
  cases h with
  | dial now hdialed ho => cases ho
  | drop now hends =>
    refine ⟨fun hmem => ?_, _, List.mem_append_right _ List.mem_cons_self⟩
    rcases List.mem_append.mp hmem with hmem | hmem
    · cases (dials_of_mem_waited ((dials_dialPair dial pair).ends hends) hmem).1
    · simp at hmem

theorem Leads.not_send (h : Leads dial hist o) (report : Report) : o ≠ .send report := by
  cases h <;> simp

theorem Leads.senderOf_eq (h : Leads dial hist o) (hdrops : o.dropsSender = true) : senderOf hist = 1 := by
  cases h with
  | drop => simp [senderOf, PunchOp.dropsSender]
  | _ => cases hdrops

theorem eq_dropSender (h : o.dropsSender = true) : o = .dropSender := by
  cases o with
  | dropSender => rfl
  | _ => cases h

end histories

section programs

variable (env : PunchEnvironment)

theorem wp_dialer : (env.program .dialer).wp (Leads env.dial)
    (fun hist r => ∃ outcome, r = some outcome ∧ Concludes env.dial hist outcome) [] :=
  Prog.wp_bind_of (wp_dialCandidatesWithTiming env.dial) fun _ outcome _ h => ⟨outcome, rfl, h⟩

theorem wp_attempts (index : ℕ) : (env.program (.attempt index)).wp
    (fun hist o => ∃ pair, env.dial.pairs[index]? = some pair ∧ Attempts env.dial index pair hist o)
    (fun hist _ => index < env.dial.pairs.length → ⟨.dropSender, ()⟩ ∈ hist) [] := by
  rw [PunchEnvironment.program]
  cases hpair : env.dial.pairs[index]? with
  | none => exact fun hindex => absurd hindex (Nat.not_lt.mpr (List.getElem?_eq_none_iff.mp hpair))
  | some pair =>
    have hattempt : (env.dial.attempt index pair).wp
        (fun hist o => ∃ pair', some pair = some pair' ∧ Attempts env.dial index pair' hist o)
        (fun hist _ => ⟨.dropSender, ()⟩ ∈ hist) [] :=
      Prog.wp_mono (wp_attempt env.dial index pair) (fun _ _ _ ho => ⟨pair, rfl, ho⟩) fun _ _ _ hleft => hleft
    exact Prog.wp_bind_of hattempt fun _ _ _ hleft _ => hleft

end programs

section punch

variable [Primitives] {env : PunchEnvironment} {schedule : List PunchTask} {i : PunchTask} {o : PunchOp}
  {k : PunchOp.Resp o → PunchIo Empty (Option PunchOutcome)}

theorem leads_of_call (h : (env.after schedule).rest .dialer = .call o k) :
    Leads env.dial ((env.after schedule).calls .dialer) o :=
  Pool.guarded (wp_dialer env) h

theorem attempts_of_call {index : ℕ} (h : (env.after schedule).rest (.attempt index) = .call o k) :
    ∃ pair, env.dial.pairs[index]? = some pair ∧
      Attempts env.dial index pair ((env.after schedule).calls (.attempt index)) o :=
  Pool.guarded (wp_attempts env index) h

/-- **What a step does to the state.** -/
theorem shared_punch {pool : Punch mpsc} (hi : pool.rest i = .call o k) : ∃ taken,
    pool.shared.view.taken ≤ taken ∧ (pool.step punchExec i).shared.spawned = pool.shared.spawned + o.spawns ∧
    (pool.step punchExec i).shared.view = ⟨pool.shared.view.capacity,
      pool.shared.view.sent ++ (if pool.shared.view.receiving then o.sends else []), taken,
      pool.shared.view.senders + o.spawns - o.dropsSender.toNat,
      pool.shared.view.receiving && !o.dropsReceiver⟩ := by
  rw [Pool.shared_step hi]
  generalize pool.shared = s, pool.own i = route
  refine ⟨(punchExec o s route).2.1.view.taken, ?_, ?_, ?_⟩
  · cases o <;> simp [punchExec, punchAt, PunchState.view]
  · cases o <;> rfl
  · cases o <;> simp [punchExec, punchAt, PunchState.view, PunchOp.spawns, PunchOp.sends, PunchOp.dropsSender,
      PunchOp.dropsReceiver]

/-! #### What the dialer knows -/

omit [Primitives] in
theorem view_start (env : PunchEnvironment) :
    env.pool.shared.view = ⟨env.dial.pairs.length, [], 0, 1, true⟩ := env.mpsc.view_new _

theorem spawned_run (env : PunchEnvironment) (schedule : List PunchTask) :
    (env.after schedule).shared.spawned = spawnsOf ((env.after schedule).calls .dialer) := by
  refine Pool.run_inv (I := fun pool : Punch env.mpsc => pool.shared.spawned = spawnsOf (pool.calls .dialer))
    (fun schedule i o k hI hi => ?_) rfl schedule
  obtain ⟨-, -, hspawned, -⟩ := shared_punch hi
  rw [hspawned, hI]
  cases i with
  | dialer => rw [Pool.calls_step_self hi, spawnsOf_concat]
  | attempt index =>
    obtain ⟨pair, -, hattempts⟩ := attempts_of_call hi
    rw [Pool.calls_step_of_ne (by simp), hattempts.own.1, Nat.add_zero]

theorem receiving_run (env : PunchEnvironment) (schedule : List PunchTask) :
    (env.after schedule).shared.view.receiving =
      !((env.after schedule).calls .dialer).any fun e => e.op.dropsReceiver := by
  refine Pool.run_inv (I := fun pool : Punch env.mpsc => pool.shared.view.receiving =
    !(pool.calls .dialer).any fun e => e.op.dropsReceiver) (fun schedule i o k hI hi => ?_)
    (congrArg Mpsc.View.receiving (view_start env)) schedule
  obtain ⟨_, -, -, hshared⟩ := shared_punch hi
  rw [hshared, hI]
  cases i with
  | dialer => simp [Pool.calls_step_self hi]
  | attempt index =>
    obtain ⟨pair, -, hattempts⟩ := attempts_of_call hi
    rw [Pool.calls_step_of_ne (by simp), hattempts.own.2.1, Bool.not_false, Bool.and_true]

theorem capacity_run (env : PunchEnvironment) (schedule : List PunchTask) :
    (env.after schedule).shared.view.capacity = env.dial.pairs.length := by
  refine Pool.run_inv (I := fun pool : Punch env.mpsc => pool.shared.view.capacity = env.dial.pairs.length)
    (fun schedule i o k hI hi => ?_) (congrArg Mpsc.View.capacity (view_start env)) schedule
  obtain ⟨_, -, -, hshared⟩ := shared_punch hi
  rw [hshared, hI]

/-- The dialer has received what was sent first. -/
def Took (view : Mpsc.View Report) (got : List Report) : Prop :=
  view.taken ≤ view.sent.length ∧ got = view.sent.take view.taken

theorem Took.exec {s : PunchState mpsc} {got : List Report} (h : Took s.view got) (o : PunchOp)
    (route : Route) :
    Took (punchExec o s route).2.1.view (got ++ (reportOf ⟨o, (punchExec o s route).1⟩).toList) := by
  obtain ⟨hle, rfl⟩ := h
  cases o with
  | recv =>
    show Took (mpsc.view (mpsc.recv s.channel).2) (_ ++ (mpsc.recv s.channel).1.toList)
    rw [mpsc.view_recv, mpsc.recv_fst]
    split_ifs with hlt
    · refine ⟨hlt, ?_⟩
      rw [List.getElem?_eq_getElem hlt, Option.toList_some]
      exact List.take_concat_get' _ _ hlt
    · refine ⟨hle, ?_⟩
      rw [List.getElem?_eq_none (Nat.not_lt.mp hlt), Option.toList_none, List.append_nil]
      rfl
  | send report =>
    show Took (mpsc.view (mpsc.send s.channel report)) (_ ++ [])
    rw [mpsc.view_send, List.append_nil]
    refine ⟨hle.trans ?_, ?_⟩
    · rw [List.length_append]
      exact Nat.le_add_right _ _
    · rw [List.take_append_of_le_length hle]
  | spawn | dropSender | dropReceiver =>
    rw [reportOf_of_ne (by simp), Option.toList_none, List.append_nil]
    simpa [Took, punchExec, punchAt, PunchState.view] using hle
  | _ => exact ⟨hle, List.append_nil _⟩

theorem took_run (env : PunchEnvironment) (schedule : List PunchTask) :
    Took (env.after schedule).shared.view (gotOf ((env.after schedule).calls .dialer)) := by
  refine Pool.run_inv (I := fun pool : Punch env.mpsc => Took pool.shared.view (gotOf (pool.calls .dialer)))
    (fun schedule i o k hI hi => ?_)
    (show Took env.pool.shared.view [] from view_start env ▸ ⟨le_rfl, rfl⟩) schedule
  rw [Pool.shared_step hi]
  cases i with
  | dialer =>
    rw [Pool.calls_step_self hi, gotOf_concat]
    exact hI.exec o _
  | attempt index =>
    obtain ⟨pair, -, hattempts⟩ := attempts_of_call hi
    have hexec := hI.exec o
    simp only [reportOf_of_ne hattempts.own.2.2, Option.toList_none, List.append_nil] at hexec
    rw [Pool.calls_step_of_ne (by simp)]
    exact hexec _

/-! #### What the attempts have reported -/

variable {pool : Punch mpsc}

theorem Reported.step {n : ℕ} {report : Report} (h : Reported pool n report) :
    Reported (pool.step punchExec i) n report :=
  Pool.calls_prefix_step.subset h

theorem reported_of_step (hi : pool.rest i = .call o k) {n : ℕ} {report : Report}
    (h : Reported (pool.step punchExec i) n report) :
    Reported pool n report ∨ i = .attempt n ∧ o = .send report := by
  rcases Pool.mem_calls_step hi h with h | ⟨rfl, h⟩
  · exact .inl h
  · exact .inr ⟨rfl, (congrArg Event.op h).symm⟩

omit [Primitives] in
theorem exists_of_forall₂ {α β : Type} {R : α → β → Prop} {as : List α} {bs : List β} (h : List.Forall₂ R as bs)
    {a : α} (ha : a ∈ as) : ∃ b ∈ bs, R a b := by
  induction h with
  | nil => cases ha
  | cons hR _ ih =>
    rcases List.mem_cons.mp ha with rfl | ha
    · exact ⟨_, List.mem_cons_self, hR⟩
    · obtain ⟨b, hb, hab⟩ := ih ha
      exact ⟨b, List.mem_cons_of_mem _ hb, hab⟩

/-- The attempts that have sent a report, in the order of what was sent. -/
def Ordered (dial : Dial) (pool : Punch mpsc) : Prop :=
  ∃ order : List ℕ, order.Nodup ∧ (∀ n ∈ order, n < dial.pairs.length) ∧
    List.Forall₂ (Reported pool) order pool.shared.view.sent ∧
    (pool.shared.view.receiving = true → ∀ n report, Reported pool n report → n ∈ order)

theorem Ordered.other {dial : Dial} (h : Ordered dial pool) (hi : pool.rest i = .call o k)
    (hsend : ∀ report, o ≠ .send report) : Ordered dial (pool.step punchExec i) := by
  obtain ⟨order, hnodup, hlt, hsent, hall⟩ := h
  obtain ⟨_, -, -, hshared⟩ := shared_punch hi
  refine ⟨order, hnodup, hlt, ?_, ?_⟩
  · rw [hshared, sends_of_ne hsend, ite_self, List.append_nil]
    exact hsent.imp fun _ _ h => h.step
  · rw [hshared, Bool.and_eq_true]
    intro hreceiving n report hreported
    rcases reported_of_step hi hreported with hold | ⟨-, rfl⟩
    · exact hall hreceiving.1 n report hold
    · exact absurd rfl (hsend report)

theorem Ordered.send {dial : Dial} (h : Ordered dial pool) {index : ℕ} {report : Report}
    {k : Unit → PunchIo Empty (Option PunchOutcome)}
    (hi : pool.rest (.attempt index) = .call (.send report) k) (hindex : index < dial.pairs.length)
    (hfresh : ∀ other, ¬ Reported pool index other) : Ordered dial (pool.step punchExec (.attempt index)) := by
  obtain ⟨order, hnodup, hlt, hsent, hall⟩ := h
  have hnew : Reported (pool.step punchExec (.attempt index)) index report := by
    rw [Reported, Pool.calls_step_self hi]
    exact List.mem_append_right _ List.mem_cons_self
  obtain ⟨_, -, -, hshared⟩ := shared_punch hi
  cases hreceiving : pool.shared.view.receiving with
  | false =>
    refine ⟨order, hnodup, hlt, ?_, ?_⟩
    · rw [hshared, hreceiving, if_neg Bool.false_ne_true, List.append_nil]
      exact hsent.imp fun _ _ h => h.step
    · rw [hshared, hreceiving]
      exact fun h => absurd h Bool.false_ne_true
  | true =>
    have hmem : index ∉ order := by
      intro hmem
      obtain ⟨other, -, hother⟩ := exists_of_forall₂ hsent hmem
      exact hfresh other hother
    refine ⟨order ++ [index], ?_, ?_, ?_, ?_⟩
    · exact List.nodup_append.mpr ⟨hnodup, List.nodup_singleton _, fun a ha b hb hab =>
        hmem (List.mem_singleton.mp hb ▸ hab ▸ ha)⟩
    · rw [List.forall_mem_append, List.forall_mem_singleton]
      exact ⟨hlt, hindex⟩
    · rw [hshared, hreceiving, if_pos rfl]
      exact List.rel_append (hsent.imp fun _ _ h => h.step) (.cons hnew .nil)
    · intro _ n other hreported
      rcases reported_of_step hi hreported with hold | ⟨hn, -⟩
      · exact List.mem_append_left _ (hall hreceiving n other hold)
      · cases hn
        exact List.mem_append_right _ List.mem_cons_self

theorem ordered_run (env : PunchEnvironment) (schedule : List PunchTask) :
    Ordered env.dial (env.after schedule) := by
  refine Pool.run_inv (fun schedule i o k hI hi => ?_) ?_ schedule
  · cases i with
    | dialer => exact hI.other hi (leads_of_call hi).not_send
    | attempt index =>
      obtain ⟨pair, hpair, hattempts⟩ := attempts_of_call hi
      by_cases hsend : ∃ report, o = .send report
      · obtain ⟨report, rfl⟩ := hsend
        exact hI.send hi (List.getElem?_eq_some_iff.mp hpair).1 hattempts.not_reported
      · exact hI.other hi fun report h => hsend ⟨report, h⟩
  · refine ⟨[], List.nodup_nil, fun n hn => absurd hn List.not_mem_nil, ?_,
      fun _ n report h => absurd h List.not_mem_nil⟩
    rw [show (Pool.start _ _ _ : Punch env.mpsc).shared.view = _ from view_start env]
    exact .nil

/-! #### Who is left -/

theorem left_of_step (hi : pool.rest i = .call o k) {n : ℕ} :
    Left (pool.step punchExec i) n ↔ Left pool n ∨ i = .attempt n ∧ o = .dropSender := by
  refine ⟨fun h => ?_, fun h => ?_⟩
  · rcases Pool.mem_calls_step hi h with h | ⟨rfl, h⟩
    · exact .inl h
    · exact .inr ⟨rfl, (congrArg Event.op h).symm⟩
  · rcases h with h | ⟨rfl, rfl⟩
    · exact Pool.calls_prefix_step.subset h
    · rw [Left, Pool.calls_step_self hi]
      exact List.mem_append_right _ List.mem_cons_self

/-- The senders are those of the spawned attempts that have not left, and that
of the dialer. -/
structure Held (pool : Punch mpsc) : Prop where
  begun : ∀ n, pool.calls (.attempt n) ≠ [] → n < pool.shared.spawned
  senders : ∃ left : Finset ℕ, (∀ n, n ∈ left ↔ Left pool n) ∧
    pool.shared.view.senders + left.card = pool.shared.spawned + senderOf (pool.calls .dialer)

omit [Primitives] in
theorem Held.left_lt (h : Held pool) {n : ℕ} (hleft : Left pool n) : n < pool.shared.spawned :=
  h.begun n (List.ne_nil_of_mem hleft)

omit [Primitives] in
theorem Held.card_le (h : Held pool) {left : Finset ℕ} (hleft : ∀ n, n ∈ left ↔ Left pool n) :
    left ⊆ Finset.range pool.shared.spawned := fun n hn =>
  Finset.mem_range.mpr (h.left_lt ((hleft n).mp hn))

/-- A step of the dialer. -/
theorem Held.dialer {dial : Dial} (h : Held pool) (hi : pool.rest .dialer = .call o k)
    (hleads : Leads dial (pool.calls .dialer) o) : Held (pool.step punchExec .dialer) := by
  obtain ⟨left, hleft, hsenders⟩ := h.senders
  have hcard : left.card ≤ pool.shared.spawned := by
    simpa using Finset.card_le_card (h.card_le hleft)
  obtain ⟨_, -, hspawned, hshared⟩ := shared_punch hi
  refine ⟨fun n hn => ?_, left, fun n => ?_, ?_⟩
  · rw [Pool.calls_step_of_ne (by simp)] at hn
    rw [hspawned]
    exact Nat.lt_add_right _ (h.begun n hn)
  · rw [left_of_step hi, hleft]
    simp
  · rw [hshared, hspawned, Pool.calls_step_self hi, senderOf_concat]
    cases hdrops : o.dropsSender with
    | false =>
      simp only [Bool.toNat_false, Bool.false_eq_true, if_false]
      omega
    | true =>
      have := hleads.senderOf_eq hdrops
      simp only [Bool.toNat_true, if_true]
      omega

/-- A step of an attempt. -/
theorem Held.attempt {dial : Dial} {index : ℕ} {pair : CandidatePair} (h : Held pool)
    (hi : pool.rest (.attempt index) = .call o k)
    (hattempts : Attempts dial index pair (pool.calls (.attempt index)) o)
    (hready : o.ready pool.shared = true) : Held (pool.step punchExec (.attempt index)) := by
  have hindex : index < pool.shared.spawned := by
    by_cases hnil : pool.calls (.attempt index) = []
    · rw [hattempts.eq_started hnil] at hready
      exact of_decide_eq_true hready
    · exact h.begun index hnil
  obtain ⟨_, -, hspawned, hshared⟩ := shared_punch hi
  rw [hattempts.own.1, Nat.add_zero] at hspawned
  obtain ⟨left, hleft, hsenders⟩ := h.senders
  refine ⟨fun n hn => ?_, ?_⟩
  · rw [hspawned]
    by_cases hn' : n = index
    · exact hn' ▸ hindex
    · rw [Pool.calls_step_of_ne (by simpa using hn')] at hn
      exact h.begun n hn
  · rw [hspawned, Pool.calls_step_of_ne (show PunchTask.dialer ≠ .attempt index by simp), hshared,
      hattempts.own.1]
    cases hdrops : o.dropsSender with
    | false =>
      refine ⟨left, fun n => ?_, hsenders⟩
      rw [left_of_step hi, hleft]
      refine ⟨.inl, fun hn => hn.resolve_right fun ⟨_, ho⟩ => ?_⟩
      rw [ho] at hdrops
      cases hdrops
    | true =>
      obtain rfl := eq_dropSender hdrops
      have hnew : index ∉ left := fun hmem => hattempts.not_left.1 ((hleft index).mp hmem)
      have hcard : left.card < pool.shared.spawned := by
        have hinsert : insert index left ⊆ Finset.range pool.shared.spawned :=
          Finset.insert_subset (Finset.mem_range.mpr hindex) (h.card_le hleft)
        have hle := Finset.card_le_card hinsert
        rwa [Finset.card_insert_of_notMem hnew, Finset.card_range] at hle
      refine ⟨insert index left, fun n => ?_, ?_⟩
      · rw [left_of_step hi, Finset.mem_insert, hleft, or_comm]
        simp [eq_comm]
      · rw [Finset.card_insert_of_notMem hnew]
        show pool.shared.view.senders + 0 - 1 + (left.card + 1) = _
        omega

omit [Primitives] in
theorem held_start (env : PunchEnvironment) : Held env.pool := by
  refine ⟨fun n hn => absurd rfl hn, ∅, fun n => ?_, congrArg Mpsc.View.senders (view_start env)⟩
  exact ⟨fun hn => absurd hn (Finset.notMem_empty n), fun hn => absurd hn List.not_mem_nil⟩

theorem held_step (hheld : Held (env.after schedule))
    (hi : (env.after schedule).rest i = .call o k)
    (hcan : (env.after schedule).can PunchOp.ready i = true) :
    Held ((env.after schedule).step punchExec i) := by
  rw [Pool.can_of_call hi] at hcan
  cases i with
  | dialer => exact hheld.dialer hi (leads_of_call hi)
  | attempt index =>
    obtain ⟨pair, -, hattempts⟩ := attempts_of_call hi
    exact hheld.attempt hi hattempts hcan

theorem held_run (h : env.Runs schedule) : Held (env.after schedule) :=
  Pool.orderly_inv (fun _ _ _ _ hI hi hcan => held_step hI hi hcan) (held_start env) h

end punch

end NightBridge.Native
