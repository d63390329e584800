/-
# What the dialer returns, and that it does

An attempt reports how its pair was dialed (`reported_run`), and the dialer
stops at the first connection.  If it is told instead that there is nothing more
to receive, then the channel was empty and without a sender, so every attempt
had dropped its own, and it had reported before (`allFailed_of_recv`).

A task that waits does not wait for ever (`dial_ends`): the dialer waits only
while some attempt still has a sender, and an attempt never waits for the
dialer, since the channel has room for one report of each.
-/

import NightBridge.Native.Dialing

namespace NightBridge.Native

open Data Effect

section punch

variable {env : PunchEnvironment} {schedule : List PunchTask} {i : PunchTask} {o : PunchOp}
  {k : PunchOp.Resp o → PunchIo Empty (Option PunchOutcome)} {pool : Punch mpsc}

/-! ### The end of the reports -/

@[simp] theorem spawnsOf_taking (dial : Dial) (failed : List (String × DialError)) :
    spawnsOf (dial.taking failed) = dial.pairs.length := by
  simp [spawnsOf, Dial.taking, PunchOp.spawns, Function.comp_def]

@[simp] theorem senderOf_taking (dial : Dial) (failed : List (String × DialError)) :
    senderOf (dial.taking failed) = 0 := by
  simp [senderOf, Dial.taking, PunchOp.dropsSender]

@[simp] theorem gotOf_taking (dial : Dial) (failed : List (String × DialError)) :
    gotOf (dial.taking failed) = failed.map failure := by
  induction failed using List.reverseRecOn with
  | nil =>
    have hspawns : ∀ n, gotOf (List.replicate n ⟨.spawn, ()⟩) = [] := by
      intro n
      induction n with
      | zero => rfl
      | succ n ih => simp [List.replicate_succ', ih, reportOf]
    rw [Dial.taking, List.map_nil, gotOf_concat, hspawns]
    rfl
  | append_singleton failed f ih =>
    rw [← taking_concat, gotOf_concat, ih, List.map_append]
    rfl

theorem Leads.eq_taking {dial : Dial} {hist : PunchCalls} (h : Leads dial hist .recv) :
    ∃ failed, hist = dial.taking failed := by
  cases h with
  | recv failed => exact ⟨failed, rfl⟩

theorem left_of_senders (h : Held pool) {dial : Dial} (hspawned : pool.shared.spawned = dial.pairs.length)
    (hsender : senderOf (pool.calls .dialer) = 0) (hsenders : pool.shared.view.senders = 0) {n : ℕ}
    (hn : n < dial.pairs.length) : Left pool n := by
  obtain ⟨left, hleft, hcount⟩ := h.senders
  have hall : left = Finset.range pool.shared.spawned := by
    refine Finset.eq_of_subset_of_card_le (h.card_le hleft) ?_
    rw [Finset.card_range]
    omega
  rw [← hleft, hall, Finset.mem_range, hspawned]
  exact hn

/-! ### What an attempt has reported -/

variable [Primitives]

/-- An attempt reports how its pair was dialed. -/
theorem reported_run {n : ℕ} {report : Report} (h : Reported (env.after schedule) n report) :
    ∃ pair dialed result, env.dial.pairs[n]? = some pair ∧ report = env.dial.report pair result ∧
      (env.dial.dialPair pair).Ends dialed result ∧
      ∀ e ∈ dialed, e ∈ (env.after schedule).calls (.attempt n) := by
  refine Pool.calls_inv (I := fun hist => ∀ report, ⟨.send report, ()⟩ ∈ hist → ∃ pair dialed result,
    env.dial.pairs[n]? = some pair ∧ report = env.dial.report pair result ∧
      (env.dial.dialPair pair).Ends dialed result ∧ ∀ e ∈ dialed, e ∈ hist) (wp_attempts env n)
    (fun hist o r ho hI report hmem => ?_) (fun _ h => absurd h List.not_mem_nil) schedule report h
  rcases List.mem_append.mp hmem with hmem | hmem
  · obtain ⟨pair, dialed, result, hpair, hreport, hends, hdialed⟩ := hI report hmem
    exact ⟨pair, dialed, result, hpair, hreport, hends, fun e he => List.mem_append_left _ (hdialed e he)⟩
  · obtain ⟨pair, hpair, hattempts⟩ := ho
    obtain rfl : .send report = o := congrArg Event.op (List.mem_singleton.mp hmem)
    cases hattempts with
    | dial now hdialed ho => cases ho
    | send now hends =>
      exact ⟨pair, _, _, hpair, rfl, hends, fun e he => List.mem_append_left _ (List.mem_append_right _ he)⟩

theorem reported_of_left {n : ℕ} (h : Left (env.after schedule) n) :
    ∃ report, Reported (env.after schedule) n report := by
  refine Pool.calls_inv (I := fun hist => ⟨.dropSender, ()⟩ ∈ hist → ∃ report, ⟨.send report, ()⟩ ∈ hist)
    (wp_attempts env n) (fun hist o r ho hI hmem => ?_) (fun h => absurd h List.not_mem_nil) schedule h
  rcases List.mem_append.mp hmem with hmem | hmem
  · obtain ⟨report, hreport⟩ := hI hmem
    exact ⟨report, List.mem_append_left _ hreport⟩
  · obtain ⟨pair, hpair, hattempts⟩ := ho
    obtain rfl : .dropSender = o := congrArg Event.op (List.mem_singleton.mp hmem)
    obtain ⟨report, hreport⟩ := hattempts.not_left.2
    exact ⟨report, List.mem_append_left _ hreport⟩

theorem verified_of_answer {route : Route} {expected : String} {certificate : Bytes}
    (h : route.answer expected = .ok certificate) : hex (Primitives.sha256 certificate).1 = expected := by
  unfold Route.answer verifyCertificateFingerprint at h
  by_cases hfingerprint : hex (Primitives.sha256 route.certificate).1 = expected
  · rw [if_pos hfingerprint] at h
    cases houtcome : route.outcome with
    | error error =>
      rw [houtcome] at h
      cases h
    | ok _ =>
      rw [houtcome] at h
      rwa [← Except.ok.inj h]
  · rw [if_neg hfingerprint] at h
    cases h

/-- **The certificate is the one that is expected** in every handshake that
succeeds. -/
theorem verified_run {i : PunchTask} {endpoint : Endpoint} {remote : SocketAddr} {since deadline : ℕ}
    {certificate : Bytes}
    (h : ⟨.handshake endpoint remote since deadline, some (.ok certificate)⟩ ∈
      (env.after schedule).calls i) :
    hex (Primitives.sha256 certificate).1 = endpoint.expectedCertificateFingerprint := by
  refine Pool.run_inv (I := fun pool : Punch env.mpsc => ∀ i endpoint remote since deadline certificate,
    ⟨.handshake endpoint remote since deadline, some (.ok certificate)⟩ ∈ pool.calls i →
      hex (Primitives.sha256 certificate).1 = endpoint.expectedCertificateFingerprint)
    (fun schedule j o k hI hj => ?_) (fun _ _ _ _ _ _ h => absurd h List.not_mem_nil) schedule _ _ _ _ _ _ h
  intro i endpoint remote since deadline certificate hmem
  rcases Pool.mem_calls_step hj hmem with hmem | ⟨-, hnew⟩
  · exact hI _ _ _ _ _ _ hmem
  · obtain ⟨rfl, hanswer⟩ := Event.mk.inj hnew
    have hanswer := eq_of_heq hanswer
    simp only [punchExec, punchAt] at hanswer
    split_ifs at hanswer with hdone
    exact verified_of_answer (Option.some.inj hanswer).symm

/-- The dialer has been told of the failure of every attempt. -/
structure AllFailed (dial : Dial) (pool : Punch mpsc) : Prop where
  failed : ∀ n < dial.pairs.length, ∃ f, Reported pool n (failure f)
  taken : dial.pairs.length ≤ pool.shared.view.taken

/-- If the dialer is told that there is nothing more to receive, all attempts
have failed. -/
theorem allFailed_of_recv (hheld : Held (env.after schedule))
    (hleads : Leads env.dial ((env.after schedule).calls .dialer) .recv)
    (hready : PunchOp.recv.ready (env.after schedule).shared = true)
    (hnone : (env.after schedule).shared.view.sent[(env.after schedule).shared.view.taken]? = none) :
    AllFailed env.dial (env.after schedule) := by
  obtain ⟨failed, hcalls⟩ := hleads.eq_taking
  have htaken := List.getElem?_eq_none_iff.mp hnone
  have hsenders : (env.after schedule).shared.view.senders = 0 := by
    simpa [PunchOp.ready, Mpsc.canRecv_eq, Nat.not_lt.mpr htaken] using hready
  have hspawned := spawned_run env schedule
  have hreceiving := receiving_run env schedule
  obtain ⟨-, hgot⟩ := took_run env schedule
  rw [hcalls] at hspawned hreceiving hgot
  rw [List.take_of_length_le htaken, gotOf_taking] at hgot
  have hopen : (env.after schedule).shared.view.receiving = true := by
    rw [hreceiving]
    simp [Dial.taking, PunchOp.dropsReceiver]
  obtain ⟨order, -, -, hsent, hall⟩ := ordered_run env schedule
  have horder : ∀ n < env.dial.pairs.length, n ∈ order := by
    intro n hn
    have hleft : Left (env.after schedule) n :=
      left_of_senders hheld (hspawned.trans (spawnsOf_taking _ _)) (hcalls ▸ senderOf_taking _ _) hsenders hn
    obtain ⟨report, hreport⟩ := reported_of_left hleft
    exact hall hopen n report hreport
  refine ⟨fun n hn => ?_, ?_⟩
  · obtain ⟨report, hreport, hreported⟩ := exists_of_forall₂ hsent (horder n hn)
    rw [← hgot] at hreport
    obtain ⟨f, -, rfl⟩ := List.mem_map.mp hreport
    exact ⟨f, hreported⟩
  · have hrange : Finset.range env.dial.pairs.length ⊆ order.toFinset := fun n hn =>
      List.mem_toFinset.mpr (horder n (Finset.mem_range.mp hn))
    calc env.dial.pairs.length = (Finset.range env.dial.pairs.length).card := (Finset.card_range _).symm
      _ ≤ order.toFinset.card := Finset.card_le_card hrange
      _ ≤ order.length := List.toFinset_card_le order
      _ = (env.after schedule).shared.view.sent.length := hsent.length_eq
      _ ≤ (env.after schedule).shared.view.taken := htaken

theorem AllFailed.step {dial : Dial} (h : AllFailed dial pool) (hi : pool.rest i = .call o k) :
    AllFailed dial (pool.step punchExec i) := by
  refine ⟨fun n hn => ?_, ?_⟩
  · obtain ⟨f, hf⟩ := h.failed n hn
    exact ⟨f, hf.step⟩
  · obtain ⟨_, htaken, -, hshared⟩ := shared_punch hi
    rw [hshared]
    exact h.taken.trans htaken

theorem allFailed_run (h : env.Runs schedule)
    (hnone : ⟨.recv, none⟩ ∈ (env.after schedule).calls .dialer) :
    AllFailed env.dial (env.after schedule) := by
  refine (Pool.orderly_inv (I := fun pool : Punch env.mpsc => Held pool ∧ (⟨.recv, none⟩ ∈ pool.calls .dialer →
    AllFailed env.dial pool)) (fun schedule i o k hI hi hcan => ?_) ?_ h).2 hnone
  · obtain ⟨hheld, hfailed⟩ := hI
    refine ⟨held_step hheld hi hcan, fun hmem => AllFailed.step ?_ hi⟩
    rcases Pool.mem_calls_step hi hmem with hold | ⟨rfl, hnew⟩
    · exact hfailed hold
    · obtain ⟨rfl, hanswer⟩ := Event.mk.inj hnew
      rw [Pool.can_of_call hi] at hcan
      exact allFailed_of_recv hheld (leads_of_call hi) hcan
        ((env.mpsc.recv_fst _).symm.trans (eq_of_heq hanswer).symm)
  · exact ⟨held_start env, fun h => absurd h List.not_mem_nil⟩

/-! ### The outcome -/

theorem sent_run (env : PunchEnvironment) (schedule : List PunchTask) :
    ∃ rest, (env.after schedule).shared.view.sent =
      gotOf ((env.after schedule).calls .dialer) ++ rest := by
  refine ⟨(env.after schedule).shared.view.sent.drop (env.after schedule).shared.view.taken, ?_⟩
  rw [(took_run env schedule).2, List.take_append_drop]

theorem length_sent_le (env : PunchEnvironment) (schedule : List PunchTask) :
    (env.after schedule).shared.view.sent.length ≤ env.dial.pairs.length := by
  obtain ⟨order, hnodup, hlt, hsent, -⟩ := ordered_run env schedule
  rw [← hsent.length_eq, ← List.toFinset_card_of_nodup hnodup, ← Finset.card_range env.dial.pairs.length]
  exact Finset.card_le_card fun n hn => Finset.mem_range.mpr (hlt n (List.mem_toFinset.mp hn))

theorem exists_reported {report : Report} (h : report ∈ (env.after schedule).shared.view.sent) :
    ∃ n, Reported (env.after schedule) n report := by
  obtain ⟨order, -, -, hsent, -⟩ := ordered_run env schedule
  obtain ⟨n, -, hn⟩ := exists_of_forall₂ hsent.flip h
  exact ⟨n, hn⟩

theorem concludes_run {outcome : PunchOutcome}
    (hret : (env.after schedule).rest .dialer = .ret (some outcome)) :
    Concludes env.dial ((env.after schedule).calls .dialer) outcome := by
  obtain ⟨_, hsome, hconcludes⟩ := Pool.returned (wp_dialer env) hret
  obtain rfl := Option.some.inj hsome
  exact hconcludes

theorem ne_outOfFuel {outcome : PunchOutcome}
    (hret : (env.after schedule).rest .dialer = .ret (some outcome)) : outcome ≠ .error .outOfFuel := by
  have hconcludes := concludes_run hret
  rintro rfl
  generalize hcalls : (env.after schedule).calls .dialer = hist at hconcludes
  cases hconcludes with
  | outOfFuel failed hfailed =>
    obtain ⟨rest, hsent⟩ := sent_run env schedule
    have hlength := length_sent_le env schedule
    rw [hsent, hcalls, gotOf_taking, List.length_append, List.length_map] at hlength
    omega

/-- The first connection that was reported: one of a pair, with a peer that has
shown the certificate of the expected fingerprint. -/
def Connected (dial : Dial) (pool : Punch mpsc) (dialed : DialedCandidateConnection) : Prop :=
  ∃ failed rest n pair, dialed.diagnostics = dial.diagnostics failed ∧
    pool.shared.view.sent = failed.map failure ++ dial.report pair
      (.ok (dialed.endpoint, dialed.connection)) :: rest ∧
    dial.pairs[n]? = some pair ∧ Reported pool n (dial.report pair (.ok (dialed.endpoint, dialed.connection))) ∧
    dialed.endpoint.address = pair.localCandidate.address ∧
    dialed.connection.remote = pair.remoteCandidate.address ∧
    hex (Primitives.sha256 dialed.connection.certificate).1 = dial.trust

/-- Every attempt has reported a failure, and the error says all pairs and the
last of the failures. -/
def Unreachable (dial : Dial) (pool : Punch mpsc) (error : PunchError) : Prop :=
  ∃ failed, error = dial.noDirectPath failed ∧ failed.length = dial.pairs.length ∧
    pool.shared.view.sent = failed.map failure ∧
    ∀ n pair, dial.pairs[n]? = some pair → ∃ error, Reported pool n (dial.report pair (.error error))

/-- **What dialing returns**, in any order of the steps of the dialer and of the
attempts: the first connection that an attempt has reported, or after all of
them have failed that there is none. -/
theorem dial_outcome (env : PunchEnvironment) {schedule : List PunchTask} (h : env.Runs schedule)
    {outcome : PunchOutcome}
    (hret : (env.after schedule).rest .dialer = .ret (some outcome)) :
    (∃ dialed, outcome = .ok dialed ∧ Connected env.dial (env.after schedule) dialed) ∨
      ∃ error, outcome = .error error ∧ Unreachable env.dial (env.after schedule) error := by
  have hconcludes := concludes_run hret
  generalize hcalls : (env.after schedule).calls .dialer = hist at hconcludes
  cases hconcludes with
  | empty hpairs =>
    refine .inr ⟨_, rfl, [], ?_, ?_, ?_, fun n pair hpair => ?_⟩
    · simp [Dial.noDirectPath, Dial.diagnostics, hpairs, onlyServerReflexiveRemoteCandidates]
    · rw [hpairs]
      rfl
    · have hnone := length_sent_le env schedule
      rw [hpairs] at hnone
      exact List.eq_nil_of_length_eq_zero (Nat.le_zero.mp hnone)
    · rw [hpairs] at hpair
      cases hpair
  | success failed description connected =>
    obtain ⟨endpoint, connection⟩ := connected
    obtain ⟨rest, hsent⟩ := sent_run env schedule
    rw [hcalls, gotOf_concat, gotOf_concat, gotOf_taking] at hsent
    have hmem : (description, .ok (endpoint, connection)) ∈ (env.after schedule).shared.view.sent := by
      rw [hsent]
      simp [reportOf]
    obtain ⟨n, hreported⟩ := exists_reported hmem
    obtain ⟨pair, dialed, result, hpair, hreport, hends, hdialed⟩ := reported_run hreported
    obtain ⟨rfl, rfl⟩ := Prod.mk.inj hreport
    obtain ⟨rfl, hremote, since, deadline, hshake⟩ := connection_of_ends hends
    refine .inl ⟨_, rfl, failed, rest, n, pair, rfl, ?_, hpair, hreported, rfl, hremote, ?_⟩
    · rw [hsent]
      simp [reportOf, Dial.report]
    · exact verified_run (hdialed _ hshake)
  | failure failed hpairs =>
    have hall := allFailed_run h (by rw [hcalls]; simp)
    obtain ⟨htaken, hgot⟩ := took_run env schedule
    have hlength := length_sent_le env schedule
    have htakes := hall.taken
    rw [List.take_of_length_le (by omega), hcalls, gotOf_concat, gotOf_concat, gotOf_taking] at hgot
    have hsent : (env.after schedule).shared.view.sent = failed.map failure := by
      rw [← hgot]
      simp [reportOf]
    refine .inr ⟨_, rfl, failed, rfl, ?_, hsent, fun n pair hpair => ?_⟩
    · rw [← List.length_map failure, ← hsent]
      omega
    · obtain ⟨f, hf⟩ := hall.failed n (List.getElem?_eq_some_iff.mp hpair).1
      obtain ⟨pair', dialed, result, hpair', hreport, -⟩ := reported_run hf
      obtain rfl := Option.some.inj (hpair.symm.trans hpair')
      obtain ⟨-, rfl⟩ := Prod.mk.inj hreport
      exact ⟨f.2, hreport ▸ hf⟩
  | outOfFuel => exact absurd rfl (ne_outOfFuel hret)

end punch

/-- Two remote candidates, and a peer that shows the expected certificate on the
second one. -/
def PunchEnvironment.sample : PunchEnvironment where
  mpsc := default
  dial := dialCandidates [⟨.local, .v4 ⟨0, 0, 0, 0⟩ 0, 100⟩]
    [⟨.serverReflexive, .v4 ⟨203, 0, 113, 7⟩ 53318, 80⟩, ⟨.local, .v4 ⟨192, 168, 1, 7⟩ 53318, 90⟩]
    (hex (Primitives.sample.sha256 [1]).1) fun _ => ""
  route
    | .dialer => ⟨.ok (), .ok (), none, [], .ok (), id, []⟩
    | .attempt 0 => ⟨.ok (), .ok (), some 10, [2], .ok (), id, []⟩
    | .attempt _ => ⟨.ok (), .ok (), some 10, [1], .ok (), id, []⟩

/-- The first attempt is done before the second one dials. -/
def PunchEnvironment.sampleSchedule : List PunchTask :=
  List.replicate 3 .dialer ++ List.replicate 9 (.attempt 0) ++ [.dialer] ++ List.replicate 9 (.attempt 1) ++
    List.replicate 2 .dialer

/-- The tasks at the end of this. -/
def PunchEnvironment.sampleRun : Punch sample.mpsc :=
  letI := Primitives.sample
  sample.pool.run punchExec sampleSchedule

theorem runs_sampleSchedule : @PunchEnvironment.Runs .sample Primitives.sample
    PunchEnvironment.sampleSchedule := by
  unfold PunchEnvironment.Runs
  decide +kernel

/-- The local candidate shows another certificate, and the other one is taken. -/
theorem dial_outcome_second : ∃ dialed, PunchEnvironment.sampleRun.rest .dialer = .ret (some (.ok dialed)) ∧
    @Connected _ Primitives.sample PunchEnvironment.sample.dial PunchEnvironment.sampleRun dialed := by
  have hnext : (PunchEnvironment.sampleRun.rest .dialer).next?.isNone := by decide +kernel
  have hok : (PunchEnvironment.sampleRun.rest .dialer).outcome?.any fun r =>
      r.toOption.any fun outcome => outcome.any Except.isOk := by decide +kernel
  obtain ⟨r, hr⟩ := Prog.eq_ret_of_next? (Option.isNone_iff_eq_none.mp hnext)
  obtain ⟨outcome, rfl, -⟩ := Pool.returned (wp_dialer PunchEnvironment.sample) hr
  rcases @dial_outcome Primitives.sample PunchEnvironment.sample _ runs_sampleSchedule _ hr with
    ⟨dialed, rfl, h⟩ | ⟨error, rfl, -⟩
  · exact ⟨dialed, hr, h⟩
  · rw [hr] at hok
    cases hok

section ends

variable {env : PunchEnvironment} {schedule : List PunchTask} {i : PunchTask} {o : PunchOp}
  {k : PunchOp.Resp o → PunchIo Empty (Option PunchOutcome)} {pool : Punch mpsc}

/-! ### That it returns -/

theorem within_dialPair (dial : Dial) (pair : CandidatePair) : (dial.dialPair pair).Within 4 := by
  refine Prog.Within.bind (m := 1) (n := 3) (fun r => ?_) fun endpoint =>
    Prog.Within.bind (m := 1) (n := 2) (fun r => ?_) fun _ => fun since => fun r => ?_
  · cases r <;> trivial
  · cases r <;> trivial
  · rcases r with _ | _ | _ <;> trivial

theorem within_attempt (dial : Dial) (index : ℕ) (pair : CandidatePair) :
    (dial.attempt index pair).Within 9 := by
  refine fun _ => fun now => fun _ => ?_
  exact (within_dialPair dial pair).attempt.bind (n := 2) fun _ => fun _ => fun _ => trivial

theorem within_recvLoop (dial : Dial) (fuel : ℕ) (diagnostics : PunchDiagnostics) :
    (dial.recvLoop fuel diagnostics).Within (fuel + 1) := by
  induction fuel generalizing diagnostics with
  | zero => exact Prog.within_fail _ _
  | succ fuel ih =>
    intro r
    rcases r with _ | ⟨description, error | connected⟩
    · exact fun _ => Prog.within_fail _ _
    · exact ih _
    · exact fun _ => Prog.within_ret _ _

/-- How many operations a task makes at most. -/
def PunchEnvironment.bound (env : PunchEnvironment) : PunchTask → ℕ
  | .dialer => 2 * env.dial.pairs.length + 3
  | .attempt index => if index < env.dial.pairs.length then 9 else 0

theorem within_program (env : PunchEnvironment) (i : PunchTask) : (env.program i).Within (env.bound i) := by
  cases i with
  | dialer =>
    have hdial : env.dial.dialCandidatesWithTiming.Within (2 * env.dial.pairs.length + 3) := by
      rw [Dial.dialCandidatesWithTiming]
      split_ifs
      · exact Prog.within_fail _ _
      · have hspawns : (Prog.each env.dial.pairs fun _ => .call .spawn fun _ => .ret () :
            PunchIo PunchError Unit).Within (env.dial.pairs.length * 1) :=
          Prog.within_each (fun _ => Prog.within_call fun _ => Prog.within_ret 0 _) _
        refine (hspawns.bind (n := env.dial.pairs.length + 3) fun _ => ?_).mono (by omega)
        exact fun _ => within_recvLoop _ _ _
    exact hdial.attempt.bind (n := 0) fun _ => Prog.within_ret _ _
  | attempt index =>
    rw [PunchEnvironment.program, PunchEnvironment.bound]
    cases hpair : env.dial.pairs[index]? with
    | none => exact Prog.within_ret _ _
    | some pair =>
      rw [if_pos (List.getElem?_eq_some_iff.mp hpair).1]
      exact (within_attempt env.dial index pair).bind (n := 0) fun _ => Prog.within_ret _ _

def PunchEnvironment.tasks (env : PunchEnvironment) : Finset PunchTask :=
  insert .dialer ((Finset.range env.dial.pairs.length).image .attempt)

theorem bound_eq_zero {i : PunchTask} (hi : i ∉ env.tasks) : env.bound i = 0 := by
  cases i with
  | dialer => exact absurd (Finset.mem_insert_self _ _) hi
  | attempt index =>
    refine if_neg fun hindex => hi (Finset.mem_insert_of_mem ?_)
    exact Finset.mem_image_of_mem _ (Finset.mem_range.mpr hindex)

theorem sum_bound (env : PunchEnvironment) : ∑ i ∈ env.tasks, env.bound i = 11 * env.dial.pairs.length + 3 := by
  have hattempts : ∀ index ∈ Finset.range env.dial.pairs.length, env.bound (.attempt index) = 9 :=
    fun index h =>
    if_pos (Finset.mem_range.mp h)
  rw [PunchEnvironment.tasks, Finset.sum_insert (by simp),
    Finset.sum_image (fun _ _ _ _ h => PunchTask.attempt.inj h),
    Finset.sum_const_nat hattempts, Finset.card_range, PunchEnvironment.bound]
  omega

/-- An attempt never waits for the dialer: there is room for its report. -/
theorem Attempts.ready {dial : Dial} {index : ℕ} {pair : CandidatePair} {hist : PunchCalls}
    {s : PunchState mpsc} (h : Attempts dial index pair hist o) (hindex : index < s.spawned)
    (hroom : s.view.sent.length < s.view.taken + s.view.capacity) :
    o.ready s = true := by
  cases h with
  | started => exact decide_eq_true hindex
  | send now hends => simp [PunchOp.ready, Mpsc.canSend_eq, hroom]
  | dial now hdialed ho =>
    cases o with
    | bind | connect | now | handshake => rfl
    | _ => cases ho
  | _ => rfl

/-- An attempt that has not left can go on while the dialer waits. -/
theorem can_of_not_left [Primitives] {index : ℕ} (hindex : index < env.dial.pairs.length)
    (hleft : ¬ Left (env.after schedule) index)
    (hspawned : (env.after schedule).shared.spawned = env.dial.pairs.length)
    (htaken : (env.after schedule).shared.view.sent.length ≤ (env.after schedule).shared.view.taken) :
    (env.after schedule).can PunchOp.ready (.attempt index) = true := by
  cases hrest : (env.after schedule).rest (.attempt index) with
  | ret r => exact absurd (Pool.returned (wp_attempts env index) hrest hindex) hleft
  | fail e => exact e.elim
  | call o k =>
    obtain ⟨pair, -, hattempts⟩ := attempts_of_call hrest
    rw [Pool.can_of_call hrest]
    refine hattempts.ready (hspawned ▸ hindex) ?_
    rw [capacity_run]
    omega

/-- **Dialing comes to an end.**  There is a bound on the steps of dialer and
attempts, and where none of them can go on, the dialer has returned. -/
theorem dial_ends [Primitives] (env : PunchEnvironment) {schedule : List PunchTask} (h : env.Runs schedule) :
    schedule.length ≤ 11 * env.dial.pairs.length + 3 ∧
      ((∀ i, (env.after schedule).can PunchOp.ready i = false) →
        ∃ outcome, (env.after schedule).rest .dialer = .ret (some outcome) ∧
          outcome ≠ .error .outOfFuel) := by
  refine ⟨sum_bound env ▸ Pool.length_le_of_within punchExec _ env.route (within_program env)
    (fun i hi => bound_eq_zero hi) h, fun hstuck => ?_⟩
  cases hrest : (env.after schedule).rest .dialer with
  | ret r =>
    obtain ⟨outcome, rfl, -⟩ := Pool.returned (wp_dialer env) hrest
    exact ⟨outcome, rfl, ne_outOfFuel hrest⟩
  | fail e => exact e.elim
  | call o k =>
    have hwaits := hstuck .dialer
    rw [Pool.can_of_call hrest] at hwaits
    have hleads := leads_of_call hrest
    generalize hcalls : (env.after schedule).calls .dialer = hist at hleads
    cases hleads with
    | recv failed =>
      -- the dialer waits for a report, and then some attempt has a sender
      exfalso
      simp only [PunchOp.ready, Mpsc.canRecv_eq, Bool.or_eq_false_iff, decide_eq_false_iff_not] at hwaits
      obtain ⟨hempty, (hwaiting : (env.after schedule).shared.view.senders ≠ 0)⟩ := hwaits
      have hspawned := spawned_run env schedule
      rw [hcalls, spawnsOf_taking] at hspawned
      obtain ⟨left, hleft, hcount⟩ := (held_run h).senders
      rw [hcalls, senderOf_taking, hspawned] at hcount
      have hcard : left.card < (Finset.range env.dial.pairs.length).card := by
        rw [Finset.card_range]
        omega
      obtain ⟨index, hindex, hnot⟩ := Finset.exists_mem_notMem_of_card_lt_card hcard
      have hcan := can_of_not_left (Finset.mem_range.mp hindex) (fun hl => hnot ((hleft index).mpr hl)) hspawned
        (Nat.not_lt.mp hempty)
      rw [hstuck] at hcan
      cases hcan
    | _ => cases hwaits

end ends

theorem dial_ends_sample :
    PunchEnvironment.sampleSchedule.length ≤ 11 * PunchEnvironment.sample.dial.pairs.length + 3 ∧
    ∃ outcome, PunchEnvironment.sampleRun.rest .dialer = .ret (some outcome) ∧ outcome ≠ .error .outOfFuel := by
  obtain ⟨hlength, hends⟩ := @dial_ends Primitives.sample PunchEnvironment.sample _ runs_sampleSchedule
  refine ⟨hlength, hends fun i => ?_⟩
  have hpairs : PunchEnvironment.sample.dial.pairs.length = 2 := by decide +kernel
  have hdone : (PunchEnvironment.sampleRun.can PunchOp.ready .dialer ||
      PunchEnvironment.sampleRun.can PunchOp.ready (.attempt 0) ||
      PunchEnvironment.sampleRun.can PunchOp.ready (.attempt 1)) = false := by decide +kernel
  simp only [Bool.or_eq_false_iff] at hdone
  obtain ⟨⟨hdialer, hfirst⟩, hsecond⟩ := hdone
  rcases i with _ | _ | _ | index
  · exact hdialer
  · exact hfirst
  · exact hsecond
  · -- there is no such attempt
    refine Bool.eq_false_iff.mpr fun hcan => ?_
    obtain ⟨o, k, hrest⟩ := Pool.exists_call_of_can hcan
    obtain ⟨pair, hpair, -⟩ := @attempts_of_call Primitives.sample PunchEnvironment.sample _ _ _ _ hrest
    have hindex := (List.getElem?_eq_some_iff.mp hpair).1
    omega

end NightBridge.Native
