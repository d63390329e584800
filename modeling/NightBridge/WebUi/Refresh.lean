/-
# Which daemon the web UI shows

A session is the page from its loading on, with the acts in the order in which
they come.  Responses come in any order, and `refreshSnapshot` stores its own
whenever it comes.  So the page can show a daemon that it is not set to: a
refresh that began before a stop brings its snapshot back (`stale_snapshots`),
and an earlier refresh replaces what a later one has stored.  While the acts are
serial (`Serial`) neither happens.
-/

import NightBridge.WebUi.State

namespace NightBridge.WebUi

/-- The page from its loading on. -/
structure Session where
  platform : Platform
  stored : Stored
  acts : List Act

namespace Session

variable (s : Session)

/-- The world before the act `i`. -/
def world (i : ℕ) : World := run s.platform (.init s.platform s.stored) (s.acts.take i)

/-- The act `i` stores the response of the refresh `n`. -/
def StoresAt (i n : ℕ) (refresh : Refresh) : Prop :=
  ∃ act, s.acts[i]? = some act ∧ Stores (s.world i) act n refresh

/-- The act `i` completes a stop. -/
def StopsAt (i : ℕ) : Prop := ∃ act, s.acts[i]? = some act ∧ Stops (s.world i) act

/-- The act `i` begins the refresh `n`. -/
def StartsAt (i n : ℕ) : Prop :=
  n = (s.world i).tasks.length ∧ ∃ refresh, (s.world (i + 1)).task? n = some (.refresh refresh)

/-- **The page shows the daemon that it is set to.** -/
structure ShowsConfigured : Prop where
  /-- A response that is stored was fetched with the base and the token of the
  state. -/
  configured : ∀ {j n refresh}, s.StoresAt j n refresh →
    refresh.apiBase = stripSlashes (s.world j).state.apiBase ∧ refresh.token = (s.world j).state.token
  /-- A snapshot that is shown is not replaced by that of a refresh that began
  earlier. -/
  newest : ∀ {a b i j m n refresh refresh'}, s.StartsAt a m → s.StoresAt i m refresh → s.StartsAt b n →
    s.StoresAt j n refresh' → i < j → (∀ k, i < k → k ≤ j → (s.world k).state.snapshot.isSome) → a ≤ b
  /-- After a stop, a snapshot is shown once a refresh that began after it has
  come. -/
  stopped : ∀ {i j}, s.StopsAt i → i < j → (s.world j).state.snapshot.isSome →
    ∃ b k n refresh, i < b ∧ s.StartsAt b n ∧ s.StoresAt k n refresh ∧ k < j

/-- While a refresh waits for its answers, no act comes that begins another one
or sets the base or the token. -/
def Serial : Prop := ∀ (i : ℕ) (hi : i < s.acts.length), (s.world i).refreshing →
  (s.acts.get ⟨i, hi⟩).refreshes = false ∧ (s.acts.get ⟨i, hi⟩).configures = false

instance : Decidable s.Serial :=
  inferInstanceAs (Decidable (∀ (i : ℕ) (hi : i < s.acts.length), (s.world i).refreshing →
    (s.acts.get ⟨i, hi⟩).refreshes = false ∧ (s.acts.get ⟨i, hi⟩).configures = false))

/-! ### The steps of a session -/

variable {s}

theorem world_succ {i : ℕ} {act : Act} (h : s.acts[i]? = some act) :
    s.world (i + 1) = step s.platform (s.world i) act := by
  rw [world, run, List.take_add_one, h, Option.toList_some, List.foldl_append]
  rfl

theorem world_succ_of_none {i : ℕ} (h : s.acts[i]? = none) : s.world (i + 1) = s.world i := by
  rw [world, world, List.take_add_one, h, Option.toList_none, List.append_nil]

theorem snapshot_cases (i : ℕ) : (s.world (i + 1)).state.snapshot = (s.world i).state.snapshot ∨
    (s.world (i + 1)).state.snapshot = none ∨ ∃ n refresh, s.StoresAt i n refresh := by
  cases hact : s.acts[i]? with
  | none =>
    rw [world_succ_of_none hact]
    exact .inl rfl
  | some act =>
    rw [world_succ hact]
    rcases step_cases s.platform (s.world i) act with hfollows | ⟨n, refresh, _, hstores, _⟩
    · exact hfollows.snapshot.imp_right .inl
    · exact .inr (.inr ⟨n, refresh, act, hact, hstores⟩)

theorem continues_world (i : ℕ) :
    Continues (s.acts[i]?.any Act.refreshes) (s.world i) (s.world (i + 1)) := by
  cases hact : s.acts[i]? with
  | none =>
    rw [world_succ_of_none hact]
    exact (Follows.refl _).toContinues
  | some act =>
    rw [world_succ hact]
    exact continues_step s.platform (s.world i) act

theorem synced_world (i : ℕ) : (s.world i).Synced := by
  induction i with
  | zero => exact synced_init s.platform s.stored
  | succ i ih => exact (continues_world i).synced ih

theorem length_tasks_mono : Monotone fun i => (s.world i).tasks.length :=
  monotone_nat_of_le_succ fun i => (continues_world i).length_le

theorem StopsAt.length_tasks {i : ℕ} (h : s.StopsAt i) :
    (s.world (i + 1)).tasks.length = (s.world i).tasks.length := by
  obtain ⟨act, hact, hstops⟩ := h
  obtain ⟨n, hstep⟩ := step_of_stops s.platform hstops
  rw [world_succ hact, hstep, (Quiet.stopped _).tasks, World.settle, List.length_set]

theorem StopsAt.snapshot_eq_none {i : ℕ} (h : s.StopsAt i) : (s.world (i + 1)).state.snapshot = none := by
  obtain ⟨act, hact, hstops⟩ := h
  obtain ⟨n, hstep⟩ := step_of_stops s.platform hstops
  rw [world_succ hact, hstep]
  rfl

/-! ### Which refresh began when -/

section starts

variable {a b i j m n : ℕ} {refresh refresh' : Refresh}

theorem StartsAt.lt_length_iff (h : s.StartsAt a n) : n < (s.world i).tasks.length ↔ a < i := by
  obtain ⟨rfl, refresh, hrefresh⟩ := h
  constructor
  · intro hlt
    by_contra hle
    exact absurd (length_tasks_mono (not_lt.mp hle)) (not_le.mpr hlt)
  · intro hlt
    exact (lt_length_of_task? hrefresh).trans_le (length_tasks_mono hlt)

theorem StartsAt.lt_iff (hm : s.StartsAt a m) (hn : s.StartsAt b n) : a < b ↔ m < n := by
  rw [← hm.lt_length_iff, ← hn.1]

/-- **A refresh that waits began earlier, with the base and the token of then.** -/
theorem exists_startsAt (h : (s.world j).task? n = some (.refresh refresh)) :
    ∃ a < j, s.StartsAt a n ∧ refresh.apiBase = (s.world a).apiBase ∧
      refresh.token = (s.world a).state.token := by
  induction j generalizing refresh with
  | zero => cases h
  | succ j ih =>
    rcases (continues_world j).refresh h with ⟨earlier, hearlier, hbase, htoken⟩ | ⟨-, hn, hbase, htoken⟩
    · obtain ⟨a, ha, hstarts, hbase', htoken'⟩ := ih hearlier
      exact ⟨a, ha.trans j.lt_succ_self, hstarts, hbase.trans hbase', htoken.trans htoken'⟩
    · exact ⟨j, j.lt_succ_self, ⟨hn, refresh, h⟩, hbase, htoken⟩

theorem StoresAt.exists_startsAt (h : s.StoresAt j n refresh) :
    ∃ a < j, s.StartsAt a n ∧ refresh.apiBase = stripSlashes (s.world a).state.apiBase ∧
      refresh.token = (s.world a).state.token := by
  obtain ⟨act, -, endpoint, fetched, snapshot, -, hrefresh, -⟩ := h
  obtain ⟨a, ha, hstarts, hbase, htoken⟩ := Session.exists_startsAt hrefresh
  exact ⟨a, ha, hstarts, hbase.trans (synced_world a), htoken⟩

theorem StartsAt.index_unique (h : s.StartsAt a n) (h' : s.StartsAt b n) : a = b := by
  have hab := h.lt_iff h'
  have hba := h'.lt_iff h
  omega

theorem exists_storesAt (hnone : (s.world i).state.snapshot = none) (hij : i ≤ j)
    (hsome : (s.world j).state.snapshot.isSome) : ∃ k n refresh, i ≤ k ∧ k < j ∧ s.StoresAt k n refresh := by
  induction j, hij using Nat.le_induction with
  | base => simp [hnone] at hsome
  | succ j hij ih =>
    rcases snapshot_cases j with hkept | hgone | ⟨n, refresh, hstores⟩
    · obtain ⟨k, n, refresh, hik, hkj, hstores⟩ := ih (hkept ▸ hsome)
      exact ⟨k, n, refresh, hik, hkj.trans j.lt_succ_self, hstores⟩
    · simp [hgone] at hsome
    · exact ⟨j, n, refresh, hij, j.lt_succ_self, hstores⟩

end starts

/-! ### Serial sessions -/

section serial

variable {a i j n : ℕ} {refresh : Refresh}

theorem StartsAt.refreshing (h : s.StartsAt a n) (hai : a < i) (hij : i ≤ j)
    (hrefresh : (s.world j).task? n = some (.refresh refresh)) : (s.world i).refreshing := by
  suffices hwaits : ∃ refresh, (s.world i).task? n = some (.refresh refresh) from
    refreshing_of_task? hwaits.choose_spec
  induction j, hij using Nat.le_induction generalizing refresh with
  | base => exact ⟨refresh, hrefresh⟩
  | succ j hij ih =>
    rcases (continues_world j).refresh hrefresh with ⟨earlier, hearlier, -⟩ | ⟨-, hn, -⟩
    · exact ih hearlier
    · exact absurd (h.lt_length_iff.mpr (hai.trans_le hij)) (hn ▸ lt_irrefl n)

theorem StartsAt.exists_act (h : s.StartsAt a n) : ∃ act, s.acts[a]? = some act ∧ act.refreshes = true := by
  obtain ⟨rfl, refresh, hrefresh⟩ := h
  rcases (continues_world a).refresh hrefresh with ⟨_, hearlier, -⟩ | ⟨hany, -⟩
  · exact absurd (lt_length_of_task? hearlier) (lt_irrefl _)
  · exact Option.any_eq_true _ _ |>.mp hany

theorem Serial.act {act : Act} (h : s.Serial) (hact : s.acts[i]? = some act)
    (hrefreshing : (s.world i).refreshing) :
    act.refreshes = false ∧ act.configures = false := by
  obtain ⟨hi, rfl⟩ := List.getElem?_eq_some_iff.mp hact
  exact h i hi hrefreshing

/-- **The base and the token stay while a refresh waits.** -/
theorem Serial.settings (h : s.Serial) (hstarts : s.StartsAt a n) (haj : a < j)
    (hrefresh : (s.world j).task? n = some (.refresh refresh)) :
    (s.world j).state.apiBase = (s.world a).state.apiBase ∧
      (s.world j).state.token = (s.world a).state.token := by
  have hkept : ∀ i, a + 1 ≤ i → i ≤ j → (s.world i).state.apiBase = (s.world a).state.apiBase ∧
      (s.world i).state.token = (s.world a).state.token := by
    intro i hai
    induction i, hai using Nat.le_induction with
    | base =>
      intro _
      obtain ⟨act, hact, hrefreshes⟩ := hstarts.exists_act
      rw [world_succ hact]
      refine settings_step s.platform ?_
      cases act with
      | refreshSnapshot => rfl
      | streamEvent => rfl
      | _ => cases hrefreshes
    | succ i hai ih =>
      intro hij
      obtain ⟨hbase, htoken⟩ := ih (Nat.le_of_succ_le hij)
      rw [← hbase, ← htoken]
      cases hact : s.acts[i]? with
      | none =>
        rw [world_succ_of_none hact]
        exact ⟨rfl, rfl⟩
      | some act =>
        rw [world_succ hact]
        exact settings_step s.platform (h.act hact (hstarts.refreshing hai (Nat.le_of_succ_le hij) hrefresh)).2
  exact hkept j haj le_rfl

end serial

end Session

/-- **The page shows the daemon that it is set to** while the acts are serial. -/
theorem showsConfigured_of_serial (s : Session) (h : s.Serial) : s.ShowsConfigured where
  configured {j n refresh} hstores := by
    obtain ⟨a, haj, hstarts, hbase, htoken⟩ := hstores.exists_startsAt
    obtain ⟨_, -, _, _, _, -, hrefresh, -⟩ := hstores
    obtain ⟨hbase', htoken'⟩ := h.settings hstarts haj hrefresh
    exact ⟨hbase' ▸ hbase, htoken' ▸ htoken⟩
  newest {a b i j m n refresh refresh'} hstarts hstores hstarts' hstores' hij hshown := by
    by_contra hba
    -- the later refresh began while the earlier one was waiting
    obtain ⟨act, hact, hrefreshes⟩ := hstarts.exists_act
    obtain ⟨a', ha'i, hstarts'', -⟩ := hstores.exists_startsAt
    obtain rfl := hstarts''.index_unique hstarts
    obtain ⟨_, -, _, _, _, -, hrefresh, -⟩ := hstores'
    have hwaits := hstarts'.refreshing (not_le.mp hba) (ha'i.trans hij).le hrefresh
    exact Bool.false_ne_true ((h.act hact hwaits).1.symm.trans hrefreshes)
  stopped {i j} hstops hij hsome := by
    obtain ⟨k, n, refresh, hik, hkj, hstores⟩ := Session.exists_storesAt hstops.snapshot_eq_none hij hsome
    obtain ⟨a, -, hstarts, -⟩ := hstores.exists_startsAt
    refine ⟨a, k, n, refresh, ?_, hstarts, hstores, hkj⟩
    by_contra hai
    rcases (not_lt.mp hai).lt_or_eq with hai | rfl
    · -- the stop would have come while the refresh was waiting
      obtain ⟨act, hact, _, rfl, -⟩ := hstops
      obtain ⟨_, -, _, _, _, -, hrefresh, -⟩ := hstores
      cases (h.act hact (hstarts.refreshing hai (Nat.le_of_succ_le hik) hrefresh)).2
    · -- a stop begins nothing
      have hbegins := hstarts.lt_length_iff.mpr a.lt_succ_self
      rw [hstops.length_tasks, ← hstarts.1] at hbegins
      exact absurd hbegins (lt_irrefl n)

/-- The requests of the refresh `n` are answered, with nothing in the lists. -/
def answers (n : ℕ) : List Act :=
  [(.status, .object []), (.trustedPeers, .object [("peers", .array [])]),
   (.lanPeers, .object [("peers", .array [])]),
    (.inbox, .object [("entries", .array [])]), (.activeTransfers, .object [("transfers", .array [])])].map
    fun (endpoint, value) => .answer n endpoint (.ok ⟨200, "OK", true, .ok value⟩)

/-- A refresh and its answers, a stop, a new token, and a refresh again, whose
requests are answered while the events are connected. -/
def restarted : Session where
  platform := ⟨true, fun _ => some "http:"⟩
  stored := ⟨some "secret", some "http://127.0.0.1:7373", some .standalone⟩
  acts := [.refreshSnapshot] ++ answers 0 ++ [.stopStandaloneDaemon, .daemonStopped 1 (.ok ()),
    .setToken "other",
    .refreshSnapshot, .connectEvents] ++ answers 2

theorem showsConfigured_of_serial_restarted : restarted.Serial ∧ restarted.ShowsConfigured ∧
    (restarted.world 6).state.snapshot.isSome ∧ (restarted.world 8).state.snapshot = none ∧
    (restarted.world 16).state.snapshot.isSome := by
  have hserial : restarted.Serial := by decide +kernel
  have hshown : (restarted.world 6).state.snapshot.isSome ∧ (restarted.world 8).state.snapshot.isNone ∧
      (restarted.world 16).state.snapshot.isSome := by decide +kernel
  exact ⟨hserial, showsConfigured_of_serial restarted hserial, hshown.1,
    Option.isNone_iff_eq_none.mp hshown.2.1,
    hshown.2.2⟩

/-- A refresh begins, the daemon is stopped, and then the answers come. -/
def outlived : Session where
  platform := ⟨true, fun _ => some "http:"⟩
  stored := ⟨some "secret", some "http://127.0.0.1:7373", some .standalone⟩
  acts := [.refreshSnapshot, .stopStandaloneDaemon, .daemonStopped 1 (.ok ())] ++ answers 0

/-- Two refreshes begin, and the answers of the second come first. -/
def overtaken : Session where
  platform := ⟨false, fun _ => some "http:"⟩
  stored := ⟨some "secret", none, none⟩
  acts := [.refreshSnapshot, .refreshSnapshot] ++ answers 1 ++ answers 0

/-- **A refresh outlives a stop, and an earlier one replaces a later one.**  In
the first session the snapshot is shown again though neither a base nor a token
is set. -/
theorem stale_snapshots :
    ((outlived.world 8).state.snapshot.isSome ∧ (outlived.world 8).state.apiBase = "" ∧
      (outlived.world 8).state.token = "" ∧ ¬ outlived.ShowsConfigured) ∧ ¬ overtaken.ShowsConfigured := by
  refine ⟨⟨by decide +kernel, by decide +kernel, by decide +kernel, fun h => ?_⟩, fun h => ?_⟩
  · have hstores : outlived.StoresAt 7 0 _ := ⟨_, rfl, _, _, _, rfl, rfl, rfl⟩
    have htoken : "secret" = (outlived.world 7).state.token := (h.configured hstores).2
    exact absurd htoken (by decide +kernel)
  · have hlater : overtaken.StartsAt 1 1 := ⟨rfl, _, rfl⟩
    have hlater' : overtaken.StoresAt 6 1 _ := ⟨_, rfl, _, _, _, rfl, rfl, rfl⟩
    have hearlier : overtaken.StartsAt 0 0 := ⟨rfl, _, rfl⟩
    have hearlier' : overtaken.StoresAt 11 0 _ := ⟨_, rfl, _, _, _, rfl, rfl, rfl⟩
    have hshown : ∀ k < 12, 6 < k → (overtaken.world k).state.snapshot.isSome := by decide +kernel
    have := h.newest hlater hlater' hearlier hearlier' (by omega) fun k hik hkj => hshown k (by omega) hik
    omega

end NightBridge.WebUi
