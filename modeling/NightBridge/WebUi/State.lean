/-
# The state of the web UI

`crates/webui/src/state.ts`: the state that the page shows, and the calls that
change it.

A call that awaits something is a task from then on, and what it awaits is an
act of its own (`Act`), so that the acts of several calls can come in any order.
Tasks are numbered in the order in which they start and keep their number.  An
act that no task waits for does nothing.  `refreshSnapshot` makes its requests
when it starts, with the base and the token of that moment.

What is written to `localStorage` is read when the page is loaded and is left
out; `Stored` is what is there then.  `new URL` is a parameter.
-/

import NightBridge.WebUi.Api

namespace NightBridge.WebUi

open Data

/-! ### The state -/

inductive GuiMode
  | remote
  | standalone
  deriving DecidableEq

inductive ConnectionState
  | disconnected
  | connecting
  | connected
  | error
  deriving DecidableEq

inductive StandaloneState
  | stopped
  | starting
  | running
  | error
  deriving DecidableEq

structure AppState where
  token : String
  apiBase : String
  guiMode : GuiMode
  isDesktop : Bool
  standalone : StandaloneState
  connection : ConnectionState
  snapshot : Option DaemonSnapshot
  lastEvent : Option JsonValue
  error : Option String

structure DesktopSettings where
  mode : GuiMode
  remoteEndpoint : Option String
  apiToken : Option String

structure EmbeddedDaemonStatus where
  running : Bool
  endpoint : Option String
  apiToken : Option String

/-- What the page runs on. -/
structure Platform where
  isTauri : Bool
  /-- `new URL(endpoint).protocol`, where `none` is that it throws. -/
  protocol : String → Option String

inductive Task
  | refresh (refresh : Refresh)
  | loadSettings
  | loadStatus
  | saveSettings (mode : GuiMode) (endpoint token : String)
  | start
  | stop

/-- The state with what the modules keep beside it: the base of `api.ts`, the
event streams, of which all but `eventsAbort` are aborted, and the calls, of
which those at `none` have returned. -/
structure World where
  state : AppState
  apiBase : String
  streams : ℕ
  eventsAbort : Option ℕ
  tasks : List (Option Task)

/-- What `localStorage` holds when the page is loaded. -/
structure Stored where
  token : Option String
  apiBase : Option String
  guiMode : Option GuiMode

def World.init (platform : Platform) (stored : Stored) : World where
  state :=
    { token := stored.token.getD "", apiBase := stored.apiBase.getD "", guiMode := stored.guiMode.getD .remote
      isDesktop := platform.isTauri, standalone := .stopped, connection := .disconnected, snapshot := none
      lastEvent := none, error := none }
  apiBase := stripSlashes (stored.apiBase.getD "")
  streams := 0
  eventsAbort := none
  tasks := []

def Platform.endpointError (platform : Platform) (endpoint : String) : Option String :=
  if endpoint = "" then none
  else match platform.protocol endpoint with
    | none => some "Remote daemon endpoint must be a valid URL"
    | some protocol =>
      if protocol ≠ "http:" ∧ protocol ≠ "https:" then
        some "Remote daemon endpoint must start with http:// or https://"
      else none

/-! ### The calls -/

namespace World

def update (w : World) (f : AppState → AppState) : World := { w with state := f w.state }

/-- A call begins to wait. -/
def start (w : World) (task : Task) : World := { w with tasks := w.tasks ++ [some task] }

/-- A call goes on, to wait for something else or to return. -/
def settle (w : World) (n : ℕ) (task : Option Task) : World := { w with tasks := w.tasks.set n task }

def task? (w : World) (n : ℕ) : Option Task := w.tasks[n]?.join

def setToken (w : World) (token : String) : World :=
  w.update fun state => { state with token := trimText token, error := none }

def setDaemonApiBase (w : World) (base : String) : World :=
  let trimmed := stripSlashes (trimText base)
  { w with apiBase := stripSlashes trimmed, state := { w.state with apiBase := trimmed, error := none } }

def setGuiMode (w : World) (mode : GuiMode) : World :=
  w.update fun state => { state with guiMode := mode, error := none }

def disconnectEvents (w : World) : World := { w with eventsAbort := none }

/-- A call that has to do with the connection fails. -/
def connectionFails (w : World) (message : String) : World :=
  w.update fun state => { state with connection := .error, error := some message }

/-- A call that has to do with the daemon of the desktop app fails. -/
def standaloneFails (w : World) (message : String) : World :=
  w.update fun state => { state with standalone := .error, connection := .error, error := some message }

def applyEmbeddedDaemonStatus (w : World) (status : EmbeddedDaemonStatus) : World :=
  if !status.running then
    w.update fun state =>
      { state with standalone := .stopped, connection := .disconnected, snapshot := none, error := none }
  else
    (((w.setGuiMode .standalone).setDaemonApiBase (status.endpoint.getD "")).setToken
      (status.apiToken.getD "")).update fun state => { state with standalone := .running, error := none }

/-- `loadDesktopSettings`, when the settings are there. -/
def applySettings (w : World) (settings : DesktopSettings) : World :=
  ((w.setGuiMode settings.mode).setDaemonApiBase (settings.remoteEndpoint.getD "")).setToken
    (settings.apiToken.getD "")

/-- `saveDesktopSettings`, when the settings are saved. -/
def savedSettings (w : World) (mode : GuiMode) (endpoint token : String) : World :=
  ((w.setGuiMode mode).setDaemonApiBase (if mode = .remote then endpoint else "")).setToken token

/-- `stopStandaloneDaemon`, when the daemon has stopped. -/
def stopped (w : World) : World :=
  ((w.disconnectEvents.setDaemonApiBase "").setToken "").update fun state =>
    { state with standalone := .stopped, connection := .disconnected, snapshot := none, lastEvent := none,
                 error := none }

def connectEvents (w : World) : World :=
  if w.state.token = "" then w.disconnectEvents
  else { w with eventsAbort := some w.streams, streams := w.streams + 1 }

section calls

variable (platform : Platform)

/-- `refreshSnapshot`, until it waits. -/
def refreshSnapshot (w : World) : World :=
  if w.state.token = "" then
    w.update fun state =>
      { state with connection := .disconnected, snapshot := none, error := some "API token required" }
  else match if w.state.guiMode = .remote then platform.endpointError w.state.apiBase else none with
    | some invalidEndpoint =>
      w.update fun state => { state with connection := .error, snapshot := none, error := some invalidEndpoint }
    | none =>
      (w.update fun state => { state with connection := .connecting, error := none }).start
        (.refresh ⟨w.apiBase, w.state.token, []⟩)

/-- `saveDesktopSettings`, until it waits. -/
def saveDesktopSettings (w : World) (mode : GuiMode) (endpoint token : String) : World :=
  let trimmedEndpoint := stripSlashes (trimText endpoint)
  let trimmedToken := trimText token
  match if mode = .remote then platform.endpointError trimmedEndpoint else none with
  | some invalidEndpoint => w.connectionFails invalidEndpoint
  | none =>
    if platform.isTauri then w.start (.saveSettings mode trimmedEndpoint trimmedToken)
    else w.savedSettings mode trimmedEndpoint trimmedToken

/-- `startStandaloneDaemon`, until it waits. -/
def startStandaloneDaemon (w : World) : World :=
  if !platform.isTauri then w.standaloneFails "Standalone mode requires the desktop app"
  else (w.update fun state =>
    { state with standalone := .starting, connection := .connecting, error := none }).start
    .start

end calls

/-- `refreshSnapshot`, when the snapshot is there. -/
def store (w : World) (snapshot : DaemonSnapshot) : World :=
  w.update fun state => { state with connection := .connected, snapshot := some snapshot, error := none }

/-- A request of a snapshot is answered. -/
def answer (w : World) (n : ℕ) (endpoint : Endpoint) (fetched : Except String Response) : World :=
  match w.task? n with
  | some (.refresh refresh) =>
    match refresh.answer endpoint fetched with
    | .inl refresh => w.settle n (some (.refresh refresh))
    | .inr (.ok snapshot) => (w.settle n none).store snapshot
    | .inr (.error message) => (w.settle n none).connectionFails message
  | _ => w

def settingsLoaded (w : World) (n : ℕ) (settings : Except String DesktopSettings) : World :=
  match w.task? n, settings with
  | some .loadSettings, .ok settings =>
    (w.settle n (if settings.mode = .standalone then some .loadStatus else none)).applySettings settings
  | some .loadSettings, .error message => (w.settle n none).update fun state =>
    { state with error := some message }
  | _, _ => w

/-- The status of the daemon comes. -/
def statusLoaded (w : World) (n : ℕ) (status : Except String EmbeddedDaemonStatus) : World :=
  match w.task? n, status with
  | some .loadStatus, .ok status => (w.settle n none).applyEmbeddedDaemonStatus status
  | some .loadStatus, .error message => (w.settle n none).update fun state =>
    { state with error := some message }
  | _, _ => w

/-- The settings are saved, or cannot be: then the promise is rejected, and
nothing catches it here. -/
def settingsSaved (w : World) (n : ℕ) (result : Except String Unit) : World :=
  match w.task? n, result with
  | some (.saveSettings mode endpoint token), .ok () => (w.settle n none).savedSettings mode endpoint token
  | some (.saveSettings _ _ _), .error _ => w.settle n none
  | _, _ => w

/-- The daemon has started, or cannot. -/
def daemonStarted (w : World) (n : ℕ) (status : Except String EmbeddedDaemonStatus) : World :=
  match w.task? n, status with
  | some .start, .ok status => (w.settle n none).applyEmbeddedDaemonStatus status
  | some .start, .error message => (w.settle n none).standaloneFails message
  | _, _ => w

/-- The daemon has stopped, or cannot. -/
def daemonStopped (w : World) (n : ℕ) (result : Except String Unit) : World :=
  match w.task? n, result with
  | some .stop, .ok () => (w.settle n none).stopped
  | some .stop, .error message => (w.settle n none).standaloneFails message
  | _, _ => w

end World

/-! ### The acts -/

/-- What can happen: a call begins, or something comes that a call or a stream
waits for. -/
inductive Act
  | setToken (token : String)
  | setDaemonApiBase (base : String)
  | refreshSnapshot
  | loadDesktopSettings
  | saveDesktopSettings (mode : GuiMode) (endpoint token : String)
  | startStandaloneDaemon
  | stopStandaloneDaemon
  | connectEvents
  | disconnectEvents
  | answer (n : ℕ) (endpoint : Endpoint) (fetched : Except String Response)
  | settingsLoaded (n : ℕ) (settings : Except String DesktopSettings)
  | statusLoaded (n : ℕ) (status : Except String EmbeddedDaemonStatus)
  | settingsSaved (n : ℕ) (result : Except String Unit)
  | daemonStarted (n : ℕ) (status : Except String EmbeddedDaemonStatus)
  | daemonStopped (n : ℕ) (result : Except String Unit)
  | streamEvent (stream : ℕ) (event : JsonValue)
  | streamFailed (stream : ℕ) (message : String)

section step

variable (platform : Platform)

def step (w : World) : Act → World
  | .setToken token => w.setToken token
  | .setDaemonApiBase base => w.setDaemonApiBase base
  | .refreshSnapshot => w.refreshSnapshot platform
  | .loadDesktopSettings => if !platform.isTauri then w else w.start .loadSettings
  | .saveDesktopSettings mode endpoint token => w.saveDesktopSettings platform mode endpoint token
  | .startStandaloneDaemon => w.startStandaloneDaemon platform
  | .stopStandaloneDaemon => if !platform.isTauri then w else w.start .stop
  | .connectEvents => w.connectEvents
  | .disconnectEvents => w.disconnectEvents
  | .answer n endpoint fetched => w.answer n endpoint fetched
  | .settingsLoaded n settings => w.settingsLoaded n settings
  | .statusLoaded n status => w.statusLoaded n status
  | .settingsSaved n result => w.settingsSaved n result
  | .daemonStarted n status => w.daemonStarted n status
  | .daemonStopped n result => w.daemonStopped n result
  | .streamEvent stream event =>
    if stream < w.streams then
      (w.update fun state => { state with lastEvent := some event }).refreshSnapshot platform
    else w
  | .streamFailed stream message => if w.eventsAbort = some stream then w.connectionFails message else w

def run (w : World) (acts : List Act) : World := acts.foldl (step platform) w

end step

def World.refreshing (w : World) : Bool := w.tasks.any fun
  | some (.refresh _) => true
  | _ => false

/-- The acts that may begin a refresh. -/
def Act.refreshes : Act → Bool
  | .refreshSnapshot | .streamEvent .. => true
  | _ => false

/-- The acts that may set the base and the token, the end of a stop among them. -/
def Act.configures : Act → Bool
  | .setToken _ | .setDaemonApiBase _ | .saveDesktopSettings .. | .settingsLoaded .. | .statusLoaded ..
  | .settingsSaved .. | .daemonStarted .. | .daemonStopped .. => true
  | _ => false

/-- The act completes the refresh `n`, and its response is stored. -/
def Stores (w : World) (act : Act) (n : ℕ) (refresh : Refresh) : Prop :=
  ∃ endpoint fetched snapshot, act = .answer n endpoint fetched ∧ w.task? n = some (.refresh refresh) ∧
    refresh.answer endpoint fetched = .inr (.ok snapshot)

/-- The act completes a stop, which clears the snapshot. -/
def Stops (w : World) (act : Act) : Prop := ∃ n, act = .daemonStopped n (.ok ()) ∧ w.task? n = some .stop

/-! ### What an act can do -/

/-- The client uses the base of the state. -/
def World.Synced (w : World) : Prop := w.apiBase = stripSlashes w.state.apiBase

theorem synced_init (platform : Platform) (stored : Stored) : (World.init platform stored).Synced := rfl

/-- No call goes on, and no snapshot appears. -/
structure Quiet (w w' : World) : Prop where
  tasks : w'.tasks = w.tasks
  synced : w.Synced → w'.Synced
  snapshot : w'.state.snapshot = w.state.snapshot ∨ w'.state.snapshot = none

theorem kept_or_none_trans {first second third : Option DaemonSnapshot} (h : second = first ∨ second = none)
    (h' : third = second ∨ third = none) : third = first ∨ third = none := by
  rcases h' with rfl | hnone
  · exact h
  · exact .inr hnone

namespace Quiet

variable {w w' w'' : World}

theorem refl (w : World) : Quiet w w := ⟨rfl, id, .inl rfl⟩

theorem trans (h : Quiet w w') (h' : Quiet w' w'') : Quiet w w'' where
  tasks := h'.tasks.trans h.tasks
  synced hsynced := h'.synced (h.synced hsynced)
  snapshot := kept_or_none_trans h.snapshot h'.snapshot

theorem update {f : AppState → AppState} (hbase : (f w.state).apiBase = w.state.apiBase)
    (hsnapshot : (f w.state).snapshot = w.state.snapshot ∨ (f w.state).snapshot = none) :
    Quiet w (w.update f) where
  tasks := rfl
  synced hsynced := by
    rw [World.Synced, World.update, hbase]
    exact hsynced
  snapshot := hsnapshot

theorem setToken (w : World) (token : String) : Quiet w (w.setToken token) := .update rfl (.inl rfl)

theorem setDaemonApiBase (w : World) (base : String) : Quiet w (w.setDaemonApiBase base) where
  tasks := by rw [World.setDaemonApiBase]
  synced _ := by rw [World.Synced, World.setDaemonApiBase]
  snapshot := .inl (by rw [World.setDaemonApiBase])

theorem setGuiMode (w : World) (mode : GuiMode) : Quiet w (w.setGuiMode mode) := .update rfl (.inl rfl)

theorem disconnectEvents (w : World) : Quiet w w.disconnectEvents := ⟨rfl, id, .inl rfl⟩

theorem connectionFails (w : World) (message : String) : Quiet w (w.connectionFails message) :=
  .update rfl (.inl rfl)

theorem standaloneFails (w : World) (message : String) : Quiet w (w.standaloneFails message) :=
  .update rfl (.inl rfl)

theorem connectEvents (w : World) : Quiet w w.connectEvents := by
  unfold World.connectEvents
  split_ifs
  · exact .disconnectEvents w
  · exact ⟨rfl, id, .inl rfl⟩

theorem settings (w : World) (mode : GuiMode) (base token : String) :
    Quiet w (((w.setGuiMode mode).setDaemonApiBase base).setToken token) :=
  ((setGuiMode w mode).trans (setDaemonApiBase _ base)).trans (setToken _ token)

theorem applyEmbeddedDaemonStatus (w : World) (status : EmbeddedDaemonStatus) :
    Quiet w (w.applyEmbeddedDaemonStatus status) := by
  unfold World.applyEmbeddedDaemonStatus
  split_ifs
  · exact .update rfl (.inr rfl)
  · exact (settings w _ _ _).trans (.update rfl (.inl rfl))

theorem stopped (w : World) : Quiet w w.stopped :=
  (((disconnectEvents w).trans (setDaemonApiBase _ _)).trans (setToken _ _)).trans (.update rfl (.inr rfl))

end Quiet

/-- At most one call begins, and a refresh only if `refreshes` says so: with the
base and the token that are there, which it keeps. -/
structure Continues (refreshes : Bool) (w w' : World) : Prop where
  length_le : w.tasks.length ≤ w'.tasks.length
  le_length : w'.tasks.length ≤ w.tasks.length + 1
  refresh : ∀ {n refresh'}, w'.task? n = some (.refresh refresh') →
    (∃ refresh, w.task? n = some (.refresh refresh) ∧ refresh'.apiBase = refresh.apiBase ∧
      refresh'.token = refresh.token) ∨
    refreshes = true ∧ n = w.tasks.length ∧ refresh'.apiBase = w.apiBase ∧ refresh'.token = w.state.token
  synced : w.Synced → w'.Synced

/-- Moreover, no snapshot appears. -/
structure Follows (refreshes : Bool) (w w' : World) : Prop extends Continues refreshes w w' where
  snapshot : w'.state.snapshot = w.state.snapshot ∨ w'.state.snapshot = none

section follows

variable {w w' w'' : World} {n : ℕ} {refreshes : Bool}

theorem task?_eq_some {task : Task} : w.task? n = some task ↔ w.tasks[n]? = some (some task) := by
  rw [World.task?, Option.join_eq_some_iff]

theorem lt_length_of_task? {task : Task} (h : w.task? n = some task) : n < w.tasks.length :=
  (List.getElem?_eq_some_iff.mp (task?_eq_some.mp h)).1

theorem refreshing_of_task? {refresh : Refresh} (h : w.task? n = some (.refresh refresh)) : w.refreshing :=
  List.any_eq_true.mpr ⟨_, List.mem_of_getElem? (task?_eq_some.mp h), rfl⟩

theorem Follows.trans_quiet (h : Follows refreshes w w') (hquiet : Quiet w' w'') : Follows refreshes w w'' where
  length_le := hquiet.tasks ▸ h.length_le
  le_length := hquiet.tasks ▸ h.le_length
  refresh hrefresh := h.refresh (by rwa [World.task?, ← hquiet.tasks])
  synced hsynced := hquiet.synced (h.synced hsynced)
  snapshot := kept_or_none_trans h.snapshot hquiet.snapshot

theorem Follows.refl (w : World) : Follows refreshes w w :=
  ⟨⟨le_rfl, Nat.le_succ _, fun h => .inl ⟨_, h, rfl, rfl⟩, id⟩, .inl rfl⟩

theorem Quiet.follows (h : Quiet w w') : Follows refreshes w w' := (Follows.refl w).trans_quiet h

/-- A call begins; a refresh begins with the base and the token that are there. -/
theorem Follows.start {task : Task}
    (htask : ∀ refresh, task = .refresh refresh →
      refreshes = true ∧ refresh.apiBase = w.apiBase ∧ refresh.token = w.state.token) :
    Follows refreshes w (w.start task) where
  length_le := by simp [World.start]
  le_length := by simp [World.start]
  refresh {n refresh'} hrefresh := by
    have hget := task?_eq_some.mp hrefresh
    rw [World.start, List.getElem?_append, List.getElem?_singleton] at hget
    split_ifs at hget with hlt hzero
    · exact .inl ⟨refresh', task?_eq_some.mpr hget, rfl, rfl⟩
    · obtain ⟨hrefreshes, hsettings⟩ := htask refresh' (Option.some.inj (Option.some.inj hget))
      exact .inr ⟨hrefreshes, by omega, hsettings⟩
  synced := id
  snapshot := .inl rfl

/-- A call goes on; a refresh that goes on keeps its base and its token. -/
theorem Follows.settle {task : Option Task} (htask : ∀ refresh', task = some (.refresh refresh') →
      ∃ refresh, w.task? n = some (.refresh refresh) ∧ refresh'.apiBase = refresh.apiBase ∧
        refresh'.token = refresh.token) : Follows refreshes w (w.settle n task) where
  length_le := by simp [World.settle]
  le_length := by simp [World.settle]
  refresh {m refresh'} hrefresh := by
    have hget := task?_eq_some.mp hrefresh
    rw [World.settle, List.getElem?_set] at hget
    split_ifs at hget with heq hlt
    · obtain rfl := heq
      exact .inl (htask refresh' (Option.some.inj hget))
    · exact .inl ⟨refresh', task?_eq_some.mpr hget, rfl, rfl⟩
  synced := id
  snapshot := .inl rfl

theorem Follows.returns (w : World) (n : ℕ) : Follows refreshes w (w.settle n none) :=
  .settle fun _ h => by cases h

/-- Something that leaves the base and the token as they are comes first. -/
theorem Follows.of_quiet (hquiet : Quiet w w') (hbase : w'.apiBase = w.apiBase)
    (htoken : w'.state.token = w.state.token) (h : Follows refreshes w' w'') : Follows refreshes w w'' where
  length_le := hquiet.tasks ▸ h.length_le
  le_length := hquiet.tasks ▸ h.le_length
  refresh {n refresh'} hrefresh := by
    rw [← hbase, ← htoken, ← hquiet.tasks]
    refine (h.refresh hrefresh).imp_left fun ⟨refresh, hget, hkept⟩ => ⟨refresh, ?_, hkept⟩
    rwa [World.task?, ← hquiet.tasks]
  synced hsynced := h.synced (hquiet.synced hsynced)
  snapshot := kept_or_none_trans hquiet.snapshot h.snapshot

theorem Follows.settingsLoaded (w : World) (n : ℕ) (settings : Except String DesktopSettings) :
    Follows refreshes w (w.settingsLoaded n settings) := by
  unfold World.settingsLoaded
  split
  · refine .trans_quiet (.settle fun refresh h => ?_) (.settings _ _ _ _)
    split_ifs at h
    cases h
  · exact (returns w n).trans_quiet (.update rfl (.inl rfl))
  · exact .refl w

theorem Follows.statusLoaded (w : World) (n : ℕ) (status : Except String EmbeddedDaemonStatus) :
    Follows refreshes w (w.statusLoaded n status) := by
  unfold World.statusLoaded
  split
  · exact (returns w n).trans_quiet (.applyEmbeddedDaemonStatus _ _)
  · exact (returns w n).trans_quiet (.update rfl (.inl rfl))
  · exact .refl w

theorem Follows.settingsSaved (w : World) (n : ℕ) (result : Except String Unit) :
    Follows refreshes w (w.settingsSaved n result) := by
  unfold World.settingsSaved
  split
  · exact (returns w n).trans_quiet (.settings _ _ _ _)
  · exact .returns w n
  · exact .refl w

theorem Follows.daemonStarted (w : World) (n : ℕ) (status : Except String EmbeddedDaemonStatus) :
    Follows refreshes w (w.daemonStarted n status) := by
  unfold World.daemonStarted
  split
  · exact (returns w n).trans_quiet (.applyEmbeddedDaemonStatus _ _)
  · exact (returns w n).trans_quiet (.standaloneFails _ _)
  · exact .refl w

theorem Follows.daemonStopped (w : World) (n : ℕ) (result : Except String Unit) :
    Follows refreshes w (w.daemonStopped n result) := by
  unfold World.daemonStopped
  split
  · exact (returns w n).trans_quiet (.stopped _)
  · exact (returns w n).trans_quiet (.standaloneFails _ _)
  · exact .refl w

variable (platform : Platform)

theorem Follows.refreshSnapshot (w : World) : Follows true w (w.refreshSnapshot platform) := by
  unfold World.refreshSnapshot
  by_cases htoken : w.state.token = ""
  · rw [if_pos htoken]
    exact (Quiet.update rfl (.inr rfl)).follows
  · rw [if_neg htoken]
    split
    · exact (Quiet.update rfl (.inr rfl)).follows
    · refine .of_quiet (.update rfl (.inl rfl)) rfl rfl (.start fun refresh hrefresh => ?_)
      obtain rfl := Task.refresh.inj hrefresh
      exact ⟨rfl, rfl, rfl⟩

theorem Follows.saveDesktopSettings (w : World) (mode : GuiMode) (endpoint token : String) :
    Follows refreshes w (w.saveDesktopSettings platform mode endpoint token) := by
  unfold World.saveDesktopSettings
  dsimp only
  split
  · exact (Quiet.connectionFails w _).follows
  · split_ifs
    · exact .start fun _ h => by cases h
    · exact (Quiet.settings w _ _ _).follows

theorem Follows.startStandaloneDaemon (w : World) : Follows refreshes w (w.startStandaloneDaemon platform) := by
  unfold World.startStandaloneDaemon
  split_ifs
  · exact (Quiet.standaloneFails w _).follows
  · exact .of_quiet (.update rfl (.inl rfl)) rfl rfl (.start fun _ h => by cases h)

theorem Refresh.answer_eq_inl {refresh refresh' : Refresh} {endpoint : Endpoint}
    {fetched : Except String Response}
    (h : refresh.answer endpoint fetched = .inl refresh') :
    refresh'.apiBase = refresh.apiBase ∧ refresh'.token = refresh.token := by
  unfold Refresh.answer at h
  split_ifs at h
  · obtain rfl := Sum.inl.inj h
    exact ⟨rfl, rfl⟩
  · cases hrequest : requestJson fetched with
    | error message =>
      rw [hrequest] at h
      cases h
    | ok value =>
      rw [hrequest] at h
      dsimp only at h
      split at h
      · obtain rfl := Sum.inl.inj h
        exact ⟨rfl, rfl⟩
      · cases h

/-- An answer stores the snapshot, or no snapshot appears. -/
theorem answer_cases (w : World) (n : ℕ) (endpoint : Endpoint) (fetched : Except String Response) :
    Follows refreshes w (w.answer n endpoint fetched) ∨
      ∃ refresh snapshot, w.task? n = some (.refresh refresh) ∧
        refresh.answer endpoint fetched = .inr (.ok snapshot) ∧
        w.answer n endpoint fetched = (w.settle n none).store snapshot := by
  unfold World.answer
  split
  · rename_i refresh hrefresh
    split
    · rename_i refresh' hanswer
      refine .inl (.settle fun refresh'' heq => ⟨refresh, hrefresh, ?_⟩)
      obtain rfl := Task.refresh.inj (Option.some.inj heq)
      exact Refresh.answer_eq_inl hanswer
    · rename_i snapshot hanswer
      exact .inr ⟨refresh, snapshot, hrefresh, hanswer, rfl⟩
    · exact .inl ((Follows.returns w n).trans_quiet (.connectionFails _ _))
  · exact .inl (.refl w)

/-- **What an act can do**: it completes a refresh and stores its response, or
no snapshot appears. -/
theorem step_cases (w : World) (act : Act) : Follows act.refreshes w (step platform w act) ∨
    ∃ n refresh snapshot, Stores w act n refresh ∧ step platform w act = (w.settle n none).store snapshot := by
  cases act with
  | setToken token => exact .inl (Quiet.setToken w token).follows
  | setDaemonApiBase base => exact .inl (Quiet.setDaemonApiBase w base).follows
  | refreshSnapshot => exact .inl (.refreshSnapshot platform w)
  | loadDesktopSettings =>
    rw [step]
    split_ifs
    · exact .inl (.refl w)
    · exact .inl (.start fun _ h => by cases h)
  | saveDesktopSettings mode endpoint token => exact .inl (.saveDesktopSettings platform w mode endpoint token)
  | startStandaloneDaemon => exact .inl (.startStandaloneDaemon platform w)
  | stopStandaloneDaemon =>
    rw [step]
    split_ifs
    · exact .inl (.refl w)
    · exact .inl (.start fun _ h => by cases h)
  | connectEvents => exact .inl (Quiet.connectEvents w).follows
  | disconnectEvents => exact .inl (Quiet.disconnectEvents w).follows
  | answer n endpoint fetched =>
    refine (answer_cases w n endpoint fetched).imp_right fun ⟨refresh, snapshot, hrefresh, hanswer, hstep⟩ => ?_
    exact ⟨n, refresh, snapshot, ⟨endpoint, fetched, snapshot, rfl, hrefresh, hanswer⟩, hstep⟩
  | settingsLoaded n settings => exact .inl (.settingsLoaded w n settings)
  | statusLoaded n status => exact .inl (.statusLoaded w n status)
  | settingsSaved n result => exact .inl (.settingsSaved w n result)
  | daemonStarted n status => exact .inl (.daemonStarted w n status)
  | daemonStopped n result => exact .inl (.daemonStopped w n result)
  | streamEvent stream event =>
    rw [step]
    split_ifs
    · exact .inl (.of_quiet (.update rfl (.inl rfl)) rfl rfl (.refreshSnapshot platform _))
    · exact .inl (.refl w)
  | streamFailed stream message =>
    rw [step]
    split_ifs
    · exact .inl (Quiet.connectionFails w message).follows
    · exact .inl (.refl w)

theorem continues_step (w : World) (act : Act) : Continues act.refreshes w (step platform w act) := by
  rcases step_cases platform w act with h | ⟨n, refresh, snapshot, -, hstep⟩
  · exact h.toContinues
  · rw [hstep]
    obtain ⟨length_le, le_length, refresh, synced⟩ := (Follows.returns w n).toContinues
    exact ⟨length_le, le_length, refresh, synced⟩

theorem settings_refreshSnapshot (w : World) :
    (w.refreshSnapshot platform).state.apiBase = w.state.apiBase ∧
      (w.refreshSnapshot platform).state.token = w.state.token := by
  unfold World.refreshSnapshot
  by_cases htoken : w.state.token = ""
  · rw [if_pos htoken]
    exact ⟨rfl, rfl⟩
  · rw [if_neg htoken]
    split
    · exact ⟨rfl, rfl⟩
    · exact ⟨rfl, rfl⟩

/-- **The base and the token are set only by an act that sets them.** -/
theorem settings_step {act : Act} (h : act.configures = false) :
    (step platform w act).state.apiBase = w.state.apiBase ∧
      (step platform w act).state.token = w.state.token := by
  cases act with
  | refreshSnapshot => exact settings_refreshSnapshot platform w
  | streamEvent stream event =>
    rw [step]
    split_ifs
    · exact settings_refreshSnapshot platform _
    · exact ⟨rfl, rfl⟩
  | loadDesktopSettings | stopStandaloneDaemon | streamFailed =>
    rw [step]
    split_ifs
    · exact ⟨rfl, rfl⟩
    · exact ⟨rfl, rfl⟩
  | startStandaloneDaemon =>
    rw [step, World.startStandaloneDaemon]
    split_ifs
    · exact ⟨rfl, rfl⟩
    · exact ⟨rfl, rfl⟩
  | connectEvents =>
    rw [step, World.connectEvents]
    split_ifs
    · exact ⟨rfl, rfl⟩
    · exact ⟨rfl, rfl⟩
  | disconnectEvents => exact ⟨rfl, rfl⟩
  | answer n endpoint fetched =>
    rw [step, World.answer]
    split
    · split
      · exact ⟨rfl, rfl⟩
      · exact ⟨rfl, rfl⟩
      · exact ⟨rfl, rfl⟩
    · exact ⟨rfl, rfl⟩
  | setToken | setDaemonApiBase | saveDesktopSettings | settingsLoaded | statusLoaded | settingsSaved
  | daemonStarted | daemonStopped => cases h

theorem step_of_stops {act : Act} (h : Stops w act) : ∃ n, step platform w act = (w.settle n none).stopped := by
  obtain ⟨n, rfl, hstop⟩ := h
  exact ⟨n, by simp only [step, World.daemonStopped, hstop]⟩

end follows

end NightBridge.WebUi
