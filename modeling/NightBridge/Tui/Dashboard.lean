/-
# The terminal dashboard

`crates/tui/src`: `AppState::handle_key` of `app.rs`, `fetch_once` of
`client.rs` and the loop of `run_app` in `main.rs`.  The operator moves a
selection through the peers that wait for approval, and approves or denies the
one that is selected; meanwhile the loop asks the daemon for its state every
second.

The selection is an index.  A fetched state is a new one, so its index is zero:
what the loop keeps of the old state is whether it is advanced, and nothing
else.  Of the state, what is only drawn is left out.
-/

import NightBridge.Effect.Prog
import Mathlib.Data.List.Infix

namespace NightBridge.Tui

open Effect

inductive Tab
  | dashboard
  | localSend
  | transfers
  | inbox
  deriving DecidableEq, Repr

def Tab.all : List Tab := [.dashboard, .localSend, .transfers, .inbox]

structure LocalSendPeer where
  fingerprint : String
  aliasName : String
  label : Option String
  status : String
  attemptCount : ℕ
  sourceIp : Option String
  deriving DecidableEq, Repr

/-- `AppState`, without what is only drawn. -/
structure AppState where
  selectedTab : Tab
  advanced : Bool
  pendingLocalsendPeers : List LocalSendPeer
  selectedLocalsendPeer : ℕ
  lastError : Option String
  shouldQuit : Bool
  deriving DecidableEq, Repr

def AppState.default : AppState := ⟨.dashboard, false, [], 0, none, false⟩

inductive AppAction
  | none
  | approveLocalSend (fingerprint : String) (label : Option String)
  | denyLocalSend (fingerprint : String)
  deriving DecidableEq, Repr

/-- `KeyCode`, with one constructor for the keys that do nothing. -/
inductive KeyCode
  | char (c : Char)
  | esc
  | tab
  | backTab
  | left
  | right
  | up
  | down
  | other
  deriving DecidableEq, Repr

/-! ### Keys -/

namespace AppState

variable (self : AppState)

def selectNextTab : AppState :=
  let selected := Tab.all.idxOf self.selectedTab
  { self with selectedTab := Tab.all.getD ((selected + 1) % Tab.all.length) .dashboard }

def selectPreviousTab : AppState :=
  let selected := Tab.all.idxOf self.selectedTab
  { self with selectedTab := if selected = 0 then .inbox else Tab.all.getD (selected - 1) .dashboard }

def selectNextLocalsendPeer : AppState :=
  if self.pendingLocalsendPeers = [] then { self with selectedLocalsendPeer := 0 }
  else { self with
    selectedLocalsendPeer := min (self.selectedLocalsendPeer + 1) (self.pendingLocalsendPeers.length - 1) }

def selectPreviousLocalsendPeer : AppState :=
  { self with selectedLocalsendPeer := self.selectedLocalsendPeer - 1 }

def selectedPeer : Option LocalSendPeer := self.pendingLocalsendPeers[self.selectedLocalsendPeer]?

def approveSelectedLocalsendPeer : AppAction :=
  (self.selectedPeer.map fun peer =>
    .approveLocalSend peer.fingerprint (some (peer.label.getD peer.aliasName))).getD .none

def denySelectedLocalsendPeer : AppAction :=
  (self.selectedPeer.map fun peer => .denyLocalSend peer.fingerprint).getD .none

def handleKey : KeyCode → AppAction × AppState
  | .char 'q' | .esc => (.none, { self with shouldQuit := true })
  | .tab | .right | .char 'l' => (.none, self.selectNextTab)
  | .backTab | .left | .char 'h' => (.none, self.selectPreviousTab)
  | .char 'j' | .down => (.none, self.selectNextLocalsendPeer)
  | .char 'k' | .up => (.none, self.selectPreviousLocalsendPeer)
  | .char 'a' => (self.approveSelectedLocalsendPeer, self)
  | .char 'd' => (self.denySelectedLocalsendPeer, self)
  | _ => (.none, self)

end AppState

/-! ### Fetching -/

/-- `DaemonApiConfig`, without the token and the interval. -/
structure DaemonApiConfig where
  endpoint : String
  advanced : Bool

/-- A peer in the answer of `list_pending_local_send`; its status is a number. -/
structure PendingPeer where
  fingerprint : String
  aliasName : String
  label : Option String
  status : ℤ
  attemptCount : ℕ
  sourceIp : Option String

/-- How the requests of one `fetch_once` are answered.  What an error says is
not looked at, but for the one of the interceptor. -/
structure Answers where
  fromShared : Except Unit Unit
  connect : Except Unit Unit
  interceptor : Except String Unit
  getStatus : Except Unit Unit
  listTrusted : Except Unit Unit
  listPendingLocalSend : Except Unit (List PendingPeer)
  listActive : Except Unit Unit
  listInbox : Except Unit Unit

def context {α : Type} (text : String) (r : Except Unit α) : Except String α := r.mapError fun _ => text

def localsendPeerStatus (status : ℤ) : String :=
  if status = 1 then "pending" else if status = 2 then "trusted" else if status = 3 then "blocked"
  else "unknown"

def PendingPeer.row (peer : PendingPeer) : LocalSendPeer where
  fingerprint := peer.fingerprint
  aliasName := peer.aliasName
  label := peer.label
  status := localsendPeerStatus peer.status
  attemptCount := peer.attemptCount
  sourceIp := peer.sourceIp

/-- The trusted peers are asked for only in advanced mode. -/
def trustedPeers (config : DaemonApiConfig) (answers : Answers) : Except String Unit :=
  if config.advanced then context "trusted peers request failed" answers.listTrusted else .ok ()

def fetchOnce (config : DaemonApiConfig) (answers : Answers) : Except String AppState := do
  context ("invalid daemon gRPC endpoint " ++ config.endpoint) answers.fromShared
  context ("daemon API unavailable at " ++ config.endpoint) answers.connect
  answers.interceptor
  context "daemon status request failed" answers.getStatus
  trustedPeers config answers
  let peers ← context "pending LocalSend peers request failed" answers.listPendingLocalSend
  context "active transfers request failed" answers.listActive
  context "inbox request failed" answers.listInbox
  return { AppState.default with
    advanced := config.advanced
    pendingLocalsendPeers := peers.map PendingPeer.row }

/-! ### The loop -/

/-- What happens in one round of the loop: the key that is read, if one is, how
the call of its action and the fetch after it are answered, and how the fetch is
answered that is made when the poll interval has elapsed. -/
structure Round where
  key : Option KeyCode
  call : Except String Unit
  refetch : Answers
  polled : Option Answers

/-- `next.advanced = advanced`. -/
def AppState.setAdvanced (config : DaemonApiConfig) (next : AppState) : AppState :=
  { next with advanced := config.advanced }

/-- The part of the round after an action. -/
def afterAction (config : DaemonApiConfig) (round : Round) (state : AppState) : AppState :=
  match round.call with
  | .error e => { state with lastError := some e }
  | .ok () =>
    match fetchOnce config round.refetch with
    | .ok next => next.setAdvanced config
    | .error _ => state

/-- The part of the round that handles a key. -/
def afterKey (config : DaemonApiConfig) (round : Round) (state : AppState) : AppState :=
  match round.key with
  | none => state
  | some code =>
    match state.handleKey code with
    | (.none, state) => state
    | (.approveLocalSend _ _, state) => afterAction config round state
    | (.denyLocalSend _, state) => afterAction config round state

/-- One round of `run_app`. -/
def runRound (config : DaemonApiConfig) (round : Round) (state : AppState) : AppState :=
  let state := afterKey config round state
  match round.polled with
  | none => state
  | some answers =>
    match fetchOnce config answers with
    | .ok next => next.setAdvanced config
    | .error e => { state with lastError := some e }

/-- The state in which `main` enters the loop. -/
def initialState (config : DaemonApiConfig) (answers : Answers) : AppState :=
  (match fetchOnce config answers with
    | .ok state => state
    | .error e => { AppState.default with lastError := some e }).setAdvanced config

/-! ### What a round brings -/

/-- The list in a fetched state, if the fetch succeeds. -/
def fetched (config : DaemonApiConfig) (answers : Answers) : Option (List LocalSendPeer) :=
  (fetchOnce config answers).toOption.map AppState.pendingLocalsendPeers

/-- The list that the action of a key brings, if the call and the fetch after it
succeed. -/
def Round.actionBrings (config : DaemonApiConfig) (round : Round) (state : AppState) :
    Option (List LocalSendPeer) :=
  if (round.key.map fun code => (state.handleKey code).1).getD .none = .none then none
  else round.call.toOption.bind fun _ => fetched config round.refetch

/-- The list that replaces the old one in a round: the one that is polled, or
else the one that is fetched after an action. -/
def Round.brings (config : DaemonApiConfig) (round : Round) (state : AppState) :
    Option (List LocalSendPeer) :=
  (round.polled.bind (fetched config)).or (round.actionBrings config state)

/-- A fetched state selects the first peer and does not quit. -/
theorem fetchOnce_eq_ok {config : DaemonApiConfig} {answers : Answers} {next : AppState}
    (h : fetchOnce config answers = .ok next) :
    next.selectedLocalsendPeer = 0 ∧ next.shouldQuit = false := by
  obtain ⟨_, -, h⟩ := bind_eq_ok_iff.mp h
  obtain ⟨_, -, h⟩ := bind_eq_ok_iff.mp h
  obtain ⟨_, -, h⟩ := bind_eq_ok_iff.mp h
  obtain ⟨_, -, h⟩ := bind_eq_ok_iff.mp h
  obtain ⟨_, -, h⟩ := bind_eq_ok_iff.mp h
  obtain ⟨_, -, h⟩ := bind_eq_ok_iff.mp h
  obtain ⟨_, -, h⟩ := bind_eq_ok_iff.mp h
  obtain ⟨_, -, h⟩ := bind_eq_ok_iff.mp h
  cases h
  exact ⟨rfl, rfl⟩

/-- The state after the key of a round, before anything is fetched. -/
def Round.pressed (round : Round) (state : AppState) : AppState :=
  (round.key.map fun code => (state.handleKey code).2).getD state

/-- The list and the selection after some list was brought, or none. -/
def Follows (brought : Option (List LocalSendPeer)) (state next : AppState) : Prop :=
  match brought with
  | some peers => next.pendingLocalsendPeers = peers ∧ next.selectedLocalsendPeer = 0 ∧
      next.shouldQuit = false
  | none => next.pendingLocalsendPeers = state.pendingLocalsendPeers ∧
      next.selectedLocalsendPeer = state.selectedLocalsendPeer

theorem Follows.withError {brought : Option (List LocalSendPeer)} {state next : AppState}
    (h : Follows brought state next) (e : Option String) :
    Follows brought state { next with lastError := e } := by
  cases brought <;> exact h

theorem follows_of_fetchOnce {config : DaemonApiConfig} {answers : Answers} {next : AppState}
    (h : fetchOnce config answers = .ok next) (state : AppState) :
    Follows (fetched config answers) state (next.setAdvanced config) := by
  obtain ⟨hselected, hquit⟩ := fetchOnce_eq_ok h
  rw [fetched, h]
  exact ⟨rfl, hselected, hquit⟩

theorem follows_afterAction (config : DaemonApiConfig) (round : Round) (state : AppState) :
    Follows (round.call.toOption.bind fun _ => fetched config round.refetch) state
      (afterAction config round state) := by
  unfold afterAction
  cases round.call with
  | error e => exact ⟨rfl, rfl⟩
  | ok u =>
    cases hfetch : fetchOnce config round.refetch with
    | ok next => exact follows_of_fetchOnce hfetch state
    | error e =>
      rw [fetched, hfetch]
      exact ⟨rfl, rfl⟩

theorem follows_afterKey (config : DaemonApiConfig) (round : Round) (state : AppState) :
    Follows (round.actionBrings config state) (round.pressed state) (afterKey config round state) := by
  unfold Round.actionBrings Round.pressed afterKey
  cases round.key with
  | none => exact ⟨rfl, rfl⟩
  | some code =>
    rcases hkey : state.handleKey code with ⟨action, pressed⟩
    simp only [Option.map_some, Option.getD_some, hkey]
    cases action with
    | none => exact ⟨rfl, rfl⟩
    | approveLocalSend fingerprint label => exact follows_afterAction config round pressed
    | denyLocalSend fingerprint => exact follows_afterAction config round pressed

/-- **What a round does to the list and the selection.**  A list that is brought
is the whole new state; without one, they are as the key left them. -/
theorem follows_runRound (config : DaemonApiConfig) (round : Round) (state : AppState) :
    Follows (round.brings config state) (round.pressed state) (runRound config round state) := by
  have hkey := follows_afterKey config round state
  unfold Round.brings runRound
  cases round.polled with
  | none => exact hkey
  | some answers =>
    dsimp only [Option.bind_some]
    cases hfetch : fetchOnce config answers with
    | ok next =>
      have hfetched : fetched config answers = some next.pendingLocalsendPeers := by
        rw [fetched, hfetch]
        rfl
      have hnext := follows_of_fetchOnce hfetch (round.pressed state)
      rw [hfetched] at hnext ⊢
      exact hnext
    | error e =>
      have hfetched : fetched config answers = none := by
        rw [fetched, hfetch]
        rfl
      rw [hfetched]
      exact hkey.withError (some e)

/-! ### Where the operator has put the selection -/

def AppAction.fingerprint? : AppAction → Option String
  | .none => Option.none
  | .approveLocalSend fingerprint _ => some fingerprint
  | .denyLocalSend fingerprint => some fingerprint

/-- The keys that move the selection. -/
def KeyCode.moves (code : KeyCode) : Bool := code ∈ [.char 'j', .down, .char 'k', .up]

/-- A dashboard, and the fingerprint of the peer that the operator last moved
the selection to. -/
structure Watched where
  state : AppState
  moved : Option String

namespace Watched

/-- The peer that a round moves the selection to. -/
def movedBy (round : Round) (w : Watched) : Option String :=
  if (round.key.map KeyCode.moves).getD false then
    ((round.pressed w.state).selectedPeer.map LocalSendPeer.fingerprint).or w.moved
  else w.moved

/-- One round, unless the loop has ended. -/
def step (config : DaemonApiConfig) (w : Watched) (round : Round) : Watched :=
  if w.state.shouldQuit then w else ⟨runRound config round w.state, w.movedBy round⟩

def run (config : DaemonApiConfig) (start : Answers) (rounds : List Round) : Watched :=
  rounds.foldl (step config) ⟨initialState config start, none⟩

/-- Whatever key is pressed now, an approval or denial is of the peer that the
operator last moved the selection to, if it is still listed, and of the first
one if the selection was never moved. -/
def Right (w : Watched) : Prop :=
  ∀ code fingerprint, (w.state.handleKey code).1.fingerprint? = some fingerprint →
    match w.moved with
    | some moved => moved ∈ w.state.pendingLocalsendPeers.map LocalSendPeer.fingerprint → fingerprint = moved
    | none => (w.state.pendingLocalsendPeers.map LocalSendPeer.fingerprint).head? = some fingerprint

/-- The list that a round brings has the peer that was moved to first, or not at
all. -/
def Keeps (config : DaemonApiConfig) (w : Watched) (round : Round) : Prop :=
  ∀ peers moved, round.brings config w.state = some peers → w.movedBy round = some moved →
    moved ∈ peers.map LocalSendPeer.fingerprint →
    (peers.map LocalSendPeer.fingerprint).head? = some moved

/-- **What an action is about is what is selected.** -/
theorem fingerprint?_handleKey {state : AppState} {code : KeyCode} {fingerprint : String}
    (h : (state.handleKey code).1.fingerprint? = some fingerprint) :
    state.selectedPeer.map LocalSendPeer.fingerprint = some fingerprint := by
  unfold AppState.handleKey AppState.approveSelectedLocalsendPeer AppState.denySelectedLocalsendPeer at h
  cases hpeer : state.selectedPeer with
  | none => split at h <;> simp [hpeer, AppAction.fingerprint?] at h
  | some peer => split at h <;> simp [hpeer, AppAction.fingerprint?] at h ⊢ <;> exact h

theorem fingerprint?_approve (state : AppState) :
    (state.handleKey (.char 'a')).1.fingerprint? = state.selectedPeer.map LocalSendPeer.fingerprint := by
  change state.approveSelectedLocalsendPeer.fingerprint? = _
  unfold AppState.approveSelectedLocalsendPeer
  cases state.selectedPeer <;> rfl

theorem handleKey_of_not_moves {state : AppState} {code : KeyCode} (h : code.moves = false) :
    (state.handleKey code).2.pendingLocalsendPeers = state.pendingLocalsendPeers ∧
      (state.handleKey code).2.selectedLocalsendPeer = state.selectedLocalsendPeer := by
  unfold AppState.handleKey
  -- the four keys that move are excluded, and the others leave both alone
  split <;> first | exact ⟨rfl, rfl⟩ | cases h

theorem pressed_of_not_moves {round : Round} (state : AppState)
    (h : (round.key.map KeyCode.moves).getD false = false) :
    (round.pressed state).pendingLocalsendPeers = state.pendingLocalsendPeers ∧
      (round.pressed state).selectedLocalsendPeer = state.selectedLocalsendPeer := by
  unfold Round.pressed
  cases hkey : round.key with
  | none => exact ⟨rfl, rfl⟩
  | some code =>
    rw [hkey] at h
    exact handleKey_of_not_moves h

theorem right_iff {w : Watched} : w.Right ↔
    ∀ fingerprint, w.state.selectedPeer.map LocalSendPeer.fingerprint = some fingerprint →
      match w.moved with
      | some moved => moved ∈ w.state.pendingLocalsendPeers.map LocalSendPeer.fingerprint → fingerprint = moved
      | none => (w.state.pendingLocalsendPeers.map LocalSendPeer.fingerprint).head? = some fingerprint := by
  constructor
  · intro h fingerprint hselected
    exact h (.char 'a') fingerprint ((fingerprint?_approve _).trans hselected)
  · intro h code fingerprint haction
    exact h fingerprint (fingerprint?_handleKey haction)

theorem selectedPeer_of_zero {state : AppState} (h : state.selectedLocalsendPeer = 0) :
    state.selectedPeer.map LocalSendPeer.fingerprint =
      (state.pendingLocalsendPeers.map LocalSendPeer.fingerprint).head? := by
  rw [AppState.selectedPeer, h, List.head?_map, List.head?_eq_getElem?]

section step

variable {config : DaemonApiConfig} {w : Watched} {round : Round}

theorem step_of_not_quit (hquit : w.state.shouldQuit = false) :
    w.step config round = ⟨runRound config round w.state, w.movedBy round⟩ := by
  rw [step, hquit]
  rfl

/-- **A round that keeps the peer keeps the selection right.** -/
theorem right_step (hright : w.Right) (hkeeps : w.state.shouldQuit = false → w.Keeps config round) :
    (w.step config round).Right := by
  cases hquit : w.state.shouldQuit with
  | true => rwa [step, hquit, if_pos rfl]
  | false =>
    have hfollows := follows_runRound config round w.state
    rw [step_of_not_quit hquit, right_iff]
    intro fingerprint hselected
    cases hbrings : round.brings config w.state with
    | some peers =>
      rw [hbrings] at hfollows
      obtain ⟨hpeers, hzero, -⟩ := hfollows
      rw [selectedPeer_of_zero hzero] at hselected
      dsimp only
      cases hmoved : w.movedBy round with
      | none => exact hselected
      | some moved =>
        intro hmem
        rw [hpeers] at hselected hmem
        have hfirst := hkeeps hquit peers moved hbrings hmoved hmem
        rw [hfirst] at hselected
        exact (Option.some.inj hselected).symm
    | none =>
      rw [hbrings] at hfollows
      obtain ⟨hpeers, hindex⟩ := hfollows
      have hpressed : (runRound config round w.state).selectedPeer = (round.pressed w.state).selectedPeer := by
        rw [AppState.selectedPeer, AppState.selectedPeer, hpeers, hindex]
      rw [hpressed] at hselected
      cases hmoves : (round.key.map KeyCode.moves).getD false with
      | true =>
        have hmoved : w.movedBy round = some fingerprint := by
          rw [movedBy, hmoves, if_pos rfl, hselected, Option.some_or]
        dsimp only
        rw [hmoved]
        exact fun _ => rfl
      | false =>
        obtain ⟨hsame, hsameIndex⟩ := pressed_of_not_moves w.state hmoves
        have hmoved : w.movedBy round = w.moved := by rw [movedBy, hmoves]; rfl
        rw [AppState.selectedPeer, hsame, hsameIndex] at hselected
        dsimp only
        rw [hmoved, hpeers, hsame]
        exact right_iff.mp hright fingerprint hselected

/-- **A round that does not keep it makes the next approval wrong.** -/
theorem keeps_of_right (hquit : w.state.shouldQuit = false) (h : (w.step config round).Right) :
    w.Keeps config round := by
  intro peers moved hbrings hmoved hmem
  have hfollows := follows_runRound config round w.state
  rw [hbrings] at hfollows
  obtain ⟨hpeers, hzero, -⟩ := hfollows
  rw [step_of_not_quit hquit, right_iff] at h
  rw [← hpeers] at hmem ⊢
  cases hfirst : ((runRound config round w.state).pendingLocalsendPeers.map
    LocalSendPeer.fingerprint).head? with
  | none =>
    rw [List.head?_eq_none_iff.mp hfirst] at hmem
    simp at hmem
  | some first =>
    have hright := h first ((selectedPeer_of_zero hzero).trans hfirst)
    dsimp only at hright
    rw [hmoved] at hright
    rw [hright hmem]

theorem shouldQuit_step {peers : List LocalSendPeer} (hquit : w.state.shouldQuit = false)
    (hbrings : round.brings config w.state = some peers) :
    (w.step config round).state.shouldQuit = false := by
  have hfollows := follows_runRound config round w.state
  rw [hbrings] at hfollows
  rw [step_of_not_quit hquit]
  exact hfollows.2.2

end step

variable (config : DaemonApiConfig) (start : Answers)

theorem run_concat (front : List Round) (round : Round) :
    run config start (front ++ [round]) = (run config start front).step config round := by
  rw [run, List.foldl_append]
  rfl

theorem right_initial : (run config start []).Right := by
  have hzero : (initialState config start).selectedLocalsendPeer = 0 := by
    unfold initialState
    cases hfetch : fetchOnce config start with
    | ok state => exact (fetchOnce_eq_ok hfetch).1
    | error e => rfl
  refine right_iff.mpr fun fingerprint hselected => ?_
  exact (selectedPeer_of_zero hzero).symm.trans hselected

/-- **The selection survives a run** exactly if every list that is brought while
the loop runs has the peer that the operator last moved to first, or not at all:
at every moment of the run, whatever key is pressed then acts on that peer. -/
theorem selection_survives_iff (rounds : List Round) :
    (∀ front, front <+: rounds → (run config start front).state.shouldQuit = false →
      (run config start front).Right) ↔
    ∀ front round, front ++ [round] <+: rounds → (run config start front).state.shouldQuit = false →
      (run config start front).Keeps config round := by
  constructor
  · intro h front round hpre hquit peers moved hbrings
    have hright := h _ hpre (by rw [run_concat]; exact shouldQuit_step hquit hbrings)
    rw [run_concat] at hright
    exact keeps_of_right hquit hright peers moved hbrings
  · rintro h front hpre -
    induction front using List.reverseRecOn with
    | nil => exact right_initial config start
    | append_singleton front round ih =>
      rw [run_concat]
      exact right_step (ih ((List.prefix_append front [round]).trans hpre)) (h front round hpre)

end Watched

/-! ### A refresh under the operator's hands -/

/-- A daemon on which peers with these fingerprints wait. -/
def Answers.sample (fingerprints : List String) : Answers where
  fromShared := .ok ()
  connect := .ok ()
  interceptor := .ok ()
  getStatus := .ok ()
  listTrusted := .ok ()
  listPendingLocalSend := .ok (fingerprints.map fun fingerprint => ⟨fingerprint, "phone", none, 1, 1, none⟩)
  listActive := .ok ()
  listInbox := .ok ()

/-- A round in which a key is pressed. -/
def Round.press (code : KeyCode) : Round := ⟨some code, .ok (), .sample [], none⟩

/-- A round in which a list is polled. -/
def Round.poll (fingerprints : List String) : Round := ⟨none, .ok (), .sample [], some (.sample fingerprints)⟩

/-- The operator moves to the second peer, the list is polled unchanged, and `a`
approves the first. -/
theorem refresh_moves_selection :
    let w := Watched.run ⟨"http://127.0.0.1:53500", false⟩ (.sample ["one", "two"])
      [.press (.char 'j'), .poll ["one", "two"]]
    w.moved = some "two" ∧ w.state.pendingLocalsendPeers.map LocalSendPeer.fingerprint = ["one", "two"] ∧
      (w.state.handleKey (.char 'a')).1 = .approveLocalSend "one" (some "phone") := by
  decide +kernel

end NightBridge.Tui
