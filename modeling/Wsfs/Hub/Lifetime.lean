/-
The life of a hub: `Run` waits for an error of a goroutine that serves, reloads come one
after another, and a reload that changes the listener shuts the old HTTP server down.
`Serve` then returns `ErrServerClosed`, which is an error for `Run` like any other.

Closing a unix listener unlinks the path that it was opened with, whoever has made the
file that is there by now.
-/

import Wsfs.Base.Run
import Wsfs.Hub.Reload

namespace Wsfs.Hub

open Wsfs.Base Function

/-- Where a goroutine stands that serves: inside `Serve`, or with an error for
`exitErrorChan`. -/
inductive Goroutine
  | serving
  | sending
  | finished
deriving DecidableEq, Repr

/-- An `http.Server` with what it serves. -/
structure HTTPServer where
  listener : Nat
  config : Listener
  inShutdown : Bool
  goroutine : Goroutine
deriving DecidableEq, Repr

/-- Where the reload stands that holds the lock: the new server is in place, or
`Shutdown` of the old one has closed its listener. -/
inductive Stage
  | idle
  | switched (oldHTTPServer : Nat) (oldListenerConfig : Listener)
  | closing (oldListenerConfig : Listener)
deriving DecidableEq, Repr

inductive RunStage
  | waiting
  | received
  | returned
deriving DecidableEq, Repr

section Lifetime

variable {Place : Type} [DecidableEq Place] (entry : Bytes → Place)

/-- `config` is what `Run` was called with. The channel holds one error. -/
structure Life (Place : Type) where
  hub : Running Place
  config : Config
  servers : Nat → Option HTTPServer
  stage : Stage
  exitErrorChan : Bool
  run : RunStage

/-- `Run` up to its wait. -/
def start (c : Config) (answers : Answers) (files : Place → Option File) : Option (Life Place) :=
  match newServer c answers with
  | .error _ => none
  | .ok () =>
      match listen entry c.listener answers 1 files with
      | (.error _, _) => none
      | (.ok (), files) =>
          let hub : Running Place := ⟨0, c.listener, 1, 2, none, files, 3⟩
          some {
            hub := hub.ensureWSFSRegistry c.wsfs answers.now
            config := c
            servers := update (fun _ => none) 2 (some ⟨1, c.listener, false, .serving⟩)
            stage := .idle
            exitErrorChan := false
            run := .waiting }

inductive Action
  | reload (answers : Answers)
  | shutdown
  | serveReturns (server : Nat)
  | send (server : Nat)
  | clean (removed : Bool)
  | receive
  | runReturns (removed : Bool)

namespace Life

def setServer (life : Life Place) (id : Nat) (server : HTTPServer) : Life Place :=
  { life with servers := update life.servers id (some server) }

def unlink (life : Life Place) (address : Bytes) : Life Place :=
  { life with
    hub := { life.hub with files := update life.hub.files (entry address) none } }

/-- `cleanListen`; an error of `os.Remove` is only logged. -/
def cleanListen (life : Life Place) (c : Listener) (removed : Bool) : Life Place :=
  if c.network = .unix ∧ removed = true then life.unlink entry c.address else life

/-- A reload, up to where the goroutine of a new server has been started. -/
def reload (life : Life Place) (answers : Answers) : Life Place :=
  match life.hub.doReload entry answers with
  | (.switched oldHTTPServer oldListenerConfig, hub) =>
      { (life.setServer hub.httpServer ⟨hub.listener, hub.listenerConfig, false, .serving⟩) with
        hub := hub
        stage := .switched oldHTTPServer oldListenerConfig }
  | (_, hub) => { life with hub := hub }

end Life

def step (life : Life Place) : Action → Option (Life Place)
  | .reload answers => if life.stage = .idle then some (life.reload entry answers) else none
  | .shutdown =>
      match life.stage with
      | .switched oldHTTPServer oldListenerConfig =>
          (life.servers oldHTTPServer).map fun server =>
            let closed := life.setServer oldHTTPServer { server with inShutdown := true }
            { (if server.config.hasFile then closed.unlink entry server.config.address else closed) with
              stage := .closing oldListenerConfig }
      | _ => none
  -- What is assumed of net/http: `Serve` returns when `Shutdown` has been called.
  | .serveReturns id =>
      match life.servers id with
      | some server =>
          if server.inShutdown ∧ server.goroutine = .serving then
            some (life.setServer id { server with goroutine := .sending })
          else none
      | none => none
  | .send id =>
      match life.servers id with
      | some server =>
          if server.goroutine = .sending ∧ life.exitErrorChan = false then
            some { life.setServer id { server with goroutine := .finished } with exitErrorChan := true }
          else none
      | none => none
  -- `Shutdown` has returned.
  | .clean removed =>
      match life.stage with
      | .closing oldListenerConfig =>
          some { life.cleanListen entry oldListenerConfig removed with stage := .idle }
      | _ => none
  | .receive =>
      if life.run = .waiting ∧ life.exitErrorChan = true then
        some { life with run := .received, exitErrorChan := false }
      else none
  | .runReturns removed =>
      if life.run = .received then
        some { life.cleanListen entry life.config.listener removed with run := .returned }
      else none

/-- The listener of the current configuration is served, at its address. -/
structure Served (life : Life Place) : Prop where
  serving : life.servers life.hub.httpServer =
    some ⟨life.hub.listener, life.hub.listenerConfig, false, .serving⟩
  socketFile : life.hub.listenerConfig.hasFile = true →
    life.hub.files (entry life.hub.listenerConfig.address) = some (.socket life.hub.listener)

/-- Every new configuration has the listener of the current one. -/
def SameListener (life : Life Place) : Action → Prop
  | .reload answers => ∀ conf, answers.getConfig = some conf → conf.listener = life.hub.listenerConfig
  | _ => True

/-! ### Reloads that keep the listener -/

variable {answers : Answers}

theorem doReload_sameListener (hub : Running Place)
    (same : ∀ conf, answers.getConfig = some conf → conf.listener = hub.listenerConfig) :
    ∃ outcome inst registry fresh, hub.doReload entry answers =
        (outcome, { hub with inst := inst, wsfsRegistry := registry, fresh := fresh }) ∧
      ∀ old config, outcome ≠ .switched old config := by
  unfold Running.doReload
  cases config : answers.getConfig with
  | none => exact ⟨.configFailed, hub.inst, hub.wsfsRegistry, hub.fresh, rfl, nofun⟩
  | some conf =>
    dsimp only
    rw [ensureWSFSRegistry_eq hub]
    cases newServer conf answers with
    | error error => exact ⟨.newServerFailed error, _, _, _, rfl, nofun⟩
    | ok =>
      have equal : listenerEquals hub.listenerConfig conf.listener = true :=
        (listenerEquals_iff _ _).mpr (same conf config).symm
      dsimp only
      rw [if_pos equal]
      exact ⟨.reloaded, _, _, _, rfl, nofun⟩

/-- Nothing is on its way to `Run`. -/
structure Steady (life : Life Place) : Prop where
  idle : life.stage = .idle
  quiet : life.exitErrorChan = false
  waiting : life.run = .waiting
  served : Served entry life
  open_ : ∀ id server, life.servers id = some server →
    server.inShutdown = false ∧ server.goroutine = .serving

theorem step_steady (life : Life Place) (action : Action) (next : Life Place)
    (steady : Steady entry life) (same : SameListener life action)
    (stepped : step entry life action = some next) : Steady entry next := by
  cases action with
  | reload answers =>
    obtain ⟨outcome, inst, registry, fresh, reloaded, notSwitched⟩ :=
      doReload_sameListener entry life.hub same
    have after : life.reload entry answers =
        { life with hub := { life.hub with inst := inst, wsfsRegistry := registry, fresh := fresh } } := by
      unfold Life.reload
      rw [reloaded]
      cases outcome with
      | switched old config => exact absurd rfl (notSwitched old config)
      | configFailed => rfl
      | newServerFailed error => rfl
      | listenFailed error => rfl
      | reloaded => rfl
    simp only [step, steady.idle, if_true, after] at stepped
    cases stepped
    exact ⟨rfl, steady.quiet, steady.waiting, ⟨steady.served.serving, steady.served.socketFile⟩,
      steady.open_⟩
  | shutdown => simp [step, steady.idle] at stepped
  | serveReturns id =>
    cases found : life.servers id with
    | none => simp [step, found] at stepped
    | some server => simp [step, found, (steady.open_ id server found).1] at stepped
  | send id =>
    cases found : life.servers id with
    | none => simp [step, found] at stepped
    | some server => simp [step, found, (steady.open_ id server found).2] at stepped
  | clean removed => simp [step, steady.idle] at stepped
  | receive => simp [step, steady.quiet] at stepped
  | runReturns removed => simp [step, steady.waiting] at stepped

theorem start_steady {c : Config} {files : Place → Option File} {life : Life Place}
    (started : start entry c answers files = some life) : Steady entry life := by
  unfold start at started
  split at started
  · cases started
  split at started
  · cases started
  · rename_i opened
    dsimp only at started
    rw [ensureWSFSRegistry_eq] at started
    cases started
    refine ⟨rfl, rfl, rfl, ⟨rfl, listen_ok entry opened⟩, ?_⟩
    intro id server found
    dsimp only at found
    by_cases only : id = 2
    · rw [only, update_self] at found
      cases found
      exact ⟨rfl, rfl⟩
    · rw [update_of_ne only] at found
      cases found

/-- While no reload changes the listener, `Run` waits and the listener is served. -/
theorem same_listener_keeps_serving (c : Config) (answers : Answers) (files : Place → Option File)
    (first : Life Place) (actions : List Action) (last : Life Place)
    (started : start entry c answers files = some first)
    (same : Guarded (step entry) SameListener first actions)
    (reached : run (step entry) first actions = some last) :
    last.run ≠ .returned ∧ (last.stage = .idle → Served entry last) := by
  have steady := run_invariant (step_steady entry) (start_steady entry started) same reached
  constructor
  · rw [steady.waiting]
    exact nofun
  · exact fun _ => steady.served

end Lifetime

/-! ### Reloads that change it -/

/-- Everything succeeds; a unix socket is found if `found`. -/
private def willing (conf : Option Config) (found : Bool) : Answers where
  getConfig := conf
  now := 7
  newUsers := true
  webdavHandler := true
  webuiHandler := true
  fsIds := true
  stat := if found then .socket else .notExist
  remove := true
  keyPair := true
  netListen := true

private def listening (listener : Listener) : Config := ⟨listener, true, true, ⟨true, false⟩⟩

private def firstPort : Listener := ⟨[0x3a, 0x31], .other [0x74, 0x63, 0x70], ⟨false, [], []⟩⟩
private def secondPort : Listener := ⟨[0x3a, 0x32], .other [0x74, 0x63, 0x70], ⟨false, [], []⟩⟩

private def bareSocket : Listener := ⟨[0x2f, 0x73], .unix, ⟨false, [], []⟩⟩
private def secureSocket : Listener := ⟨[0x2f, 0x73], .unix, ⟨true, [], []⟩⟩

private def noFiles : Bytes → Option File := fun _ => none

/-- The first reload succeeds, the second gets no configuration, and the third users that
`NewUsers` rejects. -/
private def reloads : List Action :=
  [.reload (willing (some (listening bareSocket)) true), .reload (willing none true),
    .reload { willing (some (listening bareSocket)) true with newUsers := false },
    .reload (willing (some (listening bareSocket)) true)]

theorem same_listener_keeps_serving_socket :
    ∃ first last, start id (listening bareSocket) (willing none false) noFiles = some first ∧
      run (step id) first reloads = some last ∧ last.run ≠ .returned ∧ Served id last := by
  cases started : start id (listening bareSocket) (willing none false) noFiles with
  | none => cases started
  | some first =>
    have same : Guarded (step id) SameListener first reloads := by
      cases started
      refine .cons rfl ?_ (.cons rfl nofun ?_)
      · rintro conf ⟨⟩
        rfl
      refine .cons rfl ?_ (.cons rfl ?_ trivial)
      · rintro conf ⟨⟩
        rfl
      · rintro conf ⟨⟩
        rfl
    cases reached : run (step id) first reloads with
    | none => cases started; cases reached
    | some last =>
      obtain ⟨waits, served⟩ :=
        same_listener_keeps_serving id _ _ _ first _ last started same reached
      refine ⟨first, last, rfl, reached, waits, served ?_⟩
      cases started
      cases reached
      rfl

/-- With a new port the error of the old server makes `Run` return; with TLS at the same
socket the old listener takes the new one's file away. -/
theorem listener_change_ends_serving :
    (∃ first last, start id (listening firstPort) (willing none false) noFiles = some first ∧
      run (step id) first
        [.reload (willing (some (listening secondPort)) false), .shutdown, .clean true,
          .serveReturns 2, .send 2, .receive, .runReturns true] = some last ∧
      last.stage = .idle ∧ last.run = .returned) ∧
    ∃ first last, start id (listening bareSocket) (willing none false) noFiles = some first ∧
      run (step id) first
        [.reload (willing (some (listening secureSocket)) true), .shutdown, .clean true] = some last ∧
      last.stage = .idle ∧ last.hub.listenerConfig = secureSocket ∧
      last.hub.files [0x2f, 0x73] = none := by
  exact ⟨⟨_, _, rfl, rfl, rfl, rfl⟩, _, _, rfl, rfl, rfl, rfl, rfl⟩

end Wsfs.Hub
