/-
One reload of a running hub, up to the point where the old HTTP server is shut down. The
steps that can fail come after the registry has been given its new configuration, and
`listen` removes a socket file before it tries what can fail; so a reload that is refused
can leave traces.

Pointers are numbers. What the system answers is given by `Answers`; socket files are
kept with the listener that made them.
-/

import Wsfs.Base.Codec

namespace Wsfs.Hub

open Wsfs.Base Function

/-! ### Configuration -/

inductive Network
  | unix
  | other (name : Bytes)
deriving DecidableEq, Repr

structure TLS where
  enable : Bool
  certFile : Bytes
  keyFile : Bytes
deriving DecidableEq, Repr

structure Listener where
  address : Bytes
  network : Network
  tls : TLS
deriving DecidableEq, Repr

/-- Addresses of unix listeners lead to socket files, but for those of the abstract
namespace, which begin with '@'. -/
def Listener.hasFile (c : Listener) : Bool :=
  c.network == .unix && c.address.head? != none && c.address.head? != some 0x40

structure WSFS where
  enable : Bool
  insecureSessionIdMathRand : Bool
deriving DecidableEq, Repr

/-- The parts of a configuration that the hub itself decides by. -/
structure Config where
  listener : Listener
  webdavEnable : Bool
  webuiEnable : Bool
  wsfs : WSFS
deriving DecidableEq, Repr

def listenerEquals (a b : Listener) : Bool :=
  a.network == b.network && a.address == b.address && a.tls.enable == b.tls.enable &&
    a.tls.certFile == b.tls.certFile && a.tls.keyFile == b.tls.keyFile

theorem listenerEquals_iff (a b : Listener) : listenerEquals a b = true ↔ a = b := by
  obtain ⟨_, _, _, _, _⟩ := a
  obtain ⟨_, _, _, _, _⟩ := b
  simp only [listenerEquals, Bool.and_eq_true, beq_iff_eq, Listener.mk.injEq, TLS.mk.injEq]
  grind

/-! ### Session registry -/

/-- A source of math/rand is its seed and how often it was asked. -/
inductive SessionIdSource
  | crypto
  | math (seed drawn : Nat)
deriving DecidableEq, Repr

structure SessionRegistry where
  idSource : SessionIdSource
deriving DecidableEq, Repr

def setupSessionIdSource (c : WSFS) (now : Nat) : SessionIdSource :=
  if c.insecureSessionIdMathRand then .math now 0 else .crypto

/-! ### The hub and the system around it -/

inductive File
  | socket (listener : Nat)
  | other
deriving DecidableEq, Repr

/-- What `os.Stat` tells about an address. -/
inductive Stat
  | socket
  | other
  | notExist
  | failed
deriving DecidableEq, Repr

/-- What the system and the constructors of the handlers answer during one reload, `true`
for success. -/
structure Answers where
  getConfig : Option Config
  now : Nat
  newUsers : Bool
  webdavHandler : Bool
  webuiHandler : Bool
  fsIds : Bool
  stat : Stat
  remove : Bool
  keyPair : Bool
  netListen : Bool

section Running

-- A place is where the address of a unix listener leads; two addresses can lead to one.
variable {Place : Type} [DecidableEq Place]

/-- A hub with a server that it runs. `fresh` is a pointer that nothing uses yet. -/
structure Running (Place : Type) where
  inst : Nat
  listenerConfig : Listener
  listener : Nat
  httpServer : Nat
  wsfsRegistry : Option SessionRegistry
  files : Place → Option File
  fresh : Nat

def Running.ensureWSFSRegistry (hub : Running Place) (c : WSFS) (now : Nat) : Running Place :=
  if !c.enable then hub
  else
    match hub.wsfsRegistry with
    | some registry =>
        { hub with wsfsRegistry := some { registry with idSource := setupSessionIdSource c now } }
    | none => { hub with wsfsRegistry := some ⟨setupSessionIdSource c now⟩ }

inductive NewServerError
  | users
  | webuiWithoutWebdav
  | webdavHandler
  | webuiHandler
  | fsIds
deriving DecidableEq, Repr

def newServer (c : Config) (answers : Answers) : Except NewServerError Unit :=
  if !answers.newUsers then .error .users
  else if c.webuiEnable && !c.webdavEnable then .error .webuiWithoutWebdav
  else if c.webdavEnable && !answers.webdavHandler then .error .webdavHandler
  else if c.webuiEnable && !answers.webuiHandler then .error .webuiHandler
  else if c.wsfs.enable && !answers.fsIds then .error .fsIds
  else .ok ()

inductive ListenError
  | removeSocket
  | notSocket
  | keyPair
  | netListen
deriving DecidableEq, Repr

variable (entry : Bytes → Place)

/-- What `listen` does about a file at the address of a unix listener. -/
def clearAddress (c : Listener) (answers : Answers) (files : Place → Option File) :
    Except ListenError Unit × (Place → Option File) :=
  if c.network = .unix then
    match answers.stat with
    | .socket =>
        if answers.remove then (.ok (), update files (entry c.address) none)
        else (.error .removeSocket, files)
    | .other => (.error .notSocket, files)
    | .notExist => (.ok (), files)
    | .failed => (.ok (), files)
  else (.ok (), files)

/-- `net.Listen` makes the socket file of a unix listener, where there is none. -/
def netListen (c : Listener) (answers : Answers) (listener : Nat) (files : Place → Option File) :
    Except ListenError Unit × (Place → Option File) :=
  if !answers.netListen then (.error .netListen, files)
  else if c.hasFile then
    match files (entry c.address) with
    | none => (.ok (), update files (entry c.address) (some (.socket listener)))
    | some _ => (.error .netListen, files)
  else (.ok (), files)

def listen (c : Listener) (answers : Answers) (listener : Nat) (files : Place → Option File) :
    Except ListenError Unit × (Place → Option File) :=
  match clearAddress entry c answers files with
  | (.error error, files) => (.error error, files)
  | (.ok (), files) =>
      if c.tls.enable && !answers.keyPair then (.error .keyPair, files)
      else netListen entry c answers listener files

/-- Where a reload ends. After a listener change the old server is still to be shut
down. -/
inductive Outcome
  | configFailed
  | newServerFailed (error : NewServerError)
  | listenFailed (error : ListenError)
  | reloaded
  | switched (oldHTTPServer : Nat) (oldListenerConfig : Listener)
deriving DecidableEq, Repr

def Outcome.failed : Outcome → Bool
  | .configFailed | .newServerFailed _ | .listenFailed _ => true
  | .reloaded | .switched _ _ => false

def Running.doReload (hub : Running Place) (answers : Answers) : Outcome × Running Place :=
  match answers.getConfig with
  | none => (.configFailed, hub)
  | some conf =>
      let hub := hub.ensureWSFSRegistry conf.wsfs answers.now
      match newServer conf answers with
      | .error error => (.newServerFailed error, hub)
      | .ok () =>
          let server := hub.fresh
          if listenerEquals hub.listenerConfig conf.listener then
            (.reloaded, { hub with inst := server, fresh := server + 1 })
          else
            let listener := server + 1
            match listen entry conf.listener answers listener hub.files with
            | (.error error, files) => (.listenFailed error, { hub with files := files })
            | (.ok (), files) =>
                (.switched hub.httpServer hub.listenerConfig,
                  { hub with
                    inst := server
                    listener := listener
                    listenerConfig := conf.listener
                    httpServer := server + 2
                    files := files
                    fresh := server + 3 })

/-! ### Failed reloads -/

/-- Everything that serves requests is the same: the instance, the listener and its
address, the HTTP server and the registry. -/
structure ServesAsBefore (before after : Running Place) : Prop where
  inst : after.inst = before.inst
  listener : after.listener = before.listener
  listenerConfig : after.listenerConfig = before.listenerConfig
  socketFile : before.listenerConfig.hasFile = true →
    after.files (entry before.listenerConfig.address) =
      before.files (entry before.listenerConfig.address)
  httpServer : after.httpServer = before.httpServer
  registry : after.wsfsRegistry = before.wsfsRegistry

/-- The new configuration asks for the source of session ids that the registry has. -/
def KeepsRegistry (hub : Running Place) (conf : Config) (now : Nat) : Prop :=
  conf.wsfs.enable = false ∨
    ∃ registry, hub.wsfsRegistry = some registry ∧
      if conf.wsfs.insecureSessionIdMathRand then registry.idSource = .math now 0
      else registry.idSource = .crypto

/-- The new listener is another one at the place of the current one's socket file, which
`listen` finds and removes. -/
def TakesSocket (hub : Running Place) (conf : Config) (answers : Answers) : Prop :=
  newServer conf answers = .ok () ∧ hub.listenerConfig ≠ conf.listener ∧
    hub.listenerConfig.hasFile = true ∧ conf.listener.network = .unix ∧
    entry conf.listener.address = entry hub.listenerConfig.address ∧
    (hub.files (entry hub.listenerConfig.address)).isSome = true ∧
    answers.stat = .socket ∧ answers.remove = true

omit [DecidableEq Place] in
theorem ensureWSFSRegistry_eq (hub : Running Place) (c : WSFS) (now : Nat) :
    hub.ensureWSFSRegistry c now =
      { hub with wsfsRegistry := (hub.ensureWSFSRegistry c now).wsfsRegistry } := by
  unfold Running.ensureWSFSRegistry
  split
  · rfl
  · cases hub.wsfsRegistry <;> rfl

omit [DecidableEq Place] in
theorem ensureWSFSRegistry_keeps_iff (hub : Running Place) (conf : Config) (now : Nat) :
    (hub.ensureWSFSRegistry conf.wsfs now).wsfsRegistry = hub.wsfsRegistry ↔
      KeepsRegistry hub conf now := by
  unfold Running.ensureWSFSRegistry KeepsRegistry
  cases enabled : conf.wsfs.enable with
  | false => simp
  | true =>
    cases found : hub.wsfsRegistry with
    | none => simp
    | some registry =>
      obtain ⟨source⟩ := registry
      cases insecure : conf.wsfs.insecureSessionIdMathRand with
      | false | true => simp [setupSessionIdSource, insecure, eq_comm]

theorem clearAddress_files (c : Listener) (answers : Answers) (files : Place → Option File) :
    (clearAddress entry c answers files).2 =
      if c.network = .unix ∧ answers.stat = .socket ∧ answers.remove = true then
        update files (entry c.address) none
      else files := by
  unfold clearAddress
  by_cases unix : c.network = .unix
  · rw [if_pos unix]
    cases answers.stat with
    | socket => cases answers.remove <;> simp [unix]
    | other => simp
    | notExist => simp
    | failed => simp
  · rw [if_neg unix, if_neg fun both => unix both.1]

variable {c : Listener} {answers : Answers} {listener : Nat} {files after : Place → Option File}
  {error : ListenError}

theorem netListen_failed (failed : netListen entry c answers listener files = (.error error, after)) :
    after = files := by
  unfold netListen at failed
  split at failed
  · cases failed
    rfl
  split at failed
  · split at failed
    · cases failed
    · cases failed
      rfl
  · cases failed

theorem listen_failed (failed : listen entry c answers listener files = (.error error, after)) :
    after = if c.network = .unix ∧ answers.stat = .socket ∧ answers.remove = true then
      update files (entry c.address) none else files := by
  rw [← clearAddress_files]
  unfold listen at failed
  split at failed
  · rename_i cleared
    cases failed
    rw [cleared]
  · rename_i cleared
    rw [cleared]
    split at failed
    · cases failed
      rfl
    · exact netListen_failed entry failed

theorem listen_ok (opened : listen entry c answers listener files = (.ok (), after))
    (hasFile : c.hasFile = true) : after (entry c.address) = some (.socket listener) := by
  unfold listen at opened
  split at opened
  · cases opened
  split at opened
  · cases opened
  unfold netListen at opened
  split at opened
  · cases opened
  split at opened
  · cases opened
    exact update_self ..
  · cases opened

/-- The socket file of the running listener survives a failed `listen` unless it is the
file that `listen` removes. -/
theorem socketFile_kept_iff (hub : Running Place) (conf : Config) (answers : Answers)
    (built : newServer conf answers = .ok ()) (changed : hub.listenerConfig ≠ conf.listener) :
    (hub.listenerConfig.hasFile = true →
      (if conf.listener.network = .unix ∧ answers.stat = .socket ∧ answers.remove = true then
        update hub.files (entry conf.listener.address) none else hub.files)
          (entry hub.listenerConfig.address) = hub.files (entry hub.listenerConfig.address)) ↔
    ¬TakesSocket entry hub conf answers := by
  unfold TakesSocket
  by_cases removes : conf.listener.network = .unix ∧ answers.stat = .socket ∧ answers.remove = true
  · rw [if_pos removes]
    by_cases same : entry conf.listener.address = entry hub.listenerConfig.address
    · rw [same, update_self]
      cases found : hub.files (entry hub.listenerConfig.address) with
      | none => simp
      | some file => simp [built, changed, removes]
    · rw [update_of_ne fun equal => same equal.symm]
      simp [same]
  · rw [if_neg removes]
    simp only [implies_true, true_iff]
    rintro ⟨_, _, _, unix, _, _, isSocket, removed⟩
    exact removes ⟨unix, isSocket, removed⟩

omit [DecidableEq Place] in
theorem servesAsBefore_iff (hub : Running Place) (conf : Config) (now : Nat)
    (files : Place → Option File) :
    ServesAsBefore entry hub { hub.ensureWSFSRegistry conf.wsfs now with files := files } ↔
      KeepsRegistry hub conf now ∧ (hub.listenerConfig.hasFile = true →
        files (entry hub.listenerConfig.address) = hub.files (entry hub.listenerConfig.address)) := by
  rw [← ensureWSFSRegistry_keeps_iff, ensureWSFSRegistry_eq]
  constructor
  · intro same
    exact ⟨same.registry, same.socketFile⟩
  · intro ⟨registry, socketFile⟩
    exact ⟨rfl, rfl, rfl, socketFile, rfl, registry⟩

theorem doReload_failed (hub : Running Place) {conf : Config} (config : answers.getConfig = some conf)
    (failed : (hub.doReload entry answers).1.failed = true) :
    ∃ files, (hub.doReload entry answers).2 =
        { hub.ensureWSFSRegistry conf.wsfs answers.now with files := files } ∧
      ((hub.listenerConfig.hasFile = true → files (entry hub.listenerConfig.address) =
        hub.files (entry hub.listenerConfig.address)) ↔ ¬TakesSocket entry hub conf answers) := by
  have ensured := ensureWSFSRegistry_eq hub conf.wsfs answers.now
  have sameFiles : (hub.ensureWSFSRegistry conf.wsfs answers.now).files = hub.files := by rw [ensured]
  have sameListener : (hub.ensureWSFSRegistry conf.wsfs answers.now).listenerConfig =
      hub.listenerConfig := by rw [ensured]
  unfold Running.doReload at failed ⊢
  simp only [config, sameFiles, sameListener] at failed ⊢
  cases built : newServer conf answers with
  | error error =>
    refine ⟨hub.files, ?_, iff_of_true (fun _ => rfl) fun takes => ?_⟩
    · dsimp only
      rw [← sameFiles, ← sameListener]
    · cases built.symm.trans takes.1
  | ok =>
    simp only [built] at failed ⊢
    by_cases same : listenerEquals hub.listenerConfig conf.listener = true
    · simp [same, Outcome.failed] at failed
    · rw [if_neg same] at failed ⊢
      have changed : hub.listenerConfig ≠ conf.listener :=
        fun equal => same ((listenerEquals_iff _ _).mpr equal)
      split at failed
      · rename_i error files listened
        refine ⟨files, rfl, ?_⟩
        rw [listen_failed entry listened]
        exact socketFile_kept_iff entry hub conf answers built changed
      · cases failed

/-- A refused reload leaves everything as it was exactly if it got no configuration, or one
that keeps the source of session ids and does not take the place of the socket. -/
theorem failed_reload_serves_as_before_iff (hub : Running Place) (answers : Answers)
    (failed : (hub.doReload entry answers).1.failed = true) :
    ServesAsBefore entry hub (hub.doReload entry answers).2 ↔
      ∀ conf, answers.getConfig = some conf →
        KeepsRegistry hub conf answers.now ∧ ¬TakesSocket entry hub conf answers := by
  cases config : answers.getConfig with
  | none =>
    simp only [Running.doReload, config]
    exact iff_of_true ⟨rfl, rfl, rfl, fun _ => rfl, rfl, rfl⟩ nofun
  | some conf =>
    obtain ⟨files, after, socketFile⟩ := doReload_failed entry hub config failed
    rw [after, servesAsBefore_iff, socketFile]
    simp only [Option.some.injEq, forall_eq']

end Running

/-! ### Refused reloads that leave traces -/

private def socketAddress : Bytes := [0x2f, 0x73]

private def plainSocket : Listener := ⟨socketAddress, .unix, ⟨false, [], []⟩⟩

private def sampleConfig (listener : Listener) (insecure : Bool) : Config :=
  ⟨listener, true, true, ⟨true, insecure⟩⟩

/-- A hub that listens at "/s", whose registry draws its ids from crypto/rand. -/
private def sampleHub : Running Bytes where
  inst := 0
  listenerConfig := plainSocket
  listener := 1
  httpServer := 2
  wsfsRegistry := some ⟨.crypto⟩
  files := fun place => if place = socketAddress then some (.socket 1) else none
  fresh := 3

/-- Whatever the configuration, everything but the users and the key pair is there. -/
private def sampleAnswers (conf : Option Config) (newUsers : Bool) : Answers where
  getConfig := conf
  now := 7
  newUsers := newUsers
  webdavHandler := true
  webuiHandler := true
  fsIds := true
  stat := .socket
  remove := true
  keyPair := false
  netListen := true

theorem failed_reload_serves_as_before_iff_users :
    ∃ answers : Answers, (sampleHub.doReload id answers).1 = .newServerFailed .users ∧
      answers.getConfig = some (sampleConfig plainSocket false) ∧
      ServesAsBefore id sampleHub (sampleHub.doReload id answers).2 := by
  refine ⟨sampleAnswers (some (sampleConfig plainSocket false)) false, rfl, rfl, ?_⟩
  refine (failed_reload_serves_as_before_iff id sampleHub _ rfl).mpr ?_
  rintro conf ⟨⟩
  constructor
  · exact .inr ⟨⟨.crypto⟩, rfl, rfl⟩
  · rintro ⟨built, _⟩
    cases built

private def withoutUsers : Outcome × Running Bytes :=
  sampleHub.doReload id (sampleAnswers (some (sampleConfig plainSocket true)) false)

/-- A listener with TLS at the address of the running one, with no key pair. -/
private def withoutKeyPair : Outcome × Running Bytes :=
  sampleHub.doReload id
    (sampleAnswers (some (sampleConfig ⟨socketAddress, .unix, ⟨true, [], []⟩⟩ false)) true)

theorem refused_reload_leaves_traces :
    (withoutUsers.1 = .newServerFailed .users ∧ sampleHub.wsfsRegistry = some ⟨.crypto⟩ ∧
      withoutUsers.2.wsfsRegistry = some ⟨.math 7 0⟩ ∧ ¬ServesAsBefore id sampleHub withoutUsers.2) ∧
    (withoutKeyPair.1 = .listenFailed .keyPair ∧ sampleHub.files socketAddress = some (.socket 1) ∧
      withoutKeyPair.2.files socketAddress = none ∧
      ¬ServesAsBefore id sampleHub withoutKeyPair.2) := by
  refine ⟨⟨rfl, rfl, rfl, fun same => ?_⟩, by decide, by decide, by decide, fun same => ?_⟩
  · cases same.registry
  · have kept := same.socketFile rfl
    revert kept
    decide

end Wsfs.Hub
