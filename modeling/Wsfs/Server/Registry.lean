/-
The session registry with all that works on it: handshakes that open or resume a session,
connections that are lost or closed, and the scan for inactive sessions.

A handshake fetches its session, checks the user and takes the lock in separate steps. A
connection that is closed deletes its session and unlocks it then, while the scan leaves
the sessions that it deletes locked for ever.
-/

import Wsfs.Base.Run

namespace Wsfs.Server.Registry

open Wsfs.Base Function

/-- What a session is made with and never changes. -/
structure Session where
  id : Nat
  username : Nat
deriving DecidableEq, Repr

/-- Where a handshake stands: before it has an id, with an id that it has reserved, with
the id of a session, with the session itself, past the check of the user, or with the
lock. -/
inductive Pc
  | opening
  | reserved (id : Nat)
  | asking (id : Nat)
  | fetched (session : Nat)
  | checked (session : Nat)
  | locked (session : Nat)
deriving DecidableEq, Repr

structure Handshake where
  user : Nat
  pc : Pc
deriving DecidableEq, Repr

/-- Where a connection stands: in use, in `stopConn` before `delSession` or before the
`Unlock` after it, or in `stopConn` after a loss. -/
inductive Conn
  | running
  | closing
  | deleted
  | lost
deriving DecidableEq, Repr

/-- Where the scan stands: between two sessions, with an entry that `Range` gave it, or
with the lock of its session. -/
inductive Scan
  | idle
  | visiting (id session : Nat)
  | counted (id session : Nat)
deriving DecidableEq, Repr

/-- Who took a lock. -/
inductive Owner
  | handshake (handshake : Nat)
  | conn
  | scan
deriving DecidableEq, Repr

inductive Event
  | deleted (session : Nat)
  | attached (session : Nat)
deriving DecidableEq, Repr

/-- Sessions are numbered as they are made. `entries` is the map of the registry, with an
empty pointer for an id that is reserved. The newest event comes first. -/
structure State where
  entries : Nat → Option (Option Nat)
  sessions : Nat → Option Session
  lock : Nat → Option Owner
  inactiveCount : Nat → Nat
  conns : Nat → Option Conn
  handshakes : Nat → Option Handshake
  scan : Scan
  events : List Event

def initial : State where
  entries := fun _ => none
  sessions := fun _ => none
  lock := fun _ => none
  inactiveCount := fun _ => 0
  conns := fun _ => none
  handshakes := fun _ => none
  scan := .idle
  events := []

def sessionInactiveMaxCount : Nat := 5

inductive Action
  | open (handshake user : Nat)
  | resume (handshake user id : Nat)
  | newId (handshake id : Nat)
  | newSession (handshake session : Nat)
  | getSession (handshake : Nat)
  | checkUser (handshake : Nat)
  | tryLock (handshake : Nat)
  | upgradeFails (handshake : Nat)
  | takeConn (handshake : Nat)
  | refuse (handshake : Nat)
  | connEnds (session : Nat) (graceful : Bool)
  | connDelete (session : Nat)
  | connUnlock (session : Nat)
  | visit (id : Nat)
  | scanTryLock
  | scanDecide

namespace State

def setHandshake (state : State) (handshake : Nat) (value : Option Handshake) : State :=
  { state with handshakes := update state.handshakes handshake value }

def setLock (state : State) (session : Nat) (owner : Option Owner) : State :=
  { state with lock := update state.lock session owner }

def setConn (state : State) (session : Nat) (conn : Option Conn) : State :=
  { state with conns := update state.conns session conn }

def setEntry (state : State) (id : Nat) (entry : Option (Option Nat)) : State :=
  { state with entries := update state.entries id entry }

/-- What `delSession` does to the map. -/
def delSession (state : State) (id : Nat) : State :=
  match state.entries id with
  | some (some session) =>
      { state.setEntry id none with events := .deleted session :: state.events }
  | _ => state.setEntry id none

end State

def step (state : State) : Action → Option State
  | .open handshake user =>
      if state.handshakes handshake = none then
        some (state.setHandshake handshake (some ⟨user, .opening⟩))
      else none
  | .resume handshake user id =>
      if state.handshakes handshake = none then
        some (state.setHandshake handshake (some ⟨user, .asking id⟩))
      else none
  -- One round of the loop of `newSession`: an id that is in use is drawn anew.
  | .newId handshake id =>
      match state.handshakes handshake with
      | some ⟨user, .opening⟩ =>
          match state.entries id with
          | none =>
              some ((state.setEntry id (some none)).setHandshake handshake (some ⟨user, .reserved id⟩))
          | some _ => some state
      | _ => none
  | .newSession handshake session =>
      match state.handshakes handshake with
      | some ⟨user, .reserved id⟩ =>
          if state.sessions session = none then
            some { (state.setEntry id (some (some session))).setHandshake handshake
                (some ⟨user, .asking id⟩) with
              sessions := update state.sessions session (some ⟨id, user⟩) }
          else none
      | _ => none
  | .getSession handshake =>
      match state.handshakes handshake with
      | some ⟨user, .asking id⟩ =>
          match state.entries id with
          | some (some session) =>
              some (state.setHandshake handshake (some ⟨user, .fetched session⟩))
          | _ => some (state.setHandshake handshake none)
      | _ => none
  | .checkUser handshake =>
      match state.handshakes handshake with
      | some ⟨user, .fetched session⟩ =>
          (state.sessions session).map fun found =>
            if found.username = user then
              state.setHandshake handshake (some ⟨user, .checked session⟩)
            else state.setHandshake handshake none
      | _ => none
  | .tryLock handshake =>
      match state.handshakes handshake with
      | some ⟨user, .checked session⟩ =>
          match state.lock session with
          | none =>
              some ((state.setLock session (some (.handshake handshake))).setHandshake handshake
                (some ⟨user, .locked session⟩))
          | some _ => some (state.setHandshake handshake none)
      | _ => none
  | .upgradeFails handshake =>
      match state.handshakes handshake with
      | some ⟨_, .locked session⟩ => some ((state.setLock session none).setHandshake handshake none)
      | _ => none
  -- From here on the lock is the connection's.
  | .takeConn handshake =>
      match state.handshakes handshake with
      | some ⟨_, .locked session⟩ =>
          some { ((state.setLock session (some .conn)).setConn session (some .running)).setHandshake
              handshake none with
            events := .attached session :: state.events }
      | _ => none
  -- `idSource.New` fails.
  | .refuse handshake =>
      match state.handshakes handshake with
      | some ⟨_, .opening⟩ => some (state.setHandshake handshake none)
      | _ => none
  | .connEnds session graceful =>
      if state.conns session = some .running then
        some (state.setConn session (some (if graceful then .closing else .lost)))
      else none
  | .connDelete session =>
      if state.conns session = some .closing then
        (state.sessions session).map fun found =>
          (state.delSession found.id).setConn session (some .deleted)
      else none
  | .connUnlock session =>
      if state.conns session = some .deleted then
        some ((state.setLock session none).setConn session none)
      else if state.conns session = some .lost then
        some { (state.setLock session none).setConn session none with
          inactiveCount := update state.inactiveCount session 0 }
      else none
  | .visit id =>
      match state.scan, state.entries id with
      | .idle, some (some session) => some { state with scan := .visiting id session }
      | _, _ => none
  | .scanTryLock =>
      match state.scan with
      | .visiting id session =>
          match state.lock session with
          | none =>
              some { state.setLock session (some .scan) with
                inactiveCount :=
                  update state.inactiveCount session (state.inactiveCount session + 1)
                scan := .counted id session }
          | some _ => some { state with scan := .idle }
      | _ => none
  | .scanDecide =>
      match state.scan with
      | .counted id session =>
          if sessionInactiveMaxCount ≤ state.inactiveCount session then
            some { state.delSession id with scan := .idle }
          else some { state.setLock session none with scan := .idle }
      | _ => none

/-- Once a session has been deleted, no connection is attached to it. -/
def NeverAttachedAgain (state : State) : Prop :=
  ∀ newer older session, state.events = newer ++ .deleted session :: older →
    .attached session ∉ newer

def Pc.inHand : Pc → Option Nat
  | .fetched session | .checked session => some session
  | _ => none

def State.Refers (state : State) (handshake session : Nat) : Prop :=
  ∃ found, state.handshakes handshake = some found ∧ found.pc.inHand = some session

/-- A connection that has deleted its session unlocks it only when no handshake has it in
hand, and the id of a session that is gone is not drawn again. -/
def Orderly (state : State) : Action → Prop
  | .connUnlock session =>
      state.conns session = some .deleted → ∀ handshake, ¬state.Refers handshake session
  | .newId _ id =>
      state.entries id = none → ∀ session found, state.sessions session = some found → found.id ≠ id
  | _ => True

/-! ### What a step can change -/

def Plain (value : Option Handshake) : Prop :=
  ∀ found, value = some found → found.pc = .opening ∨ ∃ id, found.pc = .asking id

/-- `delSession` logs the session that stood under the id, if there was one. -/
def State.Deletes (state : State) (id : Nat) (events : List Event) : Prop :=
  events = state.events ∨
    ∃ session, state.entries id = some (some session) ∧ events = .deleted session :: state.events

inductive Change (state : State) : Action → State → Prop
  | same (action : Action) : Change state action state
  | plain (action : Action) (handshake : Nat) (value : Option Handshake) (isPlain : Plain value) :
      Change state action (state.setHandshake handshake value)
  | reserve (handshake user id : Nat) (unused : state.entries id = none) :
      Change state (.newId handshake id)
        ((state.setEntry id (some none)).setHandshake handshake (some ⟨user, .reserved id⟩))
  | make (handshake user id session : Nat)
      (atHandshake : state.handshakes handshake = some ⟨user, .reserved id⟩)
      (unmade : state.sessions session = none) :
      Change state (.newSession handshake session)
        { (state.setEntry id (some (some session))).setHandshake handshake
            (some ⟨user, .asking id⟩) with
          sessions := update state.sessions session (some ⟨id, user⟩) }
  | fetch (handshake user id session : Nat) (isListed : state.entries id = some (some session)) :
      Change state (.getSession handshake)
        (state.setHandshake handshake (some ⟨user, .fetched session⟩))
  | check (handshake user session : Nat)
      (atHandshake : state.handshakes handshake = some ⟨user, .fetched session⟩) :
      Change state (.checkUser handshake)
        (state.setHandshake handshake (some ⟨user, .checked session⟩))
  | lock (handshake user session : Nat)
      (atHandshake : state.handshakes handshake = some ⟨user, .checked session⟩)
      (free : state.lock session = none) :
      Change state (.tryLock handshake)
        ((state.setLock session (some (.handshake handshake))).setHandshake handshake
          (some ⟨user, .locked session⟩))
  | unlock (handshake user session : Nat)
      (atHandshake : state.handshakes handshake = some ⟨user, .locked session⟩) :
      Change state (.upgradeFails handshake)
        ((state.setLock session none).setHandshake handshake none)
  | attach (handshake user session : Nat)
      (atHandshake : state.handshakes handshake = some ⟨user, .locked session⟩) :
      Change state (.takeConn handshake)
        { ((state.setLock session (some .conn)).setConn session (some .running)).setHandshake
            handshake none with
          events := .attached session :: state.events }
  | connEnds (session : Nat) (graceful : Bool) (conn : Conn)
      (atConn : state.conns session = some .running) (notDeleted : conn ≠ .deleted) :
      Change state (.connEnds session graceful) (state.setConn session (some conn))
  | connDelete (session : Nat) (found : Session) (events : List Event)
      (atConn : state.conns session = some .closing) (isMade : state.sessions session = some found)
      (deletes : state.Deletes found.id events) :
      Change state (.connDelete session)
        { (state.setEntry found.id none).setConn session (some .deleted) with events := events }
  | connUnlock (session : Nat) (conn : Conn) (inactiveCount : Nat → Nat)
      (atConn : state.conns session = some conn) (ended : conn = .deleted ∨ conn = .lost) :
      Change state (.connUnlock session)
        { (state.setLock session none).setConn session none with inactiveCount := inactiveCount }
  | visit (id session : Nat) (isListed : state.entries id = some (some session)) :
      Change state (.visit id) { state with scan := .visiting id session }
  | scanLock (id session : Nat) (inactiveCount : Nat → Nat)
      (atScan : state.scan = .visiting id session) (free : state.lock session = none) :
      Change state .scanTryLock
        { state.setLock session (some .scan) with
          inactiveCount := inactiveCount
          scan := .counted id session }
  | scanSkip (id session : Nat) (atScan : state.scan = .visiting id session) :
      Change state .scanTryLock { state with scan := .idle }
  | scanDelete (id session : Nat) (events : List Event) (atScan : state.scan = .counted id session)
      (deletes : state.Deletes id events) :
      Change state .scanDecide { state.setEntry id none with scan := .idle, events := events }
  | scanUnlock (id session : Nat) (atScan : state.scan = .counted id session) :
      Change state .scanDecide { state.setLock session none with scan := .idle }

theorem plain_none : Plain none := nofun

theorem delSession_deletes (state : State) (id : Nat) : ∃ events, state.Deletes id events ∧
    state.delSession id = { state.setEntry id none with events := events } := by
  unfold State.delSession
  split
  · rename_i session isListed
    exact ⟨_, .inr ⟨session, isListed, rfl⟩, rfl⟩
  · exact ⟨_, .inl rfl, rfl⟩

theorem step_change {state next : State} {action : Action} (stepped : step state action = some next) :
    Change state action next := by
  revert stepped
  -- The branches that refuse the action go at once.
  fun_cases step state action <;> intro stepped <;> try cases stepped
  · exact .plain _ _ _ fun found isFound => .inl (by cases isFound; rfl)
  · exact .plain _ _ _ fun found isFound => .inr ⟨_, by cases isFound; rfl⟩
  · exact .reserve _ _ _ ‹_›
  · exact .same _
  · exact .make _ _ _ _ ‹_› ‹_›
  · exact .fetch _ _ _ _ ‹_›
  · exact .plain _ _ _ plain_none
  · obtain ⟨found, _, rfl⟩ := Option.map_eq_some_iff.mp stepped
    split
    · exact .check _ _ _ ‹_›
    · exact .plain _ _ _ plain_none
  · exact .lock _ _ _ ‹_› ‹_›
  · exact .plain _ _ _ plain_none
  · exact .unlock _ _ _ ‹_›
  · exact .attach _ _ _ ‹_›
  · exact .plain _ _ _ plain_none
  · rename_i graceful atConn
    exact .connEnds _ graceful _ atConn (by cases graceful <;> nofun)
  · obtain ⟨found, isMade, rfl⟩ := Option.map_eq_some_iff.mp stepped
    obtain ⟨events, deletes, same⟩ := delSession_deletes state found.id
    rw [same]
    exact .connDelete _ found events ‹_› isMade deletes
  · exact .connUnlock _ .deleted state.inactiveCount ‹_› (.inl rfl)
  · exact .connUnlock _ .lost _ ‹_› (.inr rfl)
  · exact .visit _ _ ‹_›
  · exact .scanLock _ _ _ ‹_› ‹_›
  · exact .scanSkip _ _ ‹_›
  · rename_i id session _ _
    obtain ⟨events, deletes, same⟩ := delSession_deletes state id
    rw [same]
    exact .scanDelete _ _ events ‹_› deletes
  · exact .scanUnlock _ _ ‹_›

section Changes

variable {state : State}

/-! ### Names -/

inductive Claimant
  | session (session : Nat)
  | handshake (handshake : Nat)

def State.Claims (state : State) (id : Nat) : Claimant → Prop
  | .session session => ∃ found, state.sessions session = some found ∧ found.id = id
  | .handshake handshake => ∃ user, state.handshakes handshake = some ⟨user, .reserved id⟩

def Scan.inHand : Scan → Option (Nat × Nat)
  | .visiting id session | .counted id session => some (id, session)
  | .idle => none

/-- An id belongs to one session, or is reserved by one handshake, and what stands under it
is that. -/
structure Named (state : State) : Prop where
  single : ∀ id first second, state.Claims id first → state.Claims id second → first = second
  listed : ∀ id session, state.entries id = some (some session) → state.Claims id (.session session)
  reserved : ∀ id handshake, state.Claims id (.handshake handshake) → state.entries id = some none
  scanned : ∀ id session, state.scan.inHand = some (id, session) → state.Claims id (.session session)

variable {next : State} {value : Option Handshake} {handshake session other id : Nat} {found : Session}
  {action : Action} {owner : Owner} {claimant : Claimant}

theorem Named.frame (named : Named state) (entries : next.entries = state.entries)
    (sessions : next.sessions = state.sessions)
    (claims : ∀ id claimant, next.Claims id claimant → state.Claims id claimant)
    (scanned : ∀ id session, next.scan.inHand = some (id, session) → state.Claims id (.session session)) :
    Named next := by
  have made (id session : Nat) (claim : state.Claims id (.session session)) :
      next.Claims id (.session session) := by
    rw [State.Claims, sessions]
    exact claim
  constructor
  · intro id first second byFirst bySecond
    exact named.single id first second (claims id first byFirst) (claims id second bySecond)
  · intro id session isListed
    rw [entries] at isListed
    exact made id session (named.listed id session isListed)
  · intro id handshake claim
    rw [entries]
    exact named.reserved id handshake (claims id _ claim)
  · intro id session inHand
    exact made id session (scanned id session inHand)

theorem claims_setHandshake (state : State) (claim : next.Claims id claimant) (sessions : next.sessions = state.sessions)
    (handshakes : next.handshakes = update state.handshakes handshake value) :
    claimant = .handshake handshake ∧ (∃ user, value = some ⟨user, .reserved id⟩) ∨
      claimant ≠ .handshake handshake ∧ state.Claims id claimant := by
  cases claimant with
  | session _ =>
    rw [State.Claims, sessions] at claim
    exact .inr ⟨nofun, claim⟩
  | handshake other =>
    rw [State.Claims, handshakes] at claim
    obtain ⟨user, atOther⟩ := claim
    rcases update_eq_some atOther with ⟨isValue, rfl⟩ | ⟨before, different⟩
    · exact .inl ⟨rfl, user, isValue⟩
    · exact .inr ⟨fun same => different (Claimant.handshake.inj same), user, before⟩

theorem Named.setHandshake (named : Named state) (entries : next.entries = state.entries)
    (sessions : next.sessions = state.sessions) (scan : next.scan = state.scan)
    (handshakes : next.handshakes = update state.handshakes handshake value)
    (unreserved : ∀ user id, value ≠ some ⟨user, .reserved id⟩) : Named next := by
  refine named.frame entries sessions ?_ (scan ▸ named.scanned)
  intro id claimant claim
  rcases claims_setHandshake state claim sessions handshakes with ⟨_, user, isValue⟩ | ⟨_, before⟩
  · exact absurd isValue (unreserved user id)
  · exact before

theorem Plain.ne (isPlain : Plain value) (user : Nat) {pc : Pc} (notOpening : pc ≠ .opening)
    (notAsking : ∀ id, pc ≠ .asking id) : value ≠ some ⟨user, pc⟩ := by
  intro same
  rcases isPlain _ same with isOpening | ⟨id, isAsking⟩
  · exact notOpening isOpening
  · exact notAsking id isAsking

def Claimant.entry : Claimant → Option Nat
  | .session session => some session
  | .handshake _ => none

theorem Named.claim (named : Named state) (own : next.Claims id claimant)
    (entries : next.entries = update state.entries id (some claimant.entry))
    (claims : ∀ id' other, next.Claims id' other → other = claimant ∧ id' = id ∨ state.Claims id' other ∧ id' ≠ id)
    (made : ∀ id' session, state.Claims id' (.session session) → next.Claims id' (.session session))
    (scan : next.scan = state.scan) : Named next := by
  constructor
  · intro id' first second byFirst bySecond
    rcases claims id' first byFirst with ⟨isFirst, isId⟩ | ⟨before, another⟩
    · rcases claims id' second bySecond with ⟨isSecond, _⟩ | ⟨_, another⟩
      · rw [isFirst, isSecond]
      · exact absurd isId another
    · rcases claims id' second bySecond with ⟨_, isId⟩ | ⟨before', _⟩
      · exact absurd isId another
      · exact named.single id' first second before before'
  · intro id' session isListed
    rw [entries] at isListed
    rcases update_eq_some isListed with ⟨isNew, rfl⟩ | ⟨before, _⟩
    · cases claimant with
      | handshake _ => cases isNew
      | session _ =>
        cases isNew
        exact own
    · exact made id' session (named.listed id' session before)
  · intro id' handshake claim
    rw [entries]
    rcases claims id' _ claim with ⟨isNew, isId⟩ | ⟨before, another⟩
    · rw [isId, update_self, ← isNew]
      rfl
    · exact (update_of_ne another ..).trans (named.reserved id' handshake before)
  · intro id' session inHand
    rw [scan] at inHand
    exact made id' session (named.scanned id' session inHand)

theorem Named.reserve (named : Named state) (handshake user : Nat) (unused : state.entries id = none)
    (unknown : ∀ session found, state.sessions session = some found → found.id ≠ id) :
    Named ((state.setEntry id (some none)).setHandshake handshake (some ⟨user, .reserved id⟩)) := by
  have unclaimed (claimant : Claimant) : ¬state.Claims id claimant := by
    intro claim
    cases claimant with
    | session session =>
      obtain ⟨found, isMade, sameId⟩ := claim
      exact unknown session found isMade sameId
    | handshake other => cases unused.symm.trans (named.reserved id other claim)
  refine @Named.claim _ _ id (.handshake handshake) named ⟨user, update_self ..⟩ rfl ?_ (fun _ _ claim => claim) rfl
  intro id' claimant claim
  rcases claims_setHandshake state claim rfl rfl with ⟨isNew, _, isValue⟩ | ⟨_, before⟩
  · cases isValue
    exact .inl ⟨isNew, rfl⟩
  · refine .inr ⟨before, ?_⟩
    rintro rfl
    exact unclaimed claimant before

theorem Named.make (named : Named state) {user : Nat}
    (atHandshake : state.handshakes handshake = some ⟨user, .reserved id⟩)
    (unmade : state.sessions session = none) :
    Named { (state.setEntry id (some (some session))).setHandshake handshake
        (some ⟨user, .asking id⟩) with
      sessions := update state.sessions session (some ⟨id, user⟩) } := by
  -- Of the claims before only that of the handshake was to this id.
  have another {id' : Nat} {other : Claimant} (different : other ≠ .handshake handshake)
      (claim : state.Claims id' other) : id' ≠ id := by
    rintro rfl
    have own : state.Claims id' (.handshake handshake) := ⟨user, atHandshake⟩
    exact different (named.single id' _ _ claim own)
  refine @Named.claim _ _ id (.session session) named ⟨_, update_self .., rfl⟩ rfl ?_ ?_ rfl
  · intro id' claimant claim
    cases claimant with
    | session other =>
      obtain ⟨found, isMade, sameId⟩ := claim
      rcases update_eq_some isMade with ⟨isNew, rfl⟩ | ⟨before, _⟩
      · cases isNew
        exact .inl ⟨rfl, sameId.symm⟩
      · have claimed : state.Claims id' (.session other) := ⟨found, before, sameId⟩
        exact .inr ⟨claimed, another (by nofun) claimed⟩
    | handshake other =>
      have inserted : (state.setHandshake handshake (some ⟨user, .asking id⟩)).Claims id' (.handshake other) :=
        claim
      rcases claims_setHandshake state inserted rfl rfl with ⟨_, _, isValue⟩ | ⟨different, before⟩
      · cases isValue
      · exact .inr ⟨before, another different before⟩
  · rintro id' other ⟨found, isMade, sameId⟩
    have older : other ≠ session := by
      rintro rfl
      cases unmade.symm.trans isMade
    exact ⟨found, (update_of_ne older ..).trans isMade, sameId⟩

theorem Named.delete (named : Named state) (claim : state.Claims id (.session session)) :
    Named (state.setEntry id none) where
  single := named.single
  listed := by
    intro id' other isListed
    rcases update_eq_some isListed with ⟨isNone, _⟩ | ⟨before, _⟩
    · cases isNone
    · exact named.listed id' other before
  reserved := by
    intro id' handshake (reserved : state.Claims id' (.handshake handshake))
    have another : id' ≠ id := by
      rintro rfl
      cases named.single id' _ _ claim reserved
    exact (update_of_ne another ..).trans (named.reserved id' handshake reserved)
  scanned := named.scanned

theorem Change.named (change : Change state action next) (orderly : Orderly state action)
    (named : Named state) : Named next := by
  have same (id : Nat) (claimant : Claimant) (claim : state.Claims id claimant) :
      state.Claims id claimant := claim
  cases change with
  | same => exact named
  | plain _ handshake value isPlain =>
    exact named.setHandshake rfl rfl rfl rfl fun user id => isPlain.ne user nofun nofun
  | reserve handshake user id unused => exact named.reserve handshake user unused (orderly unused)
  | make handshake user id session atHandshake unmade => exact named.make atHandshake unmade
  | fetch _ | check _ | lock _ | unlock _ | attach _ =>
    exact named.setHandshake rfl rfl rfl rfl (by nofun)
  | connEnds | connUnlock => exact named.frame rfl rfl same named.scanned
  | connDelete session found events atConn isMade =>
    have after := named.delete ⟨found, isMade, rfl⟩
    exact ⟨after.single, after.listed, after.reserved, after.scanned⟩
  | visit id session isListed =>
    refine named.frame rfl rfl same ?_
    rintro _ _ ⟨⟩
    exact named.listed id session isListed
  | scanLock id session inactiveCount atScan free =>
    refine named.frame rfl rfl same ?_
    rintro _ _ ⟨⟩
    exact named.scanned id session (by rw [atScan]; rfl)
  | scanSkip | scanUnlock => exact named.frame rfl rfl same nofun
  | scanDelete id session events atScan =>
    have after := named.delete (named.scanned id session (by rw [atScan]; rfl))
    exact ⟨after.single, after.listed, after.reserved, nofun⟩

/-! ### Locks -/

def State.Holds (state : State) (owner : Owner) (session : Nat) : Prop :=
  match owner with
  | .handshake handshake => ∃ user, state.handshakes handshake = some ⟨user, .locked session⟩
  | .conn => ∃ conn, state.conns session = some conn
  | .scan => ∃ id, state.scan = .counted id session

def Owned (state : State) : Prop :=
  ∀ owner session, state.Holds owner session → state.lock session = some owner

theorem Owned.frame (owned : Owned state) (lock : next.lock = state.lock)
    (holds : ∀ owner session, next.Holds owner session → state.Holds owner session) : Owned next := by
  intro owner session held
  rw [lock]
  exact owned owner session (holds owner session held)

theorem Owned.setLock (owned : Owned state) {owner : Option Owner}
    (lock : next.lock = update state.lock session owner)
    (own : ∀ holder, next.Holds holder session → owner = some holder)
    (others : ∀ holder other, other ≠ session → next.Holds holder other → state.Holds holder other) :
    Owned next := by
  intro holder other held
  rw [lock]
  by_cases same : other = session
  · subst same
    rw [update_self]
    exact own holder held
  · rw [update_of_ne same]
    exact owned holder other (others holder other same held)

theorem Owned.unique (owned : Owned state) {first second : Owner} (byFirst : state.Holds first session)
    (bySecond : state.Holds second session) : first = second :=
  Option.some.inj ((owned first session byFirst).symm.trans (owned second session bySecond))

theorem Owned.not_holds (owned : Owned state) (free : state.lock session = none) (owner : Owner) :
    ¬state.Holds owner session := by
  intro held
  cases free.symm.trans (owned owner session held)

theorem Owned.acquire (owned : Owned state) (free : state.lock session = none)
    (lock : next.lock = update state.lock session (some owner))
    (holds : ∀ holder other, next.Holds holder other →
      holder = owner ∧ other = session ∨ state.Holds holder other) : Owned next := by
  apply owned.setLock lock
  · intro holder held
    rcases holds holder session held with ⟨rfl, _⟩ | before
    · rfl
    · exact absurd before (owned.not_holds free holder)
  · intro holder other different held
    rcases holds holder other held with ⟨_, same⟩ | before
    · exact absurd same different
    · exact before

theorem Owned.pass (owned : Owned state) {heir : Option Owner} (held : state.Holds owner session)
    (lock : next.lock = update state.lock session heir)
    (holds : ∀ holder other, next.Holds holder other →
      heir = some holder ∧ other = session ∨
        ¬(holder = owner ∧ other = session) ∧ state.Holds holder other) : Owned next := by
  apply owned.setLock lock
  · intro holder byHolder
    rcases holds holder session byHolder with ⟨isHeir, _⟩ | ⟨notOwner, before⟩
    · exact isHeir
    · exact absurd ⟨owned.unique before held, rfl⟩ notOwner
  · intro holder other different byHolder
    rcases holds holder other byHolder with ⟨_, same⟩ | ⟨_, before⟩
    · exact absurd same different
    · exact before

theorem holds_setHandshake (state : State) (held : next.Holds owner session)
    (handshakes : next.handshakes = update state.handshakes handshake value)
    (conns : next.conns = state.conns) (scan : next.scan = state.scan) :
    owner = .handshake handshake ∧ (∃ user, value = some ⟨user, .locked session⟩) ∨
      owner ≠ .handshake handshake ∧ state.Holds owner session := by
  cases owner with
  | conn =>
    rw [State.Holds, conns] at held
    exact .inr ⟨nofun, held⟩
  | scan =>
    rw [State.Holds, scan] at held
    exact .inr ⟨nofun, held⟩
  | handshake other =>
    rw [State.Holds, handshakes] at held
    obtain ⟨user, atOther⟩ := held
    rcases update_eq_some atOther with ⟨isValue, rfl⟩ | ⟨before, different⟩
    · exact .inl ⟨rfl, user, isValue⟩
    · exact .inr ⟨fun same => different (Owner.handshake.inj same), user, before⟩

theorem Owned.setHandshake (owned : Owned state) (lock : next.lock = state.lock)
    (handshakes : next.handshakes = update state.handshakes handshake value)
    (conns : next.conns = state.conns) (scan : next.scan = state.scan)
    (unlocked : ∀ user session, value ≠ some ⟨user, .locked session⟩) : Owned next := by
  refine owned.frame lock fun owner session held => ?_
  rcases holds_setHandshake state held handshakes conns scan with ⟨_, user, isLocked⟩ | ⟨_, before⟩
  · exact absurd isLocked (unlocked user session)
  · exact before

theorem holds_setConn (state : State) {conn : Option Conn} (held : next.Holds owner other)
    (handshakes : next.handshakes = state.handshakes) (conns : next.conns = update state.conns session conn)
    (scan : next.scan = state.scan) :
    owner = .conn ∧ other = session ∧ conn.isSome = true ∨
      ¬(owner = .conn ∧ other = session) ∧ state.Holds owner other := by
  cases owner with
  | handshake handshake =>
    rw [State.Holds, handshakes] at held
    exact .inr ⟨nofun, held⟩
  | scan =>
    rw [State.Holds, scan] at held
    exact .inr ⟨nofun, held⟩
  | conn =>
    rw [State.Holds, conns] at held
    obtain ⟨found, atOther⟩ := held
    rcases update_eq_some atOther with ⟨isConn, same⟩ | ⟨before, different⟩
    · exact .inl ⟨rfl, same, by rw [isConn]; rfl⟩
    · exact .inr ⟨fun both => different both.2, found, before⟩

theorem holds_setScan (state : State) (held : next.Holds owner session)
    (handshakes : next.handshakes = state.handshakes) (conns : next.conns = state.conns) :
    owner = .scan ∧ (∃ id, next.scan = .counted id session) ∨
      owner ≠ .scan ∧ state.Holds owner session := by
  cases owner with
  | handshake handshake =>
    rw [State.Holds, handshakes] at held
    exact .inr ⟨nofun, held⟩
  | conn =>
    rw [State.Holds, conns] at held
    exact .inr ⟨nofun, held⟩
  | scan => exact .inl ⟨rfl, held⟩

theorem Owned.scan (owned : Owned state) (lock : next.lock = state.lock)
    (handshakes : next.handshakes = state.handshakes) (conns : next.conns = state.conns)
    (scan : ∀ id session, next.scan ≠ .counted id session) : Owned next := by
  refine owned.frame lock fun owner session held => ?_
  rcases holds_setScan state held handshakes conns with ⟨_, id, counted⟩ | ⟨_, before⟩
  · exact absurd counted (scan id session)
  · exact before

theorem Change.owned (change : Change state action next) (owned : Owned state) : Owned next := by
  cases change with
  | same => exact owned
  | plain _ handshake value isPlain =>
    exact owned.setHandshake rfl rfl rfl rfl fun user session => isPlain.ne user nofun nofun
  | reserve _ | make _ | fetch _ | check _ => exact owned.setHandshake rfl rfl rfl rfl (by nofun)
  | lock handshake user session atHandshake free =>
    refine owned.acquire free rfl fun holder other held => ?_
    rcases holds_setHandshake state held rfl rfl rfl with ⟨rfl, _, isLocked⟩ | ⟨_, before⟩
    · cases isLocked
      exact .inl ⟨rfl, rfl⟩
    · exact .inr before
  | unlock handshake user session atHandshake =>
    have holds : state.Holds (.handshake handshake) session := ⟨user, atHandshake⟩
    refine owned.pass holds rfl fun holder other held => .inr ?_
    rcases holds_setHandshake state held rfl rfl rfl with ⟨_, _, isNone⟩ | ⟨different, before⟩
    · cases isNone
    · exact ⟨fun same => different same.1, before⟩
  | attach handshake user session atHandshake =>
    have holds : state.Holds (.handshake handshake) session := ⟨user, atHandshake⟩
    refine owned.pass holds rfl fun holder other held => ?_
    rcases holds_setHandshake (state.setConn session (some .running)) held rfl rfl rfl with
      ⟨_, _, isNone⟩ | ⟨different, before⟩
    · cases isNone
    · rcases holds_setConn state before rfl rfl rfl with ⟨rfl, isSession, _⟩ | ⟨_, earlier⟩
      · exact .inl ⟨rfl, isSession⟩
      · exact .inr ⟨fun same => different same.1, earlier⟩
  | connEnds session _ _ atConn | connDelete session _ _ atConn =>
    refine owned.frame rfl fun owner other held => ?_
    rcases holds_setConn state held rfl rfl rfl with ⟨rfl, rfl, _⟩ | ⟨_, before⟩
    · exact ⟨_, atConn⟩
    · exact before
  | connUnlock session conn inactiveCount atConn =>
    have holds : state.Holds .conn session := ⟨conn, atConn⟩
    refine owned.pass holds rfl fun holder other held => .inr ?_
    rcases holds_setConn state held rfl rfl rfl with ⟨_, _, isSome⟩ | before
    · cases isSome
    · exact before
  | visit _ _ | scanSkip _ _ | scanDelete _ _ => exact owned.scan rfl rfl rfl nofun
  | scanLock id session inactiveCount atScan free =>
    refine owned.acquire free rfl fun holder other held => ?_
    rcases holds_setScan state held rfl rfl with ⟨rfl, _, atScan'⟩ | ⟨_, before⟩
    · cases atScan'
      exact .inl ⟨rfl, rfl⟩
    · exact .inr before
  | scanUnlock id session atScan =>
    have holds : state.Holds .scan session := ⟨id, atScan⟩
    refine owned.pass holds rfl fun holder other held => .inr ?_
    rcases holds_setScan state held rfl rfl with ⟨_, _, atScan'⟩ | ⟨different, before⟩
    · cases atScan'
    · exact ⟨fun same => different same.1, before⟩

/-! ### Deleted sessions -/

/-- What keeps connections off a session that was deleted: its connection has yet to unlock
it, or the scan has left it locked, or no handshake has it in hand. -/
inductive Sealed (state : State) (session : Nat) : Prop
  | closing (conn : state.conns session = some .deleted)
  | abandoned (conn : state.conns session = none) (lock : state.lock session = some .scan)
      (scan : ∀ id, state.scan ≠ .counted id session)
  | released (conn : state.conns session = none)
      (lock : ∀ handshake, state.lock session ≠ some (.handshake handshake))
      (unreferred : ∀ handshake, ¬state.Refers handshake session)

theorem Sealed.frame (isSealed : Sealed state session) (conns : next.conns session = state.conns session)
    (lock : next.lock session = state.lock session)
    (scan : ∀ id, next.scan = .counted id session → state.scan = .counted id session)
    (refers : ∀ handshake, next.Refers handshake session → ∃ other, state.Refers other session) :
    Sealed next session := by
  cases isSealed with
  | closing conn => exact .closing (conns.trans conn)
  | abandoned conn isLocked notCounted =>
    exact .abandoned (conns.trans conn) (lock.trans isLocked) fun id counted =>
      notCounted id (scan id counted)
  | released conn notLocked unreferred =>
    refine .released (conns.trans conn) (lock ▸ notLocked) fun handshake refers' => ?_
    obtain ⟨other, before⟩ := refers handshake refers'
    exact unreferred other before

theorem Sealed.conn_deleted (isSealed : Sealed state session) {conn : Conn}
    (atConn : state.conns session = some conn) : conn = .deleted := by
  cases isSealed with
  | closing isDeleted => exact Option.some.inj (atConn.symm.trans isDeleted)
  | abandoned noConn => cases noConn.symm.trans atConn
  | released noConn => cases noConn.symm.trans atConn

theorem Sealed.not_holds (isSealed : Sealed state session) (owned : Owned state) (handshake : Nat) :
    ¬state.Holds (.handshake handshake) session := by
  intro held
  have isLocked := owned _ _ held
  cases isSealed with
  | closing conn => cases isLocked.symm.trans (owned .conn session ⟨_, conn⟩)
  | abandoned conn lock => cases isLocked.symm.trans lock
  | released conn notLocked => exact notLocked handshake isLocked

theorem Sealed.lock_ne_none (isSealed : Sealed state session) (owned : Owned state)
    (refers : state.Refers handshake session) : state.lock session ≠ none := by
  intro free
  cases isSealed with
  | closing conn => cases free.symm.trans (owned .conn session ⟨_, conn⟩)
  | abandoned conn lock => cases free.symm.trans lock
  | released conn notLocked unreferred => exact unreferred handshake refers

theorem Sealed.setHandshake (isSealed : Sealed state session) (handshake : Nat)
    (handshakes : next.handshakes = update state.handshakes handshake value)
    (elsewhere : ∀ found, value = some found → found.pc.inHand = some session →
      ∃ other, state.Refers other session) (conns : next.conns session = state.conns session)
    (lock : next.lock session = state.lock session) (scan : next.scan = state.scan) :
    Sealed next session := by
  refine isSealed.frame conns lock (fun id counted => scan ▸ counted) ?_
  intro other ⟨found, atOther, inHand⟩
  rw [handshakes] at atOther
  rcases update_eq_some atOther with ⟨isValue, _⟩ | ⟨before, _⟩
  · exact elsewhere found isValue inHand
  · exact ⟨other, found, before, inHand⟩

theorem Plain.inHand (isPlain : Plain value) {found : Handshake} (isValue : value = some found)
    (session : Nat) : found.pc.inHand ≠ some session := by
  rcases isPlain found isValue with isOpening | ⟨_, isAsking⟩
  · rw [isOpening]
    exact nofun
  · rw [isAsking]
    exact nofun

theorem Change.sealed (change : Change state action next) (orderly : Orderly state action)
    (owned : Owned state) (unlisted : ∀ id, state.entries id ≠ some (some session))
    (isSealed : Sealed state session) : Sealed next session := by
  -- A change of the lock or of the connection of another session.
  have apart : ∀ {Value : Type} {table : Nat → Option Value} {other : Nat} {value : Option Value},
      other ≠ session → update table other value session = table session :=
    fun different => update_of_ne different.symm ..
  have inHand (handshake : Nat) (refers : state.Refers handshake session) :
      ∃ other, state.Refers other session := ⟨handshake, refers⟩
  cases change with
  | same => exact isSealed
  | plain _ handshake value isPlain =>
    refine isSealed.setHandshake handshake rfl ?_ rfl rfl rfl
    intro found isValue inHand
    exact absurd inHand (isPlain.inHand isValue session)
  | reserve handshake | make handshake =>
    refine isSealed.setHandshake handshake rfl ?_ rfl rfl rfl
    rintro _ ⟨⟩ ⟨⟩
  | fetch handshake user id other isListed =>
    refine isSealed.setHandshake handshake rfl ?_ rfl rfl rfl
    rintro _ ⟨⟩ ⟨⟩
    exact absurd isListed (unlisted id)
  | check handshake user other atHandshake =>
    refine isSealed.setHandshake handshake rfl ?_ rfl rfl rfl
    rintro _ ⟨⟩ ⟨⟩
    exact ⟨handshake, _, atHandshake, rfl⟩
  | lock handshake user other atHandshake free =>
    have different : other ≠ session := by
      rintro rfl
      exact isSealed.lock_ne_none owned ⟨_, atHandshake, rfl⟩ free
    refine isSealed.setHandshake handshake rfl ?_ rfl (apart different) rfl
    rintro _ ⟨⟩ ⟨⟩
  | unlock handshake user other atHandshake =>
    have different : other ≠ session := by
      rintro rfl
      exact isSealed.not_holds owned handshake ⟨user, atHandshake⟩
    refine isSealed.setHandshake handshake rfl ?_ rfl (apart different) rfl
    rintro _ ⟨⟩ ⟨⟩
  | attach handshake user other atHandshake =>
    have different : other ≠ session := by
      rintro rfl
      exact isSealed.not_holds owned handshake ⟨user, atHandshake⟩
    refine isSealed.setHandshake handshake rfl ?_ (apart different) (apart different) rfl
    rintro _ ⟨⟩ ⟨⟩
  | connEnds other _ _ atConn | connDelete other _ _ atConn =>
    have different : other ≠ session := by
      rintro rfl
      cases isSealed.conn_deleted atConn
    exact isSealed.frame (apart different) rfl (fun _ => id) inHand
  | connUnlock other conn inactiveCount atConn ended =>
    by_cases same : other = session
    · subst same
      cases isSealed.conn_deleted atConn
      exact .released (update_self ..)
        (fun _ held => by cases (update_self ..).symm.trans held) (orderly atConn)
    · exact isSealed.frame (apart same) (apart same) (fun _ => id) inHand
  | visit _ _ | scanSkip _ _ | scanDelete _ _ =>
    exact isSealed.frame rfl rfl (fun _ counted => by cases counted) inHand
  | scanLock id other inactiveCount atScan free =>
    by_cases same : other = session
    · subst same
      cases isSealed with
      | closing conn => cases free.symm.trans (owned .conn other ⟨_, conn⟩)
      | abandoned conn lock => cases free.symm.trans lock
      | released conn notLocked unreferred =>
        exact .released conn
          (fun _ held => by cases (update_self ..).symm.trans held) unreferred
    · refine isSealed.frame rfl (apart same) (fun _ counted => ?_) inHand
      cases counted
      exact absurd rfl same
  | scanUnlock id other atScan =>
    by_cases same : other = session
    · subst same
      have held : state.Holds .scan other := ⟨id, atScan⟩
      cases isSealed with
      | closing conn =>
        have byConn : state.Holds .conn other := ⟨_, conn⟩
        cases owned.unique held byConn
      | abandoned conn lock notCounted => exact absurd atScan (notCounted id)
      | released conn notLocked unreferred =>
        exact .released conn
          (fun _ held => by cases (update_self ..).symm.trans held) unreferred
    · exact isSealed.frame rfl (apart same) (fun _ counted => by cases counted) inHand

structure Gone (state : State) (session : Nat) : Prop where
  made : ∃ found, state.sessions session = some found
  unlisted : ∀ id, state.entries id ≠ some (some session)
  isSealed : Sealed state session

theorem Change.kept (change : Change state action next)
    (made : ∃ found, state.sessions session = some found)
    (unlisted : ∀ id, state.entries id ≠ some (some session)) :
    (∃ found, next.sessions session = some found) ∧ ∀ id, next.entries id ≠ some (some session) := by
  cases change with
  | reserve _ | connDelete _ | scanDelete _ =>
    refine ⟨made, fun id' isListed => ?_⟩
    rcases update_eq_some isListed with ⟨isNone, _⟩ | ⟨before, _⟩
    · cases isNone
    · exact unlisted id' before
  | make handshake user id other atHandshake unmade =>
    obtain ⟨found, isMade⟩ := made
    have different : session ≠ other := by
      rintro rfl
      cases unmade.symm.trans isMade
    refine ⟨⟨found, (update_of_ne different ..).trans isMade⟩, fun id' isListed => ?_⟩
    rcases update_eq_some isListed with ⟨isNew, _⟩ | ⟨before, _⟩
    · cases isNew
      exact different rfl
    · exact unlisted id' before
  | _ => exact ⟨made, unlisted⟩

theorem Named.delete_events (named : Named state) {events : List Event}
    (claim : state.Claims id (.session session)) (deletes : state.Deletes id events)
    (deleted : .deleted other ∈ events) : .deleted other ∈ state.events ∨ other = session := by
  rcases deletes with rfl | ⟨listed, isListed, rfl⟩
  · exact .inl deleted
  · rcases List.mem_cons.mp deleted with isNewest | before
    · cases isNewest
      cases named.single id _ _ (named.listed id _ isListed) claim
      exact .inr rfl
    · exact .inl before

theorem Named.delete_unlisted (named : Named state) (claim : state.Claims id (.session session))
    (id' : Nat) : update state.entries id none id' ≠ some (some session) := by
  intro isListed
  rcases update_eq_some isListed with ⟨isNone, _⟩ | ⟨before, different⟩
  · cases isNone
  · obtain ⟨found, isMade, rfl⟩ := claim
    obtain ⟨found', isMade', rfl⟩ := named.listed id' session before
    cases isMade.symm.trans isMade'
    exact different rfl

theorem Change.deleted (change : Change state action next) (named : Named state) (owned : Owned state)
    (deleted : .deleted session ∈ next.events) :
    .deleted session ∈ state.events ∨ Gone next session := by
  cases change with
  | attach handshake user other =>
    rcases List.mem_cons.mp deleted with isAttached | before
    · cases isAttached
    · exact .inl before
  | connDelete other found events atConn isMade deletes =>
    have claim : state.Claims found.id (.session other) := ⟨found, isMade, rfl⟩
    rcases named.delete_events claim deletes deleted with before | rfl
    · exact .inl before
    · exact .inr ⟨⟨found, isMade⟩, named.delete_unlisted claim, .closing (update_self ..)⟩
  | scanDelete id other events atScan deletes =>
    have claim := named.scanned id other (by rw [atScan]; rfl)
    rcases named.delete_events claim deletes deleted with before | rfl
    · exact .inl before
    · have held : state.Holds .scan session := ⟨id, atScan⟩
      have unconnected : state.conns session = none := by
        cases atConn : state.conns session with
        | none => rfl
        | some conn =>
          have byConn : state.Holds .conn session := ⟨conn, atConn⟩
          cases owned.unique held byConn
      refine .inr ⟨?_, named.delete_unlisted claim, .abandoned unconnected (owned .scan session held) nofun⟩
      obtain ⟨found, isMade, _⟩ := claim
      exact ⟨found, isMade⟩
  | _ => exact .inl deleted

theorem NeverAttachedAgain.cons {event : Event} (never : NeverAttachedAgain state)
    (events : next.events = event :: state.events)
    (fresh : ∀ session, event = .attached session → .deleted session ∉ state.events) :
    NeverAttachedAgain next := by
  intro newer older session split attached
  rw [events] at split
  cases newer with
  | nil => cases attached
  | cons newest rest =>
    obtain ⟨rfl, rest'⟩ := List.cons_eq_cons.mp split
    rcases List.mem_cons.mp attached with isNewest | later
    · refine fresh session isNewest.symm ?_
      rw [rest']
      simp
    · exact never rest older session rest' later

theorem Change.attached (change : Change state action next) (owned : Owned state)
    (gone : ∀ session, .deleted session ∈ state.events → Gone state session)
    (never : NeverAttachedAgain state) : NeverAttachedAgain next := by
  have deletion : ∀ (id : Nat) (next : State), state.Deletes id next.events → NeverAttachedAgain next := by
    rintro id next (same | ⟨_, _, same⟩)
    · intro newer older session split
      rw [same] at split
      exact never newer older session split
    · exact never.cons same nofun
  cases change with
  | attach handshake user session atHandshake =>
    refine never.cons rfl ?_
    rintro _ ⟨⟩ deleted
    exact (gone session deleted).isSealed.not_holds owned handshake ⟨user, atHandshake⟩
  | connDelete _ found _ _ _ deletes => exact deletion found.id _ deletes
  | scanDelete id _ _ _ deletes => exact deletion id _ deletes
  | _ => exact never

end Changes

/-! ### Whole runs -/

structure Sound (state : State) : Prop where
  named : Named state
  owned : Owned state
  gone : ∀ session, .deleted session ∈ state.events → Gone state session
  never : NeverAttachedAgain state

theorem initial_sound : Sound initial where
  named := by
    refine ⟨fun id first _ claim => ?_, nofun, nofun, nofun⟩
    cases first with
    | session _ => obtain ⟨_, ⟨⟩, _⟩ := claim
    | handshake _ => obtain ⟨_, ⟨⟩⟩ := claim
  owned := by
    intro owner session held
    cases owner with
    | handshake _ | conn | scan => obtain ⟨_, ⟨⟩⟩ := held
  gone := nofun
  never := by
    intro newer older session split
    cases newer <;> cases split

theorem step_sound (state : State) (action : Action) (next : State) (sound : Sound state)
    (orderly : Orderly state action) (stepped : step state action = some next) : Sound next := by
  have change := step_change stepped
  refine ⟨change.named orderly sound.named, change.owned sound.owned, ?_,
    change.attached sound.owned sound.gone sound.never⟩
  intro session deleted
  rcases change.deleted sound.named sound.owned deleted with before | isGone
  · obtain ⟨made, unlisted, isSealed⟩ := sound.gone session before
    obtain ⟨made', unlisted'⟩ := change.kept made unlisted
    exact ⟨made', unlisted', change.sealed orderly sound.owned unlisted isSealed⟩
  · exact isGone

/-- In every run whose closes wait for the handshakes and whose ids are new, no connection
is attached to a session after its deletion. -/
theorem orderly_never_attached_again (actions : List Action) (last : State)
    (orderly : Guarded step Orderly initial actions)
    (reached : run step initial actions = some last) : NeverAttachedAgain last :=
  (run_invariant step_sound initial_sound orderly reached).never

private def resumed : List Action :=
  [.open 0 7, .newId 0 3, .newSession 0 0, .getSession 0, .checkUser 0, .tryLock 0, .takeConn 0,
    .connEnds 0 false, .connUnlock 0, .resume 1 7 3, .getSession 1, .checkUser 1, .tryLock 1,
    .takeConn 1, .connEnds 0 true, .connDelete 0, .connUnlock 0]

private theorem resumed_orderly : Guarded step Orderly initial resumed := by
  refine .cons rfl trivial ?_
  refine .cons rfl (fun _ session found isMade => (by cases isMade)) ?_
  iterate 6 refine .cons rfl trivial ?_
  -- The first connection was lost.
  refine .cons rfl (fun isDeleted => (by cases isDeleted)) ?_
  iterate 7 refine .cons rfl trivial ?_
  refine .cons rfl (fun _ handshake refers => ?_) trivial
  obtain ⟨found, atHandshake, _⟩ := refers
  match handshake with
  | 0 | 1 | _ + 2 => cases atHandshake

theorem orderly_never_attached_again_resumed :
    ∃ last, run step initial resumed = some last ∧
      last.events = [.deleted 0, .attached 0, .attached 0] ∧ NeverAttachedAgain last := by
  cases reached : run step initial resumed with
  | none => cases reached
  | some last =>
    refine ⟨last, rfl, ?_, orderly_never_attached_again resumed last resumed_orderly reached⟩
    cases reached
    rfl

/-- Whoever has a session has its lock, and a handshake past the check of the user has in
hand a session of that user. -/
structure Checked (state : State) : Prop where
  owned : Owned state
  own : ∀ handshake user session, state.handshakes handshake = some ⟨user, .checked session⟩ ∨
      state.handshakes handshake = some ⟨user, .locked session⟩ →
    ∃ found, state.sessions session = some found ∧ found.username = user

theorem step_checked (state : State) (action : Action) (next : State) (checked : Checked state)
    (_ : True) (stepped : step state action = some next) : Checked next := by
  refine ⟨(step_change stepped).owned checked.owned, fun handshake user session past => ?_⟩
  have before := checked.own handshake user session
  have deleted (id : Nat) : (state.delSession id).handshakes = state.handshakes ∧
      (state.delSession id).sessions = state.sessions := by
    obtain ⟨_, _, same⟩ := delSession_deletes state id
    rw [same]
    exact ⟨rfl, rfl⟩
  revert stepped
  -- No step changes a session that is made, and only `checkUser` lets a handshake past.
  fun_cases step state action <;> intro stepped <;> try cases stepped
  all_goals try obtain ⟨found, isMade, rfl⟩ := Option.map_eq_some_iff.mp stepped
  all_goals try split at past
  all_goals
    try simp only [State.setHandshake, State.setEntry, State.setLock, State.setConn, update_apply] at past ⊢
    grind

/-- Whatever the handshakes, the connections and the scan do, a handshake that is about to
attach its connection comes from the user of the session, and no two of them have one
session at a time. -/
theorem held_by_one_and_own (actions : List Action) (last : State)
    (reached : run step initial actions = some last) (session : Nat) :
    (∀ first second, last.Holds first session → last.Holds second session → first = second) ∧
      ∀ handshake user, last.handshakes handshake = some ⟨user, .locked session⟩ →
        ∃ found, last.sessions session = some found ∧ found.username = user := by
  have checked : Checked last :=
    run_invariant step_checked ⟨initial_sound.owned, fun _ _ _ past => by rcases past with ⟨⟨⟩⟩ | ⟨⟨⟩⟩⟩
      (guarded_of_forall (fun _ _ _ => trivial) initial) reached
  exact ⟨fun _ _ => checked.owned.unique,
    fun handshake user locked => checked.own handshake user session (.inr locked)⟩

theorem held_by_one_and_own_resumed :
    ∃ last, run step initial (resumed.take 13) = some last ∧
      ∀ owner, last.Holds owner 0 → owner = .handshake 1 :=
  ⟨_, rfl, fun owner held =>
    (held_by_one_and_own (resumed.take 13) _ rfl 0).1 owner _ held ⟨7, rfl⟩⟩

/-- A handshake that has fetched the session before the close takes its lock after it. -/
theorem closed_session_resumed :
    ∃ last, Reaches step initial last ∧
      last.events = [.attached 0, .deleted 0, .attached 0] ∧ ¬NeverAttachedAgain last := by
  let actions : List Action :=
    [.open 0 7, .newId 0 3, .newSession 0 0, .getSession 0, .checkUser 0, .tryLock 0, .takeConn 0,
      .resume 1 7 3, .getSession 1, .connEnds 0 true, .connDelete 0, .connUnlock 0, .checkUser 1,
      .tryLock 1, .takeConn 1]
  cases reached : run step initial actions with
  | none => cases reached
  | some last =>
    have events : last.events = [.attached 0, .deleted 0, .attached 0] := by
      cases reached
      rfl
    refine ⟨last, ⟨actions, reached⟩, events, fun never => ?_⟩
    exact never [.attached 0] _ 0 events List.mem_cons_self

end Wsfs.Server.Registry
