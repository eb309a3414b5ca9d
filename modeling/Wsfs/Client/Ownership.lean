/-
Whose buffer a request takes. A response channel outlives the holders of its mark, so
what a holder leaves behind reaches the next one. The invariant is that everything
queued, in the hands of the reader, or still to come on the connection it reads
belongs to the present holder of its mark; only a release can break it.
-/

import Wsfs.Client.Session

namespace Wsfs.Client

open Wsfs.Base Wsfs.Protocol Function

def OwnBuffers (state : State) : Prop :=
  ∀ taken ∈ state.taken, taken.buffer.cause.request = taken.request

/-- The buffer that the reader is about to queue, with its channel. -/
def Reader.hand : Reader → Option (Mark × Buffer)
  | .delivering _ buffer => some (buffer.mark, buffer)
  | .notifying _ index buffer => some (UInt8.ofNat index, buffer)
  | _ => none

def Reader.conn : Reader → Option Nat
  | .reading conn => some conn
  | .delivering conn _ => some conn
  | _ => none

/-- A buffer made for a request has yet to be taken from the channel of a mark, or can
still come there on the connection that the reader reads. -/
inductive Underway (state : State) : Mark → Nat → Prop
  | queued (mark : Mark) (buffer : Buffer) :
      state.responses mark = some buffer → Underway state mark buffer.cause.request
  | inHand (mark : Mark) (buffer : Buffer) :
      state.reader.hand = some (mark, buffer) → Underway state mark buffer.cause.request
  | onWire (conn : Nat) (buffer : Buffer) :
      state.reader.conn = some conn → buffer ∈ (state.links conn).wire →
        Underway state buffer.mark buffer.cause.request
  | pending (conn : Nat) (command : Command) :
      state.reader.conn = some conn → command ∈ (state.links conn).pending →
        Underway state command.mark command.request

/-- A mark is released only when nothing is under way to its channel. -/
def ReleasesDrained (state : State) : Action → Prop
  | .release request => ∀ mark, state.requests request = some (.holding mark) →
      ∀ owner, ¬Underway state mark owner
  | _ => True

/-! ### The invariant -/

structure Owned (state : State) : Prop where
  held : ∀ request mark, state.requests request = some (.holding mark) →
    state.marks mark = some request
  underway : ∀ mark request, Underway state mark request → state.marks mark = some request
  dialed : ∀ conn, state.conn = some conn → conn < state.dialed
  fresh : ∀ conn, state.dialed ≤ conn → state.links conn = ⟨[], []⟩
  own : OwnBuffers state

theorem initial_owned : Owned initial where
  held := nofun
  underway := by
    intro mark request underway
    cases underway with
    | queued _ _ queued => cases queued
    | inHand _ _ inHand => cases inHand
    | onWire _ _ _ onWire => cases onWire
    | pending _ _ _ pending => cases pending
  dialed := by rintro _ ⟨⟩; exact Nat.one_pos
  fresh := fun _ _ => rfl
  own := nofun

section Steps

variable {state next : State} {request : Nat} {other conn : Nat} {mark : Mark} {link : Link}
  {value : Request} {buffer : Buffer}

theorem requests_setRequest {found : Request}
    (holding : (state.setRequest request value).requests other = some found) :
    other = request ∧ value = found ∨ other ≠ request ∧ state.requests other = some found := by
  rcases update_eq_some holding with ⟨isValue, same⟩ | ⟨before, different⟩
  · exact .inl ⟨same, Option.some.inj isValue⟩
  · exact .inr ⟨different, before⟩

theorem Underway.congr {owner : Nat} (underway : Underway next mark owner)
    (responses : next.responses = state.responses) (reader : next.reader = state.reader)
    (links : next.links = state.links) : Underway state mark owner := by
  cases underway with
  | queued _ buffer queued => exact .queued mark buffer (responses ▸ queued)
  | inHand _ buffer inHand => exact .inHand mark buffer (reader ▸ inHand)
  | onWire conn buffer reads onWire => exact .onWire conn buffer (reader ▸ reads) (links ▸ onWire)
  | pending conn command reads isPending =>
    exact .pending conn command (reader ▸ reads) (links ▸ isPending)

/-- A step that leaves the marks and the requests alone, and puts nothing under way but
for the holder of the mark. -/
theorem Owned.carry (owned : Owned state) (marks : next.marks = state.marks)
    (requests : next.requests = state.requests)
    (underway : ∀ mark owner, Underway next mark owner →
      Underway state mark owner ∨ state.marks mark = some owner)
    (dialed : ∀ conn, next.conn = some conn → conn < next.dialed)
    (fresh : ∀ conn, next.dialed ≤ conn → next.links conn = ⟨[], []⟩)
    (own : OwnBuffers next) : Owned next where
  held := by
    rw [marks, requests]
    exact owned.held
  underway := by
    intro mark owner arrives
    rw [marks]
    exact (underway mark owner arrives).elim (owned.underway mark owner) id
  dialed := dialed
  fresh := fresh
  own := own

theorem Owned.setRequest (owned : Owned state) (unheld : ∀ mark, value ≠ .holding mark) :
    Owned (state.setRequest request value) where
  held := by
    intro other mark holding
    rcases requests_setRequest holding with ⟨_, same⟩ | ⟨_, before⟩
    · exact absurd same (unheld mark)
    · exact owned.held other mark before
  underway := fun mark owner arrives => owned.underway mark owner (arrives.congr rfl rfl rfl)
  dialed := owned.dialed
  fresh := owned.fresh
  own := owned.own

theorem Owned.congr (owned : Owned state) (requests : next.requests = state.requests)
    (marks : next.marks = state.marks) (responses : next.responses = state.responses)
    (reader : next.reader = state.reader) (links : next.links = state.links)
    (conn : next.conn = state.conn) (dialed : next.dialed = state.dialed)
    (taken : next.taken = state.taken) : Owned next :=
  owned.carry marks requests (fun _ _ arrives => .inl (arrives.congr responses reader links))
    (by rw [conn, dialed]; exact owned.dialed) (by rw [links, dialed]; exact owned.fresh)
    (by rw [OwnBuffers, taken]; exact owned.own)

/-! ### Requests -/

/-- Nothing is under way to a mark that nobody holds, so a new holder finds nothing. -/
theorem Owned.lock (owned : Owned state) (unlocked : ¬state.locked mark) :
    Owned ((state.setMark mark (some request)).setRequest request (.holding mark)) := by
  have free : state.marks mark = none := by
    cases holder : state.marks mark with
    | none => rfl
    | some other => exact absurd (by simp [State.locked, holder]) unlocked
  have kept : ∀ other holder, state.marks other = some holder →
      update state.marks mark (some request) other = some holder := by
    intro other holder found
    have different : other ≠ mark := by
      rintro rfl
      cases free.symm.trans found
    rw [update_of_ne different, found]
  refine ⟨?_, ?_, owned.dialed, owned.fresh, owned.own⟩
  · intro other otherMark holding
    rcases requests_setRequest holding with ⟨rfl, ⟨⟩⟩ | ⟨_, before⟩
    · exact update_self ..
    · exact kept _ _ (owned.held other otherMark before)
  · intro other owner arrives
    exact kept _ _ (owned.underway other owner (arrives.congr rfl rfl rfl))

theorem Owned.release (owned : Owned state) (drained : ReleasesDrained state (.release request))
    (holding : state.requests request = some (.holding mark)) :
    Owned ((state.setMark mark none).setRequest request .leaving) := by
  have kept : ∀ other holder, other ≠ mark → state.marks other = some holder →
      update state.marks mark none other = some holder := by
    intro other holder different found
    rw [update_of_ne different, found]
  refine ⟨?_, ?_, owned.dialed, owned.fresh, owned.own⟩
  · intro other otherMark otherHolding
    rcases requests_setRequest otherHolding with ⟨_, ⟨⟩⟩ | ⟨different, before⟩
    refine kept _ _ ?_ (owned.held other otherMark before)
    rintro rfl
    have both := (owned.held other _ before).symm.trans (owned.held request _ holding)
    exact different (Option.some.inj both)
  · intro other owner arrives
    have before : Underway state other owner := arrives.congr rfl rfl rfl
    refine kept _ _ ?_ (owned.underway other owner before)
    rintro rfl
    exact drained other holding owner before

theorem wire_setLink (onWire : buffer ∈ ((state.setLink conn link).links other).wire) :
    other = conn ∧ buffer ∈ link.wire ∨ buffer ∈ (state.links other).wire := by
  by_cases same : other = conn
  · subst same
    exact .inl ⟨rfl, (congrArg (buffer ∈ Link.wire ·) (update_self ..)).mp onWire⟩
  · exact .inr ((congrArg (buffer ∈ Link.wire ·) (update_of_ne same ..)).mp onWire)

theorem pending_setLink {command : Command}
    (isPending : command ∈ ((state.setLink conn link).links other).pending) :
    other = conn ∧ command ∈ link.pending ∨ command ∈ (state.links other).pending := by
  by_cases same : other = conn
  · subst same
    exact .inl ⟨rfl, (congrArg (command ∈ Link.pending ·) (update_self ..)).mp isPending⟩
  · exact .inr ((congrArg (command ∈ Link.pending ·) (update_of_ne same ..)).mp isPending)

theorem Owned.fresh_setLink (owned : Owned state) (known : conn < state.dialed) (other : Nat)
    (later : state.dialed ≤ other) : (state.setLink conn link).links other = ⟨[], []⟩ := by
  have different : other ≠ conn := by omega
  exact (update_of_ne different ..).trans (owned.fresh other later)

theorem Owned.known (owned : Owned state) (busy : state.links conn ≠ ⟨[], []⟩) :
    conn < state.dialed := by
  by_contra unknown
  exact busy (owned.fresh conn (Nat.not_lt.mp unknown))

theorem write_owned {continues : Bool} {outcome : Outcome} (owned : Owned state)
    (stepped : state.write request continues outcome = some next) : Owned next := by
  revert stepped
  fun_cases State.write state request continues outcome <;> rintro ⟨⟩
  · exact owned
  · rename_i mark holding conn connected link pending
    have known := owned.dialed conn connected
    refine owned.carry rfl rfl ?_ ?_ (owned.fresh_setLink known) owned.own
    · intro other owner arrives
      cases arrives with
      | queued _ buffer queued => exact .inl (.queued other buffer queued)
      | inHand _ buffer inHand => exact .inl (.inHand other buffer inHand)
      | onWire reads buffer isRead onWire =>
        refine .inl (.onWire reads buffer isRead ?_)
        rcases wire_setLink onWire with ⟨rfl, before⟩ | before <;> exact before
      | pending reads command isRead isPending =>
        rcases pending_setLink isPending with ⟨rfl, inside⟩ | before
        · simp only [pending] at inside
          split at inside
          · rcases List.mem_append.mp inside with before | isNew
            · exact .inl (.pending reads command isRead before)
            · cases List.mem_singleton.mp isNew
              exact .inr (owned.held request mark holding)
          · exact .inl (.pending reads command isRead inside)
        · exact .inl (.pending reads command isRead before)
    · intro other connected'
      dsimp only at connected'
      split at connected'
      · cases connected'
        exact known
      · cases connected'

theorem take_owned (owned : Owned state) (stepped : state.take request = some next) :
    Owned next := by
  simp only [State.take] at stepped
  split at stepped
  · rename_i mark holding
    obtain ⟨buffer, queued, rfl⟩ := Option.map_eq_some_iff.mp stepped
    refine owned.carry rfl rfl ?_ owned.dialed owned.fresh ?_
    · intro other owner arrives
      cases arrives with
      | queued _ found isQueued =>
        rcases update_eq_some isQueued with ⟨⟨⟩, _⟩ | ⟨before, _⟩
        exact .inl (.queued other found before)
      | inHand _ found inHand => exact .inl (.inHand other found inHand)
      | onWire conn found reads onWire => exact .inl (.onWire conn found reads onWire)
      | pending conn command reads isPending => exact .inl (.pending conn command reads isPending)
    · refine List.forall_mem_cons.mpr ⟨?_, owned.own⟩
      have both := (owned.underway mark _ (.queued mark buffer queued)).symm.trans
        (owned.held request mark holding)
      exact Option.some.inj both
  · cases stepped

/-! ### The server and the reader -/

theorem answer_owned {index : Nat} {code : UInt8} {payload : Bytes} {terminal : Bool}
    (owned : Owned state) (stepped : state.answer conn index code payload terminal = some next) :
    Owned next := by
  obtain ⟨command, found, rfl⟩ := Option.map_eq_some_iff.mp stepped
  have wasPending : command ∈ (state.links conn).pending := List.mem_of_getElem? found
  have known : conn < state.dialed := by
    apply owned.known
    intro empty
    rw [empty] at wasPending
    cases wasPending
  refine owned.carry rfl rfl ?_ owned.dialed (owned.fresh_setLink known) owned.own
  intro mark owner arrives
  cases arrives with
  | queued _ buffer queued => exact .inl (.queued mark buffer queued)
  | inHand _ buffer inHand => exact .inl (.inHand mark buffer inHand)
  | onWire reads buffer isRead onWire =>
    rcases wire_setLink onWire with ⟨rfl, inside⟩ | before
    · rcases List.mem_append.mp inside with before | isNew
      · exact .inl (.onWire reads buffer isRead before)
      · cases List.mem_singleton.mp isNew
        exact .inl (.pending reads command isRead wasPending)
    · exact .inl (.onWire reads buffer isRead before)
  | pending reads other isRead isPending =>
    refine .inl (.pending reads other isRead ?_)
    rcases pending_setLink isPending with ⟨rfl, inside⟩ | before
    · dsimp only at inside
      split at inside
      · exact List.mem_of_mem_eraseIdx inside
      · exact inside
    · exact before

theorem read_owned (owned : Owned state) (stepped : state.read = some next) : Owned next := by
  revert stepped
  fun_cases State.read state <;> rintro ⟨⟩
  rename_i conn reading buffer rest wire
  have reads : state.reader.conn = some conn := by rw [reading]; rfl
  have known : conn < state.dialed := by
    apply owned.known
    intro empty
    rw [empty] at wire
    cases wire
  refine owned.carry rfl rfl ?_ owned.dialed (owned.fresh_setLink known) owned.own
  intro mark owner arrives
  cases arrives with
  | queued _ other queued => exact .inl (.queued mark other queued)
  | inHand _ other inHand =>
    cases inHand
    exact .inl (.onWire conn buffer reads (by rw [wire]; exact List.mem_cons_self))
  | onWire other later isRead onWire =>
    cases isRead
    simp only [State.setLink, update_self] at onWire
    exact .inl (.onWire conn later reads (by rw [wire]; exact List.mem_cons_of_mem _ onWire))
  | pending other command isRead isPending =>
    cases isRead
    simp only [State.setLink, update_self] at isPending
    exact .inl (.pending conn command reads isPending)

/-- What the reader has in hand goes into the channel, and it turns to other work. -/
theorem Owned.queue {reader : Reader} (owned : Owned state)
    (inHand : state.reader.hand = some (mark, buffer)) (empty : reader.hand = none)
    (reads : ∀ conn, reader.conn = some conn → state.reader.conn = some conn) :
    Owned { state.setResponse mark (some buffer) with reader := reader } := by
  refine owned.carry rfl rfl ?_ owned.dialed owned.fresh owned.own
  intro other owner arrives
  cases arrives with
  | queued _ found isQueued =>
    rcases update_eq_some isQueued with ⟨⟨⟩, rfl⟩ | ⟨before, _⟩
    · exact .inl (.inHand other buffer inHand)
    · exact .inl (.queued other found before)
  | inHand _ found stillInHand => cases empty.symm.trans stillInHand
  | onWire conn found isRead onWire => exact .inl (.onWire conn found (reads conn isRead) onWire)
  | pending conn command isRead isPending =>
    exact .inl (.pending conn command (reads conn isRead) isPending)

theorem Owned.unread (owned : Owned state) (marks : next.marks = state.marks)
    (requests : next.requests = state.requests) (responses : next.responses = state.responses)
    (links : next.links = state.links) (dialed : next.dialed = state.dialed)
    (conn : ∀ conn, next.conn = some conn → state.conn = some conn)
    (taken : next.taken = state.taken) (empty : next.reader.hand = none)
    (idle : next.reader.conn = none) : Owned next := by
  refine owned.carry marks requests ?_ ?_ ?_ ?_
  · intro mark owner arrives
    cases arrives with
    | queued _ found queued => exact .inl (.queued mark found (responses ▸ queued))
    | inHand _ _ inHand => cases empty.symm.trans inHand
    | onWire _ _ reads _ => cases idle.symm.trans reads
    | pending _ _ reads _ => cases idle.symm.trans reads
  · intro other connected
    rw [dialed]
    exact owned.dialed other (conn other connected)
  · rw [dialed, links]
    exact owned.fresh
  · rw [OwnBuffers, taken]
    exact owned.own

theorem redial_owned {next : State} (owned : Owned state) (redialed : next = { state with
      conn := some state.dialed
      reader := .reading state.dialed
      dialed := state.dialed + 1
      resuming := state.resuming + 1 }) : Owned next := by
  have nothing := owned.fresh state.dialed (Nat.le_refl _)
  subst redialed
  refine owned.carry rfl rfl ?_ ?_ ?_ owned.own
  · intro mark owner arrives
    cases arrives with
    | queued _ found queued => exact .inl (.queued mark found queued)
    | inHand _ _ inHand => cases inHand
    | onWire _ _ reads onWire =>
      cases reads
      rw [nothing] at onWire
      cases onWire
    | pending _ _ reads isPending =>
      cases reads
      rw [nothing] at isPending
      cases isPending
  · rintro _ ⟨⟩
    exact Nat.lt_succ_self _
  · intro other later
    exact owned.fresh other (Nat.le_of_succ_le later)

theorem step_owned (state : State) (action : Action) (next : State) (owned : Owned state)
    (drained : ReleasesDrained state action) (stepped : step state action = some next) :
    Owned next := by
  cases action <;> dsimp only [step] at stepped <;> try revert stepped
  case write request continues outcome => exact write_owned owned
  case take request => exact take_owned owned
  case answer conn index code payload terminal => exact answer_owned owned
  case read => exact read_owned owned
  case enter request =>
    fun_cases State.enter state request <;> rintro ⟨⟩
    have entered : Owned (state.setRequest request (.entering none)) := owned.setRequest nofun
    exact entered.congr rfl rfl rfl rfl rfl rfl rfl rfl
  case next request =>
    fun_cases State.next state request <;> rintro ⟨⟩
    have tried : Owned (state.setRequest request
        (.entering (some (state.lastMark + 1).toUInt8))) := owned.setRequest nofun
    exact tried.congr rfl rfl rfl rfl rfl rfl rfl rfl
  case tryLock request =>
    fun_cases State.tryLock state request <;> rintro ⟨⟩
    · exact owned.setRequest nofun
    · exact owned.lock ‹_›
  case release request =>
    fun_cases State.release state request <;> rintro ⟨⟩
    exact owned.release drained ‹_›
  case leave request =>
    fun_cases State.leave state request <;> rintro ⟨⟩
    have left : Owned (state.setRequest request .done) := owned.setRequest nofun
    exact left.congr rfl rfl rfl rfl rfl rfl rfl rfl
  case deliver =>
    fun_cases State.deliver state <;> rintro ⟨⟩
    rename_i delivering _
    refine owned.queue (by rw [delivering]; rfl) rfl ?_
    intro other reads
    rw [delivering]
    exact reads
  case notify =>
    fun_cases State.notify state <;> rintro ⟨⟩
    rename_i notifying _
    exact owned.queue (by rw [notifying]; rfl) rfl nofun
  case sweep =>
    fun_cases State.sweep state <;> rintro ⟨⟩
    · exact owned.unread rfl rfl rfl rfl rfl (fun _ => id) rfl rfl rfl
    · rename_i held
      refine owned.carry rfl rfl ?_ owned.dialed owned.fresh owned.own
      intro mark owner arrives
      cases arrives with
      | queued _ found queued => exact .inl (.queued mark found queued)
      | inHand _ _ inHand =>
        cases inHand
        exact .inr held
      | onWire _ _ reads _ => cases reads
      | pending _ _ reads _ => cases reads
    · exact owned.unread rfl rfl rfl rfl rfl (fun _ => id) rfl rfl rfl
    · exact owned.unread rfl rfl rfl rfl rfl (fun _ => id) rfl rfl rfl
  case redial success =>
    fun_cases State.redial state success <;> rintro ⟨⟩
    · exact redial_owned owned rfl
    · exact owned.unread rfl rfl rfl rfl rfl (fun _ => id) rfl rfl rfl
  case lose =>
    fun_cases State.lose state <;> rintro ⟨⟩
    exact owned.unread rfl rfl rfl rfl rfl (fun _ => id) rfl rfl rfl
  case stop =>
    fun_cases State.stop state <;> rintro ⟨⟩
    exact owned.unread rfl rfl rfl rfl rfl (fun _ => id) rfl rfl rfl
  case drop =>
    fun_cases State.drop state <;> rintro ⟨⟩
    exact owned.unread rfl rfl rfl rfl rfl nofun rfl rfl rfl
  case unlock =>
    fun_cases State.unlock state <;> rintro ⟨⟩
    exact owned.unread rfl rfl rfl rfl rfl (fun _ => id) rfl rfl rfl
  case resume =>
    fun_cases State.resume state <;> rintro ⟨⟩
    exact owned.congr rfl rfl rfl rfl rfl rfl rfl rfl
  case close =>
    fun_cases State.close state <;> rintro ⟨⟩
    exact owned.congr rfl rfl rfl rfl rfl rfl rfl rfl

end Steps

/-! ### Whole runs -/

/-- In every run that releases a mark only when nothing is under way to its channel,
every request takes only buffers that were made for it. -/
theorem drained_releases_own (actions : List Action) (last : State)
    (drained : Guarded step ReleasesDrained initial actions)
    (reached : run step initial actions = some last) : OwnBuffers last :=
  (run_invariant step_owned initial_owned drained reached).own

private def answered : List Action :=
  [.enter 0, .next 0, .tryLock 0, .write 0 false .sent, .answer 0 0 errorOK [] true, .read, .deliver,
    .take 0, .release 0]

private theorem answered_drained : Guarded step ReleasesDrained initial answered := by
  iterate 8 refine .cons rfl trivial ?_
  refine ⟨?_, fun _ _ => trivial⟩
  intro mark _ owner arrives
  cases arrives with
  | queued _ buffer queued =>
    have emptied : update (update (fun _ : Mark => none) 1
        (some ⟨1, errorOK, [], .answer 0 true⟩)) 1 none mark = some buffer := queued
    rw [update_idem] at emptied
    by_cases same : mark = 1
    · rw [same, update_self] at emptied
      cases emptied
    · rw [update_of_ne same] at emptied
      cases emptied
  | inHand _ _ inHand => cases inHand
  | onWire _ _ reads onWire =>
    cases reads
    cases onWire
  | pending _ _ reads isPending =>
    cases reads
    cases isPending

theorem drained_releases_own_answered :
    ∃ last, Guarded step ReleasesDrained initial answered ∧
      run step initial answered = some last ∧
      last.taken = [⟨0, ⟨1, errorOK, [], .answer 0 true⟩⟩] ∧ OwnBuffers last := by
  cases reached : run step initial answered with
  | none => cases reached
  | some last =>
    refine ⟨last, answered_drained, rfl, ?_,
      drained_releases_own answered last answered_drained reached⟩
    cases reached
    rfl

/-! ### A notice that is left behind -/

/-- Request 0 has got mark 1; the connection is lost before it writes. The sweep finds
its mark held and queues the synthetic error; the request finds no connection and
gives the mark back without a receive. -/
private def giveUp : List Action :=
  [.enter 0, .next 0, .tryLock 0, .lose, .stop, .drop, .sweep, .unlock, .sweep, .notify,
    .write 0 false .sent, .release 0, .leave 0]

private def refused (request : Nat) : List Action :=
  [.enter request, .next request, .tryLock request, .write request false .sent, .release request,
    .leave request]

private def leftBehind : Buffer := notice 1 "Session error mode" 0

/-- Request 0 and `count` more have given up, and the sweep stands at `index`. -/
private def afterGiveUps (count index : Nat) : State :=
  { initial with
    state := .recovering
    conn := none
    lastMark := UInt32.ofNat (count + 1)
    responses := update (fun _ => none) 1 (some leftBehind)
    requests := fun request => if request ≤ count then some .done else none
    reader := .sweeping false index }

private theorem giveUp_reaches : run step initial giveUp = some (afterGiveUps 0 2) := by
  simp [giveUp, run_cons, step, State.enter, State.next, State.tryLock, State.locked, State.lose,
    State.stop, State.drop, State.sweep, State.unlock, State.notify, State.write, State.release,
    State.leave, State.setRequest, State.setMark, State.setResponse, initial, afterGiveUps]
  refine ⟨rfl, funext fun request => ?_⟩
  rw [update_apply]

private theorem refused_run (count : Nat) :
    run step (afterGiveUps count 2) (refused (count + 1)) = some (afterGiveUps (count + 1) 2) := by
  simp [refused, run_cons, step, State.enter, State.next, State.tryLock, State.locked, State.write,
    State.release, State.leave, State.setRequest, State.setMark, initial, afterGiveUps]
  funext request
  rw [update_apply]
  by_cases last : request = count + 1
  · rw [if_pos last, if_pos (Nat.le_of_eq last)]
  · have same : request ≤ count + 1 ↔ request ≤ count := by omega
    simp only [if_neg last, same]

private theorem refused_reaches (count : Nat) : Reaches step initial (afterGiveUps count 2) := by
  induction count with
  | zero => exact ⟨giveUp, giveUp_reaches⟩
  | succ count ih =>
    obtain ⟨actions, reached⟩ := ih
    refine ⟨actions ++ refused (count + 1), ?_⟩
    rw [run_append, reached, Option.bind_some, refused_run]

/-- 255 more requests come and go, the session reconnects, and the next holder of mark
1 takes the error of request 0 for its own answer. -/
theorem next_holder_takes_notice :
    ∃ last, Reaches step initial last ∧ last.taken = [⟨256, notice 1 "Session error mode" 0⟩] ∧
      ¬OwnBuffers last := by
  obtain ⟨actions, given⟩ := refused_reaches 255
  have free : ∀ mark, (afterGiveUps 255 2).marks mark = none := fun _ => rfl
  have swept : run step (afterGiveUps 255 2) (freeRounds 254) = some (afterGiveUps 255 256) :=
    freeRounds_run free false 254 2 (Nat.le_refl _)
  have reached : run step initial (actions ++ freeRounds 254) = some (afterGiveUps 255 256) := by
    rw [run_append, given, Option.bind_some, swept]
  let ending : List Action := [.sweep, .redial true, .resume, .enter 256, .next 256, .tryLock 256,
    .write 256 false .sent, .take 256]
  cases ended : run step (afterGiveUps 255 256) ending with
  | none => cases ended
  | some last =>
    have taken : last.taken = [⟨256, notice 1 "Session error mode" 0⟩] := by
      cases ended
      rfl
    refine ⟨last, ⟨actions ++ freeRounds 254 ++ ending, ?_⟩, taken, ?_⟩
    · rw [run_append, reached, Option.bind_some, ended]
    · intro own
      have mine := own ⟨256, notice 1 "Session error mode" 0⟩ (by rw [taken]; exact List.mem_cons_self)
      cases mine

end Wsfs.Client
