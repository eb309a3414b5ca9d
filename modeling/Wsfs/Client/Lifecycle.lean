/-
The end of a client session. `exit` is run by the reader goroutine as its last step, and
by a `Close` that finds no connection. The latter need not be the end: a failed write
clears the connection while the reader is still at its read, and a reader that comes to
`stopConn` after `exit` redials.
-/

import Wsfs.Client.Ownership

namespace Wsfs.Client

open Wsfs.Base

/-- `Close` finds a connection. -/
def FindsConn (state : State) : Action → Prop
  | .close => state.conn ≠ none
  | _ => True

/-! ### What a step does to the lifecycle -/

/-- Requests and the server leave it alone. The reader goroutine closes the session only
when it ends. A goroutine that has installed a connection sets the state back, and `Close`
acts on a running session. -/
inductive Moves (state : State) : Action → State → Prop
  | quiet {action : Action} {next : State} (notRedial : ∀ success, action ≠ .redial success)
      (same : next.state = state.state) (reader : next.reader = state.reader) : Moves state action next
  | reader {action : Action} {next : State} (atWork : state.reader ≠ .exited)
      (ends : next.state = .closed → next.reader = .exited ∨ state.state = .closed) :
      Moves state action next
  | resume {next : State} (same : state.state ≠ .recovering → next.state = state.state)
      (open_ : next.state = .closed → state.state = .closed) (reader : next.reader = state.reader) :
      Moves state .resume next
  | close {next : State} (running : state.state = .running)
      (open_ : state.conn ≠ none → next.state ≠ .closed) : Moves state .close next

section Steps

variable {state next : State} {action : Action}

theorem reader_moves (atWork : state.reader ≠ .exited) (same : next.state = state.state) :
    Moves state action next :=
  .reader atWork fun closed => .inr (same.symm.trans closed)

theorem step_moves (stepped : step state action = some next) : Moves state action next := by
  cases action <;> dsimp only [step] at stepped <;> revert stepped
  case enter request => fun_cases State.enter state request <;> rintro ⟨⟩; exact .quiet (by simp) rfl rfl
  case next request => fun_cases State.next state request <;> rintro ⟨⟩; exact .quiet (by simp) rfl rfl
  case tryLock request =>
    fun_cases State.tryLock state request <;> rintro ⟨⟩ <;> exact .quiet (by simp) rfl rfl
  case write request continues outcome =>
    fun_cases State.write state request continues outcome <;> rintro ⟨⟩ <;> exact .quiet (by simp) rfl rfl
  case take request =>
    fun_cases State.take state request <;> intro stepped
    · obtain ⟨buffer, _, rfl⟩ := Option.map_eq_some_iff.mp stepped
      exact .quiet (by simp) rfl rfl
    · cases stepped
  case release request =>
    fun_cases State.release state request <;> rintro ⟨⟩; exact .quiet (by simp) rfl rfl
  case leave request => fun_cases State.leave state request <;> rintro ⟨⟩; exact .quiet (by simp) rfl rfl
  case answer conn index code payload terminal =>
    intro stepped
    obtain ⟨command, _, rfl⟩ := Option.map_eq_some_iff.mp stepped
    exact .quiet (by simp) rfl rfl
  case read =>
    fun_cases State.read state <;> rintro ⟨⟩
    rename_i atReader _ _ _
    exact reader_moves (by rw [atReader]; simp) rfl
  case deliver =>
    fun_cases State.deliver state <;> rintro ⟨⟩
    rename_i atReader _
    exact reader_moves (by rw [atReader]; simp) rfl
  case lose =>
    fun_cases State.lose state <;> rintro ⟨⟩
    rename_i atReader
    exact reader_moves (by rw [atReader]; simp) rfl
  case stop =>
    fun_cases State.stop state <;> rintro ⟨⟩
    rename_i atReader
    refine .reader (by rw [atReader]; simp) fun closed => .inr ?_
    -- The state is kept, or set to recovering.
    dsimp only at closed
    split at closed
    · exact closed
    · cases closed
  case drop =>
    fun_cases State.drop state <;> rintro ⟨⟩
    rename_i atReader
    exact reader_moves (by rw [atReader]; simp) rfl
  case sweep =>
    fun_cases State.sweep state <;> rintro ⟨⟩
    · rename_i atReader _ _
      exact reader_moves (by rw [atReader]; simp) rfl
    · rename_i atReader _ _ _
      exact reader_moves (by rw [atReader]; simp) rfl
    · rename_i atReader
      exact .reader (by rw [atReader]; simp) fun _ => .inl rfl
    · rename_i atReader _ _
      exact reader_moves (by rw [atReader]; simp) rfl
  case unlock =>
    fun_cases State.unlock state <;> rintro ⟨⟩
    rename_i atReader
    exact reader_moves (by rw [atReader]; simp) rfl
  case notify =>
    fun_cases State.notify state <;> rintro ⟨⟩
    rename_i atReader _
    exact reader_moves (by rw [atReader]; simp) rfl
  case redial success =>
    fun_cases State.redial state success <;> rintro ⟨⟩
    · rename_i atReader _
      exact reader_moves (by rw [atReader]; simp) rfl
    · rename_i atReader _
      exact .reader (by rw [atReader]; simp) fun _ => .inl rfl
  case resume =>
    fun_cases State.resume state <;> rintro ⟨⟩
    refine .resume (fun settled => if_neg settled) (fun closed => ?_) rfl
    dsimp only at closed
    split at closed
    · cases closed
    · exact closed
  case close =>
    fun_cases State.close state <;> rintro ⟨⟩
    rename_i idle
    refine .close idle.1 fun found => ?_
    rw [if_neg found]
    simp

end Steps

/-! ### Closed sessions -/

/-- The session is closed and its reader goroutine has ended. -/
structure Ended (state : State) : Prop where
  closed : state.state = .closed
  exited : state.reader = .exited

theorem step_endsClosed (state : State) (action : Action) (next : State)
    (ends : state.state = .closed → state.reader = .exited) (finds : FindsConn state action)
    (stepped : step state action = some next) : next.state = .closed → next.reader = .exited := by
  intro closed
  cases step_moves stepped with
  | quiet notRedial same reader => exact reader.trans (ends (same.symm.trans closed))
  | reader atWork last =>
    rcases last closed with exited | before
    · exact exited
    · exact absurd (ends before) atWork
  | resume same open_ reader => exact reader.trans (ends (open_ closed))
  | close running open_ => exact absurd closed (open_ finds)

variable {state : State}

theorem Ended.after_step {next : State} {action : Action} (ended : Ended state)
    (stepped : step state action = some next) : Ended next ∧ ∀ success, action ≠ .redial success := by
  cases step_moves stepped with
  | quiet notRedial same reader =>
    exact ⟨⟨same.trans ended.closed, reader.trans ended.exited⟩, notRedial⟩
  | reader atWork => exact absurd ended.exited atWork
  | resume same open_ reader =>
    refine ⟨⟨(same ?_).trans ended.closed, reader.trans ended.exited⟩, nofun⟩
    rw [ended.closed]
    simp
  | close running => cases running.symm.trans ended.closed

theorem Ended.after_run {last : State} {actions : List Action} (ended : Ended state)
    (reached : run step state actions = some last) :
    Ended last ∧ ∀ success, .redial success ∉ actions := by
  induction actions generalizing state with
  | nil =>
    cases reached
    exact ⟨ended, fun _ => List.not_mem_nil⟩
  | cons action rest ih =>
    rw [run_cons] at reached
    obtain ⟨middle, stepped, later⟩ := Option.bind_eq_some_iff.mp reached
    obtain ⟨ended', notRedial⟩ := ended.after_step stepped
    obtain ⟨endedLast, noRedial⟩ := ih ended' later
    refine ⟨endedLast, fun success member => ?_⟩
    rcases List.mem_cons.mp member with isFirst | isLater
    · exact notRedial success isFirst.symm
    · exact noRedial success isLater

/-- Where every `Close` finds a connection, a closed session stays closed and is not
connected again. -/
theorem closed_for_good (before after : List Action) (middle last : State)
    (finds : Guarded step FindsConn initial before)
    (closing : run step initial before = some middle) (closed : middle.state = .closed)
    (reached : run step middle after = some last) :
    last.state = .closed ∧ ∀ success, .redial success ∉ after := by
  have initially : initial.state = .closed → initial.reader = .exited := fun closed => by cases closed
  have exited := run_invariant step_endsClosed initially finds closing closed
  obtain ⟨ended, noRedial⟩ := Ended.after_run ⟨closed, exited⟩ reached
  exact ⟨ended.closed, noRedial⟩

/-- `Close` on a connection that works: the server closes it, and the reader ends. -/
private def regularClose : List Action :=
  .close :: ([.lose, .stop, .drop] ++ freeRounds 256 ++ [.sweep])

private theorem regularClose_finds : Guarded step FindsConn initial regularClose := by
  refine .cons rfl nofun (guarded_of_forall ?_ _)
  intro state action member
  rcases List.mem_append.mp member with inBefore | isSweep
  · rcases List.mem_append.mp inBefore with inStop | inRounds
    · have isStop : action = .lose ∨ action = .stop ∨ action = .drop := by simpa using inStop
      rcases isStop with rfl | rfl | rfl <;> trivial
    · rcases mem_freeRounds inRounds with rfl | rfl <;> trivial
  · cases List.mem_singleton.mp isSweep
    trivial

theorem closed_for_good_regular :
    ∃ middle, run step initial regularClose = some middle ∧ middle.state = .closed ∧
      ∀ after last, run step middle after = some last → last.state = .closed := by
  have swept := @freeRounds_run { initial with state := .closing, conn := none } (fun _ => rfl) true
    256 0 (Nat.le_refl _)
  have closing : run step initial regularClose =
      some { initial with state := .closed, conn := none, reader := .exited } := by
    rw [regularClose, List.append_assoc, ← List.singleton_append, ← List.append_assoc, run_append]
    have stopped : run step initial ([.close] ++ [.lose, .stop, .drop]) =
        some { initial with state := .closing, conn := none, reader := .sweeping true 0 } := rfl
    rw [stopped, Option.bind_some, run_append, swept]
    rfl
  refine ⟨_, closing, rfl, fun after last reached => ?_⟩
  exact (closed_for_good _ after _ last regularClose_finds closing rfl reached).1

/-- A write fails and its request gives up; `Close` finds no connection and exits; only then
does the reader notice, and it redials. -/
theorem closed_session_redials :
    ∃ before after middle last, run step initial before = some middle ∧ middle.state = .closed ∧
      run step middle after = some last ∧ .redial true ∈ after ∧ last.conn = some 1 := by
  let before : List Action :=
    [.enter 0, .next 0, .tryLock 0, .write 0 false (.failed false), .release 0, .leave 0, .close]
  cases closing : run step initial before with
  | none => cases closing
  | some middle =>
    have free : ∀ mark, middle.marks mark = none := by
      intro mark
      cases closing
      simp [State.setRequest, State.setMark, initial, State.setLink]
    have stopped : run step middle [.lose, .stop, .drop] =
        some { middle with conn := none, reader := .sweeping false 0 } := by
      cases closing
      rfl
    have swept := @freeRounds_run { middle with conn := none } free false 256 0 (Nat.le_refl _)
    refine ⟨before, [.lose, .stop, .drop] ++ (freeRounds 256 ++ [.sweep, .redial true]), middle,
      { middle with
        conn := some middle.dialed
        reader := .reading middle.dialed
        dialed := middle.dialed + 1
        resuming := middle.resuming + 1 }, closing, ?_, ?_, ?_, ?_⟩
    · cases closing
      rfl
    · rw [run_append, stopped, Option.bind_some, run_append, swept]
      rfl
    · simp
    · cases closing
      rfl

end Wsfs.Client
