/-
`parseReadDirPlus` statement by statement, as far as others can see it: the entries it
appends, the result it sends through `rootCh`, the lists it stores as `Child`, the channels
it closes and the mark it releases. A channel that is closed twice and one that is never
closed show in the order of these operations, which the parser of `ReadDir.Client` leaves
open; the lists that both end with are the same.
-/

import Wsfs.Base.Prog
import Wsfs.ReadDir.Client

namespace Wsfs.ReadDir.Parsing

open Wsfs.Base Wsfs.Protocol Wsfs.Unix
open Wsfs.ReadDir.Client (DirItem Parser Parse)

/-! ### Operations -/

/-- `append` makes the channel `childReady` where `ready` says so. `rootCh` sends the list,
or `nil` and an error. `outOfRange` is an index that the list does not have, which ends the
process. -/
inductive Op
  | receive
  | append (dirent : Dirent) (ready : Bool)
  | rootCh (whole : Bool) (code : UInt8)
  | setChild (idx : Nat) (items : List Dirent)
  | closeReady (idx : Nat)
  | outOfRange (idx : Nat)
  | releaseClientMark
deriving DecidableEq, Repr

@[reducible] def Op.Result : Op → Type
  | .receive => Message
  | _ => Unit

abbrev Routine := Prog Op Op.Result

/-! ### The routine -/

/-- The variables of `parseReadDirPlus`. -/
structure Locals where
  inPrefetch : Bool
  ready : List Bool
  items : List Dirent
  currentPrefetchIdx : Option Nat
  rootSent : Bool
  pendingDirs : List Nat
deriving DecidableEq, Repr

/-- `ready` says which entries of the list have a channel. -/
def closeChildReady (ready : List Bool) (idx : Nat) : Routine Unit :=
  match ready[idx]? with
  | none => Prog.perform (Op.outOfRange idx)
  | some isReady => if isReady then Prog.perform (Op.closeReady idx) else pure ()

def setChild (ready : List Bool) (idx : Nat) (items : List Dirent) : Routine Unit :=
  match ready[idx]? with
  | none => Prog.perform (Op.outOfRange idx)
  | some isReady => do
      Prog.perform (Op.setChild idx items)
      if isReady then Prog.perform (Op.closeReady idx) else pure ()

def closeAllRemainingChildReady (ready : List Bool) : List Nat → Routine Unit
  | [] => return ()
  | idx :: rest => do
      closeChildReady ready idx
      closeAllRemainingChildReady ready rest

/-- `if !rootSent { rootCh <- ... }` -/
def sendRoot (rootSent whole : Bool) (code : UInt8) : Routine Unit :=
  if rootSent then return () else Prog.perform (Op.rootCh whole code)

namespace Locals

def start : Locals := ⟨false, [], [], none, false, []⟩

def flushPrefetch (l : Locals) (commit : Bool) : Routine Locals :=
  match l.inPrefetch, l.currentPrefetchIdx with
  | true, some idx => do
      if commit then setChild l.ready idx l.items else closeChildReady l.ready idx
      return { l with items := [], currentPrefetchIdx := none }
  | _, _ => return l

def fail (l : Locals) (code : UInt8) : Routine Unit := do
  let l ← l.flushPrefetch false
  closeAllRemainingChildReady l.ready l.pendingDirs
  sendRoot l.rootSent false code

/-- The end of `readDirent` for a dirent that cannot be read. -/
def readDirentFailed (l : Locals) : Routine Unit := do
  match l.currentPrefetchIdx with
  | some idx => closeChildReady l.ready idx
  | none => pure ()
  closeAllRemainingChildReady l.ready l.pendingDirs
  sendRoot l.rootSent false errorIo

/-- The cases of the two section indicators. There is no result where the routine
returns. -/
def startSection (l : Locals) (commit : Bool) : Routine (Option Locals) := do
  sendRoot l.rootSent true errorOK
  let l ← { l with rootSent := true }.flushPrefetch commit
  match l.pendingDirs with
  | [] => do
      closeAllRemainingChildReady l.ready l.pendingDirs
      sendRoot l.rootSent false errorIo
      return none
  | idx :: rest =>
      return some { l with inPrefetch := true, currentPrefetchIdx := some idx, pendingDirs := rest }

def addDirent (l : Locals) (d : Dirent) : Routine Locals :=
  if l.inPrefetch then return { l with items := l.items ++ [d] }
  else if d.mode &&& modeDir ≠ 0 then do
    Prog.perform (Op.append d true)
    return { l with ready := l.ready ++ [true], pendingDirs := l.pendingDirs ++ [l.ready.length] }
  else do
    Prog.perform (Op.append d false)
    return { l with ready := l.ready ++ [false] }

/-- The loop over one payload. Every round takes a byte, so the length is fuel
enough. -/
def readPayload : Nat → Locals → Bytes → Routine (Option Locals)
  | _, l, [] => return some l
  | 0, l, _ :: _ => return some l
  | fuel + 1, l, indicator :: rest =>
      if indicator = readdirplusIndicatorContinue then
        match Dirent.codec.read rest with
        | none => do
            l.readDirentFailed
            return none
        | some (d, rest) => do readPayload fuel (← l.addDirent d) rest
      else if indicator = readdirplusIndicatorPrefetch then do
        match ← l.startSection true with
        | none => return none
        | some l => readPayload fuel l rest
      else if indicator = readdirplusIndicatorPrefetchSkip then do
        match ← l.startSection false with
        | none => return none
        | some l => readPayload fuel l rest
      else do
        l.fail errorIo
        return none

def round (l : Locals) : Routine (Locals ⊕ Unit) := do
  let rsp ← Prog.perform Op.receive
  if rsp.code ≠ errorOK ∧ rsp.code ≠ errorPartialResponse then
    l.fail rsp.code
    return .inr ()
  else
    match ← readPayload rsp.payload.length l rsp.payload with
    | none => return .inr ()
    | some l =>
        if rsp.code = errorOK then
          let l ← l.flushPrefetch true
          closeAllRemainingChildReady l.ready l.pendingDirs
          sendRoot l.rootSent true errorOK
          return .inr ()
        else return .inl l

end Locals

def parseReadDirPlus : Routine Unit := do
  Prog.loop Locals.round Locals.start
  Prog.perform Op.releaseClientMark

/-! ### What the operations leave behind -/

def Op.appended : Op → Option Bool
  | .append _ ready => some ready
  | _ => none

/-- For every entry of the list, whether it was given a channel. -/
def appends (ops : List Op) : List Bool := ops.filterMap Op.appended

def Op.isRoot : Op → Bool
  | .rootCh _ _ => true
  | _ => false

def rootsSent (ops : List Op) : Nat := ops.countP Op.isRoot

/-- The list in memory, which the receiver of `rootCh` shares. -/
def Op.apply (list : List DirItem) : Op → List DirItem
  | .append dirent ready => list ++ [⟨dirent, none, if ready then some false else none⟩]
  | .setChild idx items => list.modify idx fun item => { item with child := some items }
  | .closeReady idx => list.modify idx DirItem.close
  | _ => list

def memory (ops : List Op) : List DirItem := ops.foldl Op.apply []

def rootCode (ops : List Op) : Option UInt8 :=
  ops.findSome? fun
    | .rootCh _ code => some code
    | _ => none

def Op.closed : Op → Option Nat
  | .closeReady idx => some idx
  | _ => none

def closes (ops : List Op) : List Nat := ops.filterMap Op.closed

/-- The entries that were given a channel. -/
def readyIndices (ready : List Bool) : List Nat :=
  (List.range ready.length).filter fun idx => ready[idx]? = some true

/-- What has to hold of the operations at any time. `waiting` are the entries whose
channel is open. -/
structure Sound (ready : List Bool) (waiting : List Nat) (rootSent : Bool) (ops : List Op) : Prop where
  appended : appends ops = ready
  closed : (closes ops ++ waiting).Perm (readyIndices ready)
  roots : rootsSent ops = if rootSent then 1 else 0
  append_early : ∀ before after dirent ready, ops = before ++ .append dirent ready :: after →
    rootsSent before = 0
  child_early : ∀ before after idx items, ops = before ++ .setChild idx items :: after →
    .closeReady idx ∉ before
  in_range : ∀ idx, .outOfRange idx ∉ ops
  unreleased : .releaseClientMark ∉ ops

section Sound

variable {ready : List Bool} {waiting : List Nat} {rootSent : Bool} {ops : List Op} {op : Op} {idx : Nat}

theorem mem_readyIndices : idx ∈ readyIndices ready ↔ ready[idx]? = some true := by
  rw [readyIndices, List.mem_filter, List.mem_range, decide_eq_true_iff, and_iff_right_iff_imp]
  exact fun atIdx => (List.getElem?_eq_some_iff.mp atIdx).1

theorem readyIndices_append (ready : List Bool) (isReady : Bool) :
    readyIndices (ready ++ [isReady]) = readyIndices ready ++ if isReady then [ready.length] else [] := by
  have kept : ∀ idx ∈ List.range ready.length, (ready ++ [isReady])[idx]? = ready[idx]? :=
    fun idx small => List.getElem?_append_left (List.mem_range.mp small)
  rw [readyIndices, List.length_append, List.length_singleton, List.range_succ, List.filter_append,
    List.filter_congr fun idx small => by rw [kept idx small], List.filter_singleton,
    List.getElem?_concat_length]
  cases isReady <;> rfl

theorem readyIndices_nodup (ready : List Bool) : (readyIndices ready).Nodup := List.nodup_range.filter _

theorem Sound.nodup (sound : Sound ready waiting rootSent ops) : (closes ops ++ waiting).Nodup :=
  sound.closed.nodup_iff.mpr (readyIndices_nodup ready)

theorem Sound.open_ready (sound : Sound ready waiting rootSent ops) (isOpen : idx ∈ waiting) :
    ready[idx]? = some true :=
  mem_readyIndices.mp (sound.closed.mem_iff.mp (List.mem_append_right _ isOpen))

theorem Sound.not_closed (sound : Sound ready waiting rootSent ops) (isOpen : idx ∈ waiting) :
    .closeReady idx ∉ ops := by
  intro member
  have isClosed : idx ∈ closes ops := List.mem_filterMap.mpr ⟨_, member, rfl⟩
  exact (List.nodup_append.mp sound.nodup).2.2 idx isClosed idx isOpen rfl

theorem split_last {before after : List Op} {last : Op} (split : ops ++ [last] = before ++ op :: after) :
    (before = ops ∧ op = last ∧ after = []) ∨ ∃ rest, after = rest ++ [last] ∧
      ops = before ++ op :: rest := by
  rcases List.eq_nil_or_concat after with rfl | ⟨rest, final, rfl⟩
  · obtain ⟨same, sameLast⟩ := List.append_inj' split rfl
    cases sameLast
    exact .inl ⟨same.symm, rfl, rfl⟩
  · rw [List.concat_eq_append, ← List.cons_append, ← List.append_assoc] at split
    obtain ⟨same, sameLast⟩ := List.append_inj' split rfl
    cases sameLast
    exact .inr ⟨rest, List.concat_eq_append, same⟩

theorem Sound.snoc {ready' : List Bool} {waiting' : List Nat} {rootSent' : Bool}
    (sound : Sound ready waiting rootSent ops) (appended : ready' = ready ++ op.appended.toList)
    (closed : (closes ops ++ (op.closed.toList ++ waiting')).Perm (readyIndices ready'))
    (roots : rootsSent ops + rootsSent [op] = if rootSent' then 1 else 0)
    (append_early : ∀ dirent ready, op = .append dirent ready → rootSent = false)
    (child_early : ∀ idx items, op = .setChild idx items → idx ∈ waiting)
    (in_range : ∀ idx, op ≠ .outOfRange idx) (unreleased : op ≠ .releaseClientMark) :
    Sound ready' waiting' rootSent' (ops ++ [op]) where
  appended := by
    rw [appends, List.filterMap_append, show ops.filterMap Op.appended = ready from sound.appended,
      appended]
    cases op <;> rfl
  closed := by
    rw [closes, List.filterMap_append, List.append_assoc]
    cases op <;> exact closed
  roots := by rw [rootsSent, List.countP_append]; exact roots
  append_early before after dirent ready split := by
    rcases split_last split with ⟨rfl, same, _⟩ | ⟨rest, _, earlier⟩
    · rw [sound.roots, append_early dirent ready same.symm]
      rfl
    · exact sound.append_early before rest dirent ready earlier
  child_early before after idx items split := by
    rcases split_last split with ⟨rfl, same, _⟩ | ⟨rest, _, earlier⟩
    · exact sound.not_closed (child_early idx items same.symm)
    · exact sound.child_early before rest idx items earlier
  in_range idx member := by
    rcases List.mem_append.mp member with earlier | last
    · exact sound.in_range idx earlier
    · exact in_range idx (List.mem_singleton.mp last).symm
  unreleased member := by
    rcases List.mem_append.mp member with earlier | last
    · exact sound.unreleased earlier
    · exact unreleased (List.mem_singleton.mp last).symm

theorem Sound.receive (sound : Sound ready waiting rootSent ops) :
    Sound ready waiting rootSent (ops ++ [.receive]) :=
  sound.snoc (List.append_nil _).symm sound.closed sound.roots nofun nofun nofun nofun

theorem Sound.root (sound : Sound ready waiting false ops) (whole : Bool) (code : UInt8) :
    Sound ready waiting true (ops ++ [.rootCh whole code]) :=
  sound.snoc (List.append_nil _).symm sound.closed (by rw [sound.roots]; rfl) nofun nofun nofun nofun

theorem Sound.child (sound : Sound ready waiting rootSent ops) (isOpen : idx ∈ waiting)
    (items : List Dirent) : Sound ready waiting rootSent (ops ++ [.setChild idx items]) :=
  sound.snoc (List.append_nil _).symm sound.closed sound.roots nofun (by rintro _ _ ⟨⟩; exact isOpen)
    nofun nofun

theorem Sound.close (sound : Sound ready (idx :: waiting) rootSent ops) :
    Sound ready waiting rootSent (ops ++ [.closeReady idx]) :=
  sound.snoc (List.append_nil _).symm sound.closed sound.roots nofun nofun nofun nofun

theorem Sound.closeAll (sound : Sound ready waiting rootSent ops) :
    Sound ready [] rootSent (ops ++ waiting.map .closeReady) := by
  induction waiting generalizing ops with
  | nil => rwa [List.map_nil, List.append_nil]
  | cons idx rest ih =>
    rw [List.map_cons, List.append_cons]
    exact ih sound.close

theorem Sound.append (sound : Sound ready waiting false ops) (dirent : Dirent) (isReady : Bool) :
    Sound (ready ++ [isReady]) (waiting ++ if isReady then [ready.length] else []) false
      (ops ++ [.append dirent isReady]) := by
  refine sound.snoc rfl ?_ sound.roots (fun _ _ _ => rfl) nofun nofun nofun
  rw [readyIndices_append]
  change (closes ops ++ (waiting ++ _)).Perm _
  rw [← List.append_assoc]
  exact sound.closed.append_right _

theorem sound_start : Sound [] [] false [] where
  appended := rfl
  closed := .refl _
  roots := rfl
  append_early before after dirent ready split := by simp at split
  child_early before after idx items split := by simp at split
  in_range := nofun
  unreleased := nofun

end Sound

/-! ### The parser behind the routine -/

theorem memory_append (first second : List Op) :
    memory (first ++ second) = second.foldl Op.apply (memory first) :=
  List.foldl_append

theorem rootCode_append (first second : List Op) :
    rootCode (first ++ second) = (rootCode first).or (rootCode second) :=
  List.findSome?_append

theorem length_apply (list : List DirItem) (op : Op) :
    (op.apply list).length = list.length + op.appended.toList.length := by
  cases op <;> simp [Op.apply, Op.appended]

theorem memory_length (ops : List Op) : (memory ops).length = (appends ops).length := by
  have grown : ∀ list : List DirItem, (ops.foldl Op.apply list).length =
      list.length + (appends ops).length := by
    induction ops with
    | nil => exact fun _ => rfl
    | cons op rest ih =>
      intro list
      rw [List.foldl_cons, ih, length_apply, appends, appends, List.filterMap_cons]
      cases op.appended with
      | none => simp
      | some ready => simp only [Option.toList_some, List.length_cons, List.length_nil]; omega
  rw [memory, grown, List.length_nil, Nat.zero_add]

/-- The parser that has come as far as the routine. -/
def parserAt (l : Locals) (ops : List Op) : Parser :=
  ⟨l.inPrefetch, memory ops, l.items, l.currentPrefetchIdx, rootCode ops, l.pendingDirs⟩

def flushOps (l : Locals) (commit : Bool) : List Op :=
  match l.inPrefetch, l.currentPrefetchIdx with
  | true, some idx => if commit then [.setChild idx l.items, .closeReady idx] else [.closeReady idx]
  | _, _ => []

def flushed (l : Locals) : Locals :=
  match l.inPrefetch, l.currentPrefetchIdx with
  | true, some _ => { l with items := [], currentPrefetchIdx := none }
  | _, _ => l

def rootOps (rootSent whole : Bool) (code : UInt8) : List Op :=
  if rootSent then [] else [.rootCh whole code]

/-- The routine is between two statements. -/
structure Steady (l : Locals) (ops : List Op) : Prop where
  sound : Sound l.ready (l.currentPrefetchIdx.toList ++ l.pendingDirs) l.rootSent ops
  sealed : l.inPrefetch = l.rootSent
  inSection : l.currentPrefetchIdx.isSome → l.inPrefetch = true

theorem Steady.current_ready {l : Locals} {ops : List Op} (steady : Steady l ops) (idx : Nat)
    (current : l.currentPrefetchIdx = some idx) : l.ready[idx]? = some true :=
  steady.sound.open_ready (by rw [current]; exact List.mem_cons_self)

/-- The routine is at its end, with every channel closed and the result sent. -/
def Done (ops : List Op) (parser : Parser) : Prop :=
  ∃ l, parser = parserAt l ops ∧ Sound l.ready [] true ops

section Parser

variable {l : Locals} {ops : List Op} {ready : List Bool} {waiting : List Nat} {rootSent : Bool}

theorem parserAt_silent {more : List Op} (silent : rootCode more = none) :
    parserAt l (ops ++ more) = { parserAt l ops with list := more.foldl Op.apply (memory ops) } := by
  rw [parserAt, memory_append, rootCode_append, silent, Option.or_none]
  rfl

theorem parserAt_closeAll (l : Locals) (ops : List Op) :
    parserAt l (ops ++ l.pendingDirs.map .closeReady) = (parserAt l ops).closeAllRemaining := by
  have silent : rootCode (l.pendingDirs.map .closeReady) = none := by
    rw [rootCode, List.findSome?_map, List.findSome?_eq_none_iff]
    exact fun _ _ => rfl
  rw [parserAt_silent silent, List.foldl_map]
  rfl

theorem Sound.rootCode_isSome (sound : Sound ready waiting rootSent ops) :
    (rootCode ops).isSome = rootSent := by
  have found : (rootCode ops).isSome ↔ 0 < rootsSent ops := by
    rw [rootCode, List.findSome?_isSome_iff, rootsSent, List.countP_pos_iff]
    refine exists_congr fun op => and_congr_right fun _ => ?_
    cases op <;> simp [Op.isRoot]
  rw [sound.roots] at found
  cases rootSent with
  | true => exact found.mpr Nat.one_pos
  | false => exact Bool.eq_false_iff.mpr fun isSome => Nat.lt_irrefl 0 (found.mp isSome)

theorem Sound.rootOps (sound : Sound ready waiting rootSent ops) (l : Locals) (whole : Bool) (code : UInt8) :
    Sound ready waiting true (ops ++ rootOps rootSent whole code) ∧
      parserAt l (ops ++ Parsing.rootOps rootSent whole code) = (parserAt l ops).sendRoot code := by
  have sent := sound.rootCode_isSome
  cases rootSent with
  | true =>
    obtain ⟨known, isKnown⟩ := Option.isSome_iff_exists.mp sent
    rw [show Parsing.rootOps true whole code = [] from rfl, List.append_nil]
    refine ⟨sound, ?_⟩
    simp only [parserAt, Parser.sendRoot, isKnown, Option.getD_some]
  | false =>
    have unknown : rootCode ops = none := Option.not_isSome_iff_eq_none.mp (by rw [sent]; decide)
    refine ⟨sound.root whole code, ?_⟩
    rw [parserAt, memory_append, rootCode_append, unknown]
    simp only [parserAt, Parser.sendRoot, unknown]
    rfl

/-- Between the operations of a section and of the end stands a routine without a current
section. -/
theorem Sound.flush (sound : Sound l.ready (l.currentPrefetchIdx.toList ++ l.pendingDirs) rootSent ops)
    (inSection : l.currentPrefetchIdx.isSome → l.inPrefetch = true) (commit : Bool) :
    Sound (flushed l).ready (flushed l).pendingDirs rootSent (ops ++ flushOps l commit) ∧
      parserAt (flushed l) (ops ++ flushOps l commit) = (parserAt l ops).flushPrefetch commit ∧
      (flushed l).currentPrefetchIdx = none ∧ (flushed l).rootSent = l.rootSent := by
  cases current : l.currentPrefetchIdx with
  | none =>
    rw [current] at sound
    have same : flushed l = l := by simp only [flushed, current]; split <;> simp_all
    have nothing : flushOps l commit = [] := by simp only [flushOps, current]; split <;> simp_all
    rw [same, nothing, List.append_nil]
    refine ⟨sound, ?_, current, rfl⟩
    simp only [Parser.flushPrefetch, parserAt, current]
    split <;> simp_all
  | some idx =>
    have inPrefetch := inSection (by rw [current]; rfl)
    rw [current] at sound
    have isFlushed : flushed l = { l with items := [], currentPrefetchIdx := none } := by
      simp only [flushed, current, inPrefetch]
    have isOps : flushOps l commit =
        if commit then [.setChild idx l.items, .closeReady idx] else [.closeReady idx] := by
      simp only [flushOps, current, inPrefetch]
    rw [isFlushed, isOps]
    simp only [Parser.flushPrefetch, parserAt, current, inPrefetch]
    cases commit with
    | true =>
      refine ⟨?_, ?_, trivial, trivial⟩
      · rw [if_pos rfl, List.append_cons]
        exact (sound.child List.mem_cons_self l.items).close
      · simp only [reduceIte, memory_append, rootCode_append, List.foldl_cons, List.foldl_nil, Op.apply,
          List.modify_modify_eq]
        rw [show rootCode [.setChild idx l.items, .closeReady idx] = none from rfl, Option.or_none]
        rfl
    | false =>
      refine ⟨sound.close, ?_, trivial, trivial⟩
      simp only [Bool.false_eq_true, if_false, memory_append, rootCode_append]
      rw [show rootCode [.closeReady idx] = none from rfl, Option.or_none]
      rfl

theorem Sound.finish (sound : Sound l.ready l.pendingDirs rootSent ops) (whole : Bool) (code : UInt8) :
    Done (ops ++ l.pendingDirs.map .closeReady ++ Parsing.rootOps rootSent whole code)
      ((parserAt l ops).closeAllRemaining.sendRoot code) := by
  obtain ⟨ended, same⟩ := sound.closeAll.rootOps l whole code
  refine ⟨l, ?_, ended⟩
  rw [same, parserAt_closeAll]

end Parser

/-! ### What the routine does -/

structure Log where
  ops : List Op
  received : List Message

def Log.watch (log : Log) (event : Event Op Op.Result) : Log :=
  match event with
  | ⟨.receive, message⟩ => ⟨log.ops ++ [.receive], log.received ++ [message]⟩
  | ⟨op, _⟩ => { log with ops := log.ops ++ [op] }

def Log.put (log : Log) (ops : List Op) : Log := { log with ops := log.ops ++ ops }

theorem Log.put_nil (log : Log) : log.put [] = log := by rw [put, List.append_nil]

theorem Log.put_put (log : Log) (first second : List Op) :
    (log.put first).put second = log.put (first ++ second) := by
  rw [put, put, put, List.append_assoc]

section Routine

variable {l : Locals} {log : Log} {parser : Parser} {ready : List Bool} {idx : Nat} {ops : List Op}

theorem closeChildReady_yields (isReady : ready[idx]? = some true) :
    Yields Log.watch log (closeChildReady ready idx) fun after _ => after = log.put [.closeReady idx] := by
  simp only [closeChildReady, isReady, reduceIte]
  exact yields_call fun _ => rfl

theorem setChild_yields (isReady : ready[idx]? = some true) (items : List Dirent) :
    Yields Log.watch log (setChild ready idx items) fun after _ =>
      after = log.put [.setChild idx items, .closeReady idx] := by
  simp only [setChild, isReady, reduceIte]
  exact yields_perform fun _ => yields_call fun _ => log.put_put [_] [_]

theorem closeAllRemainingChildReady_yields {pending : List Nat}
    (allReady : ∀ idx ∈ pending, ready[idx]? = some true) :
    Yields Log.watch log (closeAllRemainingChildReady ready pending) fun after _ =>
      after = log.put (pending.map .closeReady) := by
  induction pending generalizing log with
  | nil => exact yields_pure log.put_nil.symm
  | cons idx rest ih =>
    refine yields_bind ((closeChildReady_yields (allReady idx List.mem_cons_self)).mono ?_)
    rintro _ _ rfl
    refine (ih fun other member => allReady other (List.mem_cons_of_mem _ member)).mono ?_
    rintro _ _ rfl
    exact log.put_put _ _

theorem sendRoot_yields (rootSent whole : Bool) (code : UInt8) :
    Yields Log.watch log (sendRoot rootSent whole code) fun after _ =>
      after = log.put (rootOps rootSent whole code) := by
  refine yields_ite ?_ ?_
  · intro sent
    rw [rootOps, if_pos sent]
    exact yields_pure log.put_nil.symm
  · intro unsent
    rw [rootOps, if_neg unsent]
    exact yields_call fun _ => rfl

theorem flushPrefetch_yields (commit : Bool)
    (ready : ∀ idx, l.currentPrefetchIdx = some idx → l.ready[idx]? = some true) :
    Yields Log.watch log (l.flushPrefetch commit) fun after value =>
      after = log.put (flushOps l commit) ∧ value = flushed l := by
  unfold Locals.flushPrefetch flushOps flushed
  split
  · rename_i idx _ current
    cases commit with
    | true =>
      simp only [reduceIte]
      refine yields_bind ((setChild_yields (ready idx current) l.items).mono ?_)
      rintro _ _ rfl
      exact yields_pure ⟨rfl, rfl⟩
    | false =>
      simp only [Bool.false_eq_true, reduceIte]
      refine yields_bind ((closeChildReady_yields (ready idx current)).mono ?_)
      rintro _ _ rfl
      exact yields_pure ⟨rfl, rfl⟩
  · exact yields_pure ⟨log.put_nil.symm, rfl⟩

def Ended (received : List Message) (log : Log) (parser : Parser) : Prop :=
  log.received = received ∧ Done log.ops parser

theorem closing_yields {rootSent : Bool} (sound : Sound l.ready l.pendingDirs rootSent log.ops) (whole : Bool)
    (code : UInt8) :
    Yields Log.watch log
      (do
        closeAllRemainingChildReady l.ready l.pendingDirs
        sendRoot rootSent whole code)
      fun after _ => Ended log.received after ((parserAt l log.ops).closeAllRemaining.sendRoot code) := by
  refine yields_bind ((closeAllRemainingChildReady_yields fun _ => sound.open_ready).mono ?_)
  rintro _ _ rfl
  refine (sendRoot_yields _ whole code).mono ?_
  rintro _ _ rfl
  exact ⟨rfl, sound.finish whole code⟩

theorem returning_yields (steady : Steady l log.ops) (commit whole : Bool) (code : UInt8) :
    Yields Log.watch log
      (do
        let l ← l.flushPrefetch commit
        closeAllRemainingChildReady l.ready l.pendingDirs
        sendRoot l.rootSent whole code)
      fun after _ => Ended log.received after
        (((parserAt l log.ops).flushPrefetch commit).closeAllRemaining.sendRoot code) := by
  refine yields_bind ((flushPrefetch_yields commit steady.current_ready).mono ?_)
  rintro _ _ ⟨rfl, rfl⟩
  obtain ⟨sound, same, _, sent⟩ := steady.sound.flush steady.inSection commit
  rw [← same, sent]
  exact closing_yields sound whole code

theorem fail_yields (steady : Steady l log.ops) (code : UInt8) :
    Yields Log.watch log (l.fail code) fun after _ => ∃ last,
      (parserAt l log.ops).fail code = .finished last ∧ Ended log.received after last :=
  (returning_yields steady false false code).mono fun _ _ ended => ⟨_, rfl, ended⟩

theorem readDirentFailed_yields (steady : Steady l log.ops) :
    Yields Log.watch log l.readDirentFailed fun after _ => ∃ last,
      (parserAt l log.ops).readDirentFailed = .finished last ∧ Ended log.received after last := by
  have sound := steady.sound
  unfold Locals.readDirentFailed Parser.readDirentFailed
  simp only [parserAt]
  cases current : l.currentPrefetchIdx with
  | none =>
    rw [current] at sound
    refine (closing_yields sound false errorIo).mono ?_
    intro after _ ended
    rw [parserAt, current] at ended
    exact ⟨_, rfl, ended⟩
  | some idx =>
    rw [current] at sound
    refine yields_bind ((closeChildReady_yields (steady.current_ready idx current)).mono ?_)
    rintro _ _ rfl
    refine (@closing_yields l (log.put [.closeReady idx]) _ sound.close false errorIo).mono ?_
    intro after _ ended
    have silent : rootCode [.closeReady idx] = none := rfl
    rw [show (log.put [.closeReady idx]).ops = log.ops ++ [.closeReady idx] from rfl, parserAt_silent silent,
      parserAt, current] at ended
    exact ⟨_, rfl, ended⟩

def Stands (received : List Message) (log : Log) (result : Option Locals) (parse : Parse) : Prop :=
  match result, parse with
  | some l, .running parser => log.received = received ∧ parser = parserAt l log.ops ∧ Steady l log.ops
  | none, .finished parser => Ended received log parser
  | _, _ => False

theorem startSection_yields (steady : Steady l log.ops) (commit : Bool) :
    Yields Log.watch log (l.startSection commit) fun after result =>
      Stands log.received after result ((parserAt l log.ops).startSection commit) := by
  refine yields_bind ((sendRoot_yields _ true errorOK).mono ?_)
  rintro _ _ rfl
  refine yields_bind ((flushPrefetch_yields commit ?_).mono ?_)
  · exact steady.current_ready
  rintro _ _ ⟨rfl, rfl⟩
  obtain ⟨sent, sameRoot⟩ := steady.sound.rootOps { l with rootSent := true } true errorOK
  obtain ⟨sound, same, noSection, isSent⟩ :=
    @Sound.flush { l with rootSent := true } _ _ sent steady.inSection commit
  rw [sameRoot] at same
  unfold Parser.startSection
  rw [show ((parserAt l log.ops).sendRoot errorOK).flushPrefetch commit = _ from same.symm, Log.put_put]
  rw [List.append_assoc] at sound ⊢
  generalize flushed { l with rootSent := true } = plain at sound noSection isSent
  cases pending : plain.pendingDirs with
  | nil =>
    rw [pending] at sound
    simp only [parserAt, pending]
    refine yields_bind (yields_pure ?_)
    refine yields_bind ((sendRoot_yields _ false errorIo).mono ?_)
    rintro _ _ rfl
    rw [isSent, show rootOps true false errorIo = [] from rfl, Log.put_nil]
    exact yields_pure ⟨rfl, ⟨true, plain.ready, plain.items, none, true, []⟩, rfl, sound⟩
  | cons idx rest =>
    rw [pending] at sound
    simp only [parserAt, pending]
    refine yields_pure ⟨rfl, rfl, ?_⟩
    exact ⟨by rw [isSent]; exact sound, isSent.symm, fun _ => rfl⟩

theorem addDirent_yields (steady : Steady l log.ops) (d : Dirent) :
    Yields Log.watch log (l.addDirent d) fun after result => after.received = log.received ∧
      (parserAt l log.ops).addDirent d = parserAt result after.ops ∧ Steady result after.ops := by
  unfold Locals.addDirent Parser.addDirent
  refine yields_ite ?_ ?_
  · intro inPrefetch
    rw [if_pos (show (parserAt l log.ops).inPrefetch = true from inPrefetch)]
    exact yields_pure ⟨rfl, rfl, { steady with }⟩
  · intro inRoot
    rw [if_neg (show ¬(parserAt l log.ops).inPrefetch = true from inRoot)]
    have unsent : l.rootSent = false := steady.sealed.symm.trans (Bool.eq_false_iff.mpr inRoot)
    have sound := steady.sound
    rw [unsent] at sound
    have sameLength : (memory log.ops).length = l.ready.length := by
      rw [memory_length, sound.appended]
    have silent : ∀ ready, rootCode [.append d ready] = none := fun _ => rfl
    refine yields_ite ?_ ?_
    · intro isDir
      rw [if_pos isDir]
      refine yields_perform fun _ => yields_pure ⟨rfl, ?_, ?_, steady.sealed, steady.inSection⟩
      · rw [show (parserAt l log.ops).list.length = l.ready.length from sameLength]
        change _ = parserAt _ (log.ops ++ [_])
        rw [parserAt_silent (silent true)]
        rfl
      · have appended := sound.append d true
        rw [List.append_assoc] at appended
        rw [unsent]
        exact appended
    · intro noDir
      rw [if_neg noDir]
      refine yields_perform fun _ => yields_pure ⟨rfl, ?_, ?_, steady.sealed, steady.inSection⟩
      · exact (parserAt_silent (silent false)).symm
      · have appended := sound.append d false
        rw [if_neg Bool.false_ne_true, List.append_nil] at appended
        rw [unsent]
        exact appended

/-- How the parser goes on after the start of a section. -/
def onward (fuel : Nat) (rest : Bytes) : Parse → Parse
  | .running parser => parser.readPayload fuel rest
  | .finished parser => .finished parser

theorem readPayload_yields (fuel : Nat) (payload : Bytes) (steady : Steady l log.ops) :
    Yields Log.watch log (Locals.readPayload fuel l payload) fun after result =>
      Stands log.received after result ((parserAt l log.ops).readPayload fuel payload) := by
  induction fuel generalizing l log payload with
  | zero => cases payload <;> exact yields_pure ⟨rfl, rfl, steady⟩
  | succ fuel ih =>
    cases payload with
    | nil => exact yields_pure ⟨rfl, rfl, steady⟩
    | cons indicator rest =>
      -- Both indicators of sections leave either the next section or the end.
      have sectionCase : ∀ commit, Yields Log.watch log
          (l.startSection commit >>= fun result =>
            match result with
            | none => pure none
            | some l => Locals.readPayload fuel l rest) fun after result =>
          Stands log.received after result (onward fuel rest ((parserAt l log.ops).startSection commit)) := by
        intro commit
        refine yields_bind ((startSection_yields steady commit).mono ?_)
        intro after result stands
        cases started : (parserAt l log.ops).startSection commit with
        | running parser =>
          rw [started] at stands
          cases result with
          | none => exact stands.elim
          | some l =>
            obtain ⟨received, rfl, steady⟩ := stands
            rw [← received]
            exact ih rest steady
        | finished parser =>
          rw [started] at stands
          cases result with
          | none => exact yields_pure stands
          | some l => exact stands.elim
      unfold Locals.readPayload Parser.readPayload
      refine yields_ite ?_ ?_
      · intro isEntry
        rw [if_pos isEntry]
        cases Dirent.codec.read rest with
        | none =>
          refine yields_bind ((readDirentFailed_yields steady).mono ?_)
          rintro after _ ⟨last, failed, ended⟩
          simp only [failed]
          exact yields_pure ended
        | some found =>
          refine yields_bind ((addDirent_yields steady found.1).mono ?_)
          rintro after result ⟨received, added, steady⟩
          simp only [added, ← received]
          exact ih found.2 steady
      · intro noEntry
        rw [if_neg noEntry]
        refine yields_ite ?_ ?_
        · intro isPrefetch
          rw [if_pos isPrefetch]
          exact sectionCase true
        · intro noPrefetch
          rw [if_neg noPrefetch]
          refine yields_ite ?_ ?_
          · intro isSkip
            rw [if_pos isSkip]
            exact sectionCase false
          · intro unknown
            rw [if_neg unknown]
            refine yields_bind ((fail_yields steady errorIo).mono ?_)
            rintro after _ ⟨last, failed, ended⟩
            rw [failed]
            exact yields_pure ended

/-- One message has gone through the routine and through the parser. -/
def Took (received : List Message) (parser : Parser) (log : Log) (outcome : Locals ⊕ Unit) : Prop :=
  ∃ message, Stands (received ++ [message]) log (outcome.elim some fun _ => none)
    ((Parse.running parser).receive message)

theorem round_yields (steady : Steady l log.ops) :
    Yields Log.watch log l.round (Took log.received (parserAt l log.ops)) := by
  refine yields_perform fun message => ?_
  have same : parserAt l (log.ops ++ [.receive]) = parserAt l log.ops := parserAt_silent rfl
  have taken : Steady l (log.ops ++ [.receive]) := { steady with sound := steady.sound.receive }
  rw [← same]
  generalize isParser : parserAt l (log.ops ++ [.receive]) = parser
  refine yields_ite ?_ ?_
  · intro isError
    have receives : (Parse.running parser).receive message = parser.fail message.code := if_pos isError
    refine yields_bind ((@fail_yields _ ⟨_, log.received ++ [message]⟩ taken message.code).mono ?_)
    rintro after _ ⟨last, failed, ended⟩
    refine yields_pure ⟨message, ?_⟩
    rw [receives, ← isParser, failed]
    exact ended
  · intro noError
    refine yields_bind ((@readPayload_yields _ ⟨_, log.received ++ [message]⟩ message.payload.length
      message.payload taken).mono ?_)
    rw [isParser]
    intro after result stands
    cases parsed : parser.readPayload message.payload.length message.payload with
    | finished last =>
      have receives : (Parse.running parser).receive message = .finished last := by
        simp only [Parse.receive, if_neg noError, parsed]
      rw [parsed] at stands
      cases result with
      | some l => exact stands.elim
      | none =>
        refine yields_pure ⟨message, ?_⟩
        rw [receives]
        exact stands
    | running between =>
      rw [parsed] at stands
      cases result with
      | none => exact stands.elim
      | some l =>
        obtain ⟨received, rfl, steady⟩ := stands
        refine yields_ite ?_ ?_
        · intro isLast
          have receives : (Parse.running parser).receive message = .finished
              (((parserAt l after.ops).flushPrefetch true).closeAllRemaining.sendRoot errorOK) := by
            simp only [Parse.receive, if_neg noError, parsed, if_pos isLast]
          have trailing : Yields Log.watch after
              ((do
                let l ← l.flushPrefetch true
                closeAllRemainingChildReady l.ready l.pendingDirs
                sendRoot l.rootSent true errorOK) >>= fun _ => pure (.inr ()))
              (Took log.received parser) := by
            refine yields_bind ((returning_yields steady true true errorOK).mono ?_)
            intro last _ ended
            refine yields_pure ⟨message, ?_⟩
            rw [receives]
            rw [received] at ended
            exact ended
          simpa only [bind_assoc] using trailing
        · intro more
          have receives : (Parse.running parser).receive message = .running (parserAt l after.ops) := by
            simp only [Parse.receive, if_neg noError, parsed, if_neg more]
          refine yields_pure ⟨message, ?_⟩
          rw [receives]
          exact ⟨received, rfl, steady⟩

end Routine

/-! ### Whole executions -/

def received (trace : List (Event Op Op.Result)) : List Message :=
  (trace.foldl Log.watch ⟨[], []⟩).received

def operations (trace : List (Event Op Op.Result)) : List Op := trace.map Event.op

theorem foldl_watch_ops (trace : List (Event Op Op.Result)) (log : Log) :
    (trace.foldl Log.watch log).ops = log.ops ++ operations trace := by
  induction trace generalizing log with
  | nil => exact (List.append_nil _).symm
  | cons event rest ih =>
    obtain ⟨op, result⟩ := event
    have watched : (log.watch ⟨op, result⟩).ops = log.ops ++ [op] := by cases op <;> rfl
    rw [List.foldl_cons, ih, watched]
    exact (List.append_cons log.ops op (operations rest)).symm

/-- The routine returns where the parser does, with the list and the code of the parser,
and all its operations are in order. -/
theorem parse_yields :
    Yields Log.watch ⟨[], []⟩ (Prog.loop Locals.round .start) fun log _ => ∃ parser,
      Client.parseReadDirPlus log.received = .finished parser ∧ Done log.ops parser := by
  refine yields_loop (fun l log =>
    Client.parseReadDirPlus log.received = .running (parserAt l log.ops) ∧ Steady l log.ops)
    ⟨rfl, sound_start, rfl, nofun⟩ ?_
  rintro l log ⟨parsed, steady⟩
  refine (round_yields steady).mono ?_
  rintro after outcome ⟨message, stands⟩
  have next : Client.parseReadDirPlus (log.received ++ [message]) =
      (Parse.running (parserAt l log.ops)).receive message := by
    rw [Client.parseReadDirPlus, List.foldl_concat, ← parsed]
    rfl
  rw [← next] at stands
  cases went : Client.parseReadDirPlus (log.received ++ [message]) with
  | running last =>
    rw [went] at stands
    cases outcome with
    | inr value => exact stands.elim
    | inl l => exact ⟨by rw [stands.1, went, stands.2.1], stands.2.2⟩
  | finished last =>
    rw [went] at stands
    cases outcome with
    | inl l => exact stands.elim
    | inr value => exact ⟨last, by rw [stands.1, went], stands.2⟩

/-- The operations of a routine that has returned. -/
structure Orderly (ops : List Op) : Prop where
  one_result : rootsSent ops = 1
  no_late_append : ∀ before after dirent ready, ops = before ++ .append dirent ready :: after →
    rootsSent before = 0
  closed_once : ∀ idx, ops.count (.closeReady idx) = if (appends ops)[idx]? = some true then 1 else 0
  child_before_close : ∀ before after idx items, ops = before ++ .setChild idx items :: after →
    .closeReady idx ∉ before
  in_range : ∀ idx, .outOfRange idx ∉ ops
  released_once : ops.count .releaseClientMark = 1

theorem Done.orderly {ops : List Op} {parser : Parser} (done : Done ops parser) :
    Orderly (ops ++ [.releaseClientMark]) := by
  obtain ⟨l, _, sound⟩ := done
  have sameAppends : appends (ops ++ [.releaseClientMark]) = l.ready := by
    rw [appends, List.filterMap_append, show ops.filterMap Op.appended = l.ready from sound.appended]
    exact List.append_nil _
  constructor
  · rw [rootsSent, List.countP_append, show ops.countP Op.isRoot = _ from sound.roots]
    rfl
  · intro before after dirent isReady split
    rcases split_last split with ⟨_, impossible, _⟩ | ⟨rest, _, earlier⟩
    · cases impossible
    · exact sound.append_early before rest dirent isReady earlier
  · intro idx
    have counted : ops.count (.closeReady idx) = (closes ops).count idx := by
      rw [closes, List.count_filterMap, List.count]
      refine List.countP_congr fun op _ => ?_
      cases op <;> simp [Op.closed]
    have closed := sound.closed
    rw [List.append_nil] at closed
    rw [List.count_append, counted, closed.count_eq, (readyIndices_nodup _).count, sameAppends]
    simp only [mem_readyIndices]
    rfl
  · intro before after idx items split
    rcases split_last split with ⟨_, impossible, _⟩ | ⟨rest, _, earlier⟩
    · cases impossible
    · exact sound.child_early before rest idx items earlier
  · intro idx member
    rcases List.mem_append.mp member with earlier | last
    · exact sound.in_range idx earlier
    · cases List.mem_singleton.mp last
  · rw [List.count_append, List.count_eq_zero.mpr sound.unreleased]
    rfl

theorem returned_yields : Yields Log.watch ⟨[], []⟩ parseReadDirPlus fun log _ => Orderly log.ops ∧
    ∃ parser, Client.parseReadDirPlus log.received = .finished parser ∧
      parser.list = memory log.ops ∧ parser.root = rootCode log.ops := by
  refine yields_bind (parse_yields.mono ?_)
  rintro log _ ⟨parser, parsed, done⟩
  refine yields_call fun _ => ⟨done.orderly, parser, parsed, ?_⟩
  obtain ⟨l, rfl, _⟩ := done
  have silent : rootCode [.releaseClientMark] = none := rfl
  have last : parserAt l (log.ops ++ [.releaseClientMark]) = parserAt l log.ops := parserAt_silent silent
  exact ⟨congrArg Parser.list last.symm, congrArg Parser.root last.symm⟩

variable {trace : List (Event Op Op.Result)}

/-- Where the routine returns, the parser is at its end, and the memory is what the parser
says. -/
theorem returned_parsed (returned : parseReadDirPlus.Runs trace ()) :
    ∃ parser, Client.parseReadDirPlus (received trace) = .finished parser ∧
      parser.list = memory (operations trace) ∧ parser.root = rootCode (operations trace) := by
  have yields := (returned_yields trace () returned).2
  rwa [foldl_watch_ops, List.nil_append] at yields

/-- Every execution in which `parseReadDirPlus` returns, whatever messages it received. -/
theorem returned_orderly (trace : List (Event Op Op.Result)) (returned : parseReadDirPlus.Runs trace ()) :
    Orderly (operations trace) := by
  have yields := (returned_yields trace () returned).1
  rwa [foldl_watch_ops, List.nil_append] at yields

private def sampleDir : Dirent := ⟨[0x64], 0, ⟨0, 0⟩, modeDir, 0⟩
private def sampleFile : Dirent := ⟨[0x66], 3, ⟨0, 0⟩, 0, 0⟩

/-- A directory, and the section with its one entry. -/
private def oneSection : List (Event Op Op.Result) :=
  [⟨.receive, partialMessage (Record.bytes (.entry sampleDir))⟩, ⟨.append sampleDir true, ()⟩,
    ⟨.receive, partialMessage (readdirplusIndicatorPrefetch :: Record.bytes (.entry sampleFile))⟩,
    ⟨.rootCh true errorOK, ()⟩, ⟨.receive, ⟨errorOK, []⟩⟩, ⟨.setChild 0 [sampleFile], ()⟩,
    ⟨.closeReady 0, ()⟩, ⟨.releaseClientMark, ()⟩]

private theorem oneSection_runs : parseReadDirPlus.Runs oneSection () := by
  refine ⟨(), oneSection.take 7, oneSection.drop 7, rfl, ?_, (), [], rfl, rfl, rfl⟩
  have first : (Locals.round .start).Runs (oneSection.take 2) (.inl ⟨false, [true], [], none, false, [0]⟩) :=
    ⟨_, _, rfl, (), [], rfl, rfl, rfl⟩
  have second : (Locals.round ⟨false, [true], [], none, false, [0]⟩).Runs ((oneSection.drop 2).take 2)
      (.inl ⟨true, [true], [sampleFile], some 0, true, []⟩) :=
    ⟨_, _, rfl, (), [], rfl, rfl, rfl⟩
  have third : (Locals.round ⟨true, [true], [sampleFile], some 0, true, []⟩).Runs
      ((oneSection.drop 4).take 3) (.inr ()) :=
    ⟨_, _, rfl, (), _, rfl, (), [], rfl, rfl, rfl⟩
  have rounds : Prog.Rounds (fun l => (Locals.round l).Runs) .start (oneSection.take 2 ++
      ((oneSection.drop 2).take 2 ++ (oneSection.drop 4).take 3)) () :=
    .again first (.again second (.last third))
  exact rounds

theorem returned_orderly_one_section :
    parseReadDirPlus.Runs oneSection () ∧ Orderly (operations oneSection) :=
  ⟨oneSection_runs, returned_orderly oneSection oneSection_runs⟩

end Wsfs.ReadDir.Parsing
