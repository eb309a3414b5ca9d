/-
The client's side of directory listings: the loop of `CmdReadDir`, and
`parseReadDirPlus` byte by byte with all its exits. The channel `rootCh` is the code
that was sent through it; the returned list shares its entries with the parser, so what
a caller sees in the end is the list as the parser leaves it.
-/

import Wsfs.ReadDir.Record
import Wsfs.Unix.Mode

namespace Wsfs.ReadDir.Client

open Wsfs.Base Wsfs.Protocol Wsfs.Unix

/-! ### CmdReadDir -/

inductive Listed
  | receiving (list : List Dirent)
  | done (list : List Dirent) (code : UInt8)
deriving DecidableEq, Repr

/-- One round of the loop of `CmdReadDir`. -/
def Listed.receive : Listed → Message → Listed
  | .done list code, _ => .done list code
  | .receiving list, message =>
      if message.code ≠ errorOK ∧ message.code ≠ errorPartialResponse then .done list message.code
      else
        match Dirent.codec.readAll message.payload.length message.payload with
        | none => .done [] errorIo
        | some items =>
            if message.code = errorPartialResponse then .receiving (list ++ items)
            else .done (list ++ items) message.code

def cmdReadDir (messages : List Message) : Listed := messages.foldl Listed.receive (.receiving [])

/-! ### parseReadDirPlus -/

/-- `childReady` is the channel: absent, open or closed. -/
structure DirItem where
  dirent : Dirent
  child : Option (List Dirent)
  childReady : Option Bool
deriving DecidableEq, Repr

structure Parser where
  inPrefetch : Bool
  list : List DirItem
  items : List Dirent
  currentPrefetchIdx : Option Nat
  root : Option UInt8
  pendingDirs : List Nat
deriving DecidableEq, Repr

inductive Parse
  | running (parser : Parser)
  | finished (parser : Parser)
deriving DecidableEq, Repr

def DirItem.close (item : DirItem) : DirItem :=
  { item with childReady := item.childReady.map fun _ => true }

def closeChildReady (list : List DirItem) (idx : Nat) : List DirItem := list.modify idx DirItem.close

def setChild (list : List DirItem) (idx : Nat) (items : List Dirent) : List DirItem :=
  list.modify idx fun item => { item.close with child := some items }

namespace Parser

def start : Parser := ⟨false, [], [], none, none, []⟩

/-- `if !rootSent { rootCh <- ... }` -/
def sendRoot (parser : Parser) (code : UInt8) : Parser :=
  { parser with root := some (parser.root.getD code) }

def closeAllRemaining (parser : Parser) : Parser :=
  { parser with list := parser.pendingDirs.foldl closeChildReady parser.list }

def flushPrefetch (parser : Parser) (commit : Bool) : Parser :=
  match parser.inPrefetch, parser.currentPrefetchIdx with
  | true, some idx =>
      { parser with
        list :=
          if commit then setChild parser.list idx parser.items else closeChildReady parser.list idx
        items := []
        currentPrefetchIdx := none }
  | _, _ => parser

def addDirent (parser : Parser) (dirent : Dirent) : Parser :=
  if parser.inPrefetch then { parser with items := parser.items ++ [dirent] }
  else if dirent.mode &&& modeDir ≠ 0 then
    { parser with
      list := parser.list ++ [⟨dirent, none, some false⟩]
      pendingDirs := parser.pendingDirs ++ [parser.list.length] }
  else { parser with list := parser.list ++ [⟨dirent, none, none⟩] }

/-- Both cases of a section indicator: they differ in what becomes of the section
before. -/
def startSection (parser : Parser) (commit : Bool) : Parse :=
  let flushed := { (parser.sendRoot errorOK).flushPrefetch commit with inPrefetch := true }
  match flushed.pendingDirs with
  | [] => .finished { flushed with currentPrefetchIdx := none }
  | idx :: rest => .running { flushed with currentPrefetchIdx := some idx, pendingDirs := rest }

def fail (parser : Parser) (code : UInt8) : Parse :=
  .finished (((parser.flushPrefetch false).closeAllRemaining).sendRoot code)

/-- `readDirent` closes the channel of the current section itself. -/
def readDirentFailed (parser : Parser) : Parse :=
  let closed :=
    match parser.currentPrefetchIdx with
    | some idx => { parser with list := closeChildReady parser.list idx }
    | none => parser
  .finished (closed.closeAllRemaining.sendRoot errorIo)

/-- The loop over one payload. Every round takes a byte, so the length is fuel
enough. -/
def readPayload : Nat → Parser → Bytes → Parse
  | _, parser, [] => .running parser
  | 0, parser, _ :: _ => .running parser
  | fuel + 1, parser, indicator :: rest =>
      if indicator = readdirplusIndicatorContinue then
        match Dirent.codec.read rest with
        | none => parser.readDirentFailed
        | some (dirent, rest) => readPayload fuel (parser.addDirent dirent) rest
      else if indicator = readdirplusIndicatorPrefetch then
        match parser.startSection true with
        | .running parser => readPayload fuel parser rest
        | .finished parser => .finished parser
      else if indicator = readdirplusIndicatorPrefetchSkip then
        match parser.startSection false with
        | .running parser => readPayload fuel parser rest
        | .finished parser => .finished parser
      else parser.fail errorIo

end Parser

namespace Parse

def receive : Parse → Message → Parse
  | .finished parser, _ => .finished parser
  | .running parser, message =>
      if message.code ≠ errorOK ∧ message.code ≠ errorPartialResponse then parser.fail message.code
      else
        match parser.readPayload message.payload.length message.payload with
        | .finished parser => .finished parser
        | .running parser =>
            if message.code = errorOK then
              .finished (((parser.flushPrefetch true).closeAllRemaining).sendRoot errorOK)
            else .running parser

def parser : Parse → Parser
  | .running parser => parser
  | .finished parser => parser

/-- What a caller of `CmdReadDirPlus` has in the end. -/
def returned (parse : Parse) : List DirItem :=
  if parse.parser.root = some errorOK then parse.parser.list else []

def record : Parse → Record → Parse
  | .finished parser, _ => .finished parser
  | .running parser, .entry dirent => .running (parser.addDirent dirent)
  | .running parser, .prefetch => parser.startSection true
  | .running parser, .skip => parser.startSection false

end Parse

def parseReadDirPlus (messages : List Message) : Parse :=
  messages.foldl Parse.receive (.running .start)

/-! ### Records -/

theorem foldl_record_finished (parser : Parser) (records : List Record) :
    records.foldl Parse.record (.finished parser) = .finished parser := by
  induction records with
  | nil => rfl
  | cons record rest ih => exact ih

theorem readPayload_records (records : List Record) (writable : ∀ record ∈ records, record.Writable)
    (parser : Parser) (fuel : Nat) (enough : (records.flatMap Record.bytes).length ≤ fuel) :
    parser.readPayload fuel (records.flatMap Record.bytes) =
      records.foldl Parse.record (.running parser) := by
  induction records generalizing parser fuel with
  | nil => cases fuel <;> rfl
  | cons record rest ih =>
    have later := ih fun other member => writable other (List.mem_cons_of_mem _ member)
    have step : ∀ (parse : Parse) (fuel : Nat), (rest.flatMap Record.bytes).length ≤ fuel →
        (match parse with
          | .running parser => parser.readPayload fuel (rest.flatMap Record.bytes)
          | .finished parser => .finished parser) = rest.foldl Parse.record parse := by
      intro parse fuel enough
      cases parse with
      | running parser => exact later parser fuel enough
      | finished parser => exact (foldl_record_finished parser rest).symm
    rw [List.flatMap_cons, List.length_append] at enough
    rw [List.flatMap_cons, List.foldl_cons]
    cases fuel with
    | zero =>
      exfalso
      cases record <;> simp [Record.bytes] at enough
    | succ fuel =>
      cases record with
      | entry dirent =>
        have written := direntBytes_written (writable (.entry dirent) List.mem_cons_self)
        have readBack := Dirent.codec.read_write dirent _ (rest.flatMap Record.bytes) written
        have enough' : (rest.flatMap Record.bytes).length ≤ fuel := by
          simp only [Record.bytes, List.length_cons] at enough
          omega
        simp only [Record.bytes, List.cons_append, Parser.readPayload, if_true, readBack]
        exact later _ fuel enough'
      | prefetch =>
        have enough' : (rest.flatMap Record.bytes).length ≤ fuel := by
          simp only [Record.bytes, List.length_singleton] at enough
          omega
        exact step (parser.startSection true) fuel enough'
      | skip =>
        have enough' : (rest.flatMap Record.bytes).length ≤ fuel := by
          simp only [Record.bytes, List.length_singleton] at enough
          omega
        exact step (parser.startSection false) fuel enough'

variable {payloads : List Bytes}

/-- Over partial messages that carry whole records the parser is a fold over the
records. -/
theorem foldl_receive_framed {records : List Record} (framed : Framed Record.bytes payloads records)
    (writable : ∀ record ∈ records, record.Writable) (parse : Parse) :
    (payloads.map partialMessage).foldl Parse.receive parse = records.foldl Parse.record parse := by
  rw [List.foldl_map]
  refine framed.foldl_eq writable _ _ ?_ parse
  intro parse chunk inChunk
  cases parse with
  | finished parser => exact (foldl_record_finished parser chunk).symm
  | running parser =>
    have parsed := readPayload_records chunk inChunk parser _ (Nat.le_refl _)
    simp only [Parse.receive, partialMessage, ne_eq, not_true_eq_false, and_false, if_false,
      parsed, show errorPartialResponse ≠ errorOK by decide]
    cases chunk.foldl Parse.record (.running parser) <;> rfl

/-- Entries that arrive in `CmdReadDir`. -/
def Listed.add : Listed → List Dirent → Listed
  | .receiving list, items => .receiving (list ++ items)
  | .done list code, _ => .done list code

theorem foldl_add (dirents : List Dirent) (listed : Listed) :
    dirents.foldl (fun listed dirent => listed.add [dirent]) listed = listed.add dirents := by
  induction dirents generalizing listed with
  | nil =>
    cases listed with
    | receiving list => rw [List.foldl_nil, Listed.add, List.append_nil]
    | done list code => rfl
  | cons dirent rest ih =>
    rw [List.foldl_cons, ih]
    cases listed with
    | receiving list => rw [Listed.add, Listed.add, Listed.add, List.append_assoc, List.singleton_append]
    | done list code => rfl

theorem readAll_direntBytes (dirents : List Dirent) (writable : ∀ dirent ∈ dirents, Writable dirent) :
    Dirent.codec.readAll (dirents.flatMap direntBytes).length (dirents.flatMap direntBytes) =
      some dirents :=
  Dirent.codec.readAll_flatMap dirents
    (fun dirent member => direntBytes_written (writable dirent member))
    (fun dirent member => direntBytes_ne_nil (writable dirent member)) _ (Nat.le_refl _)

theorem foldl_listed_framed {dirents : List Dirent} (framed : Framed direntBytes payloads dirents)
    (writable : ∀ dirent ∈ dirents, Writable dirent) (listed : Listed) :
    (payloads.map partialMessage).foldl Listed.receive listed = listed.add dirents := by
  rw [List.foldl_map, ← foldl_add]
  refine framed.foldl_eq writable _ _ ?_ listed
  intro listed chunk inChunk
  rw [foldl_add]
  cases listed with
  | done list code => rfl
  | receiving list =>
    simp only [Listed.receive, partialMessage, ne_eq, not_true_eq_false, and_false, if_false,
      readAll_direntBytes chunk inChunk, if_true, Listed.add]

end Wsfs.ReadDir.Client
