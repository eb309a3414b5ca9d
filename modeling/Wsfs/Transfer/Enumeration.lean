/-
The file system under a listing. Attributes do not change while a directory is listed,
but how the system cuts the directory into batches is left open, and so is everything
about other directories. Next to it the rules for the calls and the buffers of the two
listing commands.
-/

import Wsfs.Transfer.ReadAt

namespace Wsfs.Transfer

open Wsfs.Base Wsfs.Protocol Wsfs.Unix Wsfs.Util Wsfs.Server.Commands
open Wsfs.Server hiding Message
open Wsfs.ReadDir (Message Record partialMessage direntBytes getDirentRequiredSize)
open Wsfs.ReadDir.Server (Files Batch Stat Link DirEntry ReadError Reads Named NamedIn Faulty)

/-! ### The file system -/

/-- Attributes stay the same, and the names of a directory are not too long. -/
def Answers (files : Files) : ServerEvent → Prop
  | ⟨.stat path followSymlink, result⟩ => result = files.stat path followSymlink
  | ⟨.readlink path, result⟩ => result = files.readlink path
  | ⟨.readDir _ _, (batch, _)⟩ => ∀ entry ∈ batch, Named entry
  | _ => True

/-! ### What is read, and what is sent -/

/-- The first directory that is opened, and what was read from it before another one is
opened. -/
structure Root where
  first : Option (Bytes × Nat)
  others : Bool
  entries : List DirEntry
  ended : Bool
deriving DecidableEq, Repr

/-- A batch that comes with `io.EOF`, or an empty one. -/
def atEnd (batch : List DirEntry) (err : Option ReadError) : Bool :=
  decide (err = some .eof ∨ err = none ∧ batch = [])

namespace Root

def opened (root : Root) (path : Bytes) (dir : Nat) : Root :=
  match root.first with
  | none => { root with first := some (path, dir) }
  | some _ => { root with others := true }

def read (root : Root) (dir : Nat) (batch : List DirEntry) (err : Option ReadError) : Root :=
  if root.first.map Prod.snd = some dir ∧ root.others = false then
    { root with entries := root.entries ++ batch, ended := atEnd batch err }
  else root

def watch (root : Root) : ServerEvent → Root
  | ⟨.openDir path, .ok dir⟩ => root.opened path dir
  | ⟨.readDir dir _, (batch, err)⟩ => root.read dir batch err
  | _ => root

end Root

def rootRead (history : List ServerEvent) : Root := history.foldl Root.watch ⟨none, false, [], false⟩

def failedListing : ServerEvent → Bool
  | ⟨.openDir _, .error _⟩ => true
  | ⟨.readDir _ _, (_, some (.os _))⟩ => true
  | _ => false

/-- How often a directory was read in a row and went on. -/
structure Streak where
  dir : Nat
  count : Nat
deriving DecidableEq, Repr

def Streak.read (streak : Streak) (dir : Nat) : Option ReadError → Streak
  | none => ⟨dir, if streak.dir = dir then streak.count + 1 else 1⟩
  | some _ => ⟨dir, 0⟩

theorem Streak.lt_read {streak : Streak} {dir : Nat} (same : streak.dir = dir ∨ streak.count = 0) :
    streak.count < (streak.read dir none).count := by
  change _ < if streak.dir = dir then streak.count + 1 else 1
  cases same with
  | inl same =>
    rw [if_pos same]
    exact Nat.lt_succ_self _
  | inr fresh =>
    rw [fresh]
    split
    · exact Nat.zero_lt_succ _
    · exact Nat.zero_lt_one

def Streak.watch (streak : Streak) : ServerEvent → Streak
  | ⟨.openDir _, .ok _⟩ => { streak with count := 0 }
  | ⟨.readDir dir _, (_, err)⟩ => streak.read dir err
  | _ => streak

def streakAfter (history : List ServerEvent) : Streak := history.foldl Streak.watch ⟨0, 0⟩

/-- The directories that are opened, with the batches that are read from the last one. -/
def openedAfter (opened : List (Except Errno (List Batch))) : ServerEvent → List (Except Errno (List Batch))
  | ⟨.openDir _, .ok _⟩ => opened ++ [.ok []]
  | ⟨.openDir _, .error err⟩ => opened ++ [.error err]
  | ⟨.readDir _ _, batch⟩ =>
      opened.dropLast ++ (opened.getLast?.map fun answer => answer.map (· ++ [batch])).toList
  | _ => opened

def directories (history : List ServerEvent) : List (Except Errno (List Batch)) :=
  history.foldl openedAfter []

structure Course where
  sent : List Message
  opened : List (Except Errno (List Batch))
  root : Root
  streak : Streak

namespace Course

def start : Course := ⟨[], [], ⟨none, false, [], false⟩, ⟨0, 0⟩⟩

def watch (clientMark : UInt8) (course : Course) (event : ServerEvent) : Course :=
  ⟨course.sent ++ (sentMessage clientMark event).toList, openedAfter course.opened event,
    course.root.watch event, course.streak.watch event⟩

def tells (course : Course) (message : Message) : Course :=
  { course with sent := course.sent ++ [message] }

def reads (course : Course) (dir : Nat) (batch : List DirEntry) (err : Option ReadError) : Course :=
  { course with
    opened := openedAfter course.opened ⟨.readDir dir 0, (batch, err)⟩
    root := course.root.read dir batch err
    streak := course.streak.read dir err }

def fails (course : Course) (err : Errno) : Course :=
  { course with opened := course.opened ++ [.error err] }

def opens (course : Course) (path : Bytes) (dir : Nat) : Course :=
  { course with
    opened := course.opened ++ [.ok []]
    root := course.root.opened path dir
    streak := { course.streak with count := 0 } }

variable (clientMark : UInt8) (course : Course)

theorem watch_send (code : UInt8) (payload : Bytes) (answer : Unit) :
    course.watch clientMark ⟨.send clientMark code payload, answer⟩ = course.tells ⟨code, payload⟩ := by
  simp [watch, tells, sentMessage, openedAfter, Root.watch, Streak.watch]

theorem watch_stat (path : Bytes) (followSymlink : Bool) (answer : Except Errno Stat) :
    course.watch clientMark ⟨.stat path followSymlink, answer⟩ = course := by
  simp [watch, sentMessage, openedAfter, Root.watch, Streak.watch]

theorem watch_readlink (path : Bytes) (answer : Except Errno Link) :
    course.watch clientMark ⟨.readlink path, answer⟩ = course := by
  simp [watch, sentMessage, openedAfter, Root.watch, Streak.watch]

theorem watch_closeDir (dir : Nat) (answer : Except Errno Unit) :
    course.watch clientMark ⟨.closeDir dir, answer⟩ = course := by
  simp [watch, sentMessage, openedAfter, Root.watch, Streak.watch]

theorem watch_openDir_error (path : Bytes) (err : Errno) :
    course.watch clientMark ⟨.openDir path, .error err⟩ = course.fails err := by
  simp [watch, fails, sentMessage, openedAfter, Root.watch, Streak.watch]

theorem watch_openDir_ok (path : Bytes) (dir : Nat) :
    course.watch clientMark ⟨.openDir path, .ok dir⟩ = course.opens path dir := by
  simp [watch, opens, sentMessage, openedAfter, Root.watch, Streak.watch]

theorem watch_readDir (dir n : Nat) (batch : List DirEntry) (err : Option ReadError) :
    course.watch clientMark ⟨.readDir dir n, (batch, err)⟩ = course.reads dir batch err := by
  simp [watch, reads, sentMessage, openedAfter, Root.watch, Streak.watch]

theorem reads_opened {before : List (Except Errno (List Batch))} {batches : List Batch}
    (isOpen : course.opened = before ++ [.ok batches]) (dir : Nat) (batch : List DirEntry)
    (err : Option ReadError) :
    (course.reads dir batch err).opened = before ++ [.ok (batches ++ [(batch, err)])] := by
  simp [reads, openedAfter, isOpen, Except.map]

end Course

def listTerms (files : Files) (clientMark : UInt8) : Terms Effect Effect.Result Course where
  lawful := Answers files
  start := Course.start
  watch := Course.watch clientMark
  spent := fun course => course.streak.count

theorem ghostAt_listTerms (files : Files) (clientMark : UInt8) (history : List ServerEvent) :
    (listTerms files clientMark).ghostAt history =
      ⟨sentOn clientMark history, directories history, rootRead history, streakAfter history⟩ := by
  have folded : ∀ (history : List ServerEvent) (course : Course),
      history.foldl (Course.watch clientMark) course =
        ⟨course.sent ++ sentOn clientMark history, history.foldl openedAfter course.opened,
          history.foldl Root.watch course.root, history.foldl Streak.watch course.streak⟩ := by
    intro history
    induction history with
    | nil => simp [sentOn]
    | cons event history ih =>
      intro course
      rw [List.foldl_cons, ih]
      cases sent : sentMessage clientMark event <;>
        simp [Course.watch, sentOn, sent]
  refine (folded history _).trans ?_
  simp only [listTerms, Course.start, List.nil_append]
  rfl

/-- A world in which the directory at the path has these entries, in this order. A batch
may have any size, but nothing is missing when the directory is at its end; and there is
an end. -/
structure Lists (files : Files) (apath : Bytes) (entries : List DirEntry)
    (world : World Effect Effect.Result) : Prop where
  answers : ∀ history op, Answers files ⟨op, world history op⟩
  whole : ∀ history dir n, Follows world [] history →
    (rootRead history).first = some (apath, dir) → (rootRead history).others = false →
    atEnd (world history (.readDir dir n)).1 (world history (.readDir dir n)).2 = true →
    (rootRead history).entries ++ (world history (.readDir dir n)).1 = entries
  finite : ∃ bound, ∀ history, Follows world [] history → (streakAfter history).count ≤ bound

section Lists

variable {files : Files} {apath : Bytes} {entries : List DirEntry} {world : World Effect Effect.Result}

theorem Lists.admits (lists : Lists files apath entries world) (clientMark : UInt8) :
    (listTerms files clientMark).Admits world := by
  obtain ⟨bound, finite⟩ := lists.finite
  refine ⟨lists.answers, bound, ?_⟩
  intro history follows
  rw [ghostAt_listTerms]
  exact finite history follows

theorem Lists.entries_read (lists : Lists files apath entries world) {history : List ServerEvent}
    (follows : Follows world [] history) {dir : Nat}
    (first : (rootRead history).first = some (apath, dir)) (ended : (rootRead history).ended = true) :
    (rootRead history).entries = entries := by
  -- Before the root is opened nothing counts as read from it.
  suffices sound : ((rootRead history).first = none → (rootRead history).ended = false) ∧
      ∀ dir, (rootRead history).first = some (apath, dir) → (rootRead history).ended = true →
        (rootRead history).entries = entries from sound.2 dir first ended
  clear first ended
  induction history using List.reverseRecOn with
  | nil => exact ⟨fun _ => rfl, nofun⟩
  | append_singleton history event ih =>
    obtain ⟨before, after⟩ := follows.split
    obtain ⟨unopened, whole⟩ := ih before
    have stepped : rootRead (history ++ [event]) = (rootRead history).watch event := by
      rw [rootRead, List.foldl_append]
      rfl
    rw [stepped]
    rw [List.nil_append] at after
    cases after with
    | cons op _ =>
      have law := lists.whole history
      generalize rootRead history = root at unopened whole law
      cases op with
      | openDir path =>
        cases opened : world history (.openDir path) with
        | error err => exact ⟨unopened, whole⟩
        | ok dir =>
          change ((root.opened path dir).first = none → (root.opened path dir).ended = false) ∧ _
          change _ ∧ ∀ dir', (root.opened path dir).first = some (apath, dir') →
            (root.opened path dir).ended = true → (root.opened path dir).entries = entries
          cases earlier : root.first with
          | none =>
            have notEnded := unopened earlier
            simp only [Root.opened, earlier]
            refine ⟨nofun, ?_⟩
            intro _ _ ended
            rw [notEnded] at ended
            cases ended
          | some known =>
            simp only [Root.opened, earlier]
            rw [earlier] at whole
            exact ⟨nofun, whole⟩
      | readDir dir n =>
        specialize law dir n before
        generalize world history (.readDir dir n) = answer at law
        obtain ⟨batch, err⟩ := answer
        change ((root.read dir batch err).first = none → (root.read dir batch err).ended = false) ∧
          ∀ dir', (root.read dir batch err).first = some (apath, dir') →
            (root.read dir batch err).ended = true → (root.read dir batch err).entries = entries
        by_cases counts : root.first.map Prod.snd = some dir ∧ root.others = false
        · rw [Root.read, if_pos counts]
          constructor
          · intro none
            change root.first = _ at none
            rw [none] at counts
            cases counts.1
          · intro dir' first ended
            change root.first = _ at first
            rw [first] at counts
            cases Option.some.inj counts.1
            exact law first counts.2 ended
        · rw [Root.read, if_neg counts]
          exact ⟨unopened, whole⟩
      | _ => exact ⟨unopened, whole⟩

end Lists

/-! ### The server -/

section Server

variable {files : Files} {clientMark : UInt8} {s : Commands.Session} {course : Course}

theorem total_send {code : UInt8} {payload : Bytes} {post : Course → Unit → Prop}
    (holds : post (course.tells ⟨code, payload⟩) ()) :
    (listTerms files clientMark).Total course (send clientMark code payload) post := by
  apply Terms.total_call
  intro answer _
  rw [show (listTerms files clientMark).watch course ⟨.send clientMark code payload, answer⟩ =
    course.tells ⟨code, payload⟩ from course.watch_send clientMark code payload answer]
  exact holds

variable {α : Type} {post : Course → α → Prop} {dir : Nat} {path : Bytes}

theorem total_readDir {n : Nat} {next : List DirEntry × Option ReadError → Handler α}
    (total : ∀ batch err, (∀ entry ∈ batch, Named entry) →
      (listTerms files clientMark).Total (course.reads dir batch err) (next (batch, err)) post) :
    (listTerms files clientMark).Total course (Prog.perform (Effect.readDir dir n) >>= next) post := by
  apply Terms.total_perform
  rintro ⟨batch, err⟩ named
  rw [show (listTerms files clientMark).watch course ⟨.readDir dir n, (batch, err)⟩ =
    course.reads dir batch err from course.watch_readDir clientMark dir n batch err]
  exact total batch err named

theorem total_openDir {next : Except Errno Nat → Handler α}
    (error : ∀ err, (listTerms files clientMark).Total (course.fails err) (next (.error err)) post)
    (ok : ∀ dir, (listTerms files clientMark).Total (course.opens path dir) (next (.ok dir)) post) :
    (listTerms files clientMark).Total course (Prog.perform (Effect.openDir path) >>= next) post := by
  apply Terms.total_perform
  intro answer _
  cases answer with
  | error err =>
    rw [show (listTerms files clientMark).watch course ⟨.openDir path, .error err⟩ =
      course.fails err from course.watch_openDir_error clientMark path err]
    exact error err
  | ok dir =>
    rw [show (listTerms files clientMark).watch course ⟨.openDir path, .ok dir⟩ =
      course.opens path dir from course.watch_openDir_ok clientMark path dir]
    exact ok dir

theorem total_closeDir {next : Except Errno Unit → Handler α}
    (total : ∀ answer, (listTerms files clientMark).Total course (next answer) post) :
    (listTerms files clientMark).Total course (Prog.perform (Effect.closeDir dir) >>= next) post := by
  apply Terms.total_perform
  intro answer _
  rw [show (listTerms files clientMark).watch course ⟨.closeDir dir, answer⟩ = course from
    course.watch_closeDir clientMark dir answer]
  exact total answer

theorem total_stat {followSymlink : Bool} {next : Except Errno Stat → Handler α}
    (total : (listTerms files clientMark).Total course (next (files.stat path followSymlink)) post) :
    (listTerms files clientMark).Total course
      (Prog.perform (Effect.stat path followSymlink) >>= next) post := by
  apply Terms.total_perform
  intro answer same
  rw [show (listTerms files clientMark).watch course ⟨.stat path followSymlink, answer⟩ = course from
    course.watch_stat clientMark path followSymlink answer]
  rw [show answer = files.stat path followSymlink from same]
  exact total

theorem restrictingSymlink_total {base name : Bytes} {fi : Stat} {post : Course → Except Errno Stat → Prop}
    (holds : post course (files.restrictingSymlinkByFileInfo s.toSession base name fi)) :
    (listTerms files clientMark).Total course (s.restrictingSymlinkByFileInfo base name fi) post := by
  unfold Files.restrictingSymlinkByFileInfo at holds
  apply Terms.total_perform
  intro answer same
  rw [show (listTerms files clientMark).watch course ⟨.readlink (base ++ name), answer⟩ = course from
    course.watch_readlink clientMark (base ++ name) answer]
  rw [← show answer = files.readlink (base ++ name) from same] at holds
  cases answer with
  | error err => exact Terms.total_pure holds
  | ok link =>
    simp only at holds ⊢
    apply Terms.total_ite
    · intro inside
      rw [if_pos inside] at holds
      exact Terms.total_pure holds
    · intro outside
      rw [if_neg outside] at holds
      change (listTerms files clientMark).Total course
        (Prog.perform (Effect.stat (base ++ name) true) >>= pure) post
      exact total_stat (Terms.total_pure holds)

theorem lookupDirentSafe_total {dirBase : Bytes} {entry : DirEntry} {post : Course → Dirent → Prop}
    (holds : post course (files.lookupDirentSafe s.toSession dirBase entry)) :
    (listTerms files clientMark).Total course (s.lookupDirentSafe dirBase entry) post := by
  -- The result of `lookupDirent` decides about the placeholder.
  have found : (listTerms files clientMark).Total course (s.lookupDirent dirBase entry)
      fun course' result => course' = course ∧ result = files.lookupDirent s.toSession dirBase entry := by
    unfold Files.lookupDirent
    apply total_stat
    cases files.stat (dirBase ++ entry.name) false with
    | error err => exact Terms.total_pure ⟨rfl, rfl⟩
    | ok fi =>
      apply Terms.total_ite
      · intro isLink
        apply Terms.total_bind
        apply restrictingSymlink_total
        simp only [if_pos isLink]
        exact Terms.total_pure ⟨rfl, rfl⟩
      · intro notLink
        simp only [if_neg notLink]
        exact Terms.total_pure ⟨rfl, rfl⟩
  unfold Files.lookupDirentSafe at holds
  apply Terms.total_bind
  refine found.mono ?_
  rintro _ _ ⟨rfl, rfl⟩
  cases result : files.lookupDirent s.toSession dirBase entry with
  | error _ | ok _ =>
    rw [result] at holds
    exact Terms.total_pure holds

/-! ### Buffers -/

namespace Course

/-- The payloads of the packer have been sent. -/
def sending (course : Course) (out : Packer) : Course := { course with sent := out.sent.map partialMessage }

theorem sending_self {out : Packer} (sent : course.sent = out.sent.map partialMessage) :
    course.sending out = course := by
  unfold sending
  rw [← sent]

end Course

section Buffers

variable {out : Packer} {post : Course → Bytes → Prop}

theorem makeRoom_total {size : Nat}
    (holds : post (course.sending (ReadDir.Server.makeRoom out size))
      (ReadDir.Server.makeRoom out size).buffer) :
    (listTerms files clientMark).Total (course.sending out) (makeRoom clientMark out.buffer size)
      post := by
  unfold ReadDir.Server.makeRoom at holds
  apply Terms.total_ite
  · intro full
    rw [if_pos full] at holds
    apply Terms.total_bind
    apply total_send
    apply Terms.total_pure
    simpa [Course.sending, Course.tells, partialMessage] using holds
  · intro enough
    rw [if_neg enough] at holds
    exact Terms.total_pure holds

variable {dirBase : Bytes} {entry : DirEntry}

theorem writeDirent_total (holds : post
      (course.sending (ReadDir.Server.writeDirent out (files.lookupDirentSafe s.toSession dirBase entry)))
      (ReadDir.Server.writeDirent out (files.lookupDirentSafe s.toSession dirBase entry)).buffer) :
    (listTerms files clientMark).Total (course.sending out)
      (s.writeDirent clientMark dirBase out.buffer entry) post := by
  apply Terms.total_bind
  apply lookupDirentSafe_total
  apply Terms.total_bind
  apply makeRoom_total
  exact Terms.total_pure holds

theorem writeDirentChunk_total {wdirent : Dirent}
    (holds : post (course.sending (ReadDir.Server.writeDirentChunk out wdirent))
      (ReadDir.Server.writeDirentChunk out wdirent).buffer) :
    (listTerms files clientMark).Total (course.sending out)
      (writeDirentChunk clientMark out.buffer wdirent) post := by
  apply Terms.total_bind
  apply makeRoom_total
  exact Terms.total_pure holds

theorem writePrefetchIndicator_total {indicator : UInt8}
    (holds : post (course.sending (ReadDir.Server.writePrefetchIndicator out indicator))
      (ReadDir.Server.writePrefetchIndicator out indicator).buffer) :
    (listTerms files clientMark).Total (course.sending out)
      (writePrefetchIndicator clientMark out.buffer indicator) post := by
  apply Terms.total_bind
  apply makeRoom_total
  exact Terms.total_pure holds

theorem writeRootEntry_total (holds : post
      (course.sending
        (ReadDir.Server.writeDirentChunk out (files.lookupDirentSafe s.toSession dirBase entry)))
      (ReadDir.Server.writeDirentChunk out (files.lookupDirentSafe s.toSession dirBase entry)).buffer) :
    (listTerms files clientMark).Total (course.sending out)
      (s.writeRootEntry clientMark dirBase out.buffer entry) post := by
  apply Terms.total_bind
  apply lookupDirentSafe_total
  exact writeDirentChunk_total holds

theorem foldlM_total {step : Bytes → DirEntry → Handler Bytes} {write : Packer → Dirent → Packer}
    {lookup : DirEntry → Dirent}
    (each : ∀ {out : Packer} {entry : DirEntry} {post : Course → Bytes → Prop},
      post (course.sending (write out (lookup entry))) (write out (lookup entry)).buffer →
        (listTerms files clientMark).Total (course.sending out) (step out.buffer entry) post)
    (batch : List DirEntry)
    (holds : post (course.sending ((batch.map lookup).foldl write out))
      ((batch.map lookup).foldl write out).buffer) :
    (listTerms files clientMark).Total (course.sending out) (batch.foldlM step out.buffer)
      post := by
  induction batch generalizing out with
  | nil => exact Terms.total_pure holds
  | cons entry rest ih =>
    rw [List.foldlM_cons]
    apply Terms.total_bind
    apply each
    exact ih holds

end Buffers

end Server

end Wsfs.Transfer
