import RepairLoop.Command.Words
import RepairLoop.Glob
import RepairLoop.Settings.Sections
import RepairLoop.World.Basic
/-!
# Commands and sandboxes

A command is a row of words that is run at a place for a limited time. It has succeeded
if it ended in time with exit code zero. A sandbox is a place where commands run. A
patch is tried in a copy of the workspace that is made for it and removed afterwards,
whatever happened in it. If containers are asked for and their program answers, the
commands run in containers that see the copy.
-/

namespace RepairLoop

/-- What a command yielded. -/
structure CommandResult where
  words : List String
  exit : Option Int
  out : String
  err : String
  milliseconds : Int
  timedOut : Bool
  missing : Bool
  deriving DecidableEq, Inhabited

namespace CommandResult

/-- How much of the end of an output is kept. -/
def tailLength : Nat := 4000

/-- What a command yielded, from its words and its reply. -/
def ofReply (words : List String) (r : CommandReply) : CommandResult :=
  ⟨words, r.exit, r.out, r.err, r.milliseconds, r.timedOut, r.missing⟩

/-- The command ended in time with exit code zero. -/
def succeeded (r : CommandResult) : Bool := r.exit == some 0 && !r.timedOut

/-- Both outputs, those that are not empty, with a line feed between them. -/
def combined (r : CommandResult) : String :=
  "\n".intercalate ([r.out, r.err].filter (· != ""))

/-- The end of an output. -/
def tail (output : String) : String :=
  let cs := output.toList
  String.ofList (cs.drop (cs.length - tailLength))

/-- The command as a command line. -/
def display (r : CommandResult) : String := Command.display r.words

end CommandResult

namespace Command

/-- The words of a command line, or the fault of one that cannot be split. -/
def wordsOf (line : String) : Except Fault (List String) :=
  (split line).mapError fun e => .badValue e.message

/-- Runs words at a place. -/
def runWords (place : Path) (words : List String) (timeout : Amount) : Act CommandResult := do
  if words.isEmpty then throw (.badValue "Empty command.")
  else CommandResult.ofReply words <$> Act.command ⟨place, words, timeout⟩

/-- Runs a command line at a place. -/
def run (place : Path) (line : String) (timeout : Amount) : Act CommandResult := do
  runWords place (← Act.ofExcept (wordsOf line)) timeout

end Command

/-! ## Sandboxes -/

/-- A place where commands run, in containers if they are given. -/
structure Sandbox where
  root : Path
  container : Option ContainerSettings
  deriving DecidableEq, Inhabited

namespace Sandbox

/-- How the sandbox is kept apart. -/
def isolation (s : Sandbox) : Isolation :=
  if s.container.isSome then .container else .filesystem

/-- How long the program for containers may take for its own work. -/
def serviceTimeout : Amount := .real 10.0

/-- The words that run a command line in a container. -/
def containerWords (s : Sandbox) (c : ContainerSettings) (name line : String) : List String :=
  [c.executable, "run", "--rm", "--name", name, "-v", s.root.text ++ ":/workspace", "-w",
    "/workspace", c.image, "sh", "-c", line]

/-- Runs a command line in a container; one that runs out of time is removed. -/
def runContained (s : Sandbox) (c : ContainerSettings) (line : String) (timeout : Amount) :
    Act CommandResult := do
  let mark := (← get).containerMark
  let name := "selfheal-" ++ mark
  let r ← Command.runWords s.root (s.containerWords c name line) timeout
  if r.timedOut then
    let _ ← Command.runWords s.root [c.executable, "rm", "-f", name] serviceTimeout
  let words ← Act.ofExcept (Command.wordsOf line)
  pure { r with words := words }

/-- Runs a command line. -/
def run (s : Sandbox) (line : String) (timeout : Amount) : Act CommandResult :=
  match s.container with
  | some c => s.runContained c line timeout
  | none => Command.run s.root line timeout

/-- The program for containers is found and answers. -/
def isAvailable (c : ContainerSettings) : Act Bool := do
  let w ← get
  if w.outside.finds c.executable then
    CommandResult.succeeded <$> Command.runWords w.here [c.executable, "info"] serviceTimeout
  else pure false

/-! ## Copies -/

/-- The part of a way that is copied: up to the first name that is ignored. -/
def keptNames (ignore : List String) (way : Location) : Location :=
  way.takeWhile fun name => !ignore.any fun glob => Glob.matches_ glob name

/-- What is copied of an entry: the entry, or the directories around what is ignored. -/
def copiedEntry (ignore : List String) (e : Location × Entry) : Location × Entry :=
  let kept := keptNames ignore e.1
  if kept.length == e.1.length then e else (kept, .directory)

/-- A copy of a tree without what is ignored. -/
def copied (ignore : List String) (t : FileTree) : FileTree :=
  (t.entries.map (copiedEntry ignore)).foldl (fun t (p, e) =>
    match e with
    | .directory => t.makeDirectory p
    | e => t.put p e) FileTree.empty

/-- Places a tree at a location of another. -/
def placed (t : FileTree) (at_ : Location) (part : FileTree) : FileTree :=
  part.entries.foldl (fun t (p, e) => t.put (at_ ++ p) e) (t.makeDirectory at_)

/-- Works in a copy of a directory, which is removed afterwards. -/
def inCopy {α : Type} (source : Path) (ignore : List String) (c : ContainerSettings)
    (work : Sandbox → Act α) : Act α := do
  let root := (← get).workshop
  Act.finally_
    (do
      Act.setFiles fun t => placed t root.parts (copied ignore (t.below source.parts))
      let contained ← if c.enabled then isAvailable c else pure false
      work ⟨root, if contained then some c else none⟩)
    (Act.setFiles fun t => t.remove root.parts)

end Sandbox

end RepairLoop
