import RepairLoop.Fault
import RepairLoop.Files.Tree
import RepairLoop.Number.Nearest
import RepairLoop.Path
import RepairLoop.Proposal.Allowance
import RepairLoop.Store.Basic
import RepairLoop.Text.Encoded
import RepairLoop.Text.Line
import RepairLoop.Trial.Report
/-!
# The world

What the loop works in, and what is outside of it.
-/

/-!
## The outside

Everything that is run or asked outside of the library: git, the commands of the
stages, the services of the models. An answer may depend on all calls made before, so
each kind of answer is a function of the calls so far, the present one last.
-/

namespace RepairLoop

/-- What an outside program does to a file. -/
inductive Change where
  | file (content : ByteArray)
  | directory
  | delete
  deriving Inhabited

/-- Changes to files; a relative path is seen from where the program runs. -/
abbrev Changes := List (Path × Change)

/-- A run of git: where, under which identity, with which arguments, and the patch that
it is given in a file. -/
structure GitCall where
  place : Path
  identity : List String
  arguments : List String
  patch : Option String
  deriving DecidableEq, Inhabited

/-- What a run of git yields; a failure to run has a message. -/
structure GitReply where
  code : Int
  out : ByteArray
  err : ByteArray
  changes : Changes
  failure : Option String
  deriving Inhabited

/-- A run of a command. -/
structure CommandCall where
  place : Path
  words : List String
  timeout : Amount
  deriving Inhabited

/-- What a run of a command yields. It may have run out of time, its program may be
missing, or a fault may have kept it from running. -/
structure CommandReply where
  exit : Option Int
  out : String
  err : String
  milliseconds : Int
  timedOut : Bool
  missing : Bool
  changes : Changes
  failure : Option Fault
  deriving Inhabited

/-- A request to a service. -/
structure WebCall where
  address : String
  headers : List (String × String)
  body : Json
  timeout : Amount
  deriving Inhabited

/-- What a service answers, if it is reached. -/
inductive WebReply where
  | answer (status : Int) (body : String)
  | tooLate
  | refused (status : Int) (body : String)
  | unreachable (reason : String)
  deriving Inhabited

/-- What a model answers that is asked directly. -/
inductive ModelReply where
  | answer (text : String)
  | failure (message : String)
  deriving Inhabited

/-- The answers of all that is outside, each from the calls so far; the programs that
are found; what breaks down every validation, if anything does; and how many steps of a
search that has no end of its own are waited for. -/
structure Outside where
  git : List GitCall → GitReply
  command : List CommandCall → CommandReply
  web : List WebCall → WebReply
  model : List Json → ModelReply
  finds : String → Bool
  breakdown : Option String
  patience : Nat := 1000
  deriving Inhabited

end RepairLoop

/-!
## The world

What the loop works in: fresh names and the clock, the files, the stores, the
environment, the outside, and a record of all that was run, asked, waited for,
reported and printed. An `Act` changes the world and may be stopped by a fault; what it did before
stays done.
-/

namespace RepairLoop

/-- The world. The store is the one that is open; `stores` holds those that are kept in
files. The allowance and the baseline belong to the session that is open. -/
structure World where
  supply : Supply
  seconds : Float
  here : Path
  workshop : Path
  patchName : String
  containerMark : String
  environment : List (String × String)
  files : FileTree
  outside : Outside
  gitCalls : List GitCall
  commandCalls : List CommandCall
  webCalls : List WebCall
  modelCalls : List Json
  pauses : List Amount
  events : List Event
  printed : List String
  lastBackup : Option String
  store : Store
  stores : List (Location × Store)
  allowance : Option (Allowance Float)
  baseline : Option Sample
  deriving Inhabited

/-- Work in the world that a fault may stop. -/
abbrev Act := ExceptT Fault (StateM World)

namespace Act

/-- Work with fresh names and the clock. -/
def supplied {α : Type} (x : StateM Supply α) : Act α := do
  let w ← get
  let (a, s) := x.run w.supply
  set { w with supply := s }
  pure a

/-- What is known to have failed or not. -/
def ofExcept {α : Type} (x : Except Fault α) : Act α :=
  match x with
  | .ok a => pure a
  | .error e => throw e

/-- Work with fresh names and the clock that a fault may stop. -/
def supplying {α : Type} (x : ExceptT Fault (StateM Supply) α) : Act α := do
  ofExcept (← supplied x.run)

/-- Work whose fault is looked at. -/
def attempt {α : Type} (x : Act α) : Act (Except Fault α) :=
  ExceptT.mk (do let r ← x.run; pure (.ok r))

/-- Work with something to be done after it in any case. A fault of what is done after
it takes the place of its own. -/
def finally_ {α : Type} (x : Act α) (after : Act Unit) : Act α := do
  let r ← attempt x
  after
  ofExcept r

/-- Reports an event. -/
def emit (e : Event) : Act Unit :=
  modify fun w => { w with events := w.events ++ [e] }

/-- Waits; the time passes for everyone. -/
def pause (time : Amount) : Act Unit :=
  modify fun w => { w with pauses := w.pauses ++ [time], seconds := w.seconds + time.value }

/-- Waits for a moment that takes no time. -/
def yield_ (time : Amount) : Act Unit :=
  modify fun w => { w with pauses := w.pauses ++ [time] }

end Act

namespace World

/-- A path as it is found in the world: from where the program runs if it is relative. -/
def absolute (w : World) (p : Path) : Path := w.here.join p

/-- The files after some changes that a program made at a place. -/
def changed (files : FileTree) (place : Path) : Changes → FileTree
  | [] => files
  | (p, c) :: rest =>
    let l := (place.join p).collapsed.parts
    let files := match c with
      | .file content => files.write l content
      | .directory => files.makeDirectory l
      | .delete => files.remove l
    changed files place rest

end World

namespace Act

/-- Runs git. -/
def git (call : GitCall) : Act GitReply := do
  let w ← get
  let calls := w.gitCalls ++ [call]
  let reply := w.outside.git calls
  set { w with gitCalls := calls, files := World.changed w.files call.place reply.changes }
  match reply.failure with
  | some m => throw (.mishap .system m)
  | none => pure reply

/-- Runs a command. -/
def command (call : CommandCall) : Act CommandReply := do
  let w ← get
  let calls := w.commandCalls ++ [call]
  let reply := w.outside.command calls
  set { w with
    commandCalls := calls, files := World.changed w.files call.place reply.changes }
  match reply.failure with
  | some f => throw f
  | none => pure reply

/-- Asks a service. -/
def web (call : WebCall) : Act WebReply := do
  let w ← get
  let calls := w.webCalls ++ [call]
  set { w with webCalls := calls }
  pure (w.outside.web calls)

/-- Asks a model directly. -/
def model (payload : Json) : Act ModelReply := do
  let w ← get
  let calls := w.modelCalls ++ [payload]
  set { w with modelCalls := calls }
  pure (w.outside.model calls)

/-- The files. -/
def files : Act FileTree := do return (← get).files

/-- The store that is open. -/
def store : Act Store := do return (← get).store

/-- Looks something up in the store. -/
def stored {α : Type} (f : Store → Except StoreFault α) : Act α := do
  ofExcept ((f (← store)).mapError StoreFault.toFault)

/-- Changes the store, unless the change is refused. -/
def storing (f : Store → Except StoreFault Store) : Act Unit := do
  let s ← stored f
  modify fun w => { w with store := s }

/-- The time; the clock moves on. -/
def now : Act Moment := supplied Supply.readClock

/-- Changes the files. -/
def setFiles (f : FileTree → FileTree) : Act Unit :=
  modify fun w => { w with files := f w.files }

end Act

/-- The text of a file with unified line ends, or the fault of bytes that are no text. -/
def readText (content : ByteArray) : Except Fault String :=
  match Text.decode content with
  | .ok s => .ok (String.ofList (Text.unifyFeeds s.toList))
  | .error f => .error (.mishap .undecodable f.message)

end RepairLoop
