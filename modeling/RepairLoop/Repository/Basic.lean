import RepairLoop.Settings.Basic
import RepairLoop.World.Basic
/-!
# Repositories

A working tree under git. Git is run in its root under the identity of the settings.
A run that fails because another one holds the repository is tried again after a pause
that doubles each time.
-/

namespace RepairLoop

/-- A working tree under git. -/
structure Repository where
  root : Path
  settings : GitSettings
  deriving Inhabited

/-- What a run of git printed, and its exit code. -/
structure GitOutput where
  code : Int
  out : String
  err : String
  deriving DecidableEq, Inhabited

namespace GitOutput

/-- The output of a reply, bytes that are no text replaced. -/
def ofReply (r : GitReply) : GitOutput :=
  ⟨r.code, Text.decodeLossy r.out, Text.decodeLossy r.err⟩

/-- The run succeeded. -/
def succeeded (o : GitOutput) : Bool := o.code == 0

/-- What git said of a failure: its complaint, or else its output, or else a text. -/
def complaint (o : GitOutput) (otherwise : String) : String :=
  let err := Text.strip o.err
  let out := Text.strip o.out
  if err != "" then err else if out != "" then out else otherwise

/-- Signs that another run holds the repository. -/
def busySigns : List String := ["index.lock", "Unable to create", "another git process"]

/-- The text holds another one. -/
def holds (text part : List Char) : Bool :=
  match text with
  | [] => part.isEmpty
  | c :: rest => part.isPrefixOf (c :: rest) || holds rest part

/-- The run failed because another one holds the repository. -/
def isBusy (o : GitOutput) : Bool :=
  o.code != 0 && busySigns.any fun s => holds o.err.toList s.toList

end GitOutput

namespace Repository

/-- Where the repository keeps its own files. -/
def ownFiles (root : Path) : Location := (root.join (Path.ofString ".git")).parts

/-- Refuses with a message of git. -/
def refuse {α : Type} (message : String) (details : Members) : Act α :=
  throw (.refuse .git message details)

/-- The repository at a path. -/
def at_ (root : Path) (settings : GitSettings) : Act Repository := do
  let root := ((← get).absolute root).collapsed
  if (← Act.files).has (ownFiles root) then pure ⟨root, settings⟩
  else refuse s!"Not a git repository: {root.text}" []

/-- A directory and those around it, the innermost first. -/
def outward (p : Path) : List Path :=
  ((List.range (p.parts.length + 1)).reverse).map fun n => ⟨p.anchor, p.parts.take n⟩

/-- The repository that a path lies in. -/
def around (start : Path) (settings : GitSettings) : Act Repository := do
  let start := ((← get).absolute start).collapsed
  let files ← Act.files
  match (outward start).find? fun p => files.has (ownFiles p) with
  | some root => at_ root settings
  | none => refuse s!"Unable to locate a git repository from {start.text}" []

/-- Makes an empty repository at a path. -/
def create (root : Path) (settings : GitSettings) : Act Repository := do
  let w ← get
  let root := (w.absolute root).collapsed
  let out ← GitOutput.ofReply <$>
    Act.git ⟨w.here, [], ["init", "--quiet", root.text], none⟩
  if out.succeeded then at_ root settings
  else refuse s!"git init failed: {Text.strip out.err}" [("root", .text root.text)]

/-- A run of git in the root. -/
def call (r : Repository) (arguments : List String) (patch : Option String) : GitCall :=
  ⟨r.root,
    ["user.name=" ++ r.settings.authorName, "user.email=" ++ r.settings.authorEmail],
    arguments, patch⟩

/-- The pause before the next try; it doubles each time. -/
def pauseBefore (r : Repository) (tried : Nat) : Except Fault Float :=
  if tried < 1024 then .ok (r.settings.lockBackoff * Number.ofInt (Number.twoTo tried))
  else .error (.mishap .overflow "int too large to convert to float")

/-- Runs git, and again as long as the repository is held and tries are left. -/
def runFrom (r : Repository) (c : GitCall) : Nat → Nat → Act GitOutput
  | 0, _ => GitOutput.ofReply <$> Act.git c
  | left + 1, tried => do
    let out ← GitOutput.ofReply <$> Act.git c
    if out.isBusy then do
      Act.yield_ (.real (← Act.ofExcept (r.pauseBefore tried)))
      runFrom r c left (tried + 1)
    else pure out

/-- Runs git with a patch in a file, whatever comes of it. -/
def tryWith (r : Repository) (arguments : List String) (patch : Option String) : Act GitOutput :=
  r.runFrom (r.call arguments patch) r.settings.lockRetries.toNat 0

/-- Runs git, whatever comes of it. -/
def try_ (r : Repository) (arguments : List String) : Act GitOutput := r.tryWith arguments none

/-- Runs git, which must succeed. -/
def run (r : Repository) (arguments : List String) : Act GitOutput := do
  let out ← r.try_ arguments
  if out.succeeded then pure out
  else
    let command := " ".intercalate arguments
    let complaint := out.complaint "unknown git error"
    refuse s!"git {command} failed: {complaint}"
      [("args", Json.texts arguments)]

end Repository

end RepairLoop
