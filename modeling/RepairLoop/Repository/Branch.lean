import RepairLoop.Repository.Basic
import RepairLoop.Text.Line
/-!
# Working trees and branches

What git says of the working tree, and the branches that are made of it.
-/

/-!
## The status of a working tree

Git lists changed files with a code of two letters. The list is a row of entries, each
ended by a null character; a renamed or copied file is followed by the path it came
from, which is passed over.
-/

namespace RepairLoop

/-- A changed file: the code of its change, and its path. -/
structure StatusEntry where
  code : String
  path : String
  deriving DecidableEq, Inhabited

namespace StatusEntry

/-- The entry in a piece of a list. -/
def ofPiece (piece : List Char) : StatusEntry :=
  ⟨String.ofList (piece.take 2), String.ofList (piece.drop 3)⟩

/-- The piece is followed by the path it came from. -/
def hasSource (piece : List Char) : Bool :=
  piece.head? == some 'R' || piece.head? == some 'C'

/-- The entries in the pieces of a list. -/
def ofPieces : List (List Char) → List StatusEntry
  | [] => []
  | [p] => [ofPiece p]
  | p :: q :: rest => ofPiece p :: if hasSource p then ofPieces rest else ofPieces (q :: rest)

/-- The entries in a list of git. -/
def ofListing (text : List Char) : List StatusEntry :=
  ofPieces ((Text.pieces '\x00' text).filter fun p => !p.isEmpty)

/-- The entry as a list of two texts. -/
def json (e : StatusEntry) : Json := .list [.text e.code, .text e.path]

end StatusEntry

namespace Repository

/-- The changed files. -/
def status (r : Repository) (untracked : Bool) : Act (List StatusEntry) := do
  let files := if untracked then "--untracked-files=all" else "--untracked-files=no"
  let out ← r.run ["status", "--porcelain", "-z", files]
  pure (StatusEntry.ofListing out.out.toList)

/-- No file is changed. -/
def isClean (r : Repository) (untracked : Bool) : Act Bool :=
  (·.isEmpty) <$> r.status untracked

/-- The branch that is checked out, if there is one. -/
def currentBranch (r : Repository) : Act (Option String) := do
  let out ← r.try_ ["rev-parse", "--abbrev-ref", "HEAD"]
  let name := Text.strip out.out
  pure (if !out.succeeded || name == "" || name == "HEAD" then none else some name)

/-- The name of the last commit, if there is one. -/
def head (r : Repository) : Act (Option String) := do
  let out ← r.try_ ["rev-parse", "--verify", "HEAD"]
  let name := Text.strip out.out
  pure (if !out.succeeded || name == "" then none else some name)

/-- There is a branch. -/
def hasBranch (r : Repository) (name : String) : Act Bool := do
  let out ← r.try_ ["show-ref", "--verify", "--quiet", "refs/heads/" ++ name]
  pure out.succeeded

end Repository

end RepairLoop

/-!
## Branches

Branches are made for a patch in isolation and as backups. A backup stands at the last
commit and has a name that no branch has yet.
-/

namespace RepairLoop.Repository

/-- The name of the branch on which a patch is tried. -/
def isolationName (r : Repository) (issue patch : String) : String :=
  s!"{r.settings.branchPrefix}/issue-{issue}/patch-{patch}"

/-- Makes the branch on which a patch is tried. -/
def isolate (r : Repository) (issue patch start : String) : Act String := do
  let name := r.isolationName issue patch
  if ← r.hasBranch name then
    refuse s!"Isolation branch already exists: {name}" [("branch", .text name)]
  else
    let _ ← r.run ["branch", name, start]
    pure name

/-- Checks a branch out. -/
def checkOut (r : Repository) (branch : String) : Act Unit := do
  let _ ← r.run ["checkout", "--quiet", branch]

/-- Takes a branch away. -/
def deleteBranch (r : Repository) (name : String) (force : Bool) : Act Unit := do
  let _ ← r.run ["branch", if force then "-D" else "-d", name]

/-- Date and time of day as they stand in the name of a backup. -/
def stamp (m : Moment) : String :=
  let d := m.date
  let clock := (m.clockText.toList.take 8).filter (· != ':')
  s!"{d.year}{paddedDigits 2 d.month}{paddedDigits 2 d.day}_" ++ String.ofList clock

/-- The names of a row: the bare name, then the name with a number. -/
def numbered (name : String) (number : Nat) : String :=
  if number = 0 then name else s!"{name}-{number}"

/-- The first name of a row that no branch has. The row has no end, so the search ends when
nobody waits for it any longer. -/
def freeName (r : Repository) (name : String) : Nat → Nat → Act String
  | 0, _ => throw (.mishap .aborted s!"No free name for a backup branch: {name}")
  | left + 1, number => do
    if ← r.hasBranch (numbered name number) then freeName r name left (number + 1)
    else pure (numbered name number)

/-- The branch that a backup is named for. -/
def backupBase (r : Repository) (base : Option String) : Act String := do
  match base with
  | some b => if b != "" then pure b else current
  | none => current
where
  /-- The branch that is checked out. -/
  current : Act String := do return (← r.currentBranch).getD "detached"

/-- Makes a branch at the last commit, named for a branch and the present time. -/
def backUp (r : Repository) (base : Option String) : Act String := do
  match ← r.head with
  | none => refuse "Cannot create a backup branch without any commits." []
  | some _ =>
    let base ← r.backupBase base
    let now ← Act.supplied Supply.readClock
    let patience := (← get).outside.patience
    let name ← r.freeName s!"{r.settings.backupPrefix}/{base}/{stamp now}" patience 0
    let _ ← r.run ["branch", name, "HEAD"]
    modify fun w => { w with lastBackup := some name }
    Act.emit (.of "git_backup_created" [("repo", .text r.root.text), ("branch", .text name)])
    pure name

end RepairLoop.Repository
