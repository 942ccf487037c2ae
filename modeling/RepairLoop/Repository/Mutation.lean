import RepairLoop.Diff.Parser
import RepairLoop.Files.Access
import RepairLoop.Repository.Branch
/-!
# Changes to a repository

A patch is applied to the working tree, changes are committed, and the branch is moved
to other commits. What could lose work makes a backup branch first. A patch that does
not apply leaves the files that it names as they were.
-/

namespace RepairLoop.Repository

/-- What stood at some paths: the content of a file, or none. -/
abbrev Snapshot := List (String × Option ByteArray)

/-- The path of a file of the working tree. -/
def pathOf (r : Repository) (relative : String) : Path := r.root.join (Path.ofString relative)

/-- The system does not look at a path that is too long. One with a null character names
nothing, however long it is. -/
def overlooked (files : FileTree) (l : Location) : Bool :=
  files.isTooLong l && !l.any (·.toList.contains '\x00')

/-- What stands at some paths. -/
def snapshot (r : Repository) (files : FileTree) : List String → Except WayFault Snapshot
  | [] => .ok []
  | p :: rest => do
    let path := r.pathOf p
    if overlooked files path.parts then .error (.nameTooLong path.text)
    else
      let before ← r.snapshot files rest
      .ok ((p, files.content? path.parts) :: before)

/-- Puts one path back. -/
def restoreOne (r : Repository) (files : FileTree) (path : String) :
    Option ByteArray → Except AccessFault FileTree
  | none => files.unlink (r.pathOf path)
  | some content => files.writeDeep (r.pathOf path) content

/-- Puts paths back one after the other. -/
def restore (r : Repository) : Snapshot → Act Unit
  | [] => pure ()
  | (path, content) :: rest => do
    let files ← Act.ofExcept ((r.restoreOne (← Act.files) path content).mapError (·.toFault))
    Act.setFiles fun _ => files
    r.restore rest

/-- The paths that a diff names, in order, each once. -/
def touched (files : List Diff.FilePatch) : List String :=
  let paths := files.flatMap fun f => f.oldPath.toList ++ f.newPath.toList
  ((paths.filter (· != "")).eraseDups).mergeSort fun a b => a ≤ b

/-- A text that ends in a line feed. -/
def withLineFeed (text : String) : String :=
  if text.endsWith "\n" then text else text ++ "\n"

/-- What stood at some paths before git was given a diff, and what git said to it. -/
def tryDiff (r : Repository) (diff : String) (threeWay : Bool) (paths : List String) :
    Act (Snapshot × GitOutput) := do
  let before ← Act.ofExcept ((r.snapshot (← Act.files) paths).mapError (·.toFault))
  let name := (← get).patchName
  let out ← r.tryWith
    (["apply", "--whitespace=nowarn"] ++ (if threeWay then ["--3way"] else []) ++ [name])
    (some (withLineFeed diff))
  pure (before, out)

/-- Puts paths back, takes them out of the index, and says why the diff was not applied. -/
def takeBack (r : Repository) (paths : List String) (before : Snapshot) (out : GitOutput) :
    Act Unit := do
  r.restore before
  if !paths.isEmpty then
    let _ ← r.try_ (["reset", "--quiet", "--"] ++ paths)
  let message := out.complaint "patch does not apply"
  Act.emit (.of "git_apply_conflict" [("repo", .text r.root.text), ("paths", Json.texts paths),
    ("message", .text message)])
  throw (.refuse .gitConflict s!"Patch does not apply cleanly: {message}"
    [("paths", Json.texts paths), ("stderr", .text out.err)])

/-- Applies a diff to the working tree; one that does not apply leaves the files that it
names as they were. -/
def applyDiff (r : Repository) (diff : String) (threeWay backup : Bool) : Act Unit := do
  let (files, _) ← Act.ofExcept ((Diff.parse diff).mapError (·.toFault))
  let paths := touched files
  if backup then
    let _ ← r.backUp none
  let (before, out) ← r.tryDiff diff threeWay paths
  if !out.succeeded then r.takeBack paths before out

/-- Commits some files, or all changes; yields the name of the commit. -/
def commit (r : Repository) (message : String) (files : List String)
    (author : Option (String × String)) : Act String := do
  let (name, email) := author.getD (r.settings.authorName, r.settings.authorEmail)
  let _ ← r.run (if files.isEmpty then ["add", "-A"] else ["add", "-A", "--"] ++ files)
  let _ ← r.run ["commit", "--quiet", "-m", message, "--author", s!"{name} <{email}>"]
  match ← r.head with
  | some head => pure head
  | none => refuse "Commit did not produce a HEAD." []

/-- Commits every change, untracked files included; yields the name of the last commit. -/
def commitBaseline (r : Repository) (message : String) : Act (Option String) := do
  if ← r.isClean true then r.head else some <$> r.commit message [] none

/-- Moves the branch to a commit. -/
def resetTo (r : Repository) (target : String) (hard : Bool) : Act Unit := do
  let _ ← r.backUp none
  let _ ← r.run ["reset", if hard then "--hard" else "--soft", target]

/-- Takes a commit over to the branch. -/
def cherryPick (r : Repository) (picked : String) : Act Unit := do
  let _ ← r.backUp none
  let out ← r.try_ ["cherry-pick", picked]
  if !out.succeeded then
    let _ ← r.try_ ["cherry-pick", "--abort"]
    let message := out.complaint "cherry-pick failed"
    throw (.refuse .mergeConflict s!"Cherry-pick of {picked} conflicted: {message}"
      [("commit", .text picked)])

end RepairLoop.Repository
