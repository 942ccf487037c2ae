import RepairLoop.Number.Whole
import RepairLoop.Record.Revision
import RepairLoop.Repository.Branch
import RepairLoop.Time.Iso
/-!
# History

Commits, branches and differences as git lists them. A commit and a branch are written
with the unit separator between their fields, and commits with the record separator in
front of each.
-/

namespace RepairLoop

/-- Between fields. -/
def fieldMark : Char := '\x1f'

/-- In front of records. -/
def recordMark : Char := '\x1e'

/-- Texts with a field mark between each two. -/
def marked (fields : List String) : String :=
  (String.singleton fieldMark).intercalate fields

/-- The fields of a text. -/
def fieldsOf (text : List Char) : List String :=
  (Text.pieces fieldMark text).map String.ofList

namespace GitCommit

/-- The commit in a record, if the record has the fields of one. -/
def ofRecord (text : List Char) : Except Iso.Fault (Option GitCommit) := do
  let (header, files) := Text.cutAt '\n' text
  match fieldsOf header with
  | [hash, author, email, time, message] =>
    let time ← Iso.read time
    let files := ((Text.splitLines (String.ofList files)).map Text.strip).filter (· != "")
    .ok (some ⟨hash, message, author, email, time, files⟩)
  | _ => .ok none

/-- The commits in a list. -/
def ofListing (text : List Char) : Except Iso.Fault (List GitCommit) := do
  let records := (Text.pieces recordMark text).filter fun r => !(Text.trim r).isEmpty
  let commits ← records.mapM ofRecord
  .ok (commits.filterMap id)

end GitCommit

namespace Repository

/-- The last commits. -/
def history (r : Repository) (limit : Int) : Act (List GitCommit) := do
  match ← r.head with
  | none => pure []
  | some _ =>
    let form := String.singleton recordMark ++ marked ["%H", "%an", "%ae", "%aI", "%s"]
    let out ← r.run ["log", s!"-n{limit}", "--pretty=format:" ++ form, "--name-only"]
    Act.ofExcept ((GitCommit.ofListing out.out.toList).mapError fun f => .badValue f.message)

/-- A count that git printed; nothing counts as zero. -/
def count (text : List Char) : Except Fault Int :=
  if text.isEmpty then .ok 0
  else (Number.readWhole (String.ofList text)).mapError fun f => .badValue f.message

/-- How far a branch is ahead of another and behind it. -/
def distance (r : Repository) (name upstream : String) : Act (Int × Int) := do
  let out ← r.try_ ["rev-list", "--left-right", "--count", s!"{name}...{upstream}"]
  if out.succeeded then
    let (left, right) := Text.cutAt '\t' (Text.trim out.out.toList)
    let left ← Act.ofExcept (count left)
    let right ← Act.ofExcept (count right)
    pure (left, right)
  else pure (0, 0)

/-- The branches on some lines. -/
def branchesOf (r : Repository) : List (List Char) → Act (List BranchInfo)
  | [] => pure []
  | line :: lines => do
    match fieldsOf line with
    | [name, head, mark, upstream] =>
      let (ahead, behind) ← if upstream == "" then pure (0, 0) else r.distance name upstream
      let upstream := if upstream == "" then none else some upstream
      let rest ← r.branchesOf lines
      pure (⟨name, Text.strip mark == "*", head, upstream, ahead, behind⟩ :: rest)
    | _ => r.branchesOf lines

/-- The local branches. -/
def branches (r : Repository) : Act (List BranchInfo) := do
  let form := marked ["%(refname:short)", "%(objectname)", "%(HEAD)", "%(upstream:short)"]
  let out ← r.run ["for-each-ref", "--format=" ++ form, "refs/heads"]
  r.branchesOf (Text.lineBodies out.out.toList)

/-- The difference between two commits, of all files or of some. -/
def difference (r : Repository) (base target : String) (paths : List String) : Act String := do
  let out ← r.run (["diff", "--full-index", base, target] ++
    if paths.isEmpty then [] else "--" :: paths)
  pure out.out

end Repository

end RepairLoop
