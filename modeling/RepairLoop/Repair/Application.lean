import RepairLoop.Repair.Session
import RepairLoop.Repository.History
import RepairLoop.Text.Template
/-!
# Applying and rolling back

A valid patch is committed on a branch of its own first; the commit is then taken over to
the branch that was checked out, behind a backup. What undoes it is kept with the patch.
A rollback applies that, or goes back to the backup if nothing but the patch lies above
it.
-/

namespace RepairLoop

/-- Where an applied patch landed, and what undoes it. -/
structure AppliedChange where
  commit : String
  rollback : String
  backup : Option String
  branch : String
  deriving DecidableEq, Inhabited

namespace Session

/-! ## The commit message -/

/-- What a commit message may name. -/
def messageValues (i : Issue) (p : Patch) : List (String × String) :=
  [("description", s!"{i.kind.name} in {i.filePath}:{i.line} ({i.message})"),
    ("issue_id", i.id), ("patch_id", p.id), ("kind", i.kind.name), ("file", i.filePath)]

/-- The message of the commit for a patch. -/
def commitMessage (settings : GitSettings) (i : Issue) (p : Patch) : Except Fault String :=
  match Text.Template.fill settings.commitMessageTemplate (messageValues i p) with
  | .error f => .error f.toFault
  | .ok subject =>
    let body := Text.strip p.explanation
    .ok (if body == "" then subject else subject ++ "\n\n" ++ body)

/-! ## In the repository -/

/-- Commits a patch on the branch that is checked out. -/
def commitPatch (r : Repository) (i : Issue) (p : Patch) : Act String := do
  r.applyDiff p.diff true true
  r.commit (← Act.ofExcept (commitMessage r.settings i p)) [] none

/-- Drops all changes and goes back to a branch. -/
def returnTo (r : Repository) (base : String) : Act Unit := do
  let _ ← r.try_ ["reset", "--hard", "--quiet"]
  r.checkOut base

/-- Commits a patch on a branch and takes the commit over to the base: yields the last
backup, the last commit and what undoes it. -/
def transfer (r : Repository) (base branch : String) (i : Issue) (p : Patch) :
    Act (Option String × Option String × String) := do
  r.checkOut branch
  let commit ← Act.finally_ (commitPatch r i p) (returnTo r base)
  r.cherryPick commit
  let backup := (← get).lastBackup
  let head ← r.head
  let rollback ← r.difference "HEAD" "HEAD~1" []
  pure (backup, head, rollback)

/-- Takes a branch away, unless it is checked out or does not exist. -/
def dropBranch (r : Repository) (branch : String) : Act Unit := do
  if (← r.currentBranch) != some branch then
    if ← r.hasBranch branch then r.deleteBranch branch true

/-- Refuses where the working tree has changes. -/
def requireClean (r : Repository) : Act Unit := do
  if !(← r.isClean false) then
    let changes ← r.status false
    Repository.refuse "Working tree has uncommitted changes; refusing to apply."
      [("status", .list (changes.map StatusEntry.json))]

/-- Applies a patch to the repository. -/
def applyToRepository (r : Repository) (i : Issue) (p : Patch) : Act AppliedChange := do
  match ← r.currentBranch with
  | none => Repository.refuse "Cannot apply a patch onto a detached HEAD." []
  | some base =>
    requireClean r
    let branch ← r.isolate i.id p.id "HEAD"
    let (backup, head, rollback) ←
      Act.finally_ (transfer r base branch i p) (dropBranch r branch)
    match head with
    | some head =>
      if rollback == "" then nothing base else pure ⟨head, rollback, backup, branch⟩
    | none => nothing base
where
  /-- Refuses a patch that changed nothing. -/
  nothing (base : String) : Act AppliedChange :=
    Repository.refuse s!"Patch {p.id} produced no change on {base}." []

/-! ## In the store -/

/-- Refuses a patch that the store does not know as valid. -/
def requireValidated (p : Patch) : Act Unit := do
  let latest := (← Act.store).latestResult? p.id
  let stored ← Act.stored fun s => s.patch? p.id
  if latest.isNone || !stored.any (·.validationStatus == .valid) then
    throw (.refuse .persistence s!"Patch {p.id} has no passing validation on record." [])

/-- Applies a patch. -/
def applyPatch (s : Session) (i : Issue) (p : Patch) : Act Patch := do
  requireValidated p
  let change ← applyToRepository s.repository i p
  let q ← move p (.apply change.rollback (some change.commit) change.backup)
  let now ← Act.now
  Act.storing fun s => s.markApplied p.id change.rollback (some change.commit) change.backup now
  Act.emit (.of "patch_applied" [("issue_id", .text i.id), ("patch_id", .text p.id),
    ("commit", .text change.commit), ("backup_branch", Json.ofText? change.backup)])
  pure q

/-! ## Rolling back -/

/-- How a patch was rolled back. -/
inductive RollbackMethod where
  | diff
  | backup
  deriving DecidableEq, Inhabited

/-- The name of a method. -/
def RollbackMethod.name : RollbackMethod → String
  | diff => "rollback-patch"
  | backup => "backup-reset"

/-- Commits what undoes a patch. -/
def commitRollback (r : Repository) (p : Patch) : Act Unit := do
  r.applyDiff (p.rollbackPatch.getD "") true true
  let _ ← r.commit s!"revert: roll back self-heal patch {p.id}" [] none

/-- Goes back to the backup of a patch, if at most one commit lies above it. -/
def resetToBackup (r : Repository) (p : Patch) (backup : String) : Act Unit := do
  let out ← r.run ["log", "--oneline", backup ++ "..HEAD"]
  let ahead := Text.splitLines (Text.strip out.out)
  if 1 < ahead.length then
    let commits := "; ".intercalate ahead
    Repository.refuse (s!"Rollback diff for patch {p.id} did not apply and HEAD is "
      ++ s!"{ahead.length} commits ahead of {backup}; refusing to reset over: {commits}")
      [("patch_id", .text p.id), ("backup_branch", .text backup), ("commits", Json.texts ahead)]
  r.resetTo backup true

/-- Undoes a patch in the repository. -/
def undo (r : Repository) (p : Patch) : Act RollbackMethod := do
  match ← Act.attempt (commitRollback r p) with
  | .ok () => pure .diff
  | .error f =>
    match p.backupBranch.filter (· != "") with
    | some backup =>
      if f.isRefusal then
        resetToBackup r p backup
        pure .backup
      else throw f
    | none => throw f

/-- Rolls an applied patch back and opens its issue again. -/
def rollBack (s : Session) (id : String) : Act Patch := do
  match ← Act.stored fun s => s.patch? id with
  | none => throw (.refuse .persistence s!"Unknown patch: {id}" [("patch_id", .text id)])
  | some p =>
    if !p.canMove .rolledBack then
      throw (.refuse .transition s!"Patch {id} is not applied and cannot be rolled back"
        [("patch_id", .text id)])
    let method ← undo s.repository p
    let p ← move p .rollBack
    let now ← Act.now
    Act.storing fun s => s.markRolledBack p.id now
    let now ← Act.now
    Act.storing fun s => s.setIssueStatus p.issueId .open_ now
    Act.emit (.of "patch_rolled_back" [("patch_id", .text p.id), ("issue_id", .text p.issueId),
      ("method", .text method.name)])
    pure p

end Session

end RepairLoop
