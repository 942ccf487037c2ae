import RepairLoop.Record.Result
/-!
# The life of a patch

A patch waits, is validated, and is applied only if it was found valid; what was
applied can be rolled back. `Patch.state` reads the state off the fields of the patch,
`PatchState.next` lists the moves, and `Patch.act` performs one. A refused move leaves
the patch alone.
-/

namespace RepairLoop

/-- The states of a patch. -/
inductive PatchState where
  | pending
  | validating
  | valid
  | invalid
  | rejected
  | applied
  | rolledBack
  deriving DecidableEq, Inhabited

namespace PatchState

/-- The name of a state. -/
def name : PatchState → String
  | pending => "Pending"
  | validating => "Validating"
  | valid => "Valid"
  | invalid => "Invalid"
  | rejected => "Rejected"
  | applied => "Applied"
  | rolledBack => "RolledBack"

/-- All states. -/
def all : List PatchState :=
  [pending, validating, valid, invalid, rejected, applied, rolledBack]

/-- The states that may follow. -/
def next : PatchState → List PatchState
  | pending => [validating, invalid, rejected]
  | validating => [valid, invalid, rejected]
  | valid => [applied, rejected]
  | invalid => [rejected]
  | applied => [rolledBack]
  | rejected => []
  | rolledBack => []

/-- The state of a patch that was neither applied nor rolled back. -/
def ofStatus : ValidationStatus → PatchState
  | .pending => pending
  | .validating => validating
  | .valid => valid
  | .invalid => invalid
  | .rejected => rejected

end PatchState

/-- Why a patch may not move on. -/
inductive TransitionFault where
  | notNext (patch : String) (current target : PatchState)
  | foreignResult (patch owner : String)
  | noRollback (patch : String)
  deriving DecidableEq, Inhabited

namespace TransitionFault

/-- What is said of a move that may not be made. -/
def message : TransitionFault → String
  | notNext p current target => s!"Patch {p} cannot move from {current.name} to {target.name}"
  | foreignResult p owner => s!"Validation result belongs to patch {owner}, not {p}"
  | noRollback p => s!"Patch {p} cannot be applied without a rollback patch"

/-- The details of a move that may not be made. -/
def details : TransitionFault → Members
  | notNext p current target =>
    [("patch_id", .text p), ("from", .text current.name), ("to", .text target.name)]
  | foreignResult p owner => [("patch_id", .text p), ("result_patch_id", .text owner)]
  | noRollback p => [("patch_id", .text p)]

/-- A move that may not be made stops its caller. -/
def toFault (f : TransitionFault) : Fault := .refuse .transition f.message f.details

end TransitionFault

/-- What may be done with a patch. -/
inductive PatchAction where
  | begin
  | invalidate (kind : ErrorKind) (needsReview : Bool)
  | record (result : ValidationResult) (allowWarnings : Bool)
  | reject (kind : Option ErrorKind)
  | apply (rollback : String) (commit backup : Option String)
  | rollBack
  deriving Inhabited

/-- A result counts as a success: one with a warning only where warnings are
allowed. -/
def ValidationResult.passes (r : ValidationResult) (allowWarnings : Bool) : Bool :=
  r.outcome == .success || (allowWarnings && r.outcome == .warning)

namespace Patch

/-- The state of a patch. -/
def state (p : Patch) : PatchState :=
  if p.rolledBack then .rolledBack
  else if p.applied then .applied
  else .ofStatus p.validationStatus

/-- A patch may move to a state. -/
def canMove (p : Patch) (target : PatchState) : Bool :=
  p.state.next.contains target

/-- Refuses a move that is not among the next ones. -/
def require (p : Patch) (target : PatchState) : Except TransitionFault Unit :=
  if p.canMove target then .ok () else .error (.notNext p.id p.state target)

/-- A patch after an action; the times are that of an application and that of the
change. -/
def act (p : Patch) (a : PatchAction) (applied touched : Moment) :
    Except TransitionFault Patch :=
  match a with
  | .begin => do
    p.require .validating
    .ok { p with validationStatus := .validating, errorKind := none, updatedAt := touched }
  | .invalidate kind needsReview => do
    p.require .invalid
    .ok { p with
      validationStatus := .invalid, errorKind := some kind, needsReview := needsReview
      updatedAt := touched }
  | .record r allowWarnings => do
    if r.patchId != p.id then .error (.foreignResult p.id r.patchId)
    else if r.passes allowWarnings then
      p.require .valid
      .ok { p with validationStatus := .valid, errorKind := none, updatedAt := touched }
    else
      p.require .invalid
      .ok { p with
        validationStatus := .invalid, errorKind := some (r.errorKind.getD .securityFailure)
        updatedAt := touched }
  | .reject kind => do
    p.require .rejected
    .ok { p with
      validationStatus := .rejected, errorKind := kind.or p.errorKind, updatedAt := touched }
  | .apply rollback commit backup => do
    p.require .applied
    if rollback == "" then .error (.noRollback p.id)
    else
      .ok { p with
        rollbackPatch := some rollback, commitId := commit, backupBranch := backup
        applied := true, appliedAt := some applied, updatedAt := touched }
  | .rollBack => do
    p.require .rolledBack
    .ok { p with rolledBack := true, updatedAt := touched }

/-- A patch after an action at the present time; the clock is read only where the
action is allowed. -/
def actNow (p : Patch) (a : PatchAction) : ExceptT TransitionFault (StateM Supply) Patch :=
  match p.act a default default with
  | .error f => throw f
  | .ok _ => do
    let applied ← match a with
      | .apply _ _ _ => (Supply.readClock : StateM Supply Moment)
      | _ => (pure default : StateM Supply Moment)
    let touched ← (Supply.readClock : StateM Supply Moment)
    match p.act a applied touched with
    | .ok q => pure q
    | .error f => throw f

end Patch

end RepairLoop
