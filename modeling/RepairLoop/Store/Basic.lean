import RepairLoop.Lifecycle
import RepairLoop.Time.Moment
/-!
# The store

Issues, the patches for them and the results of their validations. A patch belongs to
an issue and a result to a patch that the store holds; what belongs to something goes
with it. Times are kept in universal time and ordered by their texts.
-/

namespace RepairLoop

/-- Why the store refuses. -/
inductive StoreFault where
  | takenIssue
  | takenResult
  | noOwner
  | unknownIssue (id : String)
  | notUpdatable (id : String) (status : ValidationStatus)
  | notValid (id : String)
  | noRollback (id : String)
  | neverApplied (id : String)
  | tooLarge
  | longPattern
  | span (f : SpanFault)
  | unreadable (problem : String)
  deriving DecidableEq, Inhabited

namespace StoreFault

private def operation (cause : String) : Fault :=
  .refuse .persistence s!"Store operation failed: {cause}" []

/-- What stops the caller of a store that refuses. -/
def toFault : StoreFault → Fault
  | takenIssue => operation "UNIQUE constraint failed: issues.id"
  | takenResult => operation "UNIQUE constraint failed: validation_results.id"
  | noOwner => operation "FOREIGN KEY constraint failed"
  | unknownIssue id => .refuse .persistence s!"Unknown issue: {id}" [("issue_id", .text id)]
  | notUpdatable id status =>
    .refuse .persistence s!"Cannot update validation for patch {id}"
      [("patch_id", .text id), ("status", .text status.name)]
  | notValid id =>
    .refuse .persistence s!"Patch {id} is not Valid and cannot be marked applied."
      [("patch_id", .text id)]
  | noRollback id =>
    .refuse .persistence "An applied patch requires a rollback patch." [("patch_id", .text id)]
  | neverApplied id =>
    .refuse .persistence s!"Patch {id} was never applied." [("patch_id", .text id)]
  | tooLarge => .mishap .overflow "Python int too large to convert to SQLite INTEGER"
  | longPattern => .refuse .persistence "Store query failed: LIKE or GLOB pattern too complex" []
  | span f =>
    .mishap (match f with
      | .notANumber => .badValue
      | _ => .overflow) f.message
  | unreadable m => .invalid [⟨[], "value_error", some ("Value error, " ++ m)⟩]

end StoreFault

/-- A result as it is kept, with the text of its time. -/
structure StoredResult where
  result : ValidationResult
  stamp : String
  deriving Inhabited

/-- The records of a store, each sort in order of insertion. -/
structure Store where
  issues : List Issue
  patches : List Patch
  results : List StoredResult
  deriving Inhabited

namespace Store

/-- A store without records. -/
def empty : Store := ⟨[], [], []⟩

/-! ## Times and numbers -/

/-- A moment as it is kept: in universal time, as which a moment without an offset is
read. -/
def keptTime (m : Moment) : Except StoreFault Moment :=
  match m.toUniversal? with
  | some u => .ok u
  | none => .error (.span .outOfCalendar)

/-- The text by which kept times are ordered. -/
def stampOf (m : Moment) : String := m.isoText

/-- A number that the store can hold has at most 64 bits. -/
def fits (n : Int) : Bool := -(Number.twoTo 63 : Int) ≤ n && n < Number.twoTo 63

/-- A moment, if there is one, as it is kept. -/
def keptOptional (m : Option Moment) : Except StoreFault (Option Moment) :=
  match m with
  | none => .ok none
  | some m => (keptTime m).map some

/-- An issue as it is kept. -/
def keptIssue (i : Issue) : Except StoreFault Issue := do
  let created ← keptTime i.createdAt
  let updated ← keptTime i.updatedAt
  let resolved ← keptOptional i.resolvedAt
  if fits i.line && fits i.column then
    .ok { i with createdAt := created, updatedAt := updated, resolvedAt := resolved }
  else .error .tooLarge

/-- A patch as it is kept. -/
def keptPatch (p : Patch) : Except StoreFault Patch := do
  let applied ← keptOptional p.appliedAt
  let created ← keptTime p.createdAt
  let updated ← keptTime p.updatedAt
  if fits p.generationIndex then
    .ok { p with appliedAt := applied, createdAt := created, updatedAt := updated }
  else .error .tooLarge

/-- A measure that is a number. -/
def finite (x : Option Float) : Option Float :=
  x.filter fun x => !x.isNaN && !x.isInf

/-- A result as it is kept: a measure that is no number is lost. -/
def keptResult (r : ValidationResult) : ValidationResult :=
  { r with performance := { r.performance with
      compileTimePercent := finite r.performance.compileTimePercent
      runtimePercent := finite r.performance.runtimePercent } }

/-! ## Issues -/

/-- The issue with a name. -/
def issue? (s : Store) (id : String) : Option Issue :=
  s.issues.find? (·.id == id)

/-- Adds an issue. -/
def addIssue (s : Store) (i : Issue) : Except StoreFault Store := do
  let i ← keptIssue i
  if (s.issue? i.id).isSome then .error .takenIssue else .ok { s with issues := s.issues ++ [i] }

/-- Records in order of their times; those of one time keep their order. -/
def oldestFirst {α : Type} (time : α → Moment) (xs : List α) : List α :=
  xs.mergeSort fun a b => stampOf (time a) ≤ stampOf (time b)

/-- Records with the latest first; those of one time keep their order. -/
def newestFirst {α : Type} (time : α → Moment) (xs : List α) : List α :=
  xs.mergeSort fun a b => stampOf (time b) ≤ stampOf (time a)

/-- The issues with a status. -/
def issuesByStatus (s : Store) (status : IssueStatus) : List Issue :=
  oldestFirst Issue.createdAt (s.issues.filter (·.status == status))

/-- Sets the status of an issue; a resolved one takes the time. -/
def setIssueStatus (s : Store) (id : String) (status : IssueStatus) (now : Moment) :
    Except StoreFault Store := do
  let now ← keptTime now
  if (s.issue? id).isSome then
    .ok { s with issues := s.issues.map fun i =>
      if i.id == id then
        { i with
          status := status, updatedAt := now
          resolvedAt := if status == .resolved then some now else none }
      else i }
  else .error (.unknownIssue id)

/-- A text fits a pattern: a percent sign stands for any characters, an underscore for
one; letters of ASCII are compared without regard to case. -/
def like : List Char → List Char → Bool
  | [], cs => cs.isEmpty
  | '%' :: ps, [] => like ps []
  | '%' :: ps, c :: cs => like ps (c :: cs) || like ('%' :: ps) cs
  | _ :: _, [] => false
  | p :: ps, c :: cs => (p == '_' || p.toLower == c.toLower) && like ps cs
termination_by ps cs => ps.length + cs.length

/-- What of a text, or of a pattern, is compared: all before its first null character. -/
def compared (text : String) : List Char := text.toList.takeWhile (· != '\x00')

/-- The pattern of a query, which may stand anywhere in a text. -/
def patternOf (query : String) : String := "%" ++ query ++ "%"

/-- The bytes that a pattern may have at most. -/
def patternLimit : Nat := 50000

/-- The path, the message or the kind of an issue fits a pattern. -/
def mentions (pattern : String) (i : Issue) : Bool :=
  [i.filePath, i.message, i.kind.name].any fun text => like (compared pattern) (compared text)

/-- The newest issues that fit a query. The length of the pattern matters only once an
issue is compared with it. -/
def searchIssues (s : Store) (query : String) (limit : Int) : Except StoreFault (List Issue) :=
  let pattern := patternOf query
  if !fits limit then .error .tooLarge
  else if limit != 0 && !s.issues.isEmpty && patternLimit < pattern.utf8ByteSize then
    .error .longPattern
  else
    let found := newestFirst Issue.createdAt (s.issues.filter (mentions pattern))
    .ok (if limit < 0 then found else found.take limit.toNat)

/-- The earliest other issue that describes the same defect and is still open. -/
def duplicateOf? (s : Store) (i : Issue) : Except StoreFault (Option Issue) :=
  if !fits i.line then .error .tooLarge
  else
    .ok (oldestFirst Issue.createdAt (s.issues.filter fun j =>
      j.filePath == i.filePath && j.line == i.line && j.kind == i.kind && j.message == i.message &&
        j.id != i.id && (j.status == .open_ || j.status == .inProgress))).head?

/-! ## Patches -/

/-- The patch with a name, whatever its fields say. -/
def rawPatch? (s : Store) (id : String) : Option Patch :=
  s.patches.find? (·.id == id)

/-- A patch is read only if it keeps the rule of applied patches. -/
def readPatch (p : Patch) : Except StoreFault Patch :=
  match p.rule with
  | none => .ok p
  | some m => .error (.unreadable m)

/-- The patch with a name. -/
def patch? (s : Store) (id : String) : Except StoreFault (Option Patch) :=
  match s.rawPatch? id with
  | none => .ok none
  | some p => (readPatch p).map some

/-- A kept patch with what another says; it keeps its issue, its place among the
candidates and the time of its creation. -/
def mergePatch (old new : Patch) : Patch :=
  { new with
    issueId := old.issueId, generationIndex := old.generationIndex, createdAt := old.createdAt }

/-- Adds a patch, or overwrites the one with its name. -/
def putPatch (s : Store) (p : Patch) : Except StoreFault Store := do
  let p ← keptPatch p
  if (s.rawPatch? p.id).isSome then
    .ok { s with patches := s.patches.map fun q => if q.id == p.id then mergePatch q p else q }
  else if (s.issue? p.issueId).isSome then .ok { s with patches := s.patches ++ [p] }
  else .error .noOwner

private def byGeneration (a b : Patch) : Bool :=
  a.generationIndex < b.generationIndex ||
    (a.generationIndex == b.generationIndex && stampOf a.createdAt ≤ stampOf b.createdAt)

/-- The patches for an issue, in the order of their generation. -/
def patchesFor (s : Store) (issue : String) : Except StoreFault (List Patch) :=
  ((s.patches.filter (·.issueId == issue)).mergeSort byGeneration).mapM readPatch

/-- Changes the patches of a kind, of which there must be one. -/
def updatePatches (s : Store) (p : Patch → Bool) (f : Patch → Patch)
    (otherwise : StoreFault) : Except StoreFault Store :=
  if s.patches.any p then
    .ok { s with patches := s.patches.map fun q => if p q then f q else q }
  else .error otherwise

/-- Sets how far the validation of a patch has come, unless the patch is applied. -/
def setValidation (s : Store) (id : String) (status : ValidationStatus) (kind : Option ErrorKind)
    (now : Moment) : Except StoreFault Store := do
  let now ← keptTime now
  s.updatePatches (fun q => q.id == id && !q.applied)
    (fun q => { q with validationStatus := status, errorKind := kind, updatedAt := now })
    (.notUpdatable id status)

/-- Marks a valid patch as applied. -/
def markApplied (s : Store) (id rollback : String) (commit backup : Option String)
    (now : Moment) : Except StoreFault Store := do
  let now ← keptTime now
  s.updatePatches (fun q => q.id == id && q.validationStatus == .valid)
    (fun q => { q with
      applied := true, appliedAt := some now, rollbackPatch := some rollback, commitId := commit
      backupBranch := backup, updatedAt := now })
    (.notValid id)

/-- Marks a valid patch as applied, unless nothing is said of what undoes it. -/
def markUndoable (s : Store) (id : String) (rollback commit backup : Option String)
    (now : Moment) : Except StoreFault Store :=
  match rollback with
  | none => .error (.noRollback id)
  | some rollback => s.markApplied id rollback commit backup now

/-- Marks an applied patch as rolled back. -/
def markRolledBack (s : Store) (id : String) (now : Moment) : Except StoreFault Store := do
  let now ← keptTime now
  s.updatePatches (fun q => q.id == id && q.applied)
    (fun q => { q with rolledBack := true, updatedAt := now }) (.neverApplied id)

/-! ## Results -/

/-- Adds the result of a validation. -/
def addResult (s : Store) (r : ValidationResult) : Except StoreFault Store := do
  let time ← keptTime r.timestamp
  if s.results.any (·.result.id == r.id) then .error .takenResult
  else if (s.rawPatch? r.patchId).isNone then .error .noOwner
  else .ok { s with results := s.results ++ [⟨keptResult r, stampOf time⟩] }

/-- The results for a patch, the oldest first. -/
def resultsFor (s : Store) (patch : String) : List ValidationResult :=
  ((s.results.filter (·.result.patchId == patch)).mergeSort fun a b => a.stamp ≤ b.stamp).map
    StoredResult.result

/-- The latest result for a patch. -/
def latestResult? (s : Store) (patch : String) : Option ValidationResult :=
  (s.resultsFor patch).getLast?

/-! ## Keeping the store small -/

/-- An issue that was resolved before a time. -/
def isOld (cutoff : Moment) (i : Issue) : Bool :=
  i.status == .resolved && match i.resolvedAt with
    | some t => decide (stampOf t < stampOf cutoff)
    | none => false

/-- The store without what belongs to nothing. -/
def sweep (s : Store) : Store :=
  let patches := s.patches.filter fun p => s.issues.any (·.id == p.issueId)
  { s with
    patches := patches
    results := s.results.filter fun r => patches.any (·.id == r.result.patchId) }

/-- Drops the issues that were resolved longer ago than a span, with all that belongs
to them; says how many there were. -/
def cleanUp (s : Store) (age : Int) (now : Moment) : Except StoreFault (Store × Nat) := do
  let cutoff ← (now.before age).mapError .span
  let cutoff ← keptTime cutoff
  let old := s.issues.filter (isOld cutoff)
  .ok (sweep { s with issues := s.issues.filter fun i => !isOld cutoff i }, old.length)

end Store

end RepairLoop
