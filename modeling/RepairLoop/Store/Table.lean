import RepairLoop.Json.Parser
import RepairLoop.Json.Printer
import RepairLoop.Store.Basic
import RepairLoop.Time.Iso
/-!
# The tables of the store

The records of a store as rows of three tables. A column holds a text, an integer or a
double: names of closed sets are texts, lists and mappings are texts of JSON values, truth
values are integers, and times are texts in universal time. Only the columns of a row that
are named are overwritten where a patch is put again. Rows are read as records are, from
data that is not yet checked.
-/

namespace RepairLoop

/-- Why a row is no record. -/
inductive RowFault where
  | json (e : Json.ReadError)
  | time (f : Iso.Fault)
  | fields (ps : List Problem)
  deriving Inhabited

/-! ## Columns -/

namespace Column

/-- A JSON value as a text. -/
def json (j : Json) : String := Json.render Json.Style.spaced j

/-- Some texts as a text. -/
def texts (ss : List String) : String := json (Json.texts ss)

/-- A truth value as an integer. -/
def flag (b : Bool) : Int := if b then 1 else 0

/-- A double; zero loses its sign. -/
def real (x : Float) : Float := if x == 0.0 then 0.0 else x

/-- Reads a JSON value; for an empty text or null another is taken. -/
def readJson (s : String) (otherwise : Json) : Except RowFault Json :=
  if s.isEmpty then .ok otherwise
  else
    match Json.parse s with
    | .error e => .error (.json e)
    | .ok .null => .ok otherwise
    | .ok j => .ok j

/-- Reads a time; an empty text is none. -/
def readTime (s : Option String) : Except RowFault (Option Moment) :=
  match s with
  | none => .ok none
  | some s =>
    if s.isEmpty then .ok none
    else
      match Iso.read s with
      | .error f => .error (.time f)
      | .ok m => .ok (some m)

/-- A value that may be missing. -/
def nullable {α : Type} (f : α → Datum) : Option α → Datum
  | none => .null
  | some a => f a

/-- What a shape makes of data. -/
def readWith {α : Type} (shape : Shape α) (d : Datum) (supply : Supply) : Except RowFault α :=
  match ((shape d).run supply).1 with
  | .error ps => .error (.fields ps)
  | .ok a => .ok a

end Column

/-! ## Rows -/

/-- A row of the table of issues. -/
structure IssueRow where
  id : String
  filePath : String
  line : Int
  columnNumber : Int
  severity : String
  kind : String
  message : String
  suggestion : Option String
  rule : Option String
  context : String
  status : String
  metadata : String
  createdAt : String
  updatedAt : String
  resolvedAt : Option String
  deriving DecidableEq, Inhabited

namespace IssueRow

/-- The row of an issue whose times are kept. -/
def of (i : Issue) : IssueRow where
  id := i.id
  filePath := i.filePath
  line := i.line
  columnNumber := i.column
  severity := i.severity.name
  kind := i.kind.name
  message := i.message
  suggestion := i.suggestion
  rule := i.rule
  context := Column.json (Issue.textMembers i.context)
  status := i.status.name
  metadata := Column.json (.object i.metadata)
  createdAt := i.createdAt.isoText
  updatedAt := i.updatedAt.isoText
  resolvedAt := i.resolvedAt.map Moment.isoText

/-- The data of an issue. -/
def datum (row : IssueRow) : Except RowFault Datum := do
  let context ← Column.readJson row.context (.object [])
  let metadata ← Column.readJson row.metadata (.object [])
  let created ← Column.readTime (some row.createdAt)
  let updated ← Column.readTime (some row.updatedAt)
  let resolved ← Column.readTime row.resolvedAt
  .ok (.map [(.text "id", .text row.id), (.text "file_path", .text row.filePath),
    (.text "line", .int row.line), (.text "column", .int row.columnNumber),
    (.text "severity", .text row.severity), (.text "kind", .text row.kind),
    (.text "message", .text row.message),
    (.text "suggestion", Column.nullable .text row.suggestion),
    (.text "rule", Column.nullable .text row.rule), (.text "context", Datum.ofJson context),
    (.text "status", .text row.status), (.text "metadata", Datum.ofJson metadata),
    (.text "created_at", Column.nullable .moment created),
    (.text "updated_at", Column.nullable .moment updated),
    (.text "resolved_at", Column.nullable .moment resolved)])

/-- The issue of a row. -/
def issue (row : IssueRow) (supply : Supply) : Except RowFault Issue := do
  Column.readWith Issue.shape (← row.datum) supply

end IssueRow

/-- A row of the table of patches. -/
structure PatchRow where
  id : String
  issueId : String
  originalCode : String
  patchedCode : String
  diff : String
  explanation : String
  confidence : Float
  safetyScore : Float
  safetyMatches : String
  breakingChanges : String
  dependencies : String
  validationStatus : String
  errorKind : Option String
  needsReview : Int
  applied : Int
  appliedAt : Option String
  rolledBack : Int
  rollbackPatch : Option String
  backupBranch : Option String
  commitId : Option String
  generationIndex : Int
  createdAt : String
  updatedAt : String
  deriving Inhabited

namespace PatchRow

/-- The row of a patch whose times are kept. -/
def of (p : Patch) : PatchRow where
  id := p.id
  issueId := p.issueId
  originalCode := p.originalCode
  patchedCode := p.patchedCode
  diff := p.diff
  explanation := p.explanation
  confidence := Column.real p.confidence
  safetyScore := Column.real p.safetyScore
  safetyMatches := Column.texts p.safetyMatches
  breakingChanges := Column.texts p.breakingChanges
  dependencies := Column.texts p.dependencies
  validationStatus := p.validationStatus.name
  errorKind := p.errorKind.map ErrorKind.name
  needsReview := Column.flag p.needsReview
  applied := Column.flag p.applied
  appliedAt := p.appliedAt.map Moment.isoText
  rolledBack := Column.flag p.rolledBack
  rollbackPatch := p.rollbackPatch
  backupBranch := p.backupBranch
  commitId := p.commitId
  generationIndex := p.generationIndex
  createdAt := p.createdAt.isoText
  updatedAt := p.updatedAt.isoText

/-- A row with the columns of another, as far as these are overwritten. -/
def overwritten (old new : PatchRow) : PatchRow :=
  { old with
    originalCode := new.originalCode
    patchedCode := new.patchedCode
    diff := new.diff
    explanation := new.explanation
    confidence := new.confidence
    safetyScore := new.safetyScore
    safetyMatches := new.safetyMatches
    breakingChanges := new.breakingChanges
    dependencies := new.dependencies
    validationStatus := new.validationStatus
    errorKind := new.errorKind
    needsReview := new.needsReview
    applied := new.applied
    appliedAt := new.appliedAt
    rolledBack := new.rolledBack
    rollbackPatch := new.rollbackPatch
    backupBranch := new.backupBranch
    commitId := new.commitId
    updatedAt := new.updatedAt }

/-- The data of a patch. -/
def datum (row : PatchRow) : Except RowFault Datum := do
  let matches_ ← Column.readJson row.safetyMatches (.list [])
  let changes ← Column.readJson row.breakingChanges (.list [])
  let dependencies ← Column.readJson row.dependencies (.list [])
  let applied ← Column.readTime row.appliedAt
  let created ← Column.readTime (some row.createdAt)
  let updated ← Column.readTime (some row.updatedAt)
  .ok (.map [(.text "id", .text row.id), (.text "issue_id", .text row.issueId),
    (.text "original_code", .text row.originalCode),
    (.text "patched_code", .text row.patchedCode), (.text "diff", .text row.diff),
    (.text "explanation", .text row.explanation), (.text "confidence", .float row.confidence),
    (.text "safety_score", .float row.safetyScore),
    (.text "safety_matches", Datum.ofJson matches_),
    (.text "breaking_changes", Datum.ofJson changes),
    (.text "dependencies", Datum.ofJson dependencies),
    (.text "validation_status", .text row.validationStatus),
    (.text "error_kind", Column.nullable .text row.errorKind),
    (.text "needs_review", .bool (row.needsReview != 0)),
    (.text "applied", .bool (row.applied != 0)),
    (.text "applied_at", Column.nullable .moment applied),
    (.text "rolled_back", .bool (row.rolledBack != 0)),
    (.text "rollback_patch", Column.nullable .text row.rollbackPatch),
    (.text "backup_branch", Column.nullable .text row.backupBranch),
    (.text "commit_id", Column.nullable .text row.commitId),
    (.text "generation_index", .int row.generationIndex),
    (.text "created_at", Column.nullable .moment created),
    (.text "updated_at", Column.nullable .moment updated)])

/-- The patch of a row. -/
def patch (row : PatchRow) (supply : Supply) : Except RowFault Patch := do
  Column.readWith Patch.shape (← row.datum) supply

end PatchRow

/-- A row of the table of results. -/
structure ResultRow where
  id : String
  patchId : String
  payload : String
  outcome : String
  createdAt : String
  deriving DecidableEq, Inhabited

namespace ResultRow

/-- The row of a result that is kept. -/
def of (r : StoredResult) : ResultRow where
  id := r.result.id
  patchId := r.result.patchId
  payload := Json.render Json.Style.plain (.object r.result.members)
  outcome := r.result.outcome.name
  createdAt := r.stamp

/-- The result of a row. -/
def result (row : ResultRow) (supply : Supply) : Except RowFault ValidationResult :=
  match Json.parse row.payload with
  | .error e => .error (.json e)
  | .ok j => Column.readWith ValidationResult.shape (Datum.ofJson j) supply

end ResultRow

/-! ## Tables -/

/-- The rows of a store. -/
structure Tables where
  issues : List IssueRow
  patches : List PatchRow
  results : List ResultRow
  deriving Inhabited

/-- The rows of the records of a store. -/
def Store.tables (s : Store) : Tables :=
  ⟨s.issues.map IssueRow.of, s.patches.map PatchRow.of, s.results.map ResultRow.of⟩

namespace Tables

/-- Inserts an issue. -/
def createIssue (t : Tables) (i : Issue) : Except StoreFault Tables := do
  let row := IssueRow.of (← Store.keptIssue i)
  if t.issues.any (·.id == row.id) then .error .takenIssue
  else .ok { t with issues := t.issues ++ [row] }

/-- The issue with a name. -/
def issue? (t : Tables) (id : String) (supply : Supply) : Except RowFault (Option Issue) :=
  match t.issues.find? (·.id == id) with
  | none => .ok none
  | some row => (row.issue supply).map some

/-- Inserts a patch, or overwrites columns of the row with its name; it takes the time. -/
def createPatch (t : Tables) (p : Patch) (now : Moment) : Except StoreFault Tables := do
  let row := PatchRow.of (← Store.keptPatch { p with updatedAt := now })
  if t.patches.any (·.id == row.id) then
    .ok { t with patches := t.patches.map fun old =>
      if old.id == row.id then old.overwritten row else old }
  else if t.issues.any (·.id == row.issueId) then .ok { t with patches := t.patches ++ [row] }
  else .error .noOwner

/-- The patch with a name. -/
def patch? (t : Tables) (id : String) (supply : Supply) : Except RowFault (Option Patch) :=
  match t.patches.find? (·.id == id) with
  | none => .ok none
  | some row => (row.patch supply).map some

/-- Inserts a result. -/
def recordResult (t : Tables) (r : ValidationResult) : Except StoreFault Tables := do
  let time ← Store.keptTime r.timestamp
  let row := ResultRow.of ⟨Store.keptResult r, time.isoText⟩
  if t.results.any (·.id == row.id) then .error .takenResult
  else if t.patches.any (·.id == row.patchId) then .ok { t with results := t.results ++ [row] }
  else .error .noOwner

/-- The rows of a patch in the order of their times. -/
def resultRows (t : Tables) (patch : String) : List ResultRow :=
  (t.results.filter (·.patchId == patch)).mergeSort fun a b => a.createdAt ≤ b.createdAt

/-- The results for a patch, the oldest first. -/
def resultsFor (t : Tables) (patch : String) (supply : Supply) :
    Except RowFault (List ValidationResult) :=
  (t.resultRows patch).mapM (·.result supply)

/-- The latest result for a patch. -/
def latestResult? (t : Tables) (patch : String) (supply : Supply) :
    Except RowFault (Option ValidationResult) :=
  (t.resultsFor patch supply).map List.getLast?

/-- The row is that of an issue that was resolved before a time. -/
def isOldRow (cutoff : String) (row : IssueRow) : Bool :=
  row.status == IssueStatus.resolved.name && row.resolvedAt.any (· < cutoff)

/-- Deletes rows of issues. A row that refers to a deleted one is deleted with it. -/
def deleteIssues (t : Tables) (gone : IssueRow → Bool) : Tables :=
  let loses (p : PatchRow) : Bool := t.issues.any fun i => gone i && i.id == p.issueId
  { issues := t.issues.filter (!gone ·)
    patches := t.patches.filter (!loses ·)
    results := t.results.filter fun r => !t.patches.any fun p => loses p && p.id == r.patchId }

/-- Deletes the rows of issues that were resolved longer ago than a span; says how many rows of
issues there were. -/
def cleanUp (t : Tables) (age : Int) (now : Moment) : Except StoreFault (Tables × Nat) := do
  let cutoff ← (now.before age).mapError .span
  let cutoff ← Store.keptTime cutoff
  let gone := isOldRow cutoff.isoText
  .ok (t.deleteIssues gone, (t.issues.filter gone).length)

end Tables

end RepairLoop
