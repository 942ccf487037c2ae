import RepairLoop.Record.Issue
/-!
# Patches and results

A candidate change for an issue, and what its validation yielded.
-/

/-!
## Patches

A patch is a candidate change for one issue. An applied patch is valid and carries
the diff that undoes it: `Patch.rule` says so, and what is read keeps it.
-/

namespace RepairLoop

/-- A candidate change for an issue. -/
structure Patch where
  id : String
  issueId : String
  originalCode : String
  patchedCode : String
  diff : String
  explanation : String
  confidence : Float
  safetyScore : Float
  safetyMatches : List String
  breakingChanges : List String
  dependencies : List String
  validationStatus : ValidationStatus
  errorKind : Option ErrorKind
  needsReview : Bool
  applied : Bool
  appliedAt : Option Moment
  rolledBack : Bool
  rollbackPatch : Option String
  backupBranch : Option String
  commitId : Option String
  generationIndex : Int
  createdAt : Moment
  updatedAt : Moment
  deriving Inhabited

namespace Patch

/-- What is wrong with an applied patch. -/
def rule (p : Patch) : Option String :=
  if p.applied then
    if p.validationStatus != .valid then some "an applied patch must have validation_status Valid"
    else if p.rollbackPatch.isNone then some "an applied patch must carry a rollback patch"
    else none
  else none

/-- The score by which candidates are ranked. -/
def rankingScore (p : Patch) : Float := p.confidence * p.safetyScore

/-- The keys of a patch. -/
def keys : List String :=
  ["id", "issue_id", "original_code", "patched_code", "diff", "explanation", "confidence",
    "safety_score", "safety_matches", "breaking_changes", "dependencies", "validation_status",
    "error_kind", "needs_review", "applied", "applied_at", "rolled_back", "rollback_patch",
    "backup_branch", "commit_id", "generation_index", "created_at", "updated_at"]

/-- How a patch is read. -/
def shape : Shape Patch := fun d =>
  Reading.checked (Reading.record keys (fun es =>
    Patch.mk
      <$> Reading.field es "id" (Reading.taking Supply.freshName) Schema.text
      <*> Reading.required es "issue_id" Schema.text
      <*> Reading.field es "original_code" (pure "") Schema.text
      <*> Reading.field es "patched_code" (pure "") Schema.text
      <*> Reading.field es "diff" (pure "") Schema.text
      <*> Reading.field es "explanation" (pure "") Schema.text
      <*> Reading.field es "confidence" (pure 0.0) (Schema.floatWithin 0.0 1.0)
      <*> Reading.field es "safety_score" (pure 1.0) (Schema.floatWithin 0.0 1.0)
      <*> Reading.field es "safety_matches" (pure []) (Schema.list Schema.text)
      <*> Reading.field es "breaking_changes" (pure []) (Schema.list Schema.text)
      <*> Reading.field es "dependencies" (pure []) (Schema.list Schema.text)
      <*> Reading.field es "validation_status" (pure .pending)
        (Schema.enum ValidationStatus.ofName?)
      <*> Reading.field es "error_kind" (pure none) (Schema.nullable (Schema.enum ErrorKind.ofName?))
      <*> Reading.field es "needs_review" (pure false) Schema.bool
      <*> Reading.field es "applied" (pure false) Schema.bool
      <*> Reading.field es "applied_at" (pure none) (Schema.nullable Schema.moment)
      <*> Reading.field es "rolled_back" (pure false) Schema.bool
      <*> Reading.field es "rollback_patch" (pure none) (Schema.nullable Schema.text)
      <*> Reading.field es "backup_branch" (pure none) (Schema.nullable Schema.text)
      <*> Reading.field es "commit_id" (pure none) (Schema.nullable Schema.text)
      <*> Reading.field es "generation_index" (pure 0) Schema.int
      <*> Reading.field es "created_at" (Reading.taking Supply.readClock) Schema.moment
      <*> Reading.field es "updated_at" (Reading.taking Supply.readClock) Schema.moment) d) rule

/-- A kind of error or null. -/
def kindJson (k : Option ErrorKind) : Json := Json.ofText? (k.map ErrorKind.name)

/-- All fields of a patch. -/
def members (p : Patch) : Members :=
  [("id", .text p.id), ("issue_id", .text p.issueId), ("original_code", .text p.originalCode),
    ("patched_code", .text p.patchedCode), ("diff", .text p.diff),
    ("explanation", .text p.explanation), ("confidence", .float p.confidence),
    ("safety_score", .float p.safetyScore), ("safety_matches", Json.texts p.safetyMatches),
    ("breaking_changes", Json.texts p.breakingChanges),
    ("dependencies", Json.texts p.dependencies),
    ("validation_status", .text p.validationStatus.name), ("error_kind", kindJson p.errorKind),
    ("needs_review", .bool p.needsReview), ("applied", .bool p.applied),
    ("applied_at", Issue.momentJson p.appliedAt), ("rolled_back", .bool p.rolledBack),
    ("rollback_patch", Json.ofText? p.rollbackPatch),
    ("backup_branch", Json.ofText? p.backupBranch), ("commit_id", Json.ofText? p.commitId),
    ("generation_index", .int p.generationIndex), ("created_at", .text p.createdAt.wireText),
    ("updated_at", .text p.updatedAt.wireText)]

/-- What a patch says beside its times, and its score; of the time of its application
only whether there is one. -/
def summary (p : Patch) : Json :=
  .object ((Issue.without ["created_at", "updated_at"] p.members).map (fun (k, v) =>
    (k, if k == "applied_at" then .bool p.appliedAt.isSome else v)) ++
      [("ranking_score", .float p.rankingScore)])

end Patch

end RepairLoop

/-!
## Results of validations

A validation runs stages; its result holds what each of them yielded, the outcome of
all, and the measured changes in performance.
-/

namespace RepairLoop

/-- Measured changes against the unpatched code. -/
structure PerformanceImpact where
  compileTimePercent : Option Float
  binarySizeBytes : Option Int
  runtimePercent : Option Float
  deriving Inhabited

namespace PerformanceImpact

/-- Nothing measured. -/
def none_ : PerformanceImpact := ⟨none, none, none⟩

/-- The keys of an impact. -/
def keys : List String :=
  ["compile_time_change_pct", "binary_size_change_bytes", "runtime_change_pct"]

/-- How an impact is read. -/
def shape : Shape PerformanceImpact :=
  Reading.record keys fun es =>
    PerformanceImpact.mk
      <$> Reading.field es "compile_time_change_pct" (pure none) (Schema.nullable Schema.float)
      <*> Reading.field es "binary_size_change_bytes" (pure none) (Schema.nullable Schema.int)
      <*> Reading.field es "runtime_change_pct" (pure none) (Schema.nullable Schema.float)

/-- A double or null. -/
def floatJson : Option Float → Json
  | some x => .float x
  | none => .null

/-- An integer or null. -/
def intJson : Option Int → Json
  | some n => .int n
  | none => .null

/-- All fields of an impact. -/
def json (p : PerformanceImpact) : Json :=
  .object [("compile_time_change_pct", floatJson p.compileTimePercent),
    ("binary_size_change_bytes", intJson p.binarySizeBytes),
    ("runtime_change_pct", floatJson p.runtimePercent)]

end PerformanceImpact

/-- What one stage yielded. -/
structure StageResult where
  name : StageName
  passed : Bool
  skipped : Bool
  exitCode : Option Int
  durationMs : Int
  timedOut : Bool
  errorKind : Option ErrorKind
  command : Option String
  stdoutTail : String
  stderrTail : String
  errors : List String
  warnings : List String
  deriving DecidableEq, Inhabited

namespace StageResult

/-- The keys of a stage result. -/
def keys : List String :=
  ["name", "passed", "skipped", "exit_code", "duration_ms", "timed_out", "error_kind", "command",
    "stdout_tail", "stderr_tail", "errors", "warnings"]

/-- How the fields of a stage result are read; the name may be given. -/
def fields (name : Entries → Reading StageName) (es : Entries) : Reading StageResult :=
  StageResult.mk
    <$> name es
    <*> Reading.required es "passed" Schema.bool
    <*> Reading.field es "skipped" (pure false) Schema.bool
    <*> Reading.field es "exit_code" (pure none) (Schema.nullable Schema.int)
    <*> Reading.field es "duration_ms" (pure 0) Schema.int
    <*> Reading.field es "timed_out" (pure false) Schema.bool
    <*> Reading.field es "error_kind" (pure none) (Schema.nullable (Schema.enum ErrorKind.ofName?))
    <*> Reading.field es "command" (pure none) (Schema.nullable Schema.text)
    <*> Reading.field es "stdout_tail" (pure "") Schema.text
    <*> Reading.field es "stderr_tail" (pure "") Schema.text
    <*> Reading.field es "errors" (pure []) (Schema.list Schema.text)
    <*> Reading.field es "warnings" (pure []) (Schema.list Schema.text)

/-- The name of a stage, one of the fixed ones. -/
def nameShape : Shape StageName := Schema.oneOf StageName.ofName? "literal_error"

/-- How a stage result is read. -/
def shape : Shape StageResult :=
  Reading.record keys (fields fun es => Reading.required es "name" nameShape)

/-- All fields of a stage result. -/
def members (r : StageResult) : Members :=
  [("name", .text r.name.name), ("passed", .bool r.passed), ("skipped", .bool r.skipped),
    ("exit_code", match r.exitCode with | some n => .int n | none => .null),
    ("duration_ms", .int r.durationMs), ("timed_out", .bool r.timedOut),
    ("error_kind", Patch.kindJson r.errorKind), ("command", Json.ofText? r.command),
    ("stdout_tail", .text r.stdoutTail), ("stderr_tail", .text r.stderrTail),
    ("errors", Json.texts r.errors), ("warnings", Json.texts r.warnings)]

end StageResult

/-- One validation of a patch. -/
structure ValidationResult where
  id : String
  patchId : String
  outcome : Outcome
  buildSuccess : Bool
  testSuccess : Bool
  securityScanPassed : Bool
  performance : PerformanceImpact
  stages : List StageResult
  errors : List String
  warnings : List String
  errorKind : Option ErrorKind
  durationMs : Int
  isolation : Isolation
  timestamp : Moment
  deriving Inhabited

namespace ValidationResult

/-- The keys of a result. -/
def keys : List String :=
  ["id", "patch_id", "outcome", "build_success", "test_success", "security_scan_passed",
    "performance", "stages", "errors", "warnings", "error_kind", "duration_ms", "isolation",
    "timestamp"]

/-- How a result is read. -/
def shape : Shape ValidationResult :=
  Reading.record keys fun es =>
    ValidationResult.mk
      <$> Reading.field es "id" (Reading.taking Supply.freshName) Schema.text
      <*> Reading.required es "patch_id" Schema.text
      <*> Reading.field es "outcome" (pure .failed) (Schema.enum Outcome.ofName?)
      <*> Reading.field es "build_success" (pure false) Schema.bool
      <*> Reading.field es "test_success" (pure false) Schema.bool
      <*> Reading.field es "security_scan_passed" (pure false) Schema.bool
      <*> Reading.field es "performance" (pure PerformanceImpact.none_) PerformanceImpact.shape
      <*> Reading.field es "stages" (pure []) (Schema.list StageResult.shape)
      <*> Reading.field es "errors" (pure []) (Schema.list Schema.text)
      <*> Reading.field es "warnings" (pure []) (Schema.list Schema.text)
      <*> Reading.field es "error_kind" (pure none) (Schema.nullable (Schema.enum ErrorKind.ofName?))
      <*> Reading.field es "duration_ms" (pure 0) Schema.int
      <*> Reading.field es "isolation" (pure .filesystem)
        (Schema.oneOf Isolation.ofName? "literal_error")
      <*> Reading.field es "timestamp" (Reading.taking Supply.readClock) Schema.moment

/-- The first stage with a name. -/
def stage? (r : ValidationResult) (name : String) : Option StageResult :=
  r.stages.find? fun s => s.name.name == name

/-- All fields of a result. -/
def members (r : ValidationResult) : Members :=
  [("id", .text r.id), ("patch_id", .text r.patchId), ("outcome", .text r.outcome.name),
    ("build_success", .bool r.buildSuccess), ("test_success", .bool r.testSuccess),
    ("security_scan_passed", .bool r.securityScanPassed), ("performance", r.performance.json),
    ("stages", .list (r.stages.map fun s => .object s.members)), ("errors", Json.texts r.errors),
    ("warnings", Json.texts r.warnings), ("error_kind", Patch.kindJson r.errorKind),
    ("duration_ms", .int r.durationMs), ("isolation", .text r.isolation.name),
    ("timestamp", .text r.timestamp.wireText)]

/-- What a result says beside its name and time. -/
def summary (r : ValidationResult) : Json :=
  .object (Issue.without ["id", "timestamp"] r.members)

end ValidationResult

end RepairLoop
