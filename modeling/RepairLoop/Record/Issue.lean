import RepairLoop.Record.Kinds
import RepairLoop.Schema.Scalar
/-!
# Issues

An issue is a defect with a place and a classification. A finding is an issue
without a name and without times: what a look at a text yields.
-/

namespace RepairLoop

/-- A defect in a file. -/
structure Issue where
  id : String
  filePath : String
  line : Int
  column : Int
  severity : Severity
  kind : IssueKind
  message : String
  suggestion : Option String
  rule : Option String
  context : List (String × String)
  status : IssueStatus
  metadata : Members
  createdAt : Moment
  updatedAt : Moment
  resolvedAt : Option Moment
  deriving Inhabited

namespace Issue

/-- Path, line and column of an issue. -/
def location (i : Issue) : String := s!"{i.filePath}:{i.line}:{i.column}"

/-- The keys of an issue. -/
def keys : List String :=
  ["id", "file_path", "line", "column", "severity", "kind", "message", "suggestion", "rule",
    "context", "status", "metadata", "created_at", "updated_at", "resolved_at"]

/-- How an issue is read. -/
def shape : Shape Issue :=
  Reading.record keys fun es =>
    Issue.mk
      <$> Reading.field es "id" (Reading.taking Supply.freshName) Schema.text
      <*> Reading.required es "file_path" Schema.text
      <*> Reading.field es "line" (pure 1) Schema.int
      <*> Reading.field es "column" (pure 1) Schema.int
      <*> Reading.field es "severity" (pure .medium) (Schema.enum Severity.ofName?)
      <*> Reading.required es "kind" (Schema.enum IssueKind.ofName?)
      <*> Reading.required es "message" Schema.text
      <*> Reading.field es "suggestion" (pure none) (Schema.nullable Schema.text)
      <*> Reading.field es "rule" (pure none) (Schema.nullable Schema.text)
      <*> Reading.field es "context" (pure []) Schema.textMap
      <*> Reading.field es "status" (pure .open_) (Schema.enum IssueStatus.ofName?)
      <*> Reading.field es "metadata" (pure []) Schema.anyMap
      <*> Reading.field es "created_at" (Reading.taking Supply.readClock) Schema.moment
      <*> Reading.field es "updated_at" (Reading.taking Supply.readClock) Schema.moment
      <*> Reading.field es "resolved_at" (pure none) (Schema.nullable Schema.moment)

/-- A mapping from texts to texts as an object. -/
def textMembers (ms : List (String × String)) : Json :=
  .object (ms.map fun (k, v) => (k, .text v))

/-- A moment or null. -/
def momentJson (m : Option Moment) : Json := Json.ofText? (m.map Moment.wireText)

/-- All fields of an issue. -/
def members (i : Issue) : Members :=
  [("id", .text i.id), ("file_path", .text i.filePath), ("line", .int i.line),
    ("column", .int i.column), ("severity", .text i.severity.name), ("kind", .text i.kind.name),
    ("message", .text i.message), ("suggestion", Json.ofText? i.suggestion),
    ("rule", Json.ofText? i.rule), ("context", textMembers i.context),
    ("status", .text i.status.name), ("metadata", .object i.metadata),
    ("created_at", .text i.createdAt.wireText), ("updated_at", .text i.updatedAt.wireText),
    ("resolved_at", momentJson i.resolvedAt)]

/-- Some fields of a record left out. -/
def without (keys : List String) (ms : Members) : Members :=
  ms.filter fun (k, _) => !keys.contains k

/-- What an issue says beside its name and its times, and its location. -/
def summary (i : Issue) : Json :=
  .object (without ["id", "created_at", "updated_at", "resolved_at"] i.members ++
    [("location", .text i.location)])

end Issue

/-- A defect that a look at a text found. -/
structure Finding where
  filePath : String
  line : Int
  column : Int
  severity : Severity
  kind : IssueKind
  message : String
  suggestion : Option String
  rule : String
  context : List (String × String)
  deriving DecidableEq, Inhabited

/-- An open issue for a finding, with a fresh name and the present time. -/
def Finding.record (f : Finding) : StateM Supply Issue := do
  let id ← Supply.freshName
  let created ← Supply.readClock
  let updated ← Supply.readClock
  pure ⟨id, f.filePath, f.line, f.column, f.severity, f.kind, f.message, f.suggestion, some f.rule,
    f.context, .open_, [], created, updated, none⟩

end RepairLoop
