import RepairLoop.Fault
/-!
# Kinds, severities and states

The closed sets of names that records use. Each has its names, a list of all its
members, and a reading of names that undoes them.
-/

namespace RepairLoop

/-- How severe an issue is. -/
inductive Severity where
  | critical
  | high
  | medium
  | low
  | info
  deriving DecidableEq, Inhabited

namespace Severity

/-- The name of a severity. -/
def name : Severity → String
  | critical => "Critical"
  | high => "High"
  | medium => "Medium"
  | low => "Low"
  | info => "Info"

/-- All severities. -/
def all : List Severity := [critical, high, medium, low, info]

/-- The severity of a name. -/
def ofName? (s : String) : Option Severity := all.find? (·.name == s)

theorem ofName?_name (x : Severity) : ofName? x.name = some x := by
  cases x <;> decide

end Severity

/-- What sort of defect an issue is. -/
inductive IssueKind where
  | typeCompat
  | typeError
  | unsafeCode
  | performance
  | security
  | style
  | complexity
  | deprecation
  | parseError
  deriving DecidableEq, Inhabited

namespace IssueKind

/-- The name of a kind. -/
def name : IssueKind → String
  | typeCompat => "TypeCompat"
  | typeError => "TypeError"
  | unsafeCode => "UnsafeCode"
  | performance => "Performance"
  | security => "Security"
  | style => "Style"
  | complexity => "Complexity"
  | deprecation => "Deprecated"
  | parseError => "ParseError"

/-- All kinds. -/
def all : List IssueKind :=
  [typeCompat, typeError, unsafeCode, performance, security, style, complexity, deprecation,
    parseError]

/-- The kind of a name. -/
def ofName? (s : String) : Option IssueKind := all.find? (·.name == s)

theorem ofName?_name (x : IssueKind) : ofName? x.name = some x := by
  cases x <;> decide

end IssueKind

/-- Where an issue stands. -/
inductive IssueStatus where
  | open_
  | inProgress
  | resolved
  | rejected
  | duplicate
  deriving DecidableEq, Inhabited

namespace IssueStatus

/-- The name of a status. -/
def name : IssueStatus → String
  | open_ => "Open"
  | inProgress => "InProgress"
  | resolved => "Resolved"
  | rejected => "Rejected"
  | duplicate => "Duplicate"

/-- All statuses. -/
def all : List IssueStatus := [open_, inProgress, resolved, rejected, duplicate]

/-- The status of a name. -/
def ofName? (s : String) : Option IssueStatus := all.find? (·.name == s)

theorem ofName?_name (x : IssueStatus) : ofName? x.name = some x := by
  cases x <;> decide

end IssueStatus

/-- How far the validation of a patch has come. -/
inductive ValidationStatus where
  | pending
  | validating
  | valid
  | invalid
  | rejected
  deriving DecidableEq, Inhabited

namespace ValidationStatus

/-- The name of a status. -/
def name : ValidationStatus → String
  | pending => "Pending"
  | validating => "Validating"
  | valid => "Valid"
  | invalid => "Invalid"
  | rejected => "Rejected"

/-- All statuses. -/
def all : List ValidationStatus := [pending, validating, valid, invalid, rejected]

/-- The status of a name. -/
def ofName? (s : String) : Option ValidationStatus := all.find? (·.name == s)

theorem ofName?_name (x : ValidationStatus) : ofName? x.name = some x := by
  cases x <;> decide

end ValidationStatus

/-- How a validation ended. -/
inductive Outcome where
  | success
  | warning
  | failed
  deriving DecidableEq, Inhabited

namespace Outcome

/-- The name of an outcome. -/
def name : Outcome → String
  | success => "Success"
  | warning => "Warning"
  | failed => "Failed"

/-- All outcomes. -/
def all : List Outcome := [success, warning, failed]

/-- The outcome of a name. -/
def ofName? (s : String) : Option Outcome := all.find? (·.name == s)

theorem ofName?_name (x : Outcome) : ofName? x.name = some x := by
  cases x <;> decide

end Outcome

/-- The stages of a validation. -/
inductive StageName where
  | apply
  | build
  | test
  | security
  | performance
  deriving DecidableEq, Inhabited

namespace StageName

/-- The name of a stage. -/
def name : StageName → String
  | apply => "apply"
  | build => "build"
  | test => "test"
  | security => "security"
  | performance => "performance"

/-- All stages. -/
def all : List StageName := [apply, build, test, security, performance]

/-- The stage of a name. -/
def ofName? (s : String) : Option StageName := all.find? (·.name == s)

theorem ofName?_name (x : StageName) : ofName? x.name = some x := by
  cases x <;> decide

end StageName

/-- How a sandbox is kept apart. -/
inductive Isolation where
  | filesystem
  | container
  deriving DecidableEq, Inhabited

namespace Isolation

/-- The name of an isolation. -/
def name : Isolation → String
  | filesystem => "filesystem"
  | container => "container"

/-- All isolations. -/
def all : List Isolation := [filesystem, container]

/-- The isolation of a name. -/
def ofName? (s : String) : Option Isolation := all.find? (·.name == s)

theorem ofName?_name (x : Isolation) : ofName? x.name = some x := by
  cases x <;> decide

end Isolation

end RepairLoop
