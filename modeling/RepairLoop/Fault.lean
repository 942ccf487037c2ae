import RepairLoop.Json.Basic
/-!
# Faults

What can stop an operation. `ErrorKind` is the classification that patches and
validation results carry. A `Fault` is one of the library's own refusals, with a
kind, a message and details, or a failure of the material it works on: a value, a
text, a file, a number.
-/

namespace RepairLoop

/-- The classification of failed patches and validation attempts. -/
inductive ErrorKind where
  | parseError
  | safetyRejection
  | buildFailure
  | testFailure
  | securityFailure
  | timeout
  | gitConflict
  | mergeConflict
  | persistenceError
  | rateLimit
  | configuration
  | backend
  | invalidTransition
  | git
  | validationError
  deriving DecidableEq, Inhabited

namespace ErrorKind

/-- The name of a kind. -/
def name : ErrorKind → String
  | parseError => "ParseError"
  | safetyRejection => "SafetyRejection"
  | buildFailure => "BuildFailure"
  | testFailure => "TestFailure"
  | securityFailure => "SecurityFailure"
  | timeout => "Timeout"
  | gitConflict => "GitConflict"
  | mergeConflict => "MergeConflict"
  | persistenceError => "PersistenceError"
  | rateLimit => "RateLimit"
  | configuration => "Configuration"
  | backend => "Backend"
  | invalidTransition => "InvalidTransition"
  | git => "Git"
  | validationError => "ValidationError"

/-- All kinds. -/
def all : List ErrorKind :=
  [parseError, safetyRejection, buildFailure, testFailure, securityFailure, timeout, gitConflict,
    mergeConflict, persistenceError, rateLimit, configuration, backend, invalidTransition, git,
    validationError]

/-- The kind of a name. -/
def ofName? (s : String) : Option ErrorKind :=
  all.find? (·.name == s)

theorem ofName?_name (k : ErrorKind) : ofName? k.name = some k := by
  cases k <;> decide

end ErrorKind

/-- A step on the way to a field: a key or a position. -/
inductive Step where
  | key (s : String)
  | position (n : Int)
  deriving DecidableEq, Inhabited

/-- One thing that is wrong with a record: where, what sort of problem, and the
record's own words if one of its rules was broken. -/
structure Problem where
  place : List Step
  sort : String
  message : Option String
  deriving DecidableEq, Inhabited

/-- The library's own refusals. -/
inductive Refusal where
  | configuration
  | diffParse
  | patchApply
  | git
  | gitConflict
  | mergeConflict
  | persistence
  | rateLimit
  | backend
  | transition
  deriving DecidableEq, Inhabited

namespace Refusal

/-- The kind that a refusal has if nothing else is said. -/
def kind : Refusal → ErrorKind
  | configuration => .configuration
  | diffParse => .parseError
  | patchApply => .parseError
  | git => .git
  | gitConflict => .gitConflict
  | mergeConflict => .mergeConflict
  | persistence => .persistenceError
  | rateLimit => .rateLimit
  | backend => .backend
  | transition => .invalidTransition

/-- The name of a refusal. -/
def name : Refusal → String
  | configuration => "ConfigurationError"
  | diffParse => "DiffParseError"
  | patchApply => "PatchApplyError"
  | git => "GitError"
  | gitConflict => "GitConflictError"
  | mergeConflict => "MergeConflictError"
  | persistence => "PersistenceError"
  | rateLimit => "RateLimitError"
  | backend => "BackendError"
  | transition => "InvalidTransitionError"

/-- Git refuses, in one way or another. -/
def isOfGit : Refusal → Bool
  | git | gitConflict | mergeConflict => true
  | _ => false

end Refusal

/-- Failures of the material. -/
inductive Mishap where
  | badValue
  | missingKey
  | badIndex
  | overflow
  | undecodable
  | badPattern
  | system
  | missingFile
  | directoryExpected
  | fileExpected
  | fileExists
  | permission
  | timeout
  | badType
  | missingAttribute
  | tooDeep
  | unsupported
  | aborted
  deriving DecidableEq, Inhabited

/-- The name of a failure. -/
def Mishap.name : Mishap → String
  | badValue => "ValueError"
  | missingKey => "KeyError"
  | badIndex => "IndexError"
  | overflow => "OverflowError"
  | undecodable => "UnicodeDecodeError"
  | badPattern => "error"
  | system => "OSError"
  | missingFile => "FileNotFoundError"
  | directoryExpected => "NotADirectoryError"
  | fileExpected => "IsADirectoryError"
  | fileExists => "FileExistsError"
  | permission => "PermissionError"
  | timeout => "TimeoutError"
  | badType => "TypeError"
  | missingAttribute => "AttributeError"
  | tooDeep => "RecursionError"
  | unsupported => "NotImplementedError"
  | aborted => "RuntimeError"

/-- The failure lies with the system: with files, other programs or the network. -/
def Mishap.isOfSystem : Mishap → Bool
  | system | missingFile | directoryExpected | fileExpected | fileExists | permission
  | timeout => true
  | _ => false

/-- What stopped an operation. -/
inductive Fault where
  | refused (what : Refusal) (kind : ErrorKind) (message : String) (details : Members)
      (retryAfter : Float)
  | invalid (problems : List Problem)
  | unreadable (message : String) (line column : Nat)
  | mishap (what : Mishap) (message : String)
  deriving Inhabited

namespace Fault

/-- A refusal of the usual kind. -/
def refuse (what : Refusal) (message : String) (details : Members) : Fault :=
  .refused what what.kind message details 0.0

/-- A value that cannot be used. -/
def badValue (message : String) : Fault :=
  .mishap .badValue message

/-- What is said of a fault. -/
def message : Fault → String
  | refused _ _ m _ _ => m
  | invalid problems => s!"{problems.length} validation errors"
  | unreadable m _ _ => m
  | mishap _ m => m

/-- The name of a fault. -/
def name : Fault → String
  | refused what _ _ _ _ => what.name
  | invalid _ => "ValidationError"
  | unreadable _ _ _ => "SourceParseError"
  | mishap what _ => what.name

/-- A fault by name, with what is said of it. -/
def report (f : Fault) : String := f.name ++ ": " ++ f.message

/-- One of the library's own refusals. -/
def isRefusal : Fault → Bool
  | refused .. => true
  | _ => false

/-- A refusal of the given sort. -/
def isRefusalOf (what : Refusal) : Fault → Bool
  | refused w _ _ _ _ => w == what
  | _ => false

end Fault

end RepairLoop
