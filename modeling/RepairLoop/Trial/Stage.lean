import RepairLoop.Diagnostics
import RepairLoop.Record.Result
import RepairLoop.Trial.Sandbox
/-!
# Stages

A stage is a command that judges a workspace. A stage without a command is skipped. If
its program is missing, a stage that is optional is skipped and another fails; a stage
that runs out of time fails as such.
-/

namespace RepairLoop

/-- A stage as it is configured. -/
structure StageSpec where
  name : StageName
  command : Option String
  timeout : Float
  failure : ErrorKind
  isOptional : Bool
  deriving Inhabited

namespace StageResult

/-- A stage without a command that passed. -/
def passing (name : StageName) : StageResult :=
  ⟨name, true, false, none, 0, false, none, none, "", "", [], []⟩

/-- A stage that was passed over. -/
def skippedFor (name : StageName) (reason : String) : StageResult :=
  { passing name with skipped := true, warnings := if reason == "" then [] else [reason] }

end StageResult

namespace ValidationSettings

/-- The stage that builds. -/
def buildStage (s : ValidationSettings) : StageSpec :=
  ⟨.build, s.buildCommand, s.buildTimeout, .buildFailure, false⟩

/-- The stage that runs the tests. -/
def testStage (s : ValidationSettings) : StageSpec :=
  ⟨.test, s.testCommand, s.testTimeout, .testFailure, false⟩

/-- The stage that looks for weaknesses. -/
def securityStage (s : ValidationSettings) : StageSpec :=
  ⟨.security, s.securityCommand, s.securityTimeout, .securityFailure, true⟩

/-- The stage that runs the benchmark. -/
def benchmarkStage (s : ValidationSettings) : StageSpec :=
  ⟨.performance, s.benchmarkCommand, s.benchmarkTimeout, .timeout, true⟩

end ValidationSettings

namespace StageSpec

/-- The command, unless there is none or it is empty. -/
def command? (s : StageSpec) : Option String := s.command.filter (· != "")

/-- The stage passed over for a reason. -/
def skipped (s : StageSpec) (reason : String) : StageResult := .skippedFor s.name reason

/-- An exit code as it is shown. -/
def exitText : Option Int → String
  | some n => toString n
  | none => "None"

/-- What is said of a stage that failed without a known error: the last line of its
output, or else its exit code. -/
def lastWords (s : StageSpec) (r : CommandResult) : String :=
  match (Text.splitLines (Text.strip r.combined)).getLast? with
  | some line => line
  | none => s!"{s.name.name} exited with {exitText r.exit}"

/-- A stage that ran, before it is judged. -/
def raw (s : StageSpec) (r : CommandResult) (d : Diagnostics) : StageResult :=
  ⟨s.name, r.succeeded, false, r.exit, r.milliseconds, r.timedOut, none, some r.display,
    CommandResult.tail r.out, CommandResult.tail r.err, d.errors, d.warnings⟩

/-- What a command yielded, as the result of its stage. -/
def judged (s : StageSpec) (r : CommandResult) (d : Diagnostics) : StageResult :=
  let x := s.raw r d
  if r.missing then
    if s.isOptional then s.skipped r.err
    else { x with passed := false, errorKind := some s.failure, errors := x.errors ++ [r.err] }
  else if r.timedOut then
    let limit := Number.fixed s.timeout 1
    { x with
      errorKind := some .timeout
      errors := x.errors ++ [s!"{s.name.name} timed out after {limit}s"] }
  else if !r.succeeded then
    { x with
      errorKind := some s.failure
      errors := if x.errors.isEmpty then [s.lastWords r] else x.errors }
  else x

/-- The event of a stage that ran. -/
def event (r : StageResult) (patch : Option String) (isolation : Isolation) : Event :=
  .of "validation_stage" [("patch_id", Json.ofText? patch), ("stage", .text r.name.name),
    ("passed", .bool r.passed), ("skipped", .bool r.skipped),
    ("exit_code", match r.exitCode with | some n => .int n | none => .null),
    ("duration_ms", .int r.durationMs), ("timed_out", .bool r.timedOut),
    ("error_kind", Patch.kindJson r.errorKind), ("isolation", .text isolation.name)]

/-- Runs a stage. -/
def run (s : StageSpec) (sandbox : Sandbox) (patch : Option String) : Act StageResult := do
  match s.command? with
  | none => pure (s.skipped s!"{s.name.name} command not configured")
  | some line =>
    let r ← sandbox.run line (.real s.timeout)
    let d ← Act.ofExcept ((Diagnostics.extract [r.out, r.err]).mapError Diagnostics.faultOf)
    let result := s.judged r d
    Act.emit (event result patch sandbox.isolation)
    pure result

end StageSpec

end RepairLoop
