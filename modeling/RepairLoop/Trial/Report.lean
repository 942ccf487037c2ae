import RepairLoop.Fault
import RepairLoop.Number.Decimal
import RepairLoop.Record.Result
/-!
# Measures and reports

What is measured of a validation, and how validations are reported.
-/

/-!
## Measures of performance

What is measured of a workspace: how long it took to build it and to run its benchmark,
and how large its artifacts are. A measure of a patched workspace is given as a change
against the unpatched one, in percent with two places.
-/

namespace RepairLoop

/-- The measures of a workspace. -/
structure Sample where
  buildMs : Option Int
  benchmarkMs : Option Int
  artifactBytes : Int
  deriving DecidableEq, Inhabited

namespace Sample

/-- Nothing measured. -/
def none_ : Sample := ⟨none, none, 0⟩

/-- The double nearest to a quotient of whole numbers, the second of them positive. -/
def quotient (a : Int) (b : Nat) : Except Fault Float :=
  let x := Number.nearest (a < 0) a.natAbs b
  if Number.isFinite x then .ok x
  else .error (.mishap .overflow "integer division result too large for a float")

/-- The change from one duration to another in percent, if there are both and the first
is positive. -/
def percentChange : Option Int → Option Int → Except Fault (Option Float)
  | some baseline, some current =>
    if baseline ≤ 0 then .ok none
    else do
      let q ← quotient (current - baseline) baseline.toNat
      .ok (some (Number.roundTo (q * 100.0) 2))
  | _, _ => .ok none

end Sample

end RepairLoop

/-!
## Reports on validations

A report counts the outcomes of some validations and lists for each of them its stages,
what changed in performance, and its errors and warnings.
-/

namespace RepairLoop

namespace StageResult

/-- How a judgement is shown. -/
def mark (passed : Bool) : String := if passed then "pass" else "FAIL"

/-- How the stage ended, in a word. -/
def status (r : StageResult) : String :=
  if r.timedOut then "timeout" else if r.skipped then "skipped" else mark r.passed

/-- The stage as a row of a table. -/
def row (r : StageResult) : String :=
  let exit := match r.exitCode with | some n => toString n | none => ""
  let kind := match r.errorKind with | some k => k.name | none => ""
  s!"| {r.name.name} | {r.status} | {exit} | {r.durationMs} | {kind} |"

/-- Stages as a table. -/
def table (rs : List StageResult) : List String :=
  ["| Stage | Result | Exit | Duration (ms) | Kind |", "| --- | --- | --- | --- | --- |"] ++
    rs.map row

end StageResult

namespace PerformanceImpact

/-- A whole number with its sign. -/
def signed (n : Int) : String := if n < 0 then toString n else s!"+{n}"

/-- A change in percent with its sign and one place. -/
def percent (x : Float) : String := Number.fixedSigned x 1 ++ "%"

/-- The changes that were measured, a line for each. -/
def lines (p : PerformanceImpact) : List String :=
  (p.compileTimePercent.map fun x => "- Compile time change: " ++ percent x).toList ++
  (p.binarySizeBytes.map fun n => s!"- Binary size change: {signed n} bytes").toList ++
  (p.runtimePercent.map fun x => "- Runtime change: " ++ percent x).toList

end PerformanceImpact

namespace ValidationResult

/-- A list under a heading, unless it is empty. -/
def headed (title : String) (items : List String) : List String :=
  if items.isEmpty then [] else ["", title] ++ items.map ("- " ++ ·)

/-- What a report holds of one validation. -/
def section_ (r : ValidationResult) : List String :=
  ["", s!"## Patch {r.patchId}", s!"- Status: {r.outcome.name}"] ++
  (r.errorKind.map fun k => s!"- Error kind: {k.name}").toList ++
  [s!"- Build: {StageResult.mark r.buildSuccess}", s!"- Tests: {StageResult.mark r.testSuccess}",
    s!"- Security: {StageResult.mark r.securityScanPassed}", s!"- Isolation: {r.isolation.name}"] ++
  r.performance.lines ++
  (if r.stages.isEmpty then [] else "" :: StageResult.table r.stages) ++
  headed "### Errors" r.errors ++ headed "### Warnings" r.warnings

/-- How many results have an outcome. -/
def count (outcome : Outcome) (rs : List ValidationResult) : Nat :=
  rs.countP fun r => r.outcome == outcome

/-- The share of successes in percent. -/
def successRate (rs : List ValidationResult) : Float :=
  if rs.isEmpty then 0.0
  else Number.nearest false (count .success rs) rs.length * 100.0

/-- The report on some validations. -/
def report (rs : List ValidationResult) : String :=
  let lines := ["# Patch Validation Report", "", "## Summary", s!"- Total patches: {rs.length}",
    s!"- Successful: {count .success rs}", s!"- Warnings: {count .warning rs}",
    s!"- Failed: {count .failed rs}",
    "- Success rate: " ++ Number.fixed (successRate rs) 1 ++ "%"]
  "\n".intercalate (lines ++ rs.flatMap section_) ++ "\n"

end ValidationResult

end RepairLoop
