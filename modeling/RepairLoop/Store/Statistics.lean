import RepairLoop.Sequence.Basic
import RepairLoop.Store.Basic
/-!
# Statistics of a store

Counts of issues by status, kind and severity, of patches by the state of their
validation, and the mean scores and the rate of success.
-/

namespace RepairLoop

namespace Store

/-- The mean of some doubles, added from left to right; zero where there are none. -/
def mean (xs : List Float) : Float :=
  if xs.isEmpty then 0.0 else xs.foldl (· + ·) 0.0 / Number.ofInt xs.length

private def counts (names : List String) : Json :=
  .object ((tally names).map fun (k, n) => (k, .int n))

/-- The statistics as an object. -/
def statistics (s : Store) : Json :=
  let succeeded := (s.results.filter (·.result.outcome == .success)).length
  let rate :=
    if s.results.isEmpty then 0.0
    else Number.roundTo (Number.ofInt succeeded / Number.ofInt s.results.length) 4
  .object [
    ("total_issues", .int s.issues.length),
    ("issues_by_status", counts (s.issues.map (·.status.name))),
    ("issues_by_kind", counts (s.issues.map (·.kind.name))),
    ("issues_by_severity", counts (s.issues.map (·.severity.name))),
    ("total_patches", .int s.patches.length),
    ("patches_by_status", counts (s.patches.map (·.validationStatus.name))),
    ("applied_patches", .int (s.patches.filter (·.applied)).length),
    ("rolled_back_patches", .int (s.patches.filter (·.rolledBack)).length),
    ("average_confidence", .float (Number.roundTo (mean (s.patches.map (·.confidence))) 4)),
    ("average_safety_score", .float (Number.roundTo (mean (s.patches.map (·.safetyScore))) 4)),
    ("validation_attempts", .int s.results.length),
    ("validation_success_rate", .float rate)]

end Store

end RepairLoop
