import RepairLoop.Repair.Application
import RepairLoop.Sequence.Basic
import RepairLoop.Trial.Report
/-!
# The repair of an issue

The steps of a repair, and the report on what became of the issue.
-/

/-!
## Reports on issues

What became of an issue: the candidates with their validations, the patch that was
applied, and what went wrong. Reports are written in Markdown.
-/

namespace RepairLoop

/-- What became of an issue. -/
structure IssueReport where
  issue : Issue
  candidates : List Patch
  validations : List (String × ValidationResult)
  applied : Option String
  rolledBack : Bool
  errors : List String
  deriving Inhabited

namespace IssueReport

/-- A report that says nothing yet. -/
def blank (issue : Issue) : IssueReport := ⟨issue, [], [], none, false, []⟩

/-- A patch was applied and stayed so. -/
def isResolved (r : IssueReport) : Bool := r.applied.isSome && !r.rolledBack

/-- The report with something that went wrong. -/
def withError (r : IssueReport) (error : String) : IssueReport :=
  { r with errors := r.errors ++ [error] }

/-- Validations by the names of their patches; of two for one patch the later counts. -/
def byPatch (results : List ValidationResult) : List (String × ValidationResult) :=
  results.foldl (fun kept r => (r.patchId, r) :: kept.filter (·.1 != r.patchId)) []

/-- The validations of the candidates, in their order. -/
def validationsInOrder (r : IssueReport) : List ValidationResult :=
  r.candidates.filterMap fun p => r.validations.lookup p.id

/-- The status of a candidate in a table. -/
def statusText (p : Patch) : String :=
  let kind := match p.errorKind with
    | some k => s!" ({k.name})"
    | none => ""
  p.validationStatus.name ++ kind ++ if p.needsReview then ", needs review" else ""

/-- A candidate as a row of a table. -/
def row (rank : Nat) (p : Patch) : String :=
  let confidence := Number.fixed p.confidence 2
  let safety := Number.fixed p.safetyScore 2
  let score := Number.fixed p.rankingScore 3
  s!"| {rank} | {p.id} | {confidence} | {safety} | {score} | {statusText p} |"

/-- Candidates as rows of a table, numbered from `rank`. -/
def rows (rank : Nat) : List Patch → List String
  | [] => []
  | p :: ps => row rank p :: rows (rank + 1) ps

/-- Candidates as a table. -/
def table (ps : List Patch) : List String :=
  ["", "| Rank | Patch | Confidence | Safety | Score | Status |",
    "| --- | --- | --- | --- | --- | --- |"] ++ rows 1 ps

/-- The patch that was applied, if one was. -/
def appliedLines (r : IssueReport) : List String :=
  match r.applied with
  | some id =>
    if id == "" then []
    else ["", s!"**Applied patch:** {id}" ++ if r.rolledBack then " (rolled back)" else ""]
  | none => []

/-- What a report says of its issue. -/
def lines (r : IssueReport) : List String :=
  let validations := ValidationResult.report r.validationsInOrder
  ["", s!"## {r.issue.kind.name} at {r.issue.location}", "", r.issue.message] ++
  r.appliedLines ++
  (if r.candidates.isEmpty then [] else table r.candidates) ++
  (if r.validations.isEmpty then []
    else ["", String.ofList (Text.dropTrailing (· == '\n') validations.toList)]) ++
  ValidationResult.headed "### Errors" r.errors

/-- Reports as a text. -/
def text (rs : List IssueReport) : String :=
  let resolved := rs.countP isResolved
  "\n".intercalate (["# Self-heal run", "", s!"- Issues processed: {rs.length}",
    s!"- Resolved: {resolved}"] ++ rs.flatMap lines) ++ "\n"

end IssueReport

end RepairLoop

/-!
## The repair of an issue

Candidates are asked for, the pending ones go through the gate, and the best of those
that are valid is applied; the other valid ones are rejected. If the stages fail after
the application, it is rolled back. What goes wrong on the way stands in the report.
-/

namespace RepairLoop

namespace Session

/-! ### Candidates -/

/-- Asks for a candidate. Where the allowance is used up it waits, as often as is left,
and each time longer. -/
def proposePatiently (s : Session) (i : Issue) (index : Int) (waited : Nat) : Nat → Act Patch
  | 0 => do (← s.asking).propose i index
  | left + 1 => do
    let p ← s.asking
    match ← Act.attempt (p.propose i index) with
    | .ok patch => pure patch
    | .error f =>
      match f with
      | .refused .rateLimit _ _ _ after =>
        let backoff := s.settings.llm.rateLimitBackoff * Number.ofInt (Number.twoTo waited)
        Act.pause (.real (if after < backoff then backoff else after))
        s.proposePatiently i index (waited + 1) left
      | f => throw f

/-- Asks for some candidates, numbered from `index`. -/
def proposeEach (s : Session) (i : Issue) (index : Int) : Nat → Act (List Patch)
  | 0 => pure []
  | count + 1 => do
    let p ← s.proposePatiently i index 0 s.settings.llm.rateLimitRetries.toNat
    let rest ← s.proposeEach i (index + 1) count
    pure (p :: rest)

/-- Asks for the candidates of an issue; the best stands first. -/
def proposeAll (s : Session) (i : Issue) : Act (List Patch) := do
  return Patch.ranked (← s.proposeEach i 0 (max 1 s.settings.llm.candidates).toNat)

/-- Faults that end the work on an issue before it has candidates. -/
def isOfProposal : Fault → Bool
  | .refused what _ _ _ _ => [.rateLimit, .backend, .configuration].contains what
  | _ => false

/-- A fault in a report: its kind and what is said of it. -/
def reported : Fault → String
  | .refused _ kind message _ _ => s!"{kind.name}: {message}"
  | f => s!"{ErrorKind.validationError.name}: {f.message}"

/-! ### Validation -/

/-- A candidate that is validated: it is pending, and needs no review. -/
def isOpenCandidate (p : Patch) : Bool := p.state == .pending && !p.needsReview

/-- Stores patches. -/
def keepPatches : List Patch → Act Unit
  | [] => pure ()
  | p :: ps => do
    keepPatch p
    keepPatches ps

/-- Begins the validation of the candidates that are validated; the others stay as they
are. -/
def beginAll : List Patch → Act (List Patch)
  | [] => pure []
  | p :: ps => do
    let q ← if isOpenCandidate p then do
        let q ← move p .begin
        keepPatch q
        pure q
      else pure p
    let qs ← beginAll ps
    pure (q :: qs)

/-- Patches with one put in the place of that with its name. -/
def replaced (ps : List Patch) (q : Patch) : List Patch :=
  ps.map fun p => if p.id == q.id then q else p

/-- Records a result: stores it, moves the patch, and stores the patch. -/
def recordResult (allowWarnings : Bool) (p : Patch) (r : ValidationResult) : Act Patch := do
  Act.storing fun s => s.addResult r
  let q ← move p (.record r allowWarnings)
  keepPatch q
  pure q

/-- Records a result as far as it goes. A patch that was moved stays so even where the
store does not take it. -/
def recordInto (allowWarnings : Bool) (p : Patch) (r : ValidationResult) :
    Act (Patch × Option Fault) := do
  let judged ← Act.attempt do
    Act.storing fun s => s.addResult r
    move p (.record r allowWarnings)
  match judged with
  | .error f => pure (p, some f)
  | .ok q =>
    match ← Act.attempt (keepPatch q) with
    | .error f => pure (q, some f)
    | .ok () => pure (q, none)

/-- Records results in a report. A fault ends it; what was recorded before stays. -/
def recordAll (allowWarnings : Bool) (report : IssueReport) :
    List (Patch × ValidationResult) → Act (IssueReport × Option Fault)
  | [] => pure (report, none)
  | (p, r) :: rest => do
    let (q, fault) ← recordInto allowWarnings p r
    let report := { report with candidates := replaced report.candidates q }
    match fault with
    | some f => pure (report, some f)
    | none =>
      recordAll allowWarnings
        { report with validations := report.validations ++ [(q.id, r)] } rest

/-- Sends the candidates that are validated through the gate and records the results. -/
def validateInto (s : Session) (report : IssueReport) : Act (IssueReport × Option Fault) := do
  let candidates := report.candidates.filter (·.state == .validating)
  match ← Act.attempt (s.gate.validateMany candidates) with
  | .error f => pure (report, some f)
  | .ok results =>
    recordAll s.settings.validation.allowSecurityWarnings report (candidates.zip results)

/-- Gives up the candidates whose validation did not end. -/
def giveUp : List Patch → Act (List Patch)
  | [] => pure []
  | p :: ps => do
    let q ← if p.state == .validating then do
        let q ← move p (.invalidate .validationError false)
        keepPatch q
        pure q
      else pure p
    let qs ← giveUp ps
    pure (q :: qs)

/-! ### The best candidate -/

/-- The best of the valid candidates. -/
def winner? (candidates : List Patch) : Option Patch :=
  (Patch.ranked (candidates.filter (·.validationStatus == .valid))).head?

/-- Rejects the valid candidates other than the winner. -/
def rejectOthers (winner : String) : List Patch → Act (List Patch)
  | [] => pure []
  | p :: ps => do
    let q ← if p.id != winner && p.validationStatus == .valid then do
        let q ← move p (.reject none)
        keepPatch q
        pure q
      else pure p
    let qs ← rejectOthers winner ps
    pure (q :: qs)

/-- Runs stages in the repository itself, as far as they pass; yields what went wrong. -/
def firstFailure (s : Session) (patch : String) : List StageSpec → Act (Option String)
  | [] => pure none
  | spec :: specs => do
    let r ← spec.run ⟨s.repository.root, none⟩ (some patch)
    if r.passed then s.firstFailure patch specs
    else
      let kind := (r.errorKind.getD .buildFailure).name
      pure (some s!"{kind}: {spec.name.name} failed after apply")

/-- The stages that an applied patch must still pass. -/
def stagesAfter (settings : ValidationSettings) : List StageSpec :=
  if settings.verifyAfterApply then [settings.buildStage, settings.testStage] else []

/-! ### Processing -/

/-- A report on an issue that stays open. -/
def leftOpen (report : IssueReport) (error : String) : Act IssueReport := do
  let i ← setStatus report.issue .open_
  pure { report.withError error with issue := i }

/-- The work on an issue once its best candidate was applied. -/
def afterApplying (s : Session) (report : IssueReport) (winner : String) : Act IssueReport := do
  let candidates ← rejectOthers winner report.candidates
  let report := { report with candidates := candidates }
  match ← s.firstFailure winner (stagesAfter s.settings.validation) with
  | some error =>
    let _ ← s.rollBack winner
    pure { report.withError error with rolledBack := true }
  | none =>
    let i ← setStatus report.issue .resolved
    pure { report with issue := i }

/-- The work on an issue once its candidates were validated. -/
def afterValidating (s : Session) (report : IssueReport) : Act IssueReport := do
  match winner? report.candidates with
  | none => leftOpen report "No candidate patch passed validation."
  | some winner =>
    match ← Act.attempt (s.applyPatch report.issue winner) with
    | .error f => if f.isRefusal then leftOpen report (reported f) else throw f
    | .ok p =>
      let report := { report with
        applied := some p.id, candidates := replaced report.candidates p }
      s.afterApplying report p.id

/-- The work on an issue once it has candidates. -/
def afterProposing (s : Session) (report : IssueReport) : Act IssueReport := do
  keepPatches report.candidates
  let candidates ← beginAll report.candidates
  let (report, fault) ← s.validateInto { report with candidates := candidates }
  match fault with
  | none => s.afterValidating report
  | some f =>
    let candidates ← giveUp report.candidates
    leftOpen { report with candidates := candidates }
      s!"{ErrorKind.validationError.name}: {f.message}"

/-- Repairs an issue. -/
def process (s : Session) (i : Issue) : Act IssueReport := do
  if ((← Act.store).issue? i.id).isNone then
    Act.storing fun s => s.addIssue i
  let i ← setStatus i .inProgress
  match ← Act.attempt (s.proposeAll i) with
  | .ok candidates => s.afterProposing { IssueReport.blank i with candidates := candidates }
  | .error f => if isOfProposal f then leftOpen (.blank i) (reported f) else throw f

/-- Repairs issues one after the other. -/
def processEach (s : Session) : List Issue → Act (List IssueReport)
  | [] => pure []
  | i :: is => do
    let r ← s.process i
    let rs ← s.processEach is
    pure (r :: rs)

/-- Issues up to a number, if one is given; a negative one leaves out as many at the
end. -/
def upTo (issues : List Issue) (limit : Option Int) : List Issue :=
  match limit with
  | none => issues
  | some n => slice issues 0 n

/-- Detects the issues below a directory, or of the whole repository, and repairs them. -/
def run (s : Session) (root : Option Path) (limit : Option Int) : Act (List IssueReport) := do
  let reports ← s.processEach (upTo (← s.detectAndRecord root) limit)
  let resolved := reports.countP IssueReport.isResolved
  Act.emit (.of "pipeline_completed" [("issues", .int reports.length),
    ("resolved", .int resolved)])
  pure reports

end Session

end RepairLoop
