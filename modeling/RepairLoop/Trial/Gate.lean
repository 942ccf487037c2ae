import RepairLoop.Files.Access
import RepairLoop.Repository.Mutation
import RepairLoop.Trial.Stage
/-!
# The gate

A patch passes the gate if it applies to a copy of the workspace and the stages accept
the copy. The workspace itself is only read. An attempt that runs out of time is made
again as long as attempts are left, and whatever stops an attempt is part of its
result.
-/

namespace RepairLoop

/-- The gate in front of a workspace. -/
structure Gate where
  workspace : Path
  settings : ValidationSettings
  git : GitSettings
  deriving Inhabited

/-- The outcome of three stages and the kind of what went wrong. -/
def StageResult.verdict (build test security : StageResult) : Outcome × Option ErrorKind :=
  if build.passed && test.passed then
    if security.passed then (.success, none)
    else (.warning, some (security.errorKind.getD .securityFailure))
  else
    (.failed, if build.passed then test.errorKind else build.errorKind)

namespace Gate

/-- The message of the commit that a patch is applied on. -/
def baselineMessage : String := "selfheal: validation baseline"

/-- Works in a copy of the workspace. -/
def inCopy {α : Type} (g : Gate) (work : Sandbox → Act α) : Act α :=
  Sandbox.inCopy g.workspace g.settings.sandboxIgnore g.settings.container work

/-- The size of the artifacts below a directory. -/
def artifactSize (g : Gate) (root : Path) : Act Int := do
  let files ← Act.files
  Act.ofExcept (((files.sizeMatching root g.settings.artifactGlobs).map Int.ofNat).mapError
    SearchFault.toFault)

/-! ## The baseline -/

/-- The duration of a stage that passed. -/
def durationOf (r : StageResult) : Option Int :=
  if r.passed && !r.skipped then some r.durationMs else none

/-- Measures the unpatched workspace. -/
def measureBaseline (g : Gate) : Act Sample :=
  g.inCopy fun sandbox => do
    let build ← g.settings.buildStage.run sandbox none
    let size ← g.artifactSize sandbox.root
    let benchmark ← match g.settings.benchmarkStage.command? with
      | none => pure none
      | some _ => durationOf <$> g.settings.benchmarkStage.run sandbox none
    pure ⟨durationOf build, benchmark, size⟩

/-- Sees to it that there is a baseline if performance is measured. It is measured once;
where that fails it is empty. -/
def ensureBaseline (g : Gate) : Act Unit := do
  if g.settings.measurePerformance && (← get).baseline.isNone then
    let sample ← match ← Act.attempt g.measureBaseline with
      | .ok sample => pure sample
      | .error _ => pure Sample.none_
    modify fun w => { w with baseline := some sample }

/-! ## Attempts -/

/-- A result before anything has run. -/
def blankResult (patch : String) (isolation : Isolation) : Act ValidationResult := do
  let id ← Act.supplied Supply.freshName
  let time ← Act.now
  pure ⟨id, patch, .failed, false, false, false, PerformanceImpact.none_, [], [], [], none, 0,
    isolation, time⟩

/-- Makes the copy a repository with one commit of all its files, and applies a diff. A
file that points to a repository elsewhere is taken away first. -/
def prepareAndApply (g : Gate) (root : Path) (diff : String) : Act Unit := do
  let marker := Repository.ownFiles root
  Act.setFiles fun t => if t.isFile marker then t.remove marker else t
  let repository ←
    if (← Act.files).has marker then Repository.at_ root g.git else Repository.create root g.git
  let _ ← repository.commitBaseline baselineMessage
  repository.applyDiff diff true false

/-- A diff that does not apply: the stage has failed. Other faults stop the attempt. -/
def applyFailure (f : Fault) : Act StageResult :=
  match f with
  | .refused what kind message _ _ =>
    if what.isOfGit || what == .diffParse then
      pure { StageResult.passing .apply with
        passed := false, errorKind := some kind, errors := [message] }
    else throw f
  | f => throw f

/-- The stage that applies a diff. -/
def applyStage (g : Gate) (root : Path) (diff : String) : Act StageResult := do
  match ← Act.attempt (g.prepareAndApply root diff) with
  | .ok () => pure (StageResult.passing .apply)
  | .error f => applyFailure f

/-- The stage that measures the performance of a patched copy. -/
def performanceStage (g : Gate) (sandbox : Sandbox) (patch : String) (build : StageResult) :
    Act StageResult := do
  let spec := g.settings.benchmarkStage
  if !build.passed then pure (spec.skipped "build failed; performance not measured")
  else match spec.command? with
    | none => pure (StageResult.passing .performance)
    | some _ => spec.run sandbox (some patch)

/-- The changes in performance, where the patched copy was built. -/
def impact (g : Gate) (root : Path) (build performance : StageResult) :
    Act PerformanceImpact := do
  let baseline := (← get).baseline.getD Sample.none_
  if !build.passed || build.skipped then pure PerformanceImpact.none_
  else
    let compile ← Act.ofExcept (Sample.percentChange baseline.buildMs (some build.durationMs))
    let size ← g.artifactSize root
    let ran := performance.passed && !performance.skipped &&
      (performance.command.filter (· != "")).isSome
    let runtime ←
      if ran then
        Act.ofExcept (Sample.percentChange baseline.benchmarkMs (some performance.durationMs))
      else pure none
    pure ⟨compile, some (size - baseline.artifactBytes), runtime⟩

/-- Runs the stages on a patched copy. -/
def runStages (g : Gate) (sandbox : Sandbox) (r : ValidationResult) : Act ValidationResult := do
  let build ← g.settings.buildStage.run sandbox (some r.patchId)
  let test ← g.settings.testStage.run sandbox (some r.patchId)
  let security ← g.settings.securityStage.run sandbox (some r.patchId)
  let ran := [build, test, security]
  let (outcome, kind) := StageResult.verdict build test security
  let r := { r with
    stages := r.stages ++ ran
    buildSuccess := build.passed
    testSuccess := test.passed
    securityScanPassed := security.passed
    errors := r.errors ++ ran.flatMap StageResult.errors
    warnings := r.warnings ++ ran.flatMap StageResult.warnings
    outcome := outcome
    errorKind := kind }
  if g.settings.measurePerformance then
    let performance ← g.performanceStage sandbox r.patchId build
    let impact ← g.impact sandbox.root build performance
    pure { r with
      stages := r.stages ++ [performance]
      warnings := r.warnings ++ performance.warnings ++ performance.errors
      performance := impact }
  else pure { r with stages := r.stages ++ [.skippedFor .performance ""] }

/-- Tries a patch in a copy. -/
def tryPatch (g : Gate) (p : Patch) : Act ValidationResult :=
  g.inCopy fun sandbox => do
    let r ← blankResult p.id sandbox.isolation
    let applied ← g.applyStage sandbox.root p.diff
    let r := { r with stages := [applied] }
    if applied.passed then g.runStages sandbox r
    else pure { r with errorKind := applied.errorKind, errors := applied.errors }

/-- One attempt at a patch. What stops it makes it fail. -/
def attempt (g : Gate) (p : Patch) : Act ValidationResult := do
  match ← Act.attempt (g.tryPatch p) with
  | .ok r => pure r
  | .error f =>
    let r ← blankResult p.id .filesystem
    pure { r with errorKind := some .validationError, errors := [f.report] }

/-- Attempts at a patch, made again as long as the time runs out and attempts are
left. -/
def attempts (g : Gate) (p : Patch) : Nat → Act ValidationResult
  | 0 => g.attempt p
  | left + 1 => do
    let r ← g.attempt p
    if r.errorKind == some .timeout then g.attempts p left else pure r

/-- The event of a finished validation. -/
def event (r : ValidationResult) : Event :=
  .of "validation_completed" [("patch_id", .text r.patchId), ("outcome", .text r.outcome.name),
    ("error_kind", Patch.kindJson r.errorKind), ("duration_ms", .int r.durationMs),
    ("isolation", .text r.isolation.name)]

/-- Validates a patch. -/
def validate (g : Gate) (p : Patch) : Act ValidationResult := do
  g.ensureBaseline
  let r ← g.attempts p (g.settings.maxAttempts.toNat - 1)
  Act.emit (event r)
  pure r

/-- Validates patches one after the other. -/
def validateEach (g : Gate) : List Patch → Act (List ValidationResult)
  | [] => pure []
  | p :: ps => do
    let r ← g.validate p
    let rs ← g.validateEach ps
    pure (r :: rs)

/-- Validates patches, unless validations break down altogether. -/
def validateMany (g : Gate) (ps : List Patch) : Act (List ValidationResult) := do
  match (← get).outside.breakdown with
  | some message => throw (.mishap .aborted message)
  | none => g.validateEach ps

end Gate

end RepairLoop
