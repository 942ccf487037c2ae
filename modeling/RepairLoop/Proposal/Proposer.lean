import RepairLoop.Proposal.Draft
import RepairLoop.Proposal.Prompt
import RepairLoop.Proposal.Review
import RepairLoop.Record.Result
import RepairLoop.Service.Basic
/-!
# Proposers

A proposer asks a service about issues of a project and makes patches of the answers.
Each question takes a token of the allowance first; without one it is not asked.
Candidates stand in order of their scores, the best first; of equal ones the one that
was made earlier stands first.
-/

namespace RepairLoop

namespace Patch

/-- Patches in the order in which they were made. -/
def inOrderMade (ps : List Patch) : List Patch :=
  ps.mergeSort fun a b => a.generationIndex ≤ b.generationIndex

/-- Patches with the best first; equally good ones in the order in which they were
made. -/
def ranked (ps : List Patch) : List Patch :=
  (inOrderMade ps).mergeSort fun a b => !(a.rankingScore < b.rankingScore)

end Patch

/-- Who asks a service about the issues of a project. -/
structure Proposer where
  service : Service
  root : Path
  settings : ModelSettings
  safety : SafetySettings
  dangers : List (Proposal.Danger Float)
  deriving Inhabited

namespace Proposer

/-- A proposer for the project that a path leads to. The allowance is full if there was
none. -/
def make (service : Service) (root : Path) (settings : ModelSettings) (safety : SafetySettings) :
    Act Proposer := do
  let w ← get
  let place ← Act.ofExcept ((w.files.resolve (w.absolute root)).mapError WayFault.toFault)
  if w.allowance.isNone then
    let full := Allowance.make settings.requestsPerWindow settings.windowSeconds w.seconds
    let a ← Act.ofExcept (full.mapError (·.toFault))
    set { w with allowance := some a }
  let dangers ← Act.ofExcept (Proposal.dangers safety.denylist)
  pure ⟨service, ⟨.root, place⟩, settings, safety, dangers⟩

/-- Takes a token of the allowance. -/
def takeToken : Act Unit := do
  let w ← get
  match w.allowance with
  | none => pure ()
  | some a =>
    let (left, taken) := a.take 1 w.seconds
    set { w with allowance := some left }
    match taken with
    | .ok () => pure ()
    | .error e =>
      Act.emit e.event
      throw e.toFault

/-- Asks the service, which takes a token. -/
def ask (p : Proposer) (request : ModelRequest) : Act ModelAnswer := do
  takeToken
  p.service.ask request

/-- The source at a path of the project. -/
def read (p : Proposer) (path : String) : Act String := do
  Act.ofExcept (Proposal.readSource (← Act.files) p.root path)

/-- The patch that a completion comes to. -/
def build (p : Proposer) (issue : Issue) (completion source : String) (index : Int) :
    Act Patch := do
  let files ← Act.files
  let (patch, event) ← Act.supplying
    (Proposal.patchOf (Proposal.readSource files p.root) p.safety p.dangers issue completion source
      index)
  Act.emit event
  pure patch

/-- Asks for a patch. -/
def propose (p : Proposer) (issue : Issue) (index : Int) : Act Patch := do
  takeToken
  let source ← p.read issue.filePath
  let answer ← p.service.ask (Proposal.patchRequest p.settings issue source)
  p.build issue (← Act.ofExcept answer.text) source index

/-- Asks for some patches, numbered from `index`. -/
def proposeFrom (p : Proposer) (issue : Issue) (index : Int) : Nat → Act (List Patch)
  | 0 => pure []
  | count + 1 => do
    let patch ← p.propose issue index
    let rest ← p.proposeFrom issue (index + 1) count
    pure (patch :: rest)

/-- Asks for candidates, as many as are wanted or as usual but at least one; the best
stands first. -/
def candidates (p : Proposer) (issue : Issue) (count : Option Int) : Act (List Patch) := do
  let count := max 1 (count.getD p.settings.candidates)
  return Patch.ranked (← p.proposeFrom issue 0 count.toNat)

/-- Asks for an explanation of an issue. -/
def explain (p : Proposer) (issue : Issue) : Act String := do
  let answer ← p.ask (Proposal.explanationRequest p.settings issue)
  return Text.strip (← Act.ofExcept answer.plainText)

/-- The event of a review. -/
def reviewed (issue : Issue) (patch : Patch) (r : Review) : Event :=
  .of "patch_reviewed" [("issue_id", .text issue.id), ("patch_id", .text patch.id),
    ("verdict", .text r.verdict.name)]

/-- Asks for a review of a patch, which must have a diff. -/
def review (p : Proposer) (issue : Issue) (patch : Patch) : Act Review := do
  if patch.diff == "" then
    throw (.refuse .diffParse s!"Patch {patch.id} has no diff to review."
      [("patch_id", .text patch.id)])
  let answer ← p.ask (Proposal.reviewRequest p.settings issue patch)
  let r := Review.ofAnswer (← Act.ofExcept answer.plainText)
  Act.emit (reviewed issue patch r)
  pure r

end Proposer

end RepairLoop
