import RepairLoop.Diff.Apply
import RepairLoop.Diff.Make
import RepairLoop.Lifecycle
import RepairLoop.Proposal.Confidence
import RepairLoop.Proposal.Danger
import RepairLoop.Proposal.Interface
import RepairLoop.Telemetry
/-!
# Drafts

What a completion comes to: a change of one file, or the reason why it comes to none.
The change is stated anew as a diff between the two versions of the file, whatever the
completion wrote. A patch is made of a draft in either case; one without a change is
invalid, and one that the safety gate refuses as well.
-/

namespace RepairLoop.Proposal

/-- A change of a file: what was asked for, the two versions of the file, and the diff
between them. -/
structure FileChange where
  asked : Diff.Extraction
  path : String
  original : String
  patched : String
  diff : String
  deriving Inhabited

/-- What a completion comes to. -/
inductive Draft where
  | change (c : FileChange)
  | unusable (reason : String) (asked : Option Diff.Extraction)
  deriving Inhabited

/-- The section of a diff that is used for a path. -/
def targetOf (x : Diff.Extraction) (path : String) : Except Fault Diff.FilePatch :=
  match (x.fileFor? path).or x.files.head? with
  | some target => .ok target
  | none => .error (.mishap .badIndex "list index out of range")

/-- The diff between two versions of the file of a section. -/
def restated (target : Diff.FilePatch) (original patched : String) : String :=
  if target.isNew || target.isDeleted then Diff.render [target]
  else Diff.make original patched target.path

/-- What a section of a diff comes to for a version of its file. -/
def draftOf (x : Diff.Extraction) (target : Diff.FilePatch) (original : String) : Draft :=
  match Diff.apply original target with
  | .error e => .unusable s!"ParseError: {e.message}" (some x)
  | .ok patched =>
    let diff := restated target original patched
    if diff == "" then .unusable s!"ParseError: diff leaves {target.path} unchanged" (some x)
    else .change ⟨x, target.path, original, patched, diff⟩

/-- What a completion comes to for a file and its source; `read` reads other files. -/
def draft (read : String → Except Fault String) (path source completion : String) :
    Except Fault Draft :=
  match Diff.extract completion with
  | .error (.numberTooLong n) => .error (Diff.ExtractError.numberTooLong n).toFault
  | .error e => .ok (.unusable s!"ParseError: {e.message}" none)
  | .ok x => do
    let target ← targetOf x path
    let original ← if target.path == path then .ok source else read target.path
    .ok (draftOf x target original)

/-! ## Patches -/

/-- A new patch for an issue that says nothing yet. -/
def blankPatch (issue explanation : String) (index : Int) : StateM Supply Patch := do
  let id ← Supply.freshName
  let created ← Supply.readClock
  let updated ← Supply.readClock
  pure ⟨id, issue, "", "", "", explanation, 0.0, 1.0, [], [], [], .pending, none, false, false,
    none, false, none, none, none, index, created, updated⟩

/-- A text with a paragraph behind it. -/
def withParagraph (text paragraph : String) : String := Text.strip (text ++ "\n\n" ++ paragraph)

/-- A patch that is found invalid. -/
def invalidated (p : Patch) (kind : ErrorKind) : ExceptT Fault (StateM Supply) Patch :=
  ExceptT.mk do return ((← (p.actNow (.invalidate kind false)).run).mapError (·.toFault))

/-- The safety gate: a patch that is too long or not safe enough is invalid, or held for
a review. -/
def gated (s : SafetySettings) (p : Patch) : ExceptT Fault (StateM Supply) Patch :=
  if s.maxPatchSize < Int.ofNat p.diff.length then
    let reason := s!"SafetyRejection: diff exceeds {s.maxPatchSize} characters"
    invalidated { p with explanation := withParagraph p.explanation reason } .safetyRejection
  else if s.rejectionThreshold ≤ p.safetyScore then pure p
  else if s.requireReview then pure { p with needsReview := true }
  else invalidated p .safetyRejection

/-- The event of a patch that was made. -/
def madeEvent (p : Patch) (more : Members) : Event :=
  .of "patch_generated" ([("issue_id", .text p.issueId), ("patch_id", .text p.id),
    ("status", .text p.validationStatus.name)] ++ more)

/-- A patch without a change, and its event. -/
def rejected (dangers : List (Danger Float)) (p : Patch) (completion reason : String)
    (asked : Option Diff.Extraction) : ExceptT Fault (StateM Supply) (Patch × Event) := do
  let found := safety dangers completion
  let p ← invalidated { p with
    diff := (asked.map (·.text)).getD ""
    confidence := (confidence completion asked).score
    safetyScore := found.score
    safetyMatches := found.matches_
    explanation := withParagraph p.explanation reason } .parseError
  pure (p, madeEvent p [("reason", .text reason)])

/-- The lines that a diff adds, as one text. -/
def addedText (x : Diff.Extraction) : String := "\n".intercalate (x.added.map String.ofList)

/-- A patch with a change, and its event. -/
def scored (s : SafetySettings) (dangers : List (Danger Float)) (p : Patch) (completion : String)
    (c : FileChange) : ExceptT Fault (StateM Supply) (Patch × Event) := do
  let language := Language.ofPath c.path
  let found := safety dangers (addedText c.asked)
  let trust := confidence completion (some c.asked)
  let breaking ← (breakingChanges c.original c.patched language : Except Fault (List String))
  let taken ← (dependencies c.patched language : Except Fault (List String))
  let p ← gated s { p with
    originalCode := c.original
    patchedCode := c.patched
    diff := c.diff
    confidence := trust.score
    safetyScore := found.score
    safetyMatches := found.matches_
    breakingChanges := breaking
    dependencies := taken }
  pure (p, madeEvent p [("confidence", .float p.confidence),
    ("confidence_components", trust.json), ("safety_score", .float p.safetyScore),
    ("safety_matches", Json.texts p.safetyMatches)])

/-- The patch that a completion comes to, and its event. -/
def patchOf (read : String → Except Fault String) (s : SafetySettings)
    (dangers : List (Danger Float)) (issue : Issue) (completion source : String) (index : Int) :
    ExceptT Fault (StateM Supply) (Patch × Event) := do
  let p ← (blankPatch issue.id (explanation completion) index : StateM Supply Patch)
  match ← (draft read issue.filePath source completion : Except Fault Draft) with
  | .unusable reason asked => rejected dangers p completion reason asked
  | .change c => scored s dangers p completion c

end RepairLoop.Proposal
