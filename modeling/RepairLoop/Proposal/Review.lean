import RepairLoop.Number.Decimal
import RepairLoop.Pattern.Matcher
import RepairLoop.Record.Result
/-!
# Reviews

What a model thinks of a patch: a verdict, taken from the first line that states one,
and a report, which is the rest. A patch with its scores and its review is shown to
people in Markdown.
-/

namespace RepairLoop

/-- What a review comes to. -/
inductive Verdict where
  | approve
  | reject
  | unclear
  deriving DecidableEq, Inhabited

namespace Verdict

/-- The name of a verdict. -/
def name : Verdict → String
  | approve => "approve"
  | reject => "reject"
  | unclear => "unclear"

/-- All verdicts. -/
def all : List Verdict := [approve, reject, unclear]

/-- The verdict of a name. -/
def ofName? (s : String) : Option Verdict := all.find? (·.name == s)

end Verdict

/-- What a model thinks of a patch. -/
structure Review where
  verdict : Verdict
  report : String
  deriving DecidableEq, Inhabited

namespace Review

open Pattern

/-- A line that states a verdict; the verdict is group 1. -/
def verdictPattern : Node :=
  let m := Mode.caseless
  let stars := many (.test m (.char false '*'))
  row [.at_ m .lineStart, blanks, stars, lit m "verdict", stars, blanks, lit m ":", blanks, stars,
    blanks, .group 1 (anyLit m ["approve", "reject"]), edge]

/-- The review in an answer. -/
def ofAnswer (answer : String) : Review :=
  let trimmed := Text.strip answer
  let text := trimmed.toList.toArray
  match verdictPattern.search? text with
  | none => ⟨.unclear, trimmed⟩
  | some m =>
    let word := Text.lowerCase ((m.group? text 1).getD "")
    ⟨if word == "approve" then .approve else .reject,
      Text.strip (sliceText text 0 m.start ++ sliceText text m.stop text.size)⟩

/-- The review as an object. -/
def json (r : Review) : Json :=
  .object [("verdict", .text r.verdict.name), ("report", .text r.report)]

end Review

namespace Patch

private def listed (label : String) (items : List String) : List String :=
  if items.isEmpty then [] else [s!"**{label}:** " ++ ", ".intercalate items]

private def paragraphs (text : String) : List String :=
  if text == "" then [] else ["", text]

/-- A patch for a reader, with its issue and its review where there are any. -/
def forReader (p : Patch) (issue : Option Issue) (review : Option Review) : String :=
  "\n".intercalate
    ([s!"## Patch {p.id}"]
    ++ (match issue with
      | some i =>
        [s!"**Issue:** {i.kind.name} at \x60{i.filePath}:{i.line}\x60 - {i.message}"]
      | none => [])
    ++ [s!"**Status:** {p.validationStatus.name}"
          ++ (if p.needsReview then " (needs review)" else ""),
        "**Confidence:** " ++ Number.fixed p.confidence 2 ++ "  **Safety:** "
          ++ Number.fixed p.safetyScore 2]
    ++ listed "Safety matches" p.safetyMatches
    ++ (if p.breakingChanges.isEmpty then []
        else "**Breaking changes:**" :: p.breakingChanges.map fun c => s!"- {c}")
    ++ listed "Dependencies" p.dependencies
    ++ (match review with
      | some r => s!"**Model review:** {r.verdict.name}" :: paragraphs r.report
      | none => [])
    ++ paragraphs p.explanation
    ++ (if p.diff == "" then []
        else ["", "\x60\x60\x60diff",
          String.ofList (Text.dropTrailing (· == '\n') p.diff.toList), "\x60\x60\x60"]))

end Patch

end RepairLoop
