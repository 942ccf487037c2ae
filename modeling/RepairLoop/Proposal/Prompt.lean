import RepairLoop.Files.Access
import RepairLoop.Inspection.Source
import RepairLoop.Record.Issue
import RepairLoop.Sequence.Basic
import RepairLoop.Service.Answer
import RepairLoop.Text.Character
import RepairLoop.World.Basic
/-!
# What a model is asked

The texts that a model is given, and the requests that hold them.
-/

/-!
## Prompts

What a model is told: about an issue and its place when it is to write a patch, about
an issue alone when it is to explain it, and about an issue and a diff when it is to
review the diff. Languages are given by their names.
-/

namespace RepairLoop.Proposal

/-- How a patch is to be answered. -/
def diffInstruction : String :=
  "Respond with a single fenced \x60\x60\x60diff block containing a unified diff against the file "
    ++ "shown. Use \x60--- a/<path>\x60 and \x60+++ b/<path>\x60 headers and standard \x60@@\x60 "
    ++ "hunk headers with accurate line numbers. "
    ++ "Keep the change minimal and do not touch unrelated code. "
    ++ "After the diff, add one line starting with \x60Explanation:\x60 describing the fix."

/-- How a review is to be answered. -/
def reviewInstruction : String :=
  "Start your answer with exactly one line, \x60Verdict: APPROVE\x60 or \x60Verdict: REJECT\x60, "
    ++ "then give a short report with concrete recommendations."

/-- What to heed with issues of a kind. -/
def kindAdvice : IssueKind → List String
  | .security =>
    ["You are fixing a security vulnerability.",
      "- Eliminate the vulnerability rather than hiding it.",
      "- Preserve existing behaviour for valid input.",
      "- Validate untrusted input at the point it is used.",
      "- Prefer safe standard-library alternatives over hand-written escaping or evaluation."]
  | .performance =>
    ["You are optimising a hot path.",
      "- Reduce time complexity or repeated work before micro-tuning.",
      "- Avoid allocations and copies inside loops.",
      "- Keep results identical to the current implementation."]
  | .unsafeCode =>
    ["You are removing or narrowing unsafe code.",
      "- Replace the unsafe operation with a safe equivalent where one exists.",
      "- Otherwise shrink the unsafe region and state the invariant it relies on in a comment."]
  | .typeCompat =>
    ["You are migrating code to the current language edition.",
      "- Keep the public API backward compatible.",
      "- Use newer language features only where they remove the incompatibility."]
  | .deprecation =>
    ["You are replacing a deprecated construct.",
      "- Use the documented successor API.",
      "- Keep the public API backward compatible."]
  | _ => []

/-- What to heed with the newest edition of Rust. -/
def editionAdvice : List String :=
  ["- Target Rust edition 2024: check \x60dyn\x60 trait objects, async fn in traits, macro "
      ++ "hygiene, pattern matching and lifetime elision changes.",
    "- Update Cargo.toml only if the edition or a feature flag must change."]

/-- What to heed with issues of a kind in a language. -/
def advice (kind : IssueKind) (language : String) : List String :=
  kindAdvice kind ++
    if language == "rust" && (kind == .typeCompat || kind == .deprecation) then editionAdvice
    else []

/-- Numbered lines; the numbers are aligned to the right. -/
def numbered (lines : List String) (start : Int) : String :=
  if lines.isEmpty then "(file is empty or missing)"
  else
    let width := (toString (start + lines.length - 1)).length
    "\n".intercalate (lines.mapIdx fun i text =>
      let number := toString (start + i)
      String.ofList (List.replicate (width - number.length) ' ') ++ s!"{number} | {text}")

/-- Kind, severity, place and message of an issue. -/
def issueSummary (i : Issue) : String :=
  s!"{i.kind.name} ({i.severity.name}) at {i.location}\n{i.message}" ++
    match i.suggestion with
    | some s => if s == "" then "" else s!"\nSuggested direction: {s}"
    | none => ""

/-- The prompt for a patch. -/
def patchPrompt (i : Issue) (snippet : List String) (start : Int) (language : String) : String :=
  let focus := advice i.kind language
  "\n\n".intercalate
    ([s!"## Issue\n{issueSummary i}",
      s!"## Source ({language}, {i.filePath})\n{numbered snippet start}"]
      ++ (if focus.isEmpty then [] else ["## Focus\n" ++ "\n".intercalate focus])
      ++ ["## Instructions\n" ++ diffInstruction])

/-- The lines that an issue carries with it: those before, the line itself and those
after. -/
def carriedContext (i : Issue) : String :=
  "\n".intercalate
    ((["before", "line", "after"].filterMap fun k => (i.context.find? (·.1 == k)).map (·.2)).filter
      (· != ""))

/-- The prompt for an explanation. -/
def explanationPrompt (i : Issue) : String :=
  let context := carriedContext i
  s!"## Issue\n{issueSummary i}\n\n## Code\n"
    ++ (if context == "" then "(no context captured)" else context)
    ++ "\n\nExplain why this is a problem, what could go wrong at runtime, and how to fix it. "
    ++ "Answer in at most three short paragraphs without code fences."

/-- The questions of a review. -/
def reviewQuestions (language : String) : List String :=
  ["Does the patch correctly address the issue?",
    "Are there any potential side effects?",
    "Does it maintain backward compatibility?"]
  ++ (if language == "rust" then ["Is it compatible with Rust edition 2024?"] else [])
  ++ ["Are there any security concerns?",
    if language != "text" then s!"Does it follow {language} best practices?"
    else "Does it follow best practices?"]

/-- The prompt for a review. -/
def reviewPrompt (i : Issue) (diff language : String) : String :=
  let questions := (reviewQuestions language).mapIdx fun i q => s!"{i + 1}. {q}"
  s!"## Issue\n{issueSummary i}\n\n## Proposed patch\n"
    ++ "\x60\x60\x60diff\n" ++ Text.stripRight diff ++ "\n\x60\x60\x60\n\n## Review\n"
    ++ "\n".intercalate questions ++ "\n\n" ++ reviewInstruction

end RepairLoop.Proposal

/-!
## Inquiries

What a model is asked about an issue: for a patch, for an explanation, or for a review
of a patch. A patch is asked for with an excerpt of the source around the issue. Sources
are read below the root of the project only.
-/

namespace RepairLoop.Proposal

/-! ### Sources -/

/-- The source at a path that is seen from the root of a project: empty where no file is
or where the path leads out of the project. -/
def readSource (files : FileTree) (root : Path) (relative : String) : Except Fault String :=
  let path := root.join (Path.ofString relative)
  if path.parts.any (·.toList.contains '\x00') then .error WayFault.nulCharacter.toFault
  else
    match files.resolve path with
    | .error e => .error e.toFault
    | .ok l =>
      if root.parts.isPrefixOf l then
        if files.isTooLong l then
          .error (WayFault.nameTooLong (Path.mk .root l).text).toFault
        else
          match files.content? l with
          | some content => readText content
          | none => .ok ""
      else .ok ""

/-- Some lines of a source and the number of the first. -/
structure Excerpt where
  lines : List String
  start : Int
  deriving DecidableEq, Inhabited

namespace Excerpt

/-- The lines around an issue, as many on each side as half of a width. -/
def around (issue : Issue) (width : Int) (lines : List String) : Excerpt :=
  let half := max 1 (Int.fdiv width 2)
  let start := max 0 (issue.line - 1 - half)
  let stop := min (Int.ofNat lines.length) (issue.line + half)
  ⟨slice lines start stop, start + 1⟩

/-- The lines that an issue carries. -/
def carried (issue : Issue) : Excerpt :=
  let part (key : String) : String := (issue.context.lookup key).getD ""
  let text := "\n".intercalate ([part "before", part "line", part "after"].filter (· != ""))
  ⟨Text.splitLines text, max 1 (issue.line - (Text.splitLines (part "before")).length)⟩

/-- The excerpt for an issue: from the source, or from the issue where the source is
empty. -/
def ofSource (issue : Issue) (width : Int) (source : String) : Excerpt :=
  let lines := Text.splitLines source
  if lines.isEmpty then carried issue else around issue width lines

end Excerpt

/-! ### Requests -/

/-- The name of the language of an issue's file. -/
def languageName (issue : Issue) : String := (Language.ofPath issue.filePath).name

/-- Asks for a patch. -/
def patchRequest (s : ModelSettings) (issue : Issue) (source : String) : ModelRequest :=
  let excerpt := Excerpt.ofSource issue s.maxContextLines source
  ⟨patchPrompt issue excerpt.lines excerpt.start (languageName issue),
    [("file_path", issue.filePath), ("issue_kind", issue.kind.name),
      ("severity", issue.severity.name), ("line", toString issue.line)],
    s.maxTokens, .real s.temperature, some s.model, none⟩

/-- The most tokens of an explanation and of a review. -/
def shortAnswers : Int × Int := (1000, 500)

/-- Asks for an explanation. -/
def explanationRequest (s : ModelSettings) (issue : Issue) : ModelRequest :=
  ⟨explanationPrompt issue, [], min s.maxTokens shortAnswers.1, .real s.temperature, some s.model,
    none⟩

/-- Asks for a review of a patch. -/
def reviewRequest (s : ModelSettings) (issue : Issue) (patch : Patch) : ModelRequest :=
  ⟨reviewPrompt issue patch.diff (languageName issue),
    [("file_path", issue.filePath), ("issue_kind", issue.kind.name), ("patch_id", patch.id)],
    min s.maxTokens shortAnswers.2, .real 0.1, some s.model, none⟩

end RepairLoop.Proposal
