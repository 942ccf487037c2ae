import RepairLoop.Path
import RepairLoop.Python.Mask
import RepairLoop.Python.Parser
import RepairLoop.Record.Issue
import RepairLoop.Rust.Source
import RepairLoop.Sequence.Basic
import RepairLoop.Settings.Sections
/-!
# Sources

A source is a text with its lines, the lines that are left when comments and texts
are blanked, and its tree if it is Python. A finding on a line of it takes the lines
around with it.
-/

namespace RepairLoop

/-- The language of a file. -/
inductive Language where
  | python
  | rust
  | text
  deriving DecidableEq, Inhabited

namespace Language

/-- The name of a language. -/
def name : Language → String
  | python => "python"
  | rust => "rust"
  | text => "text"

/-- The language of a file by its suffix. -/
def ofPath (path : String) : Language :=
  let suffix := (Path.ofString path).suffix
  if suffix == ".py" then .python else if suffix == ".rs" then .rust else .text

end Language

/-- A text that was read. -/
structure Source where
  path : String
  language : Language
  lines : List String
  codeLines : List String
  tree : Option Python.Syn
  settings : AnalysisSettings

/-- Why a text is not read. -/
inductive SourceFault where
  | grammar (f : Python.SyntaxFault)
  | unmasked (f : Python.MaskFault)
  | rust (f : Rust.Unreadable)
  | undecodable (reason : String) (place line column : Nat)
  | nulCharacter
  deriving DecidableEq

namespace SourceFault

/-- What is said of a text that is not read. -/
def message : SourceFault → String
  | grammar f => f.message
  | unmasked f => s!"Tokenizer failed: {f.message}"
  | rust f => f.message
  | undecodable reason place _ _ => s!"not valid UTF-8 ({reason} at byte {place})"
  | nulCharacter => "source code string cannot contain null bytes"

/-- The line and column of what is wrong. -/
def place : SourceFault → Nat × Nat
  | grammar f => (max 1 f.line, max 1 f.column)
  | unmasked _ => (1, 1)
  | rust f => f.place
  | undecodable _ _ line column => (line, column)
  | nulCharacter => (1, 1)

/-- A text that is not read stops its reader. -/
def toFault (f : SourceFault) : Fault :=
  match f with
  | nulCharacter => .badValue f.message
  | f => .unreadable f.message f.place.1 f.place.2

end SourceFault

namespace Source

/-- The lines of a text, the code in them, and its tree. -/
def readCode (language : Language) (text : String) :
    Except SourceFault (List String × Option Python.Syn) :=
  match language with
  | .python =>
    if text.toList.contains '\x00' then .error .nulCharacter
    else
      match Python.parseText text with
      | .error f => .error (.grammar f)
      | .ok tree =>
        match Python.mask text.toList with
        | .error f => .error (.unmasked f)
        | .ok lines => .ok (lines.map String.ofList, some tree)
  | .rust =>
    match Rust.mask text.toList with
    | .error f => .error (.rust f)
    | .ok (lines, brackets) =>
      match Rust.balance [] brackets with
      | .error f => .error (.rust f)
      | .ok _ => .ok (lines.map String.ofList, none)
  | .text => .ok (Text.splitLines text, none)

/-- Reads a text. -/
def read (path text : String) (settings : AnalysisSettings) : Except SourceFault Source :=
  let language := Language.ofPath path
  match readCode language text with
  | .error f => .error f
  | .ok (code, tree) => .ok ⟨path, language, Text.splitLines text, code, tree, settings⟩

/-- The lines around a line. -/
def context (lines : List String) (span : Int) (line : Int) : List (String × String) :=
  let index := line - 1
  let before := slice lines (max 0 (index - span)) (max 0 index)
  let after := slice lines (index + 1) (index + 1 + span)
  let current := if 0 ≤ index then (lines[index.toNat]?).getD "" else ""
  [("before", "\n".intercalate before), ("line", current), ("after", "\n".intercalate after)]

/-- A finding on a line of a source. -/
def finding (s : Source) (rule : String) (line column : Int) (kind : IssueKind)
    (severity : Severity) (message : String) (suggestion : Option String) : Finding :=
  ⟨s.path, line, column, severity, kind, message, suggestion, rule,
    context s.lines s.settings.contextLines line⟩

/-- The finding that stands for a text that is not read. -/
def unreadFinding (path text : String) (settings : AnalysisSettings) (f : SourceFault) : Finding :=
  ⟨path, f.place.1, f.place.2, .high, .parseError, s!"Failed to parse {path}: {f.message}", none,
    "PARSE001", context (Text.splitLines text) settings.contextLines f.place.1⟩

end Source

end RepairLoop
