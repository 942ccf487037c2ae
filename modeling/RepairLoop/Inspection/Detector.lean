import RepairLoop.Files.Tree
import RepairLoop.Glob
import RepairLoop.Inspection.Pass
import RepairLoop.Sequence.Basic
import RepairLoop.Telemetry
import RepairLoop.Text.Encoded
/-!
# Detection

The issues of a tree of files: each file with a fitting extension that is not ignored
and not too large is read once and looked at by the enabled passes. What is found in
a file is in order of line and column.
-/

namespace RepairLoop.Inspection

/-- A file is left out by a pattern: one that ends in a slash names a directory on the
way to it, any other is a glob for its whole path or its name. -/
def isIgnored (patterns : List String) (file : Location) : Bool :=
  let relative := FileTree.locationText file
  let name := file.getLast?.getD ""
  patterns.any fun p =>
    if p.endsWith "/" then
      file.dropLast.contains (String.ofList (Text.dropTrailing (· == '/') p.toList))
    else Glob.matches_ p relative || Glob.matches_ p name

/-- The files that are looked at, in order of their locations. -/
def sourceFiles (settings : AnalysisSettings) (t : FileTree) : List (Location × ByteArray) :=
  let extensions := settings.extensions.map Text.lowerCase
  t.files.filter fun (p, content) =>
    extensions.contains (Text.lowerCase (Path.suffixOf (p.getLast?.getD ""))) &&
      !isIgnored settings.ignorePatterns p && Int.ofNat content.size ≤ settings.maxFileSize

/-- The findings of the enabled passes in a source. -/
def inspect (s : Source) : List Finding :=
  s.settings.passes.flatMap fun p => runPass p s

/-- What is found in a text: a text that is not read has one finding. -/
def inspectText (settings : AnalysisSettings) (path text : String) :
    Except Fault (List Finding) :=
  match Source.read path text settings with
  | .ok s => .ok (inspect s)
  | .error .nulCharacter => .error (SourceFault.toFault .nulCharacter)
  | .error f => .ok [Source.unreadFinding path text settings f]

/-- A place in some bytes as a line and a column, both from one. -/
def byteLine (bytes : List UInt8) (place : Nat) : Nat × Nat :=
  let before := bytes.take place
  (before.count 10 + 1, (before.reverse.takeWhile (· != 10)).length + 1)

/-- What is found in a file. -/
def inspectFile (settings : AnalysisSettings) (path : String) (content : ByteArray) :
    Except Fault (List Finding) :=
  match Text.decode content with
  | .ok text => inspectText settings path text
  | .error f =>
    let (line, column) := byteLine content.toList f.place
    .ok [Source.unreadFinding path (Text.decodeLossy content) settings
      (.undecodable f.fault.reason f.place line column)]

/-- Issues in order of line and column; those at one place keep their order. -/
def inOrder (issues : List Issue) : List Issue :=
  issues.mergeSort fun a b => a.line < b.line || (a.line == b.line && a.column ≤ b.column)

/-- Issues for findings, named in the order in which they were found. -/
def recordAll (findings : List Finding) : StateM Supply (List Issue) := do
  let issues ← findings.mapM Finding.record
  pure (inOrder issues)

/-- The issues of a text. -/
def analyzeText (settings : AnalysisSettings) (path text : String) :
    ExceptT Fault (StateM Supply) (List Issue) := do
  let findings ← (inspectText settings path text : Except Fault (List Finding))
  recordAll findings

/-- The issues of some files, file by file. -/
def analyzeFiles (settings : AnalysisSettings) :
    List (Location × ByteArray) → ExceptT Fault (StateM Supply) (List Issue)
  | [] => pure []
  | (p, content) :: rest => do
    let findings ←
      (inspectFile settings (FileTree.locationText p) content : Except Fault (List Finding))
    let issues ← recordAll findings
    let more ← analyzeFiles settings rest
    pure (issues ++ more)

private def tallyJson (ss : List String) : Json :=
  .object ((tally ss).map fun (k, n) => (k, .int n))

/-- The numbers of issues by kind and severity, and of their files. -/
def summarise (issues : List Issue) : Members :=
  [("total", .int issues.length), ("by_kind", tallyJson (issues.map (·.kind.name))),
    ("by_severity", tallyJson (issues.map (·.severity.name))),
    ("files", .int (tally (issues.map (·.filePath))).length)]

/-- The event of a detection. -/
def detectedEvent (root : Path) (issues : List Issue) : Event :=
  .of "issues_detected" (("root", .text root.text) :: summarise issues)

end RepairLoop.Inspection
