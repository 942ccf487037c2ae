import RepairLoop.Text.Character
import RepairLoop.Text.Line
/-!
# Unified diffs

A diff is a list of file sections, a section a list of hunks, a hunk a list of
tagged lines. A line is context, removed, added, or the marker that the line
before it lacks its final newline. The old side of a hunk is its context and
removed lines, the new side its context and added ones. Turning a diff around
swaps the sides.
-/

namespace RepairLoop.Diff

/-- The part a line plays in a hunk. -/
inductive Tag where
  | context
  | removed
  | added
  | marker
  deriving DecidableEq, Inhabited

namespace Tag

/-- The character in front of a line. -/
def char : Tag → Char
  | context => ' '
  | removed => '-'
  | added => '+'
  | marker => '\\'

/-- The tag that a character stands for. -/
def ofChar? (c : Char) : Option Tag :=
  if c == ' ' then some context
  else if c == '-' then some removed
  else if c == '+' then some added
  else if c == '\\' then some marker
  else none

theorem ofChar?_char (t : Tag) : ofChar? t.char = some t := by
  cases t <;> rfl

/-- The tag on the other side. -/
def flip : Tag → Tag
  | added => removed
  | removed => added
  | t => t

@[simp] theorem flip_flip (t : Tag) : t.flip.flip = t := by
  cases t <;> rfl

/-- Lines of the old side. -/
def isOld (t : Tag) : Bool :=
  t == context || t == removed

/-- Lines of the new side. -/
def isNew (t : Tag) : Bool :=
  t == context || t == added

end Tag

/-- A line of a hunk: its tag and what follows it. -/
structure Entry where
  tag : Tag
  body : List Char
  deriving DecidableEq, Inhabited

namespace Entry

/-- The line as a diff shows it. -/
def line (e : Entry) : List Char :=
  e.tag.char :: e.body

/-- The text of the line in a file: what follows the tag, without carriage
returns at its end. -/
def content (e : Entry) : List Char :=
  Text.dropTrailing (· == '\r') e.body

/-- The line on the other side. -/
def flip (e : Entry) : Entry :=
  ⟨e.tag.flip, e.body⟩

@[simp] theorem flip_flip (e : Entry) : e.flip.flip = e := by
  simp [flip]

end Entry

/-- One hunk: where it starts and how many lines it spans on either side, its
lines, and what follows its header. -/
structure Hunk where
  oldStart : Nat
  oldCount : Nat
  newStart : Nat
  newCount : Nat
  entries : List Entry
  section_ : List Char
  deriving DecidableEq, Inhabited

namespace Hunk

/-- The file's lines before the change. -/
def oldLines (h : Hunk) : List (List Char) :=
  (h.entries.filter (·.tag.isOld)).map Entry.content

/-- The file's lines after the change. -/
def newLines (h : Hunk) : List (List Char) :=
  (h.entries.filter (·.tag.isNew)).map Entry.content

/-- The added lines. -/
def added (h : Hunk) : List (List Char) :=
  (h.entries.filter (·.tag == .added)).map Entry.body

/-- The removed lines. -/
def removed (h : Hunk) : List (List Char) :=
  (h.entries.filter (·.tag == .removed)).map Entry.body

/-- The line that opens the hunk. -/
def header (h : Hunk) : List Char :=
  s!"@@ -{h.oldStart},{h.oldCount} +{h.newStart},{h.newCount} @@".toList ++ h.section_

/-- The hunk with its sides swapped. -/
def reverse (h : Hunk) : Hunk :=
  ⟨h.newStart, h.newCount, h.oldStart, h.oldCount, h.entries.map Entry.flip, h.section_⟩

@[simp] theorem reverse_reverse (h : Hunk) : h.reverse.reverse = h := by
  simp [reverse, Function.comp_def]

end Hunk

/-- The hunks of one file. A path is absent on the side where the file does not
exist. -/
structure FilePatch where
  oldPath : Option String
  newPath : Option String
  hunks : List Hunk
  deriving DecidableEq, Inhabited

namespace FilePatch

/-- The path of the file, the new one first. -/
def path (p : FilePatch) : String :=
  (p.newPath.orElse fun _ => p.oldPath).getD ""

/-- A section that creates its file. -/
def isNew (p : FilePatch) : Bool :=
  p.oldPath.isNone

/-- A section that removes its file. -/
def isDeleted (p : FilePatch) : Bool :=
  p.newPath.isNone

/-- The section with its sides swapped. -/
def reverse (p : FilePatch) : FilePatch :=
  ⟨p.newPath, p.oldPath, p.hunks.map Hunk.reverse⟩

@[simp] theorem reverse_reverse (p : FilePatch) : p.reverse.reverse = p := by
  simp [reverse, Function.comp_def]

end FilePatch

/-- Lines in a row with a line feed after each. -/
def terminated (ls : List (List Char)) : List Char :=
  ls.flatMap (· ++ ['\n'])

/-- The lines of one section. -/
def sectionLines (p : FilePatch) : List (List Char) :=
  let left := (p.oldPath.orElse fun _ => p.newPath).getD "None"
  let right := (p.newPath.orElse fun _ => p.oldPath).getD "None"
  [s!"diff --git a/{left} b/{right}".toList]
    ++ (if p.isNew then ["new file mode 100644".toList] else [])
    ++ (if p.isDeleted then ["deleted file mode 100644".toList] else [])
    ++ [match p.oldPath with
        | some q => s!"--- a/{q}".toList
        | none => "--- /dev/null".toList]
    ++ [match p.newPath with
        | some q => s!"+++ b/{q}".toList
        | none => "+++ /dev/null".toList]
    ++ p.hunks.flatMap fun h => h.header :: h.entries.map Entry.line

/-- The text of a diff. -/
def renderChars (files : List FilePatch) : List Char :=
  terminated (files.flatMap sectionLines)

/-- The text of a diff. -/
def render (files : List FilePatch) : String :=
  String.ofList (renderChars files)

end RepairLoop.Diff
