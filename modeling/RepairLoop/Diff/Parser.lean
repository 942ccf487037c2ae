import RepairLoop.Diff.Basic
import RepairLoop.Fault
import RepairLoop.Json.Parser
import RepairLoop.Path
import RepairLoop.Text.Character
import RepairLoop.Text.Quoted
/-!
# Reading a unified diff

A section starts with a line that opens with three dashes and a blank, followed
at once by one that opens with three plus signs and a blank, and goes on for as
long as hunks follow. Lines between sections are passed over. The counts that a
hunk states do not bind: they are taken from its lines, and a hunk whose counts
were wrong is reported. Paths must stay inside the tree.
-/

namespace RepairLoop.Diff

/-- Why a text is no diff. -/
inductive ParseError where
  | absolutePath (path : String)
  | escapingPath (path : String)
  | repositoryDirectory
  | malformedHunkHeader (line : List Char)
  | emptyHunk (line : List Char)
  | noFileOnEitherSide
  | noHunks (path : String)
  | hunkBeforeHeader
  | noHeader
  | numberTooLong (digits : Nat)
  deriving DecidableEq, Inhabited

/-- What is said of a text that is no diff. -/
def ParseError.message : ParseError → String
  | absolutePath p => s!"Absolute paths are not permitted in patches: {p}"
  | escapingPath p => s!"Path escaping detected in patch: {p}"
  | repositoryDirectory => "Patches may not target the .git directory."
  | malformedHunkHeader l => s!"Malformed hunk header: {String.ofList (Text.quotedChars l)}"
  | emptyHunk l => s!"Empty hunk at {String.ofList (Text.quotedChars l)}"
  | noFileOnEitherSide => "File header references /dev/null on both sides."
  | noHunks p => s!"File section for {p} has no hunks."
  | hunkBeforeHeader => "Hunk found before any ---/+++ file header."
  | noHeader => "No ---/+++ file header pair found."
  | numberTooLong n => Json.tooManyDigitsMessage n

/-- A fault of the grammar; the other cause is a number beyond all bounds. -/
def ParseError.isGrammar : ParseError → Bool
  | numberTooLong _ => false
  | _ => true

/-- The fault that stops an operation on such a text. -/
def ParseError.toFault (e : ParseError) : Fault :=
  if e.isGrammar then .refuse .diffParse e.message [] else .badValue e.message

/-- A line that opens with a text. -/
def opens (start : String) (line : List Char) : Bool :=
  start.toList.isPrefixOf line

/-- The lines start with a file header. -/
def startsFile : List (List Char) → Bool
  | a :: b :: _ => opens "--- " a && opens "+++ " b
  | _ => false

/-- A line that opens a hunk. -/
def startsHunk (line : List Char) : Bool :=
  opens "@@" line

/-- The path that a file header names: up to the first tab, without blanks around
it and without `a/` or `b/` in front. There is none for the null device. -/
def headerPath (operand : List Char) : Option String :=
  let entry := Text.trim (operand.takeWhile (· != '\t'))
  if entry == "/dev/null".toList || entry.isEmpty then none
  else
    let entry := if opens "a/" entry || opens "b/" entry then entry.drop 2 else entry
    if entry.isEmpty then none else some (String.ofList entry)

/-- A path of a patch is relative, climbs nowhere, and stays out of the
repository's own directory. -/
def checkPath : Option String → Except ParseError Unit
  | none => .ok ()
  | some raw =>
    let p := Path.ofString raw
    if p.isAbsolute then .error (.absolutePath raw)
    else if p.parts.contains ".." then .error (.escapingPath raw)
    else if p.parts.head? == some ".git" then .error .repositoryDirectory
    else .ok ()

/-- The numbers and the section of a hunk header, as written: the count of a side
may be absent. -/
structure RawHeader where
  oldStart : List Char
  oldCount : Option (List Char)
  newStart : List Char
  newCount : Option (List Char)
  section_ : List Char

/-- A run of digits with at least one. -/
def digits1? (cs : List Char) : Option (List Char × List Char) :=
  match cs.span Text.isDecimalDigit with
  | ([], _) => none
  | r => some r

/-- A fixed text at the start. -/
def after? (start : String) (cs : List Char) : Option (List Char) :=
  if opens start cs then some (cs.drop start.length) else none

/-- A comma and a count, or nothing. -/
def optionalCount (cs : List Char) : Option (List Char) × List Char :=
  match cs with
  | ',' :: rest =>
    match digits1? rest with
    | some (ds, rest) => (some ds, rest)
    | none => (none, cs)
  | _ => (none, cs)

/-- The parts of a hunk header. -/
def rawHeader? (line : List Char) : Option RawHeader := do
  let rest ← after? "@@ -" line
  let (oldStart, rest) ← digits1? rest
  let (oldCount, rest) := optionalCount rest
  let rest ← after? " +" rest
  let (newStart, rest) ← digits1? rest
  let (newCount, rest) := optionalCount rest
  let rest ← after? " @@" rest
  some ⟨oldStart, oldCount, newStart, newCount, rest⟩

/-- The number that some digits write. -/
def number (ds : List Char) : Except ParseError Nat :=
  if ds.length > Json.maxDigits then .error (.numberTooLong ds.length)
  else .ok ((Text.decimalNumber? ds).getD 0)

/-- The count of a side, one where it is absent. -/
def countOrOne : Option (List Char) → Except ParseError Nat
  | none => .ok 1
  | some ds => number ds

/-- The lines of a hunk, as far as they go. An empty line is an empty line of
context. -/
def hunkBody : List (List Char) → List Entry × List (List Char)
  | [] => ([], [])
  | line :: rest =>
    if startsHunk line || opens "diff --git " line || startsFile (line :: rest) then
      ([], line :: rest)
    else
      match line with
      | [] =>
        let (es, rest) := hunkBody rest
        (⟨.context, []⟩ :: es, rest)
      | c :: body =>
        match Tag.ofChar? c with
        | none => ([], line :: rest)
        | some tag =>
          let (es, rest) := hunkBody rest
          (⟨tag, body⟩ :: es, rest)

/-- The number of lines of the old side. -/
def oldSize (es : List Entry) : Nat :=
  es.countP (·.tag.isOld)

/-- The number of lines of the new side. -/
def newSize (es : List Entry) : Nat :=
  es.countP (·.tag.isNew)

/-- Without the empty context lines at the end that the stated count has no room
for; the lines are given last first. -/
def dropSurplus (oldCount : Nat) : List Entry → List Entry
  | [] => []
  | e :: es =>
    if e == ⟨.context, []⟩ && oldSize (e :: es) > oldCount then dropSurplus oldCount es
    else e :: es

/-- What is reported of a hunk whose counts were wrong. -/
def recountNote (oldStart oldCount newStart newCount actualOld actualNew : Nat) : String :=
  s!"hunk -{oldStart},{oldCount} +{newStart},{newCount} recounted as " ++
    s!"-{oldStart},{actualOld} +{newStart},{actualNew}"

/-- One hunk: its header, its lines, a report if its counts were wrong, and the
lines that follow. -/
def parseHunk (header : List Char) (rest : List (List Char)) :
    Except ParseError (Hunk × Option String × List (List Char)) := do
  match rawHeader? header with
  | none => .error (.malformedHunkHeader header)
  | some raw =>
    let oldStart ← number raw.oldStart
    let oldCount ← countOrOne raw.oldCount
    let newStart ← number raw.newStart
    let newCount ← countOrOne raw.newCount
    let (all, after) := hunkBody rest
    let last := ((rest.take all.length).getLast?).getD header
    let es := (dropSurplus oldCount all.reverse).reverse
    if es.any (·.tag != .marker) then
      let actualOld := oldSize es
      let actualNew := newSize es
      let note :=
        if actualOld == oldCount && actualNew == newCount then none
        else some (recountNote oldStart oldCount newStart newCount actualOld actualNew)
      .ok (⟨oldStart, actualOld, newStart, actualNew, es, raw.section_⟩, note, after)
    else .error (.emptyHunk last)

/-- The hunks that follow a file header, with their reports. -/
def parseHunks : Nat → List (List Char) →
    Except ParseError (List Hunk × List String × List (List Char))
  | 0, ls => .ok ([], [], ls)
  | _ + 1, [] => .ok ([], [], [])
  | fuel + 1, line :: rest =>
    if startsHunk line then do
      let (hunk, note, rest) ← parseHunk line rest
      let (hunks, notes, rest) ← parseHunks fuel rest
      .ok (hunk :: hunks, note.toList ++ notes, rest)
    else .ok ([], [], line :: rest)

/-- The sections of a diff, given as lines. -/
def parseSections : Nat → List (List Char) → Except ParseError (List FilePatch × List String)
  | 0, _ => .ok ([], [])
  | fuel + 1, ls =>
    match ls with
    | [] => .ok ([], [])
    | line :: rest =>
      if startsFile ls then do
        let oldPath := headerPath (line.drop 4)
        let newPath := headerPath ((rest.headD []).drop 4)
        if oldPath.isNone && newPath.isNone then .error .noFileOnEitherSide
        else
          checkPath oldPath
          checkPath newPath
          let (hunks, notes, after) ← parseHunks ls.length rest.tail
          if hunks.isEmpty then
            .error (.noHunks ((newPath.orElse fun _ => oldPath).getD ""))
          else
            let (files, more) ← parseSections fuel after
            .ok (⟨oldPath, newPath, hunks⟩ :: files, notes ++ more)
      else if startsHunk line then .error .hunkBeforeHeader
      else parseSections fuel rest

/-- The sections of a diff and the reports on miscounted hunks. -/
def parseChars (cs : List Char) : Except ParseError (List FilePatch × List String) := do
  let ls := Text.lineBodies cs
  let (files, notes) ← parseSections (ls.length + 1) ls
  if files.isEmpty then .error .noHeader else .ok (files, notes)

/-- The sections of a diff and the reports on miscounted hunks. -/
def parse (s : String) : Except ParseError (List FilePatch × List String) :=
  parseChars s.toList

/-- The diff with its sides swapped. -/
def reverse (s : String) : Except ParseError String := do
  let (files, _) ← parse s
  .ok (render (files.map FilePatch.reverse))

end RepairLoop.Diff
