import RepairLoop.Diff.Parser
import RepairLoop.Text.Case
import RepairLoop.Text.Word
/-!
# The diff in a completion

A completion is free text. The diff in it is the first fenced block labelled as a
diff that parses; without one it is what starts at the first file header, git's
extended headers in front of it included.
-/

namespace RepairLoop.Diff

/-- Where a diff was found. -/
inductive Origin where
  | fenced
  | headers
  deriving DecidableEq, Inhabited

/-- The name of an origin. -/
def Origin.name : Origin → String
  | fenced => "fenced"
  | headers => "headers"

/-- A diff taken out of a completion. -/
structure Extraction where
  files : List FilePatch
  origin : Origin
  adjustments : List String
  deriving DecidableEq, Inhabited

namespace Extraction

/-- The diff in its usual form. -/
def text (x : Extraction) : String :=
  render x.files

/-- The number of hunks. -/
def hunkCount (x : Extraction) : Nat :=
  x.files.foldr (fun p n => p.hunks.length + n) 0

/-- The lines added in all sections. -/
def added (x : Extraction) : List (List Char) :=
  x.files.flatMap fun p => p.hunks.flatMap Hunk.added

/-- The lines removed in all sections. -/
def removed (x : Extraction) : List (List Char) :=
  x.files.flatMap fun p => p.hunks.flatMap Hunk.removed

/-- The number of changed lines. -/
def changedCount (x : Extraction) : Nat :=
  x.added.length + x.removed.length

/-- The position of the section that targets a path, or of the only section. -/
def indexFor? (x : Extraction) (path : String) : Option Nat :=
  let wanted := (Path.ofString path).text
  match x.files.findIdx? fun p => p.path == wanted || p.oldPath == some wanted with
  | some i => some i
  | none => if x.files.length == 1 then some 0 else none

/-- The section that targets a path, or the only section. -/
def fileFor? (x : Extraction) (path : String) : Option FilePatch :=
  (x.indexFor? path).bind (x.files[·]?)

end Extraction

/-- Why no diff was found in a completion. -/
inductive ExtractError where
  | empty
  | none (problems : List ParseError)
  | numberTooLong (digits : Nat)
  deriving DecidableEq, Inhabited

namespace ExtractError

/-- What is said of a completion without a diff: the first problem met. -/
def message : ExtractError → String
  | empty => "Completion is empty."
  | none [] => "No fenced diff block or ---/+++ header pair found."
  | none (p :: _) => p.message
  | numberTooLong n => Json.tooManyDigitsMessage n

/-- The fault that stops an operation on such a completion. -/
def toFault : ExtractError → Fault
  | numberTooLong n => .badValue (Json.tooManyDigitsMessage n)
  | empty => .refuse .diffParse empty.message []
  | none problems =>
    .refuse .diffParse (none problems).message
      [("problems", Json.texts (problems.map ParseError.message))]

end ExtractError

/-- The fence of a code block. -/
def fence : List Char := "\x60\x60\x60".toList

/-- A text up to the next fence, and what follows the fence. -/
def untilFence : List Char → Option (List Char × List Char)
  | [] => none
  | c :: rest =>
    if fence.isPrefixOf (c :: rest) then some ([], (c :: rest).drop 3)
    else (untilFence rest).map fun (body, after) => (c :: body, after)

/-- A character of a fence's label. -/
def isLabelChar (c : Char) : Bool :=
  Text.isWordChar c || c == '+' || c == '-'

/-- A fenced block at the start of a text: its label, its body and what follows. -/
def fencedAt? (cs : List Char) : Option (List Char × List Char × List Char) :=
  if fence.isPrefixOf cs then
    let rest := (cs.drop 3).dropWhile fun c => c == ' ' || c == '\t'
    let label := rest.takeWhile isLabelChar
    match rest.dropWhile (· != '\n') with
    | [] => none
    | _ :: rest => (untilFence rest).map fun (body, after) => (label, body, after)
  else none

/-- The fenced blocks of a text, label and body. -/
def fencedBlocks : Nat → List Char → List (List Char × List Char)
  | 0, _ => []
  | _ + 1, [] => []
  | fuel + 1, c :: rest =>
    match fencedAt? (c :: rest) with
    | some (label, body, after) => (label, body) :: fencedBlocks fuel after
    | none => fencedBlocks fuel rest

/-- The labels of a fenced diff. -/
def isDiffLabel (label : List Char) : Bool :=
  ["diff", "patch", "udiff"].contains (Text.lowerCase (String.ofList label))

/-- The first block that parses, or the problems of those that do not. -/
def firstFenced : List (List Char) → Except ExtractError (Extraction ⊕ List ParseError)
  | [] => .ok (.inr [])
  | body :: rest =>
    match parseChars body with
    | .ok (files, notes) => .ok (.inl ⟨files, .fenced, notes⟩)
    | .error (.numberTooLong n) => .error (.numberTooLong n)
    | .error e => do
      match ← firstFenced rest with
      | .inl x => .ok (.inl x)
      | .inr es => .ok (.inr (e :: es))

/-- The lines that may stand in front of a file header. -/
def extendedHeaders : List String :=
  ["diff --git ", "index ", "new file mode", "deleted file mode", "old mode", "new mode",
    "similarity index"]

/-- A line that may stand in front of a file header. -/
def isExtendedHeader (line : List Char) : Bool :=
  extendedHeaders.any (opens · line)

/-- The lines from the first file header on, with the extended headers in front of
it; `seen` holds the lines passed over, last first. -/
def fromHeader? (seen : List (List Char)) : List (List Char) → Option (List (List Char))
  | [] => none
  | line :: rest =>
    if startsFile (line :: rest) then
      some ((seen.takeWhile isExtendedHeader).reverse ++ line :: rest)
    else fromHeader? (line :: seen) rest

/-- Lines with a line feed between each two. -/
def joined : List (List Char) → List Char
  | [] => []
  | [l] => l
  | l :: ls => l ++ '\n' :: joined ls

/-- The diff in a completion. -/
def extractChars (cs : List Char) : Except ExtractError Extraction := do
  if (Text.trim cs).isEmpty then .error .empty
  else
    let blocks := (fencedBlocks (cs.length + 1) cs).filter fun b => isDiffLabel b.1
    match ← firstFenced (blocks.map (·.2)) with
    | .inl x => .ok x
    | .inr problems =>
      match fromHeader? [] (Text.lineBodies cs) with
      | none => .error (.none problems)
      | some ls =>
        match parseChars (joined ls) with
        | .ok (files, notes) => .ok ⟨files, .headers, notes⟩
        | .error (.numberTooLong n) => .error (.numberTooLong n)
        | .error e => .error (.none (problems ++ [e]))

/-- The diff in a completion. -/
def extract (completion : String) : Except ExtractError Extraction :=
  extractChars completion.toList

end RepairLoop.Diff
