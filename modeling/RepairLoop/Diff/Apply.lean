import RepairLoop.Diff.Basic
import RepairLoop.Fault
/-!
# Applying a file section

Each hunk is looked for at the line it states and then ever further away, first
for an exact match of its old lines and, if there is none, for a match up to
blanks at line ends. Lines that a hunk does not change are copied as they stand.
-/

namespace RepairLoop.Diff

/-- A hunk that fits nowhere. -/
structure ApplyError where
  path : String
  hunk : Nat
  line : Nat
  deriving DecidableEq, Inhabited

namespace ApplyError

/-- What is said of a hunk that fits nowhere. -/
def message (e : ApplyError) : String :=
  s!"Hunk #{e.hunk} does not apply to {e.path}"

/-- The fault that stops an operation. -/
def toFault (e : ApplyError) : Fault :=
  .refuse .patchApply e.message
    [("path", .text e.path), ("hunk", .int e.hunk), ("line", .int e.line)]

end ApplyError

/-- A line of a file agrees with an expected line, its boundary aside. -/
def lineMatches (loose : Bool) (line expected : List Char) : Bool :=
  let actual := Text.dropTrailing (fun c => c == '\r' || c == '\n') line
  if loose then Text.trimRight actual == Text.trimRight expected else actual == expected

/-- Some lines start with an expected block. -/
def blockMatches (loose : Bool) : List (List Char) → List (List Char) → Bool
  | _, [] => true
  | [], _ :: _ => false
  | l :: ls, e :: es => lineMatches loose l e && blockMatches loose ls es

/-- The block stands at a position. -/
def matchesAt (lines block : List (List Char)) (loose : Bool) (position : Nat) : Bool :=
  blockMatches loose (lines.drop position) block

/-- The positions at distance `delta` from `expected` within the bounds, the lower
one first. -/
def candidates (expected floor limit delta : Nat) : List Nat :=
  (if delta ≤ expected && floor ≤ expected - delta then [expected - delta] else []) ++
    (if delta != 0 && expected + delta ≤ limit then [expected + delta] else [])

/-- The match nearest to `expected`. -/
def nearest? (lines block : List (List Char)) (loose : Bool) (expected floor limit : Nat) :
    Option Nat :=
  let reach := max (expected - floor) (limit - expected)
  (List.range (reach + 1)).findSome? fun delta =>
    (candidates expected floor limit delta).find? (matchesAt lines block loose)

/-- The position of a block at or after `floor`, as near to `expected` as can be. -/
def locate (lines block : List (List Char)) (expected : Int) (floor : Nat) : Option Nat :=
  if lines.length < floor + block.length then none
  else
    let limit := lines.length - block.length
    let expected := min (max expected floor).toNat limit
    if block.isEmpty then some expected
    else
      match nearest? lines block false expected floor limit with
      | some p => some p
      | none => nearest? lines block true expected floor limit

/-- What the lines of a hunk make of the lines from its position on: the lines it
writes and the lines it leaves for what follows. -/
def runEntries (newline : List Char) : List Entry → List (List Char) →
    List (List Char) × List (List Char)
  | [], lines => ([], lines)
  | e :: es, lines =>
    match e.tag with
    | .context =>
      let (out, rest) := runEntries newline es lines.tail
      (lines.headD [] :: out, rest)
    | .removed => runEntries newline es lines.tail
    | .added =>
      let bare : Bool := match es with
        | next :: _ => next.tag == .marker
        | [] => false
      let (out, rest) := runEntries newline es lines
      ((if bare then e.content else e.content ++ newline) :: out, rest)
    | .marker => runEntries newline es lines

/-- The hunks applied in turn, from the line at `cursor` on. -/
def runHunks (path : String) (newline : List Char) (lines : List (List Char)) :
    Nat → Nat → List Hunk → Except ApplyError (List (List Char))
  | _, cursor, [] => .ok (lines.drop cursor)
  | n, cursor, h :: hs =>
    let declared : Int := if h.oldCount != 0 then (h.oldStart : Int) - 1 else h.oldStart
    match locate lines h.oldLines declared cursor with
    | none => .error ⟨path, n, h.oldStart⟩
    | some position =>
      let before := (lines.drop cursor).take (position - cursor)
      let (out, rest) := runEntries newline h.entries (lines.drop position)
      match runHunks path newline lines (n + 1) (lines.length - rest.length) hs with
      | .error e => .error e
      | .ok after => .ok (before ++ out ++ after)

/-- Every line but the last ends with a line feed or a carriage return; one that
does not gets a line end. -/
def closeLines (newline : List Char) : List (List Char) → List (List Char)
  | [] => []
  | [l] => [l]
  | l :: ls =>
    (match l.getLast? with
      | some '\n' => l
      | some '\r' => l
      | _ => l ++ newline) :: closeLines newline ls

/-- The line end of a file: that of its first line if it is a carriage return and
a line feed. -/
def newlineOf (lines : List (List Char)) : List Char :=
  match lines with
  | l :: _ => if ['\n', '\r'].isPrefixOf l.reverse then ['\r', '\n'] else ['\n']
  | [] => ['\n']

/-- The file after a section was applied to it. -/
def applyChars (original : List Char) (p : FilePatch) : Except ApplyError (List Char) :=
  let lines := Text.fullLines (if p.isNew then [] else original)
  let newline := newlineOf lines
  match runHunks p.path newline lines 1 0 p.hunks with
  | .error e => .error e
  | .ok out => .ok (if p.isDeleted then [] else (closeLines newline out).flatten)

/-- The file after a section was applied to it. -/
def apply (original : String) (p : FilePatch) : Except ApplyError String :=
  (applyChars original.toList p).map String.ofList

end RepairLoop.Diff
