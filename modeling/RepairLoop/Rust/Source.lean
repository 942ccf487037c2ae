import RepairLoop.Pattern.Matcher
import RepairLoop.Text.Line
/-!
# Sources in Rust

A source in Rust is not parsed: what is no code is masked, and functions are found in
what is left.
-/

/-!
## Masking Rust

A scanner that blanks comments, the insides of texts and character literals, and
lists the brackets that are left. Comments in blocks may stand in each other. A
quote opens a character literal if a closing quote follows where one must stand;
otherwise it is the mark of a lifetime.
-/

namespace RepairLoop.Rust

/-- What surrounds the current character. -/
inductive Region where
  | code
  | comment
  | block (outer : Nat)
  | text (line column : Nat)
  deriving DecidableEq, Inhabited

/-- A bracket and where it stands. -/
structure Delimiter where
  char : Char
  line : Nat
  column : Nat
  deriving DecidableEq, Inhabited

/-- Why a text is not scanned or not balanced. -/
inductive Unreadable where
  | openComment (line column : Nat)
  | openText (line column : Nat)
  | unexpected (d : Delimiter)
  | unclosed (d : Delimiter)
  deriving DecidableEq, Inhabited

namespace Unreadable

/-- What is said of a text that is not read. -/
def message : Unreadable → String
  | openComment _ _ => "Unterminated block comment"
  | openText _ _ => "Unterminated string literal"
  | unexpected d => s!"Unexpected closing delimiter '{d.char}'"
  | unclosed d => s!"Unclosed delimiter '{d.char}'"

/-- The line and column of what is wrong. -/
def place : Unreadable → Nat × Nat
  | openComment l c => (l, c)
  | openText l c => (l, c)
  | unexpected d => (d.line, d.column)
  | unclosed d => (d.line, d.column)

end Unreadable

/-- An opening bracket. -/
def isOpening (c : Char) : Bool := c == '(' || c == '[' || c == '\x7b'

/-- A closing bracket. -/
def isClosing (c : Char) : Bool := c == ')' || c == ']' || c == '\x7d'

/-- The bracket that a closing one closes. -/
def openingOf (c : Char) : Char :=
  if c == ')' then '(' else if c == ']' then '[' else '\x7b'

/-- The most characters of an escape, its closing quote included. -/
def escapeWidth : Nat := 10

/-- How many characters behind a quote belong to the character literal it opens. -/
def literalWidth? : List Char → Option Nat
  | '\\' :: rest =>
    ((rest.take escapeWidth).findIdx? (· == '\'')).map (· + 2)
  | c :: d :: _ => if c != '\n' && d == '\'' then some 2 else none
  | _ => none

/-- How the scanner stands at a character: what surrounds it, how many characters are blanked
whatever they are, and where it stands. -/
structure Scanner where
  region : Region
  skip : Nat
  line : Nat
  column : Nat
  deriving DecidableEq, Inhabited

/-- What the scanner makes of a stretch: what it shows, the brackets that it finds, and how it
stands behind it. -/
structure Passage where
  shown : List Char
  found : List Delimiter
  scanner : Scanner
  deriving DecidableEq, Inhabited

namespace Scanner

/-- The scanner at the start of a text. -/
def start : Scanner := ⟨.code, 0, 1, 1⟩

/-- The scanner one character further on the line. -/
def onward (s : Scanner) (region : Region) (skip : Nat) : Scanner :=
  ⟨region, skip, s.line, s.column + 1⟩

/-- The scanner at the start of the next line. -/
def fed (s : Scanner) : Scanner :=
  ⟨match s.region with
    | .comment => .code
    | region => region, 0, s.line + 1, 1⟩

/-- A character is shown. -/
def keep (s : Scanner) (c : Char) (region : Region) : Passage := ⟨[c], [], s.onward region 0⟩

/-- A character is blanked, and so are some behind it. -/
def blank (s : Scanner) (region : Region) (skip : Nat) : Passage :=
  ⟨[' '], [], s.onward region skip⟩

/-- A character in code. -/
def readCode (s : Scanner) (c : Char) (rest : List Char) : Passage :=
  if c == '/' && rest.head? == some '/' then s.blank .comment 0
  else if c == '/' && rest.head? == some '*' then s.blank (.block 0) 1
  else if c == '"' then s.keep c (.text s.line s.column)
  else if c == '\'' then
    match literalWidth? rest with
    | some n => s.blank .code n
    | none => s.keep c .code
  else
    ⟨[c], if isOpening c || isClosing c then [⟨c, s.line, s.column⟩] else [], s.onward .code 0⟩

/-- A character in a comment that stands in some others. -/
def readBlock (s : Scanner) (outer : Nat) (c : Char) (rest : List Char) : Passage :=
  if c == '/' && rest.head? == some '*' then s.blank (.block (outer + 1)) 1
  else if c == '*' && rest.head? == some '/' then
    match outer with
    | 0 => s.blank .code 1
    | n + 1 => s.blank (.block n) 1
  else s.blank (.block outer) 0

/-- A character in a text. -/
def readText (s : Scanner) (line column : Nat) (c : Char) (rest : List Char) : Passage :=
  if c == '\\' && rest.head?.isSome && rest.head? != some '\n' then s.blank (.text line column) 1
  else if c == '"' then s.keep c .code
  else s.blank (.text line column) 0

/-- What the scanner makes of a character, seeing what stands behind it. -/
def read (s : Scanner) (c : Char) (rest : List Char) : Passage :=
  match s.skip with
  | skip + 1 => s.blank s.region skip
  | 0 =>
    if c == '\n' then ⟨[c], [], s.fed⟩
    else
      match s.region with
      | .code => s.readCode c rest
      | .comment => s.blank .comment 0
      | .block outer => s.readBlock outer c rest
      | .text line column => s.readText line column c rest

/-- The end of a text: a comment in a block or a text may still be open there. -/
def finish (s : Scanner) : Except Unreadable Unit :=
  match s.region with
  | .block _ => .error (.openComment s.line s.column)
  | .text line column => .error (.openText line column)
  | _ => .ok ()

/-- The masked characters and the brackets of the rest of a text. -/
def scan (s : Scanner) : List Char → Except Unreadable (List Char × List Delimiter)
  | [] => do
    s.finish
    .ok ([], [])
  | c :: rest => do
    let first := s.read c rest
    let (cs, ds) ← first.scanner.scan rest
    .ok (first.shown ++ cs, first.found ++ ds)

end Scanner

/-- The masked lines and the brackets of a text. -/
def mask (text : List Char) : Except Unreadable (List (List Char) × List Delimiter) := do
  let (cs, ds) ← Scanner.start.scan text
  .ok ((Text.pieces '\n' cs).take (Text.lines text).length, ds)

/-- What is wrong with a list of brackets; `stack` holds those that are open, the
last first. -/
def balance : List Delimiter → List Delimiter → Except Unreadable Unit
  | [], [] => .ok ()
  | d :: _, [] => .error (.unclosed d)
  | stack, d :: rest =>
    if isOpening d.char then balance (d :: stack) rest
    else
      match stack with
      | top :: stack =>
        if top.char == openingOf d.char then balance stack rest else .error (.unexpected d)
      | [] => .error (.unexpected d)

end RepairLoop.Rust

/-!
## Functions of Rust

A function starts with the word `fn` and a name in a masked line. Its branches are
counted on the lines from its opening brace to the line of its closing brace; a
semicolon before the opening brace says that it has no body.
-/

namespace RepairLoop.Rust

open Pattern

/-- The word `fn` and a name; the name is group 1. -/
def functionPattern : Node :=
  row [edge, lit .plain "fn", blanks1,
    .group 1 (row [.test .plain (.set false [.range 65 90, .range 97 122, .char '_']),
      many (cat .word)])]

/-- A word or an operator at which a run may branch. -/
def branchPattern : Node :=
  oneOf [row [edge, anyLit .plain ["if", "match", "for", "while", "loop"], edge],
    lit .plain "&&", lit .plain "||"]

/-- The number of branches in a masked line. -/
def branchCount (line : List Char) : Nat :=
  (branchPattern.findAll line.toArray).length

/-- What is known in the middle of a function: the braces that are open, whether
one was opened, and whether the function turned out to have no body. -/
structure BodyState where
  depth : Int
  opened : Bool
  bodyless : Bool
  deriving DecidableEq, Inhabited

/-- One more character of a function. -/
def BodyState.step (s : BodyState) (c : Char) : BodyState :=
  if s.bodyless then s
  else if c == ';' && !s.opened then { s with bodyless := true }
  else if c == '\x7b' then ⟨s.depth + 1, true, false⟩
  else if c == '\x7d' then { s with depth := s.depth - 1 }
  else s

/-- The branches on the rest of the lines of a function; absent where it has no
body. -/
def bodyBranches : BodyState → Nat → List (List Char) → Option Nat
  | s, n, [] => if s.opened then some n else none
  | s, n, line :: rest =>
    let s := line.foldl BodyState.step s
    if s.bodyless then none
    else
      let n := if s.opened then n + branchCount line else n
      if s.opened && s.depth ≤ 0 then some n else bodyBranches s n rest

/-- The functions with a body: name, line and number of branches. -/
def functionBranches : Nat → List (List Char) → List (String × Nat × Nat)
  | _, [] => []
  | number, line :: rest =>
    let found :=
      match functionPattern.search? line.toArray with
      | some m =>
        match bodyBranches ⟨0, false, false⟩ 0 (line.drop m.stop :: rest) with
        | some n => [((m.group? line.toArray 1).getD "", number, n)]
        | none => []
      | none => []
    found ++ functionBranches (number + 1) rest

end RepairLoop.Rust
