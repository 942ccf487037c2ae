import RepairLoop.Fault
/-!
# Scalars of YAML

How a text is walked through, and how its scalars are read.
-/

/-!
## Walking through a YAML text

A YAML text is cut into tokens. It is no document where it does not follow the rules
of YAML, or a value in it is none of its tag. A cursor holds the rest of a text with
the index, line and column of its first character. A step over a character that ends
a line goes to the next line; a carriage return with a line feed behind it does not
end one.
-/

namespace RepairLoop.Yaml

/-- A token. The scope of a tag is what stands up to its second exclamation mark; a
tag between angle brackets has none. -/
inductive Token where
  | version (major : Nat)
  | tagScope (scope replacement : String)
  | reserved
  | documentStart
  | documentEnd
  | streamEnd
  | blockSequence
  | blockMapping
  | blockEnd
  | flowSequence
  | flowMapping
  | flowSequenceEnd
  | flowMappingEnd
  | key
  | value
  | blockEntry
  | flowEntry
  | alias (name : String)
  | anchor (name : String)
  | tag (scope : Option String) (suffix : String)
  | scalar (text : String) (plain : Bool)
  deriving DecidableEq, Inhabited

/-- Why a text is no document. -/
inductive Refused where
  | malformed
  | value (what : Mishap) (message : String)
  deriving DecidableEq, Inhabited

/-- An end of line. -/
def isBreak (c : Char) : Bool :=
  c == '\r' || c == '\n' || c == '\x85' || c == '\u2028' || c == '\u2029'

/-- An end of line or of the text; the null character stands for the end. -/
def isLineEnd (c : Char) : Bool := c == '\x00' || isBreak c

/-- A blank, or an end of line or of the text. -/
def isGap (c : Char) : Bool := c == ' ' || c == '\t' || isLineEnd c

/-- A letter, a digit, a hyphen or an underscore, all of ASCII. -/
def isNamePart (c : Char) : Bool := c.isAlphanum || c == '-' || c == '_'

/-- A character that may stand in a text. -/
def isAllowed (c : Char) : Bool :=
  let n := c.toNat
  n == 9 || n == 10 || n == 13 || (0x20 ≤ n && n ≤ 0x7e) || n == 0x85 ||
    (0xa0 ≤ n && n ≤ 0xd7ff) || (0xe000 ≤ n && n ≤ 0xfffd) || 0x10000 ≤ n

/-! ### The cursor -/

/-- A place in a text. -/
structure Cursor where
  rest : List Char
  index : Nat
  line : Nat
  column : Nat
  deriving DecidableEq, Inhabited

namespace Cursor

/-- The character at the place, null at the end. -/
def peek (c : Cursor) : Char := c.rest.headD '\x00'

/-- The character some places on, null behind the end. -/
def peekAt (c : Cursor) (n : Nat) : Char := c.rest.getD n '\x00'

/-- The next character. -/
def next (c : Cursor) : Cursor :=
  match c.rest with
  | [] => c
  | x :: rest =>
    if x == '\n' || x == '\x85' || x == '\u2028' || x == '\u2029' ||
        (x == '\r' && rest.head? != some '\n') then
      ⟨rest, c.index + 1, c.line + 1, 0⟩
    else if x == '\ufeff' then ⟨rest, c.index + 1, c.line, c.column⟩
    else ⟨rest, c.index + 1, c.line, c.column + 1⟩

/-- Some characters on. -/
def skip (c : Cursor) : Nat → Cursor
  | 0 => c
  | n + 1 => c.next.skip n

/-- The characters that pass a test, and the place behind them. -/
def span (c : Cursor) (p : Char → Bool) : List Char × Cursor :=
  let found := c.rest.takeWhile p
  (found, c.skip found.length)

/-- Behind the characters that pass a test. -/
def skipWhile (c : Cursor) (p : Char → Bool) : Cursor :=
  (c.span p).2

/-- The end of a line: what it stands for, nothing where there is none, and the place
behind it. -/
def lineBreak (c : Cursor) : List Char × Cursor :=
  let x := c.peek
  if x == '\r' && c.peekAt 1 == '\n' then (['\n'], c.skip 2)
  else if x == '\r' || x == '\n' || x == '\x85' then (['\n'], c.next)
  else if x == '\u2028' || x == '\u2029' then ([x], c.next)
  else ([], c)

/-- A document marker stands here. -/
def atMarker (c : Cursor) : Bool :=
  (c.rest.take 3 == ['-', '-', '-'] || c.rest.take 3 == ['.', '.', '.']) && isGap (c.peekAt 3)

end Cursor

end RepairLoop.Yaml

/-!
## Scalars of YAML

Scalars between quotes, scalars in blocks, and plain ones. Each is read from the
place where it starts; the text and the place behind it are returned.
-/

namespace RepairLoop.Yaml

/-- The text is not YAML. -/
def malformed {α : Type} : Except Refused α := .error .malformed

private def hexValue (cs : List Char) : Nat :=
  cs.foldl (fun n c =>
    n * 16 + (if c.isDigit then c.toNat - 48 else (c.toLower.toNat - 87))) 0

/-- A hexadecimal digit. -/
def isHex (c : Char) : Bool :=
  c.isDigit || ('a' ≤ c && c ≤ 'f') || ('A' ≤ c && c ≤ 'F')

/-! ### Between quotes -/

/-- What a character behind a backslash stands for. -/
def escape? (c : Char) : Option Char :=
  match c with
  | '0' => some '\x00'
  | 'a' => some '\x07'
  | 'b' => some '\x08'
  | 't' => some '\t'
  | '\t' => some '\t'
  | 'n' => some '\n'
  | 'v' => some '\x0b'
  | 'f' => some '\x0c'
  | 'r' => some '\r'
  | 'e' => some '\x1b'
  | ' ' => some ' '
  | '"' => some '"'
  | '\\' => some '\\'
  | '/' => some '/'
  | 'N' => some '\x85'
  | '_' => some '\xa0'
  | 'L' => some '\u2028'
  | 'P' => some '\u2029'
  | _ => none

/-- The number of hexadecimal digits behind a letter. -/
def escapeWidth? (c : Char) : Option Nat :=
  if c == 'x' then some 2 else if c == 'u' then some 4 else if c == 'U' then some 8 else none

/-- The character with a number. -/
def numbered (n : Nat) : Except Refused Char :=
  if n < 0x110000 then .ok (if 0xd800 ≤ n && n ≤ 0xdfff then '\ufffd' else Char.ofNat n)
  else if n < 0x80000000 then .error (.value .badValue "chr() arg not in range(0x110000)")
  else .error (.value .overflow "Python int too large to convert to C int")

/-- Line ends between the lines of a quoted scalar. -/
def quotedBreaks : Nat → Cursor → Except Refused (List Char × Cursor)
  | 0, c => .ok ([], c)
  | fuel + 1, c =>
    if c.atMarker then malformed
    else
      let c := c.skipWhile fun x => x == ' ' || x == '\t'
      if isBreak c.peek then do
        let (b, c) := c.lineBreak
        let (more, c) ← quotedBreaks fuel c
        .ok (b ++ more, c)
      else .ok ([], c)

/-- Blanks inside a quoted scalar: a single end of line becomes a space. -/
def quotedBlanks (c : Cursor) : Except Refused (List Char × Cursor) :=
  let (blanks, c) := c.span fun x => x == ' ' || x == '\t'
  if c.rest.isEmpty || c.peek == '\x00' then malformed
  else if isBreak c.peek then do
    let (b, c) := c.lineBreak
    let (breaks, c) ← quotedBreaks c.rest.length c
    let first := if b != ['\n'] then b else if breaks.isEmpty then [' '] else []
    .ok (first ++ breaks, c)
  else .ok (blanks, c)

private def endsRun (c : Char) : Bool :=
  c == '\'' || c == '"' || c == '\\' || isGap c

/-- A stretch of a quoted scalar without blanks. -/
def quotedRun (double : Bool) : Nat → Cursor → Except Refused (List Char × Cursor)
  | 0, c => .ok ([], c)
  | fuel + 1, c => do
    let (run, c) := c.span fun x => !endsRun x
    let x := c.peek
    if !double && x == '\'' && c.peekAt 1 == '\'' then
      let (more, c) ← quotedRun double fuel (c.skip 2)
      .ok (run ++ '\'' :: more, c)
    else if (double && x == '\'') || (!double && (x == '"' || x == '\\')) then
      let (more, c) ← quotedRun double fuel c.next
      .ok (run ++ x :: more, c)
    else if double && x == '\\' then
      let c := c.next
      let y := c.peek
      match escape? y with
      | some z =>
        let (more, c) ← quotedRun double fuel c.next
        .ok (run ++ z :: more, c)
      | none =>
        match escapeWidth? y with
        | some n =>
          let c := c.next
          let digits := c.rest.take n
          if digits.length < n || !(digits.all isHex) then malformed
          else
            let z ← numbered (hexValue digits)
            let (more, c) ← quotedRun double fuel (c.skip n)
            .ok (run ++ z :: more, c)
        | none =>
          if isBreak y then
            let (_, c) := c.lineBreak
            let (breaks, c) ← quotedBreaks c.rest.length c
            let (more, c) ← quotedRun double fuel c
            .ok (run ++ breaks ++ more, c)
          else malformed
    else .ok (run, c)

/-- The rest of a quoted scalar up to its closing quote. -/
def quotedRest (quote : Char) : Nat → Cursor → Except Refused (List Char × Cursor)
  | 0, _ => malformed
  | fuel + 1, c =>
    if c.peek == quote then .ok ([], c.next)
    else do
      let (blanks, c) ← quotedBlanks c
      let (run, c) ← quotedRun (quote == '"') (c.rest.length + 1) c
      let (more, c) ← quotedRest quote fuel c
      .ok (blanks ++ run ++ more, c)

/-- A scalar between quotes. -/
def quotedScalar (c : Cursor) : Except Refused (String × Cursor) := do
  let quote := c.peek
  let c := c.next
  let (run, c) ← quotedRun (quote == '"') (c.rest.length + 1) c
  let (more, c) ← quotedRest quote (c.rest.length + 1) c
  .ok (String.ofList (run ++ more), c)

/-! ### In blocks -/

/-- What becomes of the last line ends of a block. -/
inductive Chomping where
  | clip
  | strip
  | keep
  deriving DecidableEq, Inhabited

private def signChomping? (c : Char) : Option Chomping :=
  if c == '+' then some .keep else if c == '-' then some .strip else none

/-- The header of a block: what becomes of its last line ends, and its indentation. -/
def blockHeader (c : Cursor) : Except Refused ((Chomping × Option Nat) × Cursor) := do
  let digit (c : Cursor) : Except Refused (Option Nat × Cursor) :=
    if c.peek.isDigit then
      if c.peek == '0' then malformed else .ok (some (c.peek.toNat - 48), c.next)
    else .ok (none, c)
  let sign (c : Cursor) : Option Chomping × Cursor :=
    match signChomping? c.peek with
    | some s => (some s, c.next)
    | none => (none, c)
  let (s, c) := sign c
  let (n, c) ← digit c
  let (s, c) := if s.isNone && n.isSome then sign c else (s, c)
  if c.peek == ' ' || isLineEnd c.peek then .ok ((s.getD .clip, n), c) else malformed

/-- The rest of a line that holds nothing but a comment, and its end. -/
def ignoredLine (c : Cursor) : Except Refused (Unit × Cursor) :=
  let c := c.skipWhile (· == ' ')
  let c := if c.peek == '#' then c.skipWhile (fun x => !isLineEnd x) else c
  if isLineEnd c.peek then .ok ((), c.lineBreak.2) else malformed

/-- The line ends before the first line of a block, and the widest indentation among
them. -/
def blockStart : Nat → Nat → Cursor → List Char × Nat × Cursor
  | 0, widest, c => ([], widest, c)
  | fuel + 1, widest, c =>
    if c.peek == ' ' then
      let c := c.next
      blockStart fuel (max widest c.column) c
    else if isBreak c.peek then
      let (b, c) := c.lineBreak
      let (more, widest, c) := blockStart fuel widest c
      (b ++ more, widest, c)
    else ([], widest, c)

private def skipIndent (indent : Nat) (c : Cursor) : Cursor :=
  c.skip ((c.rest.take (indent - c.column)).takeWhile (· == ' ')).length

/-- The line ends between two lines of a block, and the indentation behind them. -/
def blockBreaks (indent : Nat) : Nat → Cursor → List Char × Cursor
  | 0, c => ([], c)
  | fuel + 1, c =>
    let c := skipIndent indent c
    if isBreak c.peek then
      let (b, c) := c.lineBreak
      let (more, c) := blockBreaks indent fuel c
      (b ++ more, c)
    else ([], c)

private def isInside (indent : Nat) (c : Cursor) : Bool :=
  c.column == indent && !c.rest.isEmpty && c.peek != '\x00'

private def isBlankChar (c : Char) : Bool := c == ' ' || c == '\t'

/-- The lines of a block: their text, the end of the last line, the line ends behind
it, and the place behind them. -/
def blockLines (folded : Bool) (indent : Nat) : Nat → Cursor →
    List Char × List Char × List Char × Cursor
  | 0, c => ([], [], [], c)
  | fuel + 1, c =>
    let led := !isBlankChar c.peek
    let (line, c) := c.span fun x => !isLineEnd x
    let (ending, c) := c.lineBreak
    let (breaks, c) := blockBreaks indent (c.rest.length + 1) c
    if isInside indent c then
      let joint :=
        if folded && ending == ['\n'] && led && !isBlankChar c.peek then
          if breaks.isEmpty then [' '] else []
        else ending
      let (more, ending, last, c) := blockLines folded indent fuel c
      (line ++ joint ++ breaks ++ more, ending, last, c)
    else (line, ending, breaks, c)

/-- A scalar in a block; `parent` is the indentation around it. -/
def blockScalar (folded : Bool) (parent : Int) (c : Cursor) : Except Refused (String × Cursor) := do
  let ((chomping, given), c) ← blockHeader c.next
  let (_, c) ← ignoredLine c
  let least := (max (parent + 1) 1).toNat
  let (breaks, indent, c) :=
    match given with
    | none =>
      let (breaks, widest, c) := blockStart (c.rest.length + 1) 0 c
      (breaks, max least widest, c)
    | some n =>
      let indent := least + n - 1
      let (breaks, c) := blockBreaks indent (c.rest.length + 1) c
      (breaks, indent, c)
  let (text, ending, last, c) :=
    if isInside indent c then
      let (text, ending, last, c) := blockLines folded indent (c.rest.length + 1) c
      (breaks ++ text, ending, last, c)
    else ([], [], breaks, c)
  let tail := match chomping with
    | .strip => []
    | .clip => ending
    | .keep => ending ++ last
  .ok (String.ofList (text ++ tail), c)

/-! ### Plain -/

private def isFlowSign (c : Char) : Bool :=
  c == ',' || c == '[' || c == ']' || c == '\x7b' || c == '\x7d'

/-- The length of a stretch of a plain scalar without blanks. -/
def plainRun (flow : Bool) : List Char → Nat
  | [] => 0
  | x :: rest =>
    let after := rest.headD '\x00'
    if isGap x || (x == ':' && (isGap after || (flow && isFlowSign after))) ||
        (flow && (isFlowSign x || x == '?')) then 0
    else 1 + plainRun flow rest

/-- The line ends and indentation between two lines of a plain scalar; absent where a
document marker follows. -/
def plainBreaks : Nat → Cursor → Option (List Char) × Cursor
  | 0, c => (some [], c)
  | fuel + 1, c =>
    if c.peek == ' ' then plainBreaks fuel c.next
    else if isBreak c.peek then
      let (b, c) := c.lineBreak
      if c.atMarker then (none, c)
      else
        let (more, c) := plainBreaks fuel c
        (more.map (b ++ ·), c)
    else (some [], c)

/-- The blanks behind a stretch of a plain scalar: what stands for them, absent where
the scalar ends, and whether a line ended. -/
def plainBlanks (c : Cursor) : Option (List Char) × Bool × Cursor :=
  let (blanks, c) := c.span (· == ' ')
  if isBreak c.peek then
    let (b, c) := c.lineBreak
    if c.atMarker then (none, true, c)
    else
      match plainBreaks (c.rest.length + 1) c with
      | (none, c) => (none, true, c)
      | (some breaks, c) =>
        let first := if b != ['\n'] then b else if breaks.isEmpty then [' '] else []
        (some (first ++ breaks), true, c)
  else (if blanks.isEmpty then none else some blanks, false, c)

/-- The stretches of a plain scalar; `blanks` stands before the next one. The result
says whether a line ended behind the last. -/
def plainRuns (flow : Bool) (indent : Int) : Nat → List Char → Bool → Cursor →
    List Char × Bool × Cursor
  | 0, _, ended, c => ([], ended, c)
  | fuel + 1, blanks, ended, c =>
    let n := plainRun flow c.rest
    if c.peek == '#' || n == 0 then ([], ended, c)
    else
      let run := c.rest.take n
      let (next, ended, c) := plainBlanks (c.skip n)
      match next with
      | none => (blanks ++ run, ended, c)
      | some next =>
        if c.peek == '#' || (!flow && Int.ofNat c.column < indent) then (blanks ++ run, ended, c)
        else
          let (more, ended, c) := plainRuns flow indent fuel next ended c
          (blanks ++ run ++ more, ended, c)

/-- A plain scalar; `parent` is the indentation around it. -/
def plainScalar (flow : Bool) (parent : Int) (c : Cursor) : String × Bool × Cursor :=
  let (cs, ended, c) := plainRuns flow (parent + 1) (c.rest.length + 1) [] false c
  (String.ofList cs, ended, c)

end RepairLoop.Yaml
