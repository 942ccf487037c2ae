import RepairLoop.Json.Parser
import RepairLoop.Python.Syntax
import RepairLoop.Text.Quoted
/-!
# Text literals

A text literal consists of one or more pieces. Each piece may hold bytes, may be
raw, and may hold expressions in braces; those are parsed by a parser that is
given, since the grammar of expressions holds text literals again. What is wrong
with a literal is reported behind the token that was read last, except where the
inner parser reports a place of its own.
-/

namespace RepairLoop.Python

/-- What is wrong with a literal: a message for the place of the last token, or a
fault with its place. -/
inductive LiteralFault where
  | here (message : String)
  | placed (fault : SyntaxFault)

/-- A parser for an expression in parentheses: its text, the line before its first
line, and the column of its first character. -/
abbrev InnerParser := List Char → Nat → Nat → Except SyntaxFault Syn

/-- A piece of a literal: what the letters in front of it say, and where its text
starts and stops in the token. -/
structure Piece where
  bytes : Bool
  raw : Bool
  formatted : Bool
  start : Nat
  stop : Nat

private def isLetterOf (upper lower : Char) (c : Char) : Bool :=
  c == upper || c == lower

/-- The piece that a token holds. -/
def Piece.ofText (cs : List Char) : Piece :=
  let letters := cs.takeWhile Char.isAlpha
  let n := letters.length
  let long := match cs.drop n with
    | a :: b :: c :: _ => a == b && b == c && cs.length ≥ n + 6
    | _ => false
  let width := if long then 3 else 1
  ⟨letters.any (isLetterOf 'B' 'b'), letters.any (isLetterOf 'R' 'r'),
    letters.any (isLetterOf 'F' 'f'), n + width, cs.length - width⟩

private def hexDigits (width n : Nat) : List Char :=
  let ds := Nat.toDigits 16 n
  List.replicate (width - ds.length) '0' ++ ds

private def spelled (c : Char) : List Char :=
  if c.toNat ≥ 128 then '\\' :: 'U' :: hexDigits 8 c.toNat else [c]

/-- A text with every character beyond ASCII written as an escape; the positions
that faults name count in this form. -/
def spelledOut : List Char → List Char
  | [] => []
  | '\\' :: c :: rest =>
    (if c.toNat ≥ 128 then "\\u005c".toList ++ spelled c else ['\\', c]) ++ spelledOut rest
  | c :: rest => spelled c ++ spelledOut rest

private def undecodable (first last : Nat) (reason : String) : String :=
  s!"(unicode error) 'unicodeescape' codec can't decode bytes in position {first}-{last}: "
    ++ reason

private def hexRun (limit : Nat) (cs : List Char) : List Nat :=
  (cs.take limit).foldr (fun c acc =>
    match Json.hexValue? c with
    | some d => d :: acc
    | none => []) []

private def isNameOfChar (cs : List Char) : Bool :=
  !cs.isEmpty && cs.all fun c => c.isAlphanum || c == ' ' || c == '-'

/-- What is wrong with the escapes of a text, the first fault only. -/
def textEscapeFault? : Nat → Nat → List Char → Option String
  | 0, _, _ => none
  | fuel + 1, i, '\\' :: c :: rest =>
    let hex (width : Nat) (reason : String) : Option String :=
      let ds := hexRun width rest
      if ds.length < width then some (undecodable i (i + 1 + ds.length) reason)
      else if ds.foldl (fun n d => n * 16 + d) 0 > 0x10ffff then
        some (undecodable i (i + 1 + width) "illegal Unicode character")
      else textEscapeFault? fuel (i + 2 + width) (rest.drop width)
    match c with
    | 'x' => hex 2 "truncated \\xXX escape"
    | 'u' => hex 4 "truncated \\uXXXX escape"
    | 'U' => hex 8 "truncated \\UXXXXXXXX escape"
    | 'N' =>
      match rest with
      | '\x7b' :: name =>
        let word := name.takeWhile (· != '\x7d')
        let n := word.length
        if n == name.length then
          some (undecodable i (i + 2 + n) "malformed \\N character escape")
        else if n == 0 then some (undecodable i (i + 2) "malformed \\N character escape")
        else if isNameOfChar word then
          textEscapeFault? fuel (i + 4 + n) (name.drop (n + 1))
        else some (undecodable i (i + 3 + n) "unknown Unicode character name")
      | _ => some (undecodable i (i + 1) "malformed \\N character escape")
    | _ => textEscapeFault? fuel (i + 2) rest
  | fuel + 1, i, _ :: rest => textEscapeFault? fuel (i + 1) rest
  | _ + 1, _, [] => none

/-- What is wrong with the escapes of bytes, the first fault only. -/
def bytesEscapeFault? : Nat → Nat → List Char → Option String
  | 0, _, _ => none
  | fuel + 1, i, '\\' :: 'x' :: rest =>
    match (hexRun 2 rest).length with
    | 2 => bytesEscapeFault? fuel (i + 4) (rest.drop 2)
    | n => some s!"(value error) invalid \\x escape at position {i + n}"
  | fuel + 1, i, '\\' :: _ :: rest => bytesEscapeFault? fuel (i + 2) rest
  | fuel + 1, i, _ :: rest => bytesEscapeFault? fuel (i + 1) rest
  | _ + 1, _, [] => none

private def here {α : Type} (message : String) : Except LiteralFault α :=
  .error (.here message)

private def checkText (raw : Bool) (cs : List Char) : Except LiteralFault Unit :=
  if raw || !cs.contains '\\' then .ok ()
  else
    let text := spelledOut cs
    match textEscapeFault? (text.length + 1) 0 text with
    | some m => here m
    | none => .ok ()

private def checkBytes (raw : Bool) (cs : List Char) : Except LiteralFault Unit :=
  if cs.any fun c => c.toNat ≥ 128 then
    here "bytes can only contain ASCII literal characters"
  else if raw then .ok ()
  else
    match bytesEscapeFault? (cs.length + 1) 0 cs with
    | some m => here m
    | none => .ok ()

/-- Where a stretch of plain text in a formatted piece ends: the end of the text,
where to go on, and whether it ended at a doubled brace. -/
def plainEnd (cs : Array Char) (stop : Nat) (raw outer : Bool) :
    Nat → Nat → Except LiteralFault (Nat × Nat × Bool)
  | 0, i => .ok (i, i, false)
  | fuel + 1, i =>
    if i ≥ stop then .ok (stop, stop, false)
    else
      let c := cs.getD i ' '
      let escaped := !raw && c == '\\' && i + 1 < stop
      let d := if escaped then cs.getD (i + 1) ' ' else c
      let next := if escaped then i + 2 else i + 1
      if escaped && d == 'N' then
        if next < stop then
          if cs.getD next ' ' == '\x7b' then
            let past := (List.range (stop - next - 1)).find? fun k =>
              cs.getD (next + 1 + k) ' ' == '\x7d'
            match past with
            | some k => plainEnd cs stop raw outer fuel (next + 2 + k)
            | none => .ok (stop, stop, false)
          else plainEnd cs stop raw outer fuel (next + 1)
        else plainEnd cs stop raw outer fuel next
      else if d == '\x7b' || d == '\x7d' then
        if outer && next < stop && cs.getD next ' ' == d then .ok (next, next + 1, true)
        else if outer && d == '\x7d' then here "f-string: single '\x7d' is not allowed"
        else .ok (next - 1, next - 1, false)
      else plainEnd cs stop raw outer fuel next

private def opens (c : Char) : Bool := c == '[' || c == '\x7b' || c == '('

private def closesWith (opening closing : Char) : Bool :=
  (opening == '(' && closing == ')') || (opening == '[' && closing == ']') ||
    (opening == '\x7b' && closing == '\x7d')

/-- Where the text of an expression in a formatted piece ends; `quote` is the open
quote and whether it is a triple one, `stack` the open brackets. -/
def expressionEnd (cs : Array Char) (stop : Nat) :
    Nat → Nat → Option (Char × Bool) → List Char → Except LiteralFault Nat
  | 0, i, _, _ => .ok i
  | fuel + 1, i, quote, stack =>
    if i ≥ stop then
      match quote, stack with
      | some _, _ => here "f-string: unterminated string"
      | none, opening :: _ => here s!"f-string: unmatched '{opening}'"
      | none, [] => .ok i
    else
      let c := cs.getD i ' '
      let triple := i + 2 < stop && cs.getD (i + 1) ' ' == c && cs.getD (i + 2) ' ' == c
      if c == '\\' then here "f-string expression part cannot include a backslash"
      else
        match quote with
        | some (q, long) =>
          if c != q then expressionEnd cs stop fuel (i + 1) quote stack
          else if !long then expressionEnd cs stop fuel (i + 1) none stack
          else if triple then expressionEnd cs stop fuel (i + 3) none stack
          else expressionEnd cs stop fuel (i + 1) quote stack
        | none =>
          if c == '\'' || c == '"' then
            if triple then expressionEnd cs stop fuel (i + 3) (some (c, true)) stack
            else expressionEnd cs stop fuel (i + 1) (some (c, false)) stack
          else if opens c then
            if stack.length ≥ 200 then here "f-string: too many nested parenthesis"
            else expressionEnd cs stop fuel (i + 1) none (c :: stack)
          else if c == '#' then here "f-string expression part cannot include '#'"
          else if stack.isEmpty && (c == '!' || c == ':' || c == '\x7d' || c == '=' || c == '<' ||
              c == '>') then
            let doubled := i + 1 < stop && cs.getD (i + 1) ' ' == '=' &&
              (c == '!' || c == '=' || c == '<' || c == '>')
            if doubled then expressionEnd cs stop fuel (i + 2) none stack
            else if c == '<' || c == '>' then expressionEnd cs stop fuel (i + 1) none stack
            else .ok i
          else if c == ']' || c == '\x7d' || c == ')' then
            match stack with
            | [] => here s!"f-string: unmatched '{c}'"
            | opening :: rest =>
              if closesWith opening c then expressionEnd cs stop fuel (i + 1) none rest
              else
                here (s!"f-string: closing parenthesis '{c}' does not match "
                  ++ s!"opening parenthesis '{opening}'")
          else expressionEnd cs stop fuel (i + 1) none stack

private def isSpace (c : Char) : Bool :=
  c == ' ' || c == '\t' || c == '\n' || c == '\x0c'

/-- The expression between two positions of a piece; the brace stands before the
first. Its first line is moved to the column at which the brace stands. -/
def innerExpression (inner : InnerParser) (t : Token) (cs : Array Char) (first stop : Nat) :
    Except LiteralFault Syn := do
  let text := (cs.extract first stop).toList
  if text.all isSpace then
    let c := cs.getD stop ' '
    if c == '!' || c == ':' || c == '=' then
      here s!"f-string: expression required before '{c}'"
    else here "f-string: empty expression not allowed"
  else
    let before := (cs.extract 0 (first - 1)).toList
    let lines := before.count '\n'
    let blanks := text.dropWhile fun c => c == ' ' || c == '\t' || c == '\x0c'
    let opensLine := match blanks with
      | c :: _ => c == '\n'
      | [] => true
    let lastLine := (before.reverse.takeWhile (· != '\n')).reverse
    let width := lastLine.foldr (fun c n => c.utf8Size + n) 0
    let shift := if opensLine then 0 else width
    let shift := if lines != 0 then shift else t.column.getD 0 + shift
    match inner ('(' :: text ++ [')']) (t.line + lines - 1) shift with
    | .ok s => .ok s
    | .error f => .error (.placed f)

private def unfinished {α : Type} : Except LiteralFault α :=
  here "f-string: expecting '\x7d'"

/-- The position behind what follows an expression up to its conversion. -/
def afterExpression (cs : Array Char) (stop i : Nat) : Except LiteralFault Nat := do
  let skipBlank (i : Nat) : Nat :=
    i + ((cs.extract i stop).toList.takeWhile fun c => isSpace c || c == '\x0b').length
  let i := if cs.getD i ' ' == '=' then skipBlank (i + 1) else i
  if i ≥ stop then unfinished
  else if cs.getD i ' ' != '!' then .ok i
  else
    let conversion := (cs.extract (i + 1) stop).toList.takeWhile fun c => c != '\x7d' && c != ':'
    let next := i + 1 + conversion.length
    if next ≥ stop then unfinished
    else
      match conversion with
      | [] => here "f-string: invalid conversion character: expected 's', 'r', or 'a'"
      | [c] =>
        if c == 's' || c == 'r' || c == 'a' then .ok next
        else
          let shown := Text.quoted c.toString
          here s!"f-string: invalid conversion character {shown}: expected 's', 'r', or 'a'"
      | cs =>
        let shown := Text.quoted (String.ofList cs)
        here s!"f-string: invalid conversion character {shown}: expected 's', 'r', or 'a'"

/-- The values of a formatted piece from a position on, and where it ends; a format
is such a piece inside another. -/
def formattedValues (inner : InnerParser) (t : Token) (cs : Array Char) (stop : Nat) (raw : Bool) :
    Nat → Nat → Nat → List Syn → Except LiteralFault (List Syn × Nat)
  | 0, _, i, acc => .ok (acc.reverse, i)
  | fuel + 1, level, i, acc => do
    let node (k : Kind) (children : List Syn) : Syn :=
      .node k t.line (t.column.getD 0) (t.endColumn.getD 0) children
    let (textEnd, next, doubled) ← plainEnd cs stop raw (level == 0) (cs.size + 1) i
    checkText raw (cs.extract i textEnd).toList
    let acc := if textEnd > i then node (.constant .text) [] :: acc else acc
    if doubled then formattedValues inner t cs stop raw fuel level next acc
    else if next ≥ stop || cs.getD next ' ' == '\x7d' then
      if level == 0 then .ok (acc.reverse, next)
      else if next < stop then .ok (acc.reverse, next)
      else unfinished
    else if level ≥ 2 then here "f-string: expressions nested too deeply"
    else
      let first := next + 1
      let last ← expressionEnd cs stop (cs.size + 1) first none []
      if last ≥ stop then unfinished
      else
        let value ← innerExpression inner t cs first last
        let i ← afterExpression cs stop last
        let (format, i) ←
          if cs.getD i ' ' == ':' then
            if i + 1 ≥ stop then unfinished
            else
              let (vs, i) ← formattedValues inner t cs stop raw fuel (level + 1) (i + 1) []
              .ok ([node .joined vs], i)
          else .ok ([], i)
        if i ≥ stop || cs.getD i ' ' != '\x7d' then unfinished
        else
          formattedValues inner t cs stop raw fuel level (i + 1)
            (node .formatted (value :: format) :: acc)

/-- What the pieces read so far hold. -/
structure Joined where
  bytes : Option Bool
  formatted : Bool
  values : List Syn

/-- One more piece of a literal. -/
def Joined.add (inner : InnerParser) (j : Joined) (t : Token) : Except LiteralFault Joined := do
  let cs := t.text.toArray
  let p := Piece.ofText t.text
  let body := (cs.extract p.start p.stop).toList
  if p.bytes then checkBytes p.raw body
  else if !p.formatted then checkText p.raw body
  if j.bytes.isSome && j.bytes != some p.bytes then
    here "cannot mix bytes and nonbytes literals"
  else if p.formatted then
    let (vs, _) ← formattedValues inner t cs p.stop p.raw (cs.size + 1) 0 p.start []
    .ok ⟨some p.bytes, true, j.values ++ vs⟩
  else .ok ⟨some p.bytes, j.formatted, j.values⟩

/-- The node of a literal with some pieces. -/
def joinLiteral (inner : InnerParser) (pieces : List Token) : Except LiteralFault Syn := do
  let j ← pieces.foldlM (Joined.add inner) ⟨none, false, []⟩
  let first := pieces.headD default
  let last := pieces.getLastD default
  let node (k : Kind) (children : List Syn) : Syn :=
    .node k first.line (first.column.getD 0) (last.endColumn.getD 0) children
  if j.bytes == some true then .ok (node (.constant .bytes) [])
  else if j.formatted then .ok (node .joined j.values)
  else .ok (node (.constant .text) [])

end RepairLoop.Python
