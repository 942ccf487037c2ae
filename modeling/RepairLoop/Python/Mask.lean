import RepairLoop.Python.Syntax
import RepairLoop.Text.Line
import RepairLoop.Text.Word
/-!
# Masking

A line-by-line lexer that finds the comments and text literals of a text, whether
or not the text is a program. The masked lines are the lines of the text with those
stretches blanked. The lexer ends lines at line feeds only.
-/

namespace RepairLoop.Python

/-- A stretch of a text: a row and column, both from where it starts to where it
ends; rows count from one. -/
structure Stretch where
  row : Nat
  column : Nat
  endRow : Nat
  endColumn : Nat
  deriving DecidableEq, Inhabited

/-- Why the lexer gave up. -/
inductive MaskFault where
  | openText (row column : Nat)
  | openStatement (row : Nat)
  | unevenIndent (row : Nat)
  deriving DecidableEq

/-- What is said of a lexer that gave up. -/
def MaskFault.message : MaskFault → String
  | openText r c => s!"('EOF in multi-line string', ({r}, {c}))"
  | openStatement r => s!"('EOF in multi-line statement', ({r}, 0))"
  | unevenIndent r =>
    s!"unindent does not match any outer indentation level (<tokenize>, line {r})"

/-- What one step finds in a line. -/
inductive Found where
  | plain (stop : Nat)
  | comment (stop : Nat)
  | opening (stop : Nat)
  | closing (stop : Nat)
  | joined (stop : Nat)
  | text (stop : Nat)
  | longText (quote : Char) (stop : Nat)
  | brokenText (quote : Char)

private def digitRun (p : Char → Bool) : Nat → List Char → List Char
  | 0, cs => cs
  | fuel + 1, cs =>
    match cs with
    | '_' :: c :: rest => if p c then digitRun p fuel rest else cs
    | c :: rest => if p c then digitRun p fuel rest else cs
    | [] => []

/-- The rest of a text behind digits that start it; single underscores may stand
between them. -/
def afterDigitRun? (p : Char → Bool) (cs : List Char) : Option (List Char) :=
  match cs with
  | c :: rest => if p c then some (digitRun p rest.length rest) else none
  | [] => none

private def afterUnderscore? (p : Char → Bool) (cs : List Char) : Option (List Char) :=
  match cs with
  | '_' :: rest => afterDigitRun? p rest
  | cs => afterDigitRun? p cs

private def afterExponent (cs : List Char) : Option (List Char) :=
  match cs with
  | c :: rest =>
    if c == 'e' || c == 'E' then
      match rest with
      | '+' :: rest => afterDigitRun? Char.isDigit rest
      | '-' :: rest => afterDigitRun? Char.isDigit rest
      | rest => afterDigitRun? Char.isDigit rest
    else none
  | [] => none

private def afterPointFloat? (cs : List Char) : Option (List Char) :=
  let mantissa : Option (List Char) :=
    match afterDigitRun? Char.isDigit cs with
    | some ('.' :: rest) => some ((afterDigitRun? Char.isDigit rest).getD rest)
    | some _ => none
    | none =>
      match cs with
      | '.' :: rest => afterDigitRun? Char.isDigit rest
      | _ => none
  mantissa.map fun rest => (afterExponent rest).getD rest

private def afterFloat? (cs : List Char) : Option (List Char) :=
  match afterPointFloat? cs with
  | some rest => some rest
  | none => (afterDigitRun? Char.isDigit cs).bind afterExponent

private def isUnit (c : Char) : Bool := c == 'j' || c == 'J'

private def isHex (c : Char) : Bool :=
  c.isDigit || ('a' ≤ c && c ≤ 'f') || ('A' ≤ c && c ≤ 'F')

private def afterWhole? (cs : List Char) : Option (List Char) :=
  let based : Option (List Char) :=
    match cs with
    | '0' :: c :: rest =>
      if c == 'x' || c == 'X' then afterUnderscore? isHex rest
      else if c == 'b' || c == 'B' then afterUnderscore? (fun d => d == '0' || d == '1') rest
      else if c == 'o' || c == 'O' then afterUnderscore? (fun d => '0' ≤ d && d ≤ '7') rest
      else none
    | _ => none
  match based with
  | some rest => some rest
  | none =>
    match cs with
    | '0' :: _ => afterDigitRun? (· == '0') cs
    | _ => afterDigitRun? Char.isDigit cs

/-- The rest of a text behind a number that starts it. -/
def afterNumber? (cs : List Char) : Option (List Char) :=
  let whole : Option (List Char) := afterDigitRun? Char.isDigit cs
  match whole, afterFloat? cs with
  | some (c :: rest), f =>
    if isUnit c then some rest
    else
      match f with
      | some (d :: rest') => if isUnit d then some rest' else f
      | some [] => f
      | none => afterWhole? cs
  | some [], some f => some f
  | some [], none => afterWhole? cs
  | none, some (d :: rest') => if isUnit d then some rest' else some (d :: rest')
  | none, f => f

/-- The operators of the line lexer, the longest first. -/
def operators : List (List Char) :=
  (["**=", "//=", ">>=", "<<=", "...",
    "!=", "%=", "&=", "**", "*=", "+=", "-=", "->", "//", "/=", ":=", "<<", "<=", "==", ">=",
    ">>", "@=", "^=", "|=",
    "%", "&", "(", ")", "*", "+", ",", "-", ".", "/", ":", ";", "<", "=", ">", "@", "[", "]",
    "^", "\x7b", "|", "\x7d", "~"] : List String).map String.toList

private def prefixes : List (List Char) :=
  ([["b"], ["r"], ["u"], ["f"], ["br"], ["rb"], ["fr"], ["rf"]] : List (List String)).flatten.map
    String.toList

/-- The number of letters that stand in front of a quote at the start of a text. -/
def quoteLetters? (cs : List Char) : Option Nat :=
  let letters := cs.takeWhile Char.isAlpha
  match cs.drop letters.length with
  | q :: _ =>
    if (q == '\'' || q == '"') &&
        (letters.isEmpty || prefixes.contains (letters.map Char.toLower)) then
      some letters.length
    else none
  | [] => none

/-- The rest of a line behind a text with one quote at each end; `broken` says that
the text goes on in the next line. -/
def afterQuoted? (quote : Char) : List Char → Option (List Char × Bool)
  | [] => none
  | '\\' :: '\n' :: rest => some (rest, true)
  | '\\' :: '\r' :: '\n' :: rest => some (rest, true)
  | '\\' :: _ :: rest => afterQuoted? quote rest
  | c :: rest =>
    if c == quote then some (rest, false)
    else if c == '\n' || c == '\\' then none
    else afterQuoted? quote rest

/-- The rest of a line behind the end of a text that is open in it. -/
def afterOpenText? (quote : Char) (long : Bool) : List Char → Option (List Char)
  | [] => none
  | '\\' :: c :: rest => if c == '\n' then none else afterOpenText? quote long rest
  | c :: rest =>
    if c == quote then
      if !long then some rest
      else if rest.take 2 == [quote, quote] then some (rest.drop 2)
      else afterOpenText? quote long rest
    else if c == '\\' then none
    else afterOpenText? quote long rest

private def isIndentChar (c : Char) : Bool := c == ' ' || c == '\x0c' || c == '\t'

/-- What stands at the start of the rest of a line, blanks skipped: where it starts
and what it is. Positions count from the start of the line. -/
def scanFound (at_ : Nat) (cs : List Char) : Nat × Option Found :=
  let blanks := (cs.takeWhile isIndentChar).length
  let start := at_ + blanks
  let cs := cs.drop blanks
  let upTo (rest : List Char) : Nat := start + (cs.length - rest.length)
  let result : Option Found :=
    match cs with
    | [] => some (.plain start)
    | '\\' :: '\n' :: rest => some (.joined (upTo rest))
    | '\\' :: '\r' :: '\n' :: rest => some (.joined (upTo rest))
    | '#' :: rest =>
      some (.comment (upTo (rest.dropWhile fun c => c != '\r' && c != '\n')))
    | cs =>
      let quoted := quoteLetters? cs
      let long : Option (Char × Nat) := quoted.bind fun n =>
        match cs.drop n with
        | a :: b :: c :: rest => if a == b && b == c then some (a, upTo rest) else none
        | _ => none
      match long with
      | some (q, stop) => some (.longText q stop)
      | none =>
        match afterNumber? cs with
        | some rest => some (.plain (upTo rest))
        | none =>
          match cs with
          | '\n' :: rest => some (.plain (upTo rest))
          | '\r' :: '\n' :: rest => some (.plain (upTo rest))
          | cs =>
            match operators.find? fun o => o.isPrefixOf cs with
            | some o =>
              let stop := start + o.length
              if o == ['('] || o == ['['] || o == ['\x7b'] then some (.opening stop)
              else if o == [')'] || o == [']'] || o == ['\x7d'] then some (.closing stop)
              else some (.plain stop)
            | none =>
              let short := quoted.bind fun n =>
                match cs.drop n with
                | q :: rest => (afterQuoted? q rest).map fun r => (q, r)
                | [] => none
              match short with
              | some (_, rest, false) => some (.text (upTo rest))
              | some (q, _, true) => some (.brokenText q)
              | none =>
                let word := cs.takeWhile Text.isWordChar
                if word.isEmpty then none else some (.plain (start + word.length))
  (start, result)

/-- A text that is open at the end of a line: its quote, whether it has three, and
where it starts. -/
structure OpenText where
  quote : Char
  long : Bool
  row : Nat
  column : Nat

/-- The state of the line lexer between two lines. -/
structure LineState where
  open_ : Option OpenText
  depth : Int
  continued : Bool
  indents : List Nat
  found : List Stretch

/-- The rest of a line from a position on. -/
def scanRest (row : Nat) (line : Array Char) : Nat → Nat → LineState → LineState
  | 0, _, s => s
  | fuel + 1, i, s =>
    if i ≥ line.size then s
    else
      let (start, found) := scanFound i (line.extract i line.size).toList
      match found with
      | none => scanRest row line fuel (i + 1) s
      | some (.plain stop) =>
        if stop ≤ start then scanRest row line fuel start s
        else scanRest row line fuel stop s
      | some (.comment stop) =>
        scanRest row line fuel stop { s with found := ⟨row, start, row, stop⟩ :: s.found }
      | some (.opening stop) => scanRest row line fuel stop { s with depth := s.depth + 1 }
      | some (.closing stop) => scanRest row line fuel stop { s with depth := s.depth - 1 }
      | some (.joined stop) => scanRest row line fuel stop { s with continued := true }
      | some (.text stop) =>
        scanRest row line fuel stop { s with found := ⟨row, start, row, stop⟩ :: s.found }
      | some (.longText q stop) =>
        match afterOpenText? q true (line.extract stop line.size).toList with
        | some rest =>
          let stop := line.size - rest.length
          scanRest row line fuel stop { s with found := ⟨row, start, row, stop⟩ :: s.found }
        | none => { s with open_ := some ⟨q, true, row, start⟩ }
      | some (.brokenText q) => { s with open_ := some ⟨q, false, row, start⟩ }

/-- The column of the first character of a line, and its position. -/
def indentOf : List Char → Nat → Nat → Nat × Nat
  | ' ' :: rest, col, i => indentOf rest (col + 1) (i + 1)
  | '\t' :: rest, col, i => indentOf rest ((col / 8 + 1) * 8) (i + 1)
  | '\x0c' :: rest, _, i => indentOf rest 0 (i + 1)
  | _, col, i => (col, i)

private def endsJoined (line : List Char) : Bool :=
  match line.reverse with
  | '\n' :: '\\' :: _ => true
  | '\n' :: '\r' :: '\\' :: _ => true
  | _ => false

/-- A line in which a text is open. -/
def scanOpen (row : Nat) (line : List Char) (o : OpenText) (s : LineState) : LineState :=
  match afterOpenText? o.quote o.long line with
  | some rest =>
    let stop := line.length - rest.length
    scanRest row line.toArray (line.length + 1) stop
      { s with open_ := none, found := ⟨o.row, o.column, row, stop⟩ :: s.found }
  | none =>
    if !o.long && !endsJoined line then { s with open_ := none }
    else s

/-- One line that starts a statement; the result is absent if the text ends with
it. -/
def scanFresh (row : Nat) (line : List Char) (s : LineState) :
    Except MaskFault (Option LineState) :=
  let (col, i) := indentOf line 0 0
  match line.drop i with
  | [] => .ok none
  | c :: rest =>
    if c == '#' then
      let body := (c :: rest).reverse.dropWhile fun c => c == '\r' || c == '\n'
      .ok (some { s with found := ⟨row, i, row, i + body.length⟩ :: s.found })
    else if c == '\r' || c == '\n' then .ok (some s)
    else
      let kept := s.indents.dropWhile (· > col)
      let indents := if col > s.indents.headD 0 then col :: s.indents else kept
      if indents.headD 0 != col then .error (.unevenIndent row)
      else .ok (some (scanRest row line.toArray (line.length + 1) i { s with indents := indents }))

/-- The stretches in the lines of a text; `row` is the row of the first line. -/
def scanLines : Nat → List (List Char) → LineState → Except MaskFault (List Stretch)
  | row, [], s =>
    match s.open_ with
    | some o => .error (.openText o.row o.column)
    | none =>
      if s.depth != 0 || s.continued then .error (.openStatement row) else .ok s.found.reverse
  | row, line :: rest, s => do
    match s.open_ with
    | some o => scanLines (row + 1) rest (scanOpen row line o s)
    | none =>
      if s.depth == 0 && !s.continued then
        match ← scanFresh row line s with
        | none => .ok s.found.reverse
        | some s => scanLines (row + 1) rest s
      else
        scanLines (row + 1) rest
          (scanRest row line.toArray (line.length + 1) 0 { s with continued := false })

/-- The lines of a text, each with the line feed that ends it. -/
def feedLines : List Char → List Char → List (List Char)
  | acc, [] => if acc.isEmpty then [] else [acc.reverse]
  | acc, c :: rest =>
    if c == '\n' then (c :: acc).reverse :: feedLines [] rest else feedLines (c :: acc) rest

/-- A line with the characters between two columns blanked. -/
def blankBetween (first last : Nat) (line : List Char) : List Char :=
  line.zipIdx.map fun (c, i) => if first ≤ i && i < last then ' ' else c

/-- A line with what a stretch covers of it blanked. -/
def Stretch.blank (t : Stretch) (row : Nat) (line : List Char) : List Char :=
  if t.row ≤ row && row ≤ t.endRow then
    blankBetween (if row == t.row then t.column else 0)
      (if row == t.endRow then t.endColumn else line.length) line
  else line

/-- The lines of a text with comments and text literals blanked. -/
def mask (text : List Char) : Except MaskFault (List (List Char)) := do
  let found ← scanLines 1 (feedLines [] text) ⟨none, 0, false, [0], []⟩
  .ok ((Text.lineBodies text).zipIdx.map fun (line, i) =>
    found.foldl (fun line t => t.blank (i + 1) line) line)

end RepairLoop.Python
