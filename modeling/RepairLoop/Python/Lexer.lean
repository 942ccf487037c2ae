import RepairLoop.Python.Syntax
import RepairLoop.Text.Line
import RepairLoop.Text.Quoted
import RepairLoop.Text.Word
/-!
# The lexer

Tokens are taken one at a time from a text that ends with a line feed. Lines are
read as they are needed: the state knows the current line, the position in it, the
columns of the open blocks and the brackets that are open. Inside brackets line
ends do not count. A failure keeps the state in which it was found, because the
column that is reported depends on it.
-/

namespace RepairLoop.Python

/-- How the lexer stands. -/
inductive LexDone where
  | running
  | atEnd
  | failed
  | badDedent
  | mixedTabs
  | tooDeep
  | badContinuation
  | openText
  deriving DecidableEq, Inhabited

/-- An open bracket: its character, line and column. -/
structure Bracket where
  char : Char
  line : Nat
  column : Nat
  deriving Inhabited

/-- The state of the lexer. The text up to `limit` has been handed out; the
current line starts at `lineStart`, and the line in which the current token
started at `base`. -/
structure LexState where
  chars : Array Char
  offsets : Array Nat
  position : Nat
  limit : Nat
  lineStart : Nat
  base : Nat
  line : Nat
  start : Option Nat
  done : LexDone
  lineOpen : Bool
  pending : Int
  indents : List (Nat × Nat)
  brackets : List Bracket
  firstLine : Nat
  firstStart : Nat
  deriving Inhabited

/-- A step of the lexer. -/
abbrev Lex := StateM LexState

/-- What a step yields: a sort, where the token stands, and a fault of its own. -/
structure LexResult where
  sort : TokenSort
  span : Option (Nat × Nat)
  fault : Option SyntaxFault

private def byteOffsets (cs : Array Char) : Array Nat :=
  cs.foldl (fun (acc : Array Nat) c => acc.push (acc.back?.getD 0 + c.utf8Size)) #[0]

/-- A text with a line feed at its end. -/
def closed (cs : List Char) : List Char :=
  if cs.getLast? == some '\n' then cs else cs ++ ['\n']

/-- The state at the start of a text; lines are counted from `line` on. -/
def LexState.ofChars (cs : List Char) (line : Nat) : LexState :=
  let text := closed (Text.unifyFeeds cs)
  let chars := (if text == ['\n'] && cs.isEmpty then [] else text).toArray
  ⟨chars, byteOffsets chars, 0, 0, 0, 0, line, none, .running, true, 0, [(0, 0)], [], 0, 0⟩

/-- The number of bytes between two positions. -/
def LexState.bytes (s : LexState) (start stop : Nat) : Nat :=
  s.offsets.getD stop 0 - s.offsets.getD start 0

private def lineEnd (chars : Array Char) : Nat → Nat → Nat
  | 0, i => i
  | fuel + 1, i =>
    match chars[i]? with
    | none => i
    | some '\n' => i + 1
    | some _ => lineEnd chars fuel (i + 1)

/-- The next character; a further line is read when the current one is used up. -/
def nextChar : Lex (Option Char) := do
  let s ← get
  if s.position != s.limit then
    set { s with position := s.position + 1 }
    pure s.chars[s.position]?
  else if s.done != .running then pure none
  else if s.limit ≥ s.chars.size then
    set { s with done := .atEnd }
    pure none
  else
    let stop := lineEnd s.chars s.chars.size s.limit
    set { s with
      base := if s.start.isNone then s.position else s.base
      lineStart := s.position
      line := s.line + 1
      limit := stop
      position := s.position + 1 }
    pure s.chars[s.position]?

/-- Puts a character back. -/
def putBack (c : Option Char) : Lex Unit :=
  if c.isSome then modify fun s => { s with position := s.position - 1 } else pure ()

private def failureResult (fault : Option SyntaxFault) : LexResult :=
  ⟨.failure, none, fault⟩

/-- A fault of the lexer's own, reported behind the last character read. -/
def lexFault (message : String) : Lex LexResult := do
  let s ← get
  set { s with done := .failed }
  pure (failureResult (some ⟨message, s.line, s.position - s.lineStart⟩))

/-- A fault reported at a column of the current line. -/
def lexFaultAt (message : String) (column : Nat) : Lex LexResult := do
  let s ← get
  set { s with done := .failed }
  pure (failureResult (some ⟨message, s.line, column⟩))

private def stopAs (done : LexDone) : Lex LexResult := do
  modify fun s => { s with done := done, position := s.limit }
  pure (failureResult none)

private def spanned (sort : TokenSort) : Lex LexResult := do
  let s ← get
  pure ⟨sort, some (s.start.getD 0, s.position), none⟩

private def isNameStart (c : Char) : Bool :=
  c.isAlpha || c == '_' || c.toNat ≥ 128

private def isNameChar (c : Char) : Bool :=
  c.isAlphanum || c == '_' || c.toNat ≥ 128

private def isHexDigit (c : Char) : Bool :=
  c.isDigit || ('a' ≤ c && c ≤ 'f') || ('A' ≤ c && c ≤ 'F')

private def optionally (p : Char → Bool) (c : Option Char) : Bool :=
  match c with
  | some c => p c
  | none => false

private def hexUpper (n : Nat) : String :=
  let ds := (Nat.toDigits 16 n).map Char.toUpper
  String.ofList (List.replicate (4 - ds.length) '0' ++ ds)

/-- The name that was read holds only characters that a name may hold. -/
def checkName : Lex (Option LexResult) := do
  let s ← get
  let first := s.start.getD 0
  let name := (s.chars.extract first s.position).toList
  let bad :=
    match name with
    | [] => none
    | c :: rest =>
      if !Text.isIdentifierStart c then some 0
      else (rest.findIdx? fun c => !Text.isIdentifierContinue c).map (· + 1)
  match bad with
  | none => pure none
  | some i =>
    let c := name.getD i ' '
    set { s with position := first + i + 1 }
    let r ←
      if Text.isPrintable c then
        lexFault s!"invalid character '{c}' (U+{hexUpper c.toNat})"
      else lexFault s!"invalid non-printable character U+{hexUpper c.toNat}"
    pure (some r)

private def readWhile (p : Char → Bool) : Nat → Lex (Option Char)
  | 0 => pure none
  | fuel + 1 => do
    let c ← nextChar
    if optionally p c then readWhile p fuel else pure c

/-- The rest of a run of digits, in which single underscores may stand: the
character after it, or a fault. -/
def decimalTail : Nat → Lex (Except LexResult (Option Char))
  | 0 => pure (.ok none)
  | fuel + 1 => do
    let c ← readWhile Char.isDigit (← get).chars.size.succ
    if c == some '_' then
      let c ← nextChar
      if optionally Char.isDigit c then decimalTail fuel
      else
        putBack c
        pure (.error (← lexFault "invalid decimal literal"))
    else pure (.ok c)

private def followedBy (rest : List Char) : Lex Bool := do
  let s ← get
  pure ((s.chars.extract s.position (s.position + rest.length)).toList == rest)

/-- A number may be followed by some keywords but by no other letter. -/
def checkNumberEnd (c : Option Char) (kind : String) : Lex (Option LexResult) := do
  let allowed ← match c with
    | some 'a' => followedBy ['n', 'd']
    | some 'e' => followedBy ['l', 's', 'e']
    | some 'f' => followedBy ['o', 'r']
    | some 'i' => do
      pure ((← followedBy ['f']) || (← followedBy ['n']) || (← followedBy ['s']))
    | some 'o' => followedBy ['r']
    | some 'n' => followedBy ['o', 't']
    | _ => pure false
  if !allowed && optionally isNameChar c then
    putBack c
    pure (some (← lexFault s!"invalid {kind} literal"))
  else pure none

private def numberDone (c : Option Char) (kind : String) : Lex LexResult := do
  match ← checkNumberEnd c kind with
  | some r => pure r
  | none =>
    putBack c
    spanned .number

private def imaginary : Lex LexResult := do
  numberDone (← nextChar) "imaginary"

/-- The exponent of a number, its letter read. -/
def exponentPart (letter : Option Char) : Lex LexResult := do
  let fuel := (← get).chars.size + 1
  let finish : Lex LexResult := do
    match ← decimalTail fuel with
    | .error r => pure r
    | .ok c =>
      if c == some 'j' || c == some 'J' then imaginary else numberDone c "decimal"
  let c ← nextChar
  if c == some '+' || c == some '-' then
    let c ← nextChar
    if optionally Char.isDigit c then finish
    else
      putBack c
      lexFault "invalid decimal literal"
  else if optionally Char.isDigit c then finish
  else
    putBack c
    match ← checkNumberEnd letter "decimal" with
    | some r => pure r
    | none =>
      putBack letter
      spanned .number

/-- What may follow the digits of a number. -/
def afterDigits (c : Option Char) : Lex LexResult :=
  if c == some 'e' || c == some 'E' then exponentPart c
  else if c == some 'j' || c == some 'J' then imaginary
  else numberDone c "decimal"

/-- The digits after a decimal point; the first character after the point is
read. -/
def fractionPart (c : Option Char) : Lex LexResult := do
  if optionally Char.isDigit c then
    match ← decimalTail ((← get).chars.size + 1) with
    | .error r => pure r
    | .ok c => afterDigits c
  else afterDigits c

private def badDigit (c : Option Char) (kind : String) : Lex LexResult :=
  let digit := (c.getD '0').toString
  lexFault s!"invalid digit '{digit}' in {kind} literal"

private def basedDigits (isDigitOf : Char → Bool) (kind : String) (small : Bool) :
    Nat → Option Char → Lex LexResult
  | 0, _ => lexFault s!"invalid {kind} literal"
  | fuel + 1, c => do
    let c ← if c == some '_' then nextChar else pure c
    if !optionally isDigitOf c then
      if small && optionally Char.isDigit c then
        badDigit c kind
      else
        putBack c
        lexFault s!"invalid {kind} literal"
    else
      let c ← readWhile isDigitOf ((← get).chars.size + 1)
      if c == some '_' then basedDigits isDigitOf kind small fuel c
      else if small && optionally Char.isDigit c then
        badDigit c kind
      else numberDone c kind

private def leadingZeros : Nat → Option Char → Lex (Except LexResult (Option Char))
  | 0, c => pure (.ok c)
  | fuel + 1, c => do
    let step (c : Option Char) : Lex (Except LexResult (Option Char)) := do
      if c == some '0' then leadingZeros fuel (← nextChar) else pure (.ok c)
    if c == some '_' then
      let c ← nextChar
      if optionally Char.isDigit c then step c
      else
        putBack c
        pure (.error (← lexFault "invalid decimal literal"))
    else step c

/-- A number that starts with zero. -/
def zeroNumber : Lex LexResult := do
  let fuel := (← get).chars.size + 1
  let c ← nextChar
  if c == some 'x' || c == some 'X' then
    basedDigits isHexDigit "hexadecimal" false fuel (← nextChar)
  else if c == some 'o' || c == some 'O' then
    basedDigits (fun c => '0' ≤ c && c < '8') "octal" true fuel (← nextChar)
  else if c == some 'b' || c == some 'B' then
    basedDigits (fun c => c == '0' || c == '1') "binary" true fuel (← nextChar)
  else
    match ← leadingZeros fuel c with
    | .error r => pure r
    | .ok c =>
      let significant := optionally Char.isDigit c
      let c ← if significant then decimalTail fuel else pure (.ok c)
      match c with
      | .error r => pure r
      | .ok c =>
        if c == some '.' then fractionPart (← nextChar)
        else if c == some 'e' || c == some 'E' then exponentPart c
        else if c == some 'j' || c == some 'J' then imaginary
        else if significant then
          putBack c
          let s ← get
          lexFaultAt
            "leading zeros in decimal integer literals are not permitted; use an 0o prefix for octal integers"
            (s.start.getD 0 + 1 - s.lineStart)
        else numberDone c "decimal"

/-- A number that starts with another digit. -/
def decimalNumber : Lex LexResult := do
  match ← decimalTail ((← get).chars.size + 1) with
  | .error r => pure r
  | .ok c => if c == some '.' then fractionPart (← nextChar) else afterDigits c

private def unterminated (size : Nat) (c : Option Char) : Lex LexResult := do
  let s ← get
  let found := s.line
  set { s with position := s.start.getD 0 + 1, lineStart := s.firstStart, line := s.firstLine }
  let what := if size == 3 then "unterminated triple-quoted string literal"
              else "unterminated string literal"
  let r ← lexFault s!"{what} (detected at line {found})"
  if c != some '\n' then modify fun s => { s with done := .openText }
  pure r

private def textBody (quote : Char) (size : Nat) : Nat → Nat → Lex LexResult
  | 0, _ => unterminated size none
  | fuel + 1, seen => do
    if seen == size then spanned .text
    else
      let c ← nextChar
      if c.isNone || (size == 1 && c == some '\n') then unterminated size c
      else if c == some quote then textBody quote size fuel (seen + 1)
      else
        if c == some '\\' then
          let _ ← nextChar
        textBody quote size fuel 0

/-- A text literal, its first quote read. -/
def textLiteral (quote : Char) : Lex LexResult := do
  modify fun s => { s with firstLine := s.line, firstStart := s.lineStart }
  let fuel := (← get).chars.size + 2
  let c ← nextChar
  if c == some quote then
    let c ← nextChar
    if c == some quote then textBody quote 3 fuel 0
    else
      putBack c
      spanned .text
  else
    putBack c
    textBody quote 1 fuel 0

/-- The letters that may stand in front of a text literal, as far as they were
seen. -/
structure Prefixes where
  b : Bool
  r : Bool
  u : Bool
  f : Bool

/-- One more letter in front of a text literal, if it may stand there. -/
def Prefixes.add? (p : Prefixes) (c : Char) : Option Prefixes :=
  let l := c.toLower
  if !(p.b || p.u || p.f) && l == 'b' then some { p with b := true }
  else if !(p.b || p.u || p.r || p.f) && l == 'u' then some { p with u := true }
  else if !(p.r || p.u) && l == 'r' then some { p with r := true }
  else if !(p.f || p.b || p.u) && l == 'f' then some { p with f := true }
  else none

private def keywordOr (s : List Char) : TokenSort :=
  match fixedSort? (String.ofList s) with
  | some k => k
  | none => .name

private def nameRest (c : Option Char) : Lex LexResult := do
  let fuel := (← get).chars.size + 1
  let c ← if optionally isNameChar c then readWhile isNameChar fuel else pure c
  putBack c
  let s ← get
  let name := (s.chars.extract (s.start.getD 0) s.position).toList
  if name.any fun c => c.toNat ≥ 128 then
    match ← checkName with
    | some r => pure r
    | none => spanned .name
  else spanned (keywordOr name)

/-- A name, or a text literal with letters in front of it. -/
def nameOrText (p : Prefixes) : Nat → Option Char → Lex LexResult
  | 0, c => nameRest c
  | fuel + 1, c => do
    match c.bind p.add? with
    | none => nameRest c
    | some p =>
      let c ← nextChar
      match c with
      | some '"' => textLiteral '"'
      | some '\'' => textLiteral '\''
      | _ => nameOrText p fuel c

private def operatorSort? (cs : List Char) : Option TokenSort :=
  fixedSort? (String.ofList cs)

private def isOpening (c : Char) : Bool := c == '(' || c == '[' || c == '\x7b'

private def isClosing (c : Char) : Bool := c == ')' || c == ']' || c == '\x7d'

private def closes (opening closing : Char) : Bool :=
  (opening == '(' && closing == ')') || (opening == '[' && closing == ']') ||
    (opening == '\x7b' && closing == '\x7d')

/-- The most brackets that may be open at once. -/
def maxBrackets : Nat := 200

/-- An operator or a bracket, its first character read. -/
def operator (c : Char) : Lex LexResult := do
  let second ← nextChar
  match second.bind fun d => operatorSort? [c, d] with
  | some two =>
    let third ← nextChar
    match second, third.bind fun e => operatorSort? [c, second.getD ' ', e] with
    | _, some three => spanned three
    | _, none =>
      putBack third
      spanned two
  | none =>
    putBack second
    let s ← get
    if isOpening c then
      if s.brackets.length ≥ maxBrackets then lexFault "too many nested parentheses"
      else
        set { s with
          brackets := ⟨c, s.line, s.bytes s.lineStart (s.start.getD 0)⟩ :: s.brackets }
        spanned ((operatorSort? [c]).getD .stray)
    else if isClosing c then
      match s.brackets with
      | [] => lexFault s!"unmatched '{c}'"
      | b :: rest =>
        set { s with brackets := rest }
        if closes b.char c then spanned ((operatorSort? [c]).getD .stray)
        else
          let where_ := if b.line != s.line then s!" on line {b.line}" else ""
          lexFault
            s!"closing parenthesis '{c}' does not match opening parenthesis '{b.char}'{where_}"
    else if !Text.isPrintable c then
      lexFault s!"invalid non-printable character U+{hexUpper c.toNat}"
    else spanned ((operatorSort? [c]).getD .stray)

/-- The line end after a backslash. -/
def continuation : Lex (Option LexResult) := do
  let c ← nextChar
  if c != some '\n' then
    modify fun s => { s with done := .badContinuation }
    pure (some (failureResult none))
  else
    let c ← nextChar
    if c.isNone then
      modify fun s => { s with done := .atEnd, position := s.limit }
      pure (some (failureResult none))
    else
      putBack c
      pure none

/-- The column of the first character of a line, with tabs of eight and of one,
and the column at which a backslash continued it. -/
def measure : Nat → Nat → Nat → Nat → Lex (Except LexResult (Nat × Nat × Nat × Option Char))
  | 0, col, alt, cont => pure (.ok (col, alt, cont, none))
  | fuel + 1, col, alt, cont => do
    let c ← nextChar
    match c with
    | some ' ' => measure fuel (col + 1) (alt + 1) cont
    | some '\t' => measure fuel ((col / 8 + 1) * 8) (alt + 1) cont
    | some '\x0c' => measure fuel 0 0 cont
    | some '\\' =>
      let cont := if cont != 0 then cont else col
      match ← continuation with
      | some r => pure (.error r)
      | none => measure fuel col alt cont
    | _ => pure (.ok (col, alt, cont, c))

private def dropIndents (col : Nat) : List (Nat × Nat) → Nat × List (Nat × Nat)
  | [] => (0, [])
  | [last] => (0, [last])
  | (c, a) :: rest =>
    if col < c then
      let (n, kept) := dropIndents col rest
      (n + 1, kept)
    else (0, (c, a) :: rest)

/-- The most blocks that may be open at once. -/
def maxIndents : Nat := 100

/-- Opens or closes blocks for a line that starts at a column. -/
def indentTo (col alt : Nat) : Lex (Option LexResult) := do
  let s ← get
  let (top, altTop) := s.indents.headD (0, 0)
  if col == top then
    if alt != altTop then some <$> stopAs .mixedTabs else pure none
  else if col > top then
    if s.indents.length ≥ maxIndents then some <$> stopAs .tooDeep
    else if alt ≤ altTop then some <$> stopAs .mixedTabs
    else
      set { s with pending := s.pending + 1, indents := (col, alt) :: s.indents }
      pure none
  else
    let (n, kept) := dropIndents col s.indents
    set { s with pending := s.pending - n, indents := kept }
    let (top, altTop) := kept.headD (0, 0)
    if col != top then some <$> stopAs .badDedent
    else if alt != altTop then some <$> stopAs .mixedTabs
    else pure none

/-- The start of a line: whether it holds nothing but blanks and a comment, or a
fault. -/
def openLine : Lex (Except LexResult Bool) := do
  let s ← get
  if !s.lineOpen then pure (.ok false)
  else
    set { s with lineOpen := false }
    match ← measure (s.chars.size + 1) 0 0 0 with
    | .error r => pure (.error r)
    | .ok (col, alt, cont, c) =>
      putBack c
      let blank := c == some '#' || c == some '\n'
      if !blank && (← get).brackets.isEmpty then
        let (col, alt) := if cont != 0 then (cont, cont) else (col, alt)
        match ← indentTo col alt with
        | some r => pure (.error r)
        | none => pure (.ok blank)
      else pure (.ok blank)

/-- A token, blanks and comments skipped; `blank` says that the line holds nothing
else. The result is absent where a line end does not count. -/
def scanToken (blank : Bool) : Nat → Lex (Option LexResult)
  | 0 => pure (some (failureResult none))
  | fuel + 1 => do
    modify fun s => { s with start := none }
    let size := (← get).chars.size + 1
    let c ← readWhile (fun c => c == ' ' || c == '\t' || c == '\x0c') size
    modify fun s => { s with start := some (s.position - 1) }
    let c ← if c == some '#' then readWhile (· != '\n') size else pure c
    match c with
    | none =>
      let s ← get
      if !s.brackets.isEmpty then pure (some (failureResult none))
      else if s.done == .atEnd then pure (some ⟨.finish, none, none⟩)
      else pure (some (failureResult none))
    | some '\n' =>
      modify fun s => { s with lineOpen := true }
      let s ← get
      if blank || !s.brackets.isEmpty then pure none
      else pure (some ⟨.newline, some (s.start.getD 0, s.position - 1), none⟩)
    | some '.' =>
      let d ← nextChar
      if optionally Char.isDigit d then some <$> fractionPart d
      else if d == some '.' then
        let e ← nextChar
        if e == some '.' then some <$> spanned ((fixedSort? "...").getD .stray)
        else
          putBack e
          putBack d
          some <$> spanned ((fixedSort? ".").getD .stray)
      else
        putBack d
        some <$> spanned ((fixedSort? ".").getD .stray)
    | some '\'' => some <$> textLiteral '\''
    | some '"' => some <$> textLiteral '"'
    | some '\\' =>
      match ← continuation with
      | some r => pure (some r)
      | none => scanToken blank fuel
    | some c =>
      if isNameStart c then some <$> nameOrText ⟨false, false, false, false⟩ 4 (some c)
      else if c == '0' then some <$> zeroNumber
      else if c.isDigit then some <$> decimalNumber
      else some <$> operator c

/-- The next token of a text. -/
def scanLine : Nat → Lex LexResult
  | 0 => pure (failureResult none)
  | fuel + 1 => do
    modify fun s => { s with start := none }
    match ← openLine with
    | .error r => pure r
    | .ok blank =>
      let s ← get
      set { s with start := some s.position }
      if s.pending < 0 then
        modify fun s => { s with pending := s.pending + 1 }
        pure ⟨.dedent, none, none⟩
      else if s.pending > 0 then
        modify fun s => { s with pending := s.pending - 1 }
        pure ⟨.indent, none, none⟩
      else
        let c ← nextChar
        putBack c
        match ← scanToken blank (s.chars.size + 1) with
        | some r => pure r
        | none => scanLine fuel

/-- The next token of a text, with its text and its place. -/
def lexToken (firstLine shift : Nat) : Lex (Token × Option SyntaxFault) := do
  let r ← scanLine ((← get).chars.size + 2)
  let s ← get
  let isText := r.sort == .text
  let lineStart := if isText then s.firstStart else s.lineStart
  let line := if isText then s.firstLine else s.line
  let moved (n : Nat) : Nat := if s.line == firstLine then shift + n else n
  let column := r.span.bind fun (a, _) =>
    if lineStart ≤ a then some (moved (s.bytes lineStart a)) else none
  let endColumn := r.span.bind fun (_, b) =>
    if s.lineStart ≤ b then some (moved (s.bytes s.lineStart b)) else none
  let text := match r.span with
    | some (a, b) => (s.chars.extract a b).toList
    | none => []
  pure (⟨r.sort, text, line, column, s.line, endColumn, s.brackets.length⟩, r.fault)

end RepairLoop.Python
