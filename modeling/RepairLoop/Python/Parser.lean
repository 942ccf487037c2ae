import RepairLoop.Python.Grammar.Expressions
import RepairLoop.Python.Lexer
import RepairLoop.Python.Literal
/-!
# The parser

A text is parsed by its grammar from left to right; results of rules are kept by
position. If no tree is found the text is parsed a second time with the
alternatives that explain what is wrong. A fault of the lexer counts more than what
the grammar says, so after a fault the rest of the text is read for one.
-/

namespace RepairLoop.Python

/-- All rules. -/
def grammar : Grammar :=
  Grammar.ofTexts (simpleRules ++ compoundRules ++ parameterRules ++ statementFaults ++
    parameterFaults ++ patternRules ++ operatorRules ++ primaryRules ++ argumentRules ++
    targetRules ++ expressionFaults)

/-- How a text is parsed: the rule for it, the line before its first line, the
column of its first character, and whether it is an expression inside a text. -/
structure Setting where
  root : String
  line : Nat
  shift : Nat
  nested : Bool
  inner : InnerParser

/-- The state of a parse: the lexer, the tokens read so far, the position in them,
the kept results, the fault found, and whether explanations are sought. -/
structure ParseState where
  lex : LexState
  tokens : Array Token
  mark : Nat
  kept : Std.HashMap (Nat × Nat) (Option Part × Nat)
  fault : Option SyntaxFault
  explaining : Bool

/-- A step of the parser. -/
abbrev Parse := StateM ParseState

private def nthLine : Nat → List Char → List Char
  | 0, cs => cs.takeWhile (· != '\n')
  | n + 1, cs =>
    match cs.dropWhile (· != '\n') with
    | [] => cs.takeWhile (· != '\n')
    | [_] => []
    | _ :: rest => nthLine n rest

/-- The line that a fault on line `line` is shown with. -/
def ParseState.faultLine (s : ParseState) (firstLine line : Nat) : List Char :=
  if s.lex.line ≤ line && s.lex.limit > s.lex.base then
    (s.lex.chars.extract s.lex.base s.lex.limit).toList
  else nthLine (line - firstLine) s.lex.chars.toList

private def charsWithin : Nat → List Char → Nat
  | 0, _ => 0
  | _ + 1, [] => 1
  | n + 1, c :: cs => 1 + charsWithin (n + 1 - c.utf8Size) cs

/-- A fault with its column counted in characters. The column is given in bytes from
one; zero says that there is none. -/
def ParseState.located (s : ParseState) (cfg : Setting) (message : String) (line : Nat)
    (column : Int) : SyntaxFault :=
  if cfg.nested then ⟨"f-string: " ++ message, line, (column - cfg.shift).toNat⟩
  else
    ⟨message, line, charsWithin column.toNat (s.faultLine 1 line)⟩

/-- Records a fault at a column in bytes from one, unless there is one. -/
def raiseAt (cfg : Setting) (message : String) (line : Nat) (column : Int) : Parse Unit :=
  modify fun s =>
    if s.fault.isSome then s else { s with fault := some (s.located cfg message line column) }

/-- The column from one that stands for a token. -/
def ParseState.tokenColumn (s : ParseState) (t : Token) : Int :=
  match t.column with
  | some c => Int.ofNat c + 1
  | none =>
    if s.lex.position == s.lex.base then 0
    else Int.ofNat (s.lex.bytes s.lex.lineStart s.lex.position)

/-- Records a fault at the token read last. -/
def raiseHere (cfg : Setting) (message : String) : Parse Unit := do
  let s ← get
  let t := s.tokens.back?.getD default
  raiseAt cfg message t.line (s.tokenColumn t)

private def unclosed (s : ParseState) (cfg : Setting) : Option SyntaxFault :=
  s.lex.brackets.head?.map fun b =>
    s.located cfg s!"'{b.char}' was never closed" b.line (Int.ofNat b.column + 1)

/-- Records what the lexer found wrong. -/
def lexerFault (cfg : Setting) (own : Option SyntaxFault) : Parse Unit := do
  let s ← get
  match own with
  | some f => if s.fault.isNone then set { s with fault := some f }
  | none =>
    match s.lex.done with
    | .atEnd =>
      match unclosed s cfg with
      | some f => if s.fault.isNone then set { s with fault := some f }
      | none => raiseHere cfg "unexpected EOF while parsing"
    | .badDedent => raiseHere cfg "unindent does not match any outer indentation level"
    | .mixedTabs =>
      raiseAt cfg "inconsistent use of tabs and spaces in indentation" s.lex.line 1
    | .tooDeep => raiseAt cfg "too many levels of indentation" s.lex.line 1
    | .badContinuation =>
      raiseAt cfg "unexpected character after line continuation character" s.lex.line
        (Int.ofNat (s.lex.bytes s.lex.base s.lex.position))
    | _ => raiseAt cfg "unknown parsing error" s.lex.line 1

/-- Makes sure that the token at the current position is read. -/
def fill (cfg : Setting) : Parse Bool := do
  let s ← get
  if s.mark < s.tokens.size then pure true
  else
    let lex := s.lex
    let ((t, own), lex) := (lexToken (if cfg.nested then cfg.line + 1 else 0) cfg.shift).run lex
    modify fun s => { s with lex := lex, tokens := s.tokens.push t }
    if t.sort == .failure then
      lexerFault cfg own
      pure false
    else pure true

private def isImaginaryText (cs : List Char) : Bool :=
  match cs.getLast? with
  | some c => c == 'j' || c == 'J'
  | none => false

private def isHexText (cs : List Char) : Bool :=
  match cs with
  | '0' :: c :: _ => c.isAlpha
  | _ => false

private def numberConstant (cs : List Char) : Constant :=
  if isHexText cs && !isImaginaryText cs && cs.length > 2 && !(cs.contains '.') &&
      (cs.getD 1 ' ' != 'e' && cs.getD 1 ' ' != 'E') then .whole
  else if isImaginaryText cs then .imaginary
  else if cs.all fun c => c.isDigit || c == '_' then .whole
  else .real

private def wholeDigits (cs : List Char) : Nat :=
  if cs.all fun c => c.isDigit || c == '_' then (cs.filter Char.isDigit).length else 0

/-- The part that a token stands for. -/
def tokenPart (cfg : Setting) (t : Token) : Parse (Option Part) := do
  let node (k : Kind) : Part :=
    .tree (.node k t.line (t.column.getD 0) (t.endColumn.getD 0) [])
  match t.sort with
  | .name => pure (some (node (.name (String.ofList t.text))))
  | .number =>
    let digits := wholeDigits t.text
    if digits > Json.maxDigits then
      raiseAt cfg (Json.tooManyDigitsMessage digits ++
        " - Consider hexadecimal for huge integer literals to avoid decimal conversion limits.")
        t.line 0
      pure none
    else pure (some (node (.constant (numberConstant t.text))))
  | _ => pure (some (.mark t))

/-- Takes the next token if it passes a test. -/
def takeToken (cfg : Setting) (p : Token → Bool) : Parse (Option Part) := do
  if !(← fill cfg) then pure none
  else
    let s ← get
    let t := s.tokens.getD s.mark default
    if p t then
      modify fun s => { s with mark := s.mark + 1 }
      tokenPart cfg t
    else pure none

private def softWords : List (List Char) := [['_'], "case".toList, "match".toList]

/-- Takes a token that must come next. -/
def forcedToken (cfg : Setting) (sort : TokenSort) (text : String) : Parse (Option Part) := do
  if !(← fill cfg) then pure none
  else
    let s ← get
    let t := s.tokens.getD s.mark default
    if t.sort == sort then
      modify fun s => { s with mark := s.mark + 1 }
      pure (some (.mark t))
    else
      let column : Int := match t.column with
        | some c => Int.ofNat c + 1
        | none => 0
      raiseAt cfg s!"expected '{text}'" t.line column
      pure none

private def isSolid (t : Token) : Bool :=
  t.sort != .newline && t.sort != .indent && t.sort != .dedent && t.sort != .finish

private def lastSolid (tokens : Array Token) : Nat → Token
  | 0 => default
  | n + 1 =>
    let t := tokens.getD n default
    if isSolid t then t else lastSolid tokens n

/-- Where the tokens from a position up to the current one stand. -/
def siteFrom (start : Nat) : Parse Site := do
  let s ← get
  let first := s.tokens.getD start default
  let last := s.tokens.getD (s.mark - 1) default
  let solid := lastSolid s.tokens s.mark
  pure ⟨first.line, first.column.getD 0, solid.endColumn.getD 0, last.level⟩

/-- Turns the outcome of an alternative into a part. -/
def reduce (cfg : Setting) (r : Reduction) : Parse (Option Part) := do
  match r with
  | .value p => pure (some p)
  | .refuse => pure none
  | .faultAt m l c =>
    raiseAt cfg m l (match c with | some c => c + 1 | none => 0)
    pure none
  | .faultHere m =>
    raiseHere cfg m
    pure none
  | .literal pieces =>
    match joinLiteral cfg.inner pieces with
    | .ok s => pure (some (.tree s))
    | .error (.here m) =>
      raiseHere cfg m
      pure none
    | .error (.placed f) =>
      modify fun s => if s.fault.isSome then s else { s with fault := some f }
      pure none

set_option maxRecDepth 4000

/-- What the items of an alternative yield: their parts, or whether the
alternatives after it are given up. -/
inductive Matched where
  | parts (ps : List Part)
  | failed (final : Bool)

private def failing : Parse Bool := do
  pure (← get).fault.isSome

private def goTo (mark : Nat) : Parse Unit :=
  modify fun s => { s with mark := mark }

mutual

/-- Matches an item. -/
def parseItem (cfg : Setting) : Nat → Item → Parse (Option Part)
  | 0, _ => pure none
  | fuel + 1, x => do
    match x with
    | .sort sort => takeToken cfg fun t => t.sort == sort
    | .soft word => takeToken cfg fun t => t.sort == .name && t.text == word.toList
    | .anySoft => takeToken cfg fun t => t.sort == .name && softWords.contains t.text
    | .rule i => parseRule cfg fuel i
    | .forced sort text => forcedToken cfg sort text
    | .maybe x =>
      let start := (← get).mark
      match ← parseItem cfg fuel x with
      | some p => pure (some p)
      | none =>
        if ← failing then pure none
        else
          goTo start
          pure (some .absent)
    | .many x => parseMany cfg fuel none x []
    | .many1 x =>
      match ← parseItem cfg fuel x with
      | some p => parseMany cfg fuel none x [p]
      | none => pure none
    | .separated by_ x =>
      match ← parseItem cfg fuel x with
      | some p => parseMany cfg fuel (some by_) x [p]
      | none => pure none
    | .group alternatives => parseGroup cfg fuel alternatives
    | .ahead _ => pure none
    | .notAhead _ => pure none
    | .cut => pure none

/-- Matches an item as often as it goes, with separators between if there are any. -/
def parseMany (cfg : Setting) : Nat → Option Item → Item → List Part → Parse (Option Part)
  | 0, _, _, _ => pure none
  | fuel + 1, by_, x, acc => do
    let start := (← get).mark
    let between ← match by_ with
      | none => pure true
      | some b => do pure (← parseItem cfg fuel b).isSome
    let p ← if between then parseItem cfg fuel x else pure none
    match p with
    | some p => parseMany cfg fuel by_ x (p :: acc)
    | none =>
      if ← failing then pure none
      else
        goTo start
        pure (some (.many acc.reverse))

/-- Matches the first alternative of a group that fits. -/
def parseGroup (cfg : Setting) : Nat → List (List Item) → Parse (Option Part)
  | 0, _ => pure none
  | _ + 1, [] => pure none
  | fuel + 1, items :: rest => do
    let start := (← get).mark
    match ← parseItems cfg fuel items false [] with
    | .parts [p] => pure (some p)
    | .parts ps => pure (some (.many ps))
    | .failed final =>
      goTo start
      if (← failing) || final then pure none else parseGroup cfg fuel rest

/-- Matches the items of an alternative one after the other. -/
def parseItems (cfg : Setting) : Nat → List Item → Bool → List Part → Parse Matched
  | 0, _, final, _ => pure (.failed final)
  | _ + 1, [], _, acc => pure (.parts acc.reverse)
  | fuel + 1, x :: rest, final, acc => do
    match x with
    | .cut => parseItems cfg fuel rest true acc
    | .ahead y =>
      let start := (← get).mark
      let found ← parseItem cfg fuel y
      goTo start
      if found.isSome then parseItems cfg fuel rest final acc else pure (.failed final)
    | .notAhead y =>
      let start := (← get).mark
      let found ← parseItem cfg fuel y
      goTo start
      if found.isSome || (← failing) then pure (.failed final)
      else parseItems cfg fuel rest final acc
    | x =>
      match ← parseItem cfg fuel x with
      | some p => parseItems cfg fuel rest final (p :: acc)
      | none => pure (.failed final)

/-- Tries the alternatives of a rule in order. -/
def parseAlternatives (cfg : Setting) : Nat → Nat → List Alternative → Parse (Option Part)
  | 0, _, _ => pure none
  | _ + 1, _, [] => pure none
  | fuel + 1, start, a :: rest => do
    if a.explains && !(← get).explaining then parseAlternatives cfg fuel start rest
    else
      goTo start
      match ← parseItems cfg fuel a.items false [] with
      | .parts ps =>
        let site ← siteFrom start
        match ← reduce cfg (a.action site ps) with
        | some p => pure (some p)
        | none =>
          goTo start
          pure none
      | .failed final =>
        goTo start
        if (← failing) || final then pure none else parseAlternatives cfg fuel start rest

/-- Matches a rule, with the results that are kept for it. -/
def parseRule (cfg : Setting) : Nat → Nat → Parse (Option Part)
  | 0, _ => pure none
  | fuel + 1, i => do
    if ← failing then pure none
    else
      let r := grammar.getD i default
      let start := (← get).mark
      match r.keeping with
      | .forgotten =>
        if r.quiet then
          let before := (← get).explaining
          modify fun s => { s with explaining := false }
          let p ← parseAlternatives cfg fuel start r.alternatives
          modify fun s => { s with explaining := before }
          pure p
        else parseAlternatives cfg fuel start r.alternatives
      | keeping =>
        if !(← fill cfg) then pure none
        else
          match (← get).kept[(i, start)]? with
          | some (p, stop) =>
            goTo stop
            pure p
          | none =>
            if keeping == .remembered then
              let p ← parseAlternatives cfg fuel start r.alternatives
              if ← failing then pure none
              else
                modify fun s => { s with kept := s.kept.insert (i, start) (p, s.mark) }
                pure p
            else parseGrowing cfg fuel i start none start

/-- Grows the result of a rule that starts with itself as long as it gets longer. -/
def parseGrowing (cfg : Setting) : Nat → Nat → Nat → Option Part → Nat → Parse (Option Part)
  | 0, _, _, _, _ => pure none
  | fuel + 1, i, start, best, stop => do
    modify fun s => { s with kept := s.kept.insert (i, start) (best, stop), mark := start }
    let p ← parseAlternatives cfg fuel start (grammar.getD i default).alternatives
    if ← failing then pure none
    else
      let mark := (← get).mark
      if p.isNone || mark ≤ stop then
        goTo stop
        pure best
      else parseGrowing cfg fuel i start p mark

end

private def restFaultLoop (cfg : Setting) : Nat → LexState → Option SyntaxFault × LexState
  | 0, lex => (none, lex)
  | fuel + 1, lex =>
    let ((t, own), lex) := (lexToken (if cfg.nested then cfg.line + 1 else 0) cfg.shift).run lex
    match t.sort with
    | .failure => (own, lex)
    | .finish => (none, { lex with brackets := [] })
    | _ => restFaultLoop cfg fuel lex

/-- Reads the rest of the text; a fault of the lexer there counts more than the one
found, and so does a bracket that is left open above it. -/
def preferLexerFault (cfg : Setting) : Parse Unit := do
  let s ← get
  let line := (s.tokens.back?.getD default).line
  let (own, lex) := restFaultLoop cfg (s.lex.chars.size + 2) s.lex
  let s := { s with lex := lex }
  match own with
  | some f => set { s with fault := some f }
  | none =>
    match lex.brackets with
    | b :: _ =>
      if lex.done != .running && line > b.line then set { s with fault := unclosed s cfg }
      else set s
    | [] => set s

private def isRunning (s : ParseState) : Bool :=
  s.lex.done == .running

/-- What is wrong with a text for which both passes found no tree; `last` is the
last token of the first pass. -/
def explainFailure (cfg : Setting) (last : Token) : Parse Unit := do
  let s ← get
  if s.fault.isSome then
    if isRunning s then preferLexerFault cfg
  else if last.sort == .failure && s.lex.done == .atEnd then
    match unclosed s cfg with
    | some f => set { s with fault := some f }
    | none => raiseHere cfg "unexpected EOF while parsing"
  else if last.sort == .indent then raiseHere cfg "unexpected indent"
  else if last.sort == .dedent then raiseHere cfg "unexpected unindent"
  else
    let column : Int := match last.column with
      | some c => Int.ofNat c + 1
      | none => 0
    raiseAt cfg "invalid syntax" last.line column
    preferLexerFault cfg

private def runText (cfg : Setting) (fuel : Nat) : Parse (Option Part) := do
  let root := grammar.find cfg.root
  match ← parseRule cfg fuel root with
  | some p => pure (some p)
  | none =>
    let s ← get
    if s.fault.isSome then
      if isRunning s then preferLexerFault cfg
      pure none
    else
      let last := s.tokens.back?.getD default
      set { s with mark := 0, kept := ∅, explaining := true }
      let _ ← parseRule cfg fuel root
      explainFailure cfg last
      pure none

/-- Parses a text under a setting. -/
def parseWith (cfg : Setting) (text : List Char) : Except SyntaxFault Syn :=
  let lex := LexState.ofChars text cfg.line
  let fuel := 400 * (lex.chars.size + 50)
  let (p, s) := (runText cfg fuel).run ⟨lex, #[], 0, ∅, none, false⟩
  match p, s.fault with
  | some p, _ => .ok (p.nodes.headD default)
  | none, some f => .error f
  | none, none => .error ⟨"invalid syntax", 1, 1⟩

/-- A parser for the expressions inside texts; texts may stand in each other up to
a depth. -/
def innerParser : Nat → InnerParser
  | 0, _, line, _ => .error ⟨"f-string: expressions nested too deeply", line + 1, 1⟩
  | depth + 1, text, line, shift =>
    parseWith ⟨"fstring", line, shift, true, innerParser depth⟩ text

/-- The tree of a text. Lines and columns of a fault are at least one. -/
def parseText (text : String) : Except SyntaxFault Syn :=
  (parseWith ⟨"file", 0, 0, false, innerParser text.length⟩ text.toList).mapError fun f =>
    { f with line := max 1 f.line, column := max 1 f.column }

end RepairLoop.Python
