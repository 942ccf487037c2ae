import RepairLoop.Yaml.Scalar
/-!
# Cutting a YAML text into tokens

A key of a mapping need not be marked as one: where a token may start such a key its
place is kept, and a colon behind it on the same line puts the marks of the key, and of
a mapping that it may open, in front of it. Indentation opens and closes collections
outside brackets.
-/

namespace RepairLoop.Yaml

/-- A place where a key may have started: the number of tokens before it, where it
stands, and whether it must be a key. -/
structure KeyPlace where
  before : Nat
  required : Bool
  index : Nat
  line : Nat
  column : Nat
  deriving DecidableEq, Inhabited

/-- The state of the lexer: the place, the tokens found, the number of open brackets,
the indentation and those around it, whether a key may start here, and the places of
possible keys by bracket. -/
structure Lexer where
  place : Cursor
  tokens : Array Token
  flow : Nat
  indent : Int
  indents : List Int
  allowKey : Bool
  keys : List (Nat × KeyPlace)
  deriving Inhabited

/-- The most characters between the start of an unmarked key and its colon. -/
def keyReach : Nat := 1024

namespace Lexer

/-- The lexer at the start of a text. -/
def start (cs : List Char) : Lexer :=
  ⟨⟨cs, 0, 0, 0⟩, #[], 0, -1, [], true, []⟩

/-- One more token. -/
def push (s : Lexer) (t : Token) : Lexer :=
  { s with tokens := s.tokens.push t }

/-- A token with the place behind it. -/
def pushAt (s : Lexer) (t : Token) (c : Cursor) : Lexer :=
  { s with tokens := s.tokens.push t, place := c }

/-- Drops the places of keys that can no longer get a colon. -/
def dropStale (s : Lexer) : Except Refused Lexer :=
  let isStale (k : KeyPlace) : Bool :=
    k.line != s.place.line || keyReach < s.place.index - k.index
  if s.keys.any fun (_, k) => isStale k && k.required then malformed
  else .ok { s with keys := s.keys.filter fun (_, k) => !isStale k }

/-- Drops the place of a key at the current bracket. -/
def dropKey (s : Lexer) : Except Refused Lexer :=
  if s.keys.any fun (level, k) => level == s.flow && k.required then malformed
  else .ok { s with keys := s.keys.filter fun (level, _) => level != s.flow }

/-- Keeps the place as one where a key may start. -/
def saveKey (s : Lexer) : Except Refused Lexer :=
  if s.allowKey then do
    let s ← s.dropKey
    let c := s.place
    let required := s.flow == 0 && s.indent == Int.ofNat c.column
    .ok { s with keys := s.keys ++ [(s.flow, ⟨s.tokens.size, required, c.index, c.line, c.column⟩)] }
  else .ok s

private def closeTo (column : Int) : Int → List Int → Nat → Int × List Int × Nat
  | indent, [], n => (indent, [], n)
  | indent, outer :: rest, n =>
    if column < indent then closeTo column outer rest (n + 1) else (indent, outer :: rest, n)

/-- Closes the collections that are indented more than a column. -/
def unwind (s : Lexer) (column : Int) : Lexer :=
  if s.flow != 0 then s
  else
    let (indent, indents, n) := closeTo column s.indent s.indents 0
    { s with
      indent := indent, indents := indents
      tokens := s.tokens ++ (Array.replicate n Token.blockEnd) }

/-- Opens a collection at a column if it is indented more than the one around; says
whether it did. -/
def addIndent (s : Lexer) (column : Nat) : Lexer × Bool :=
  if s.indent < Int.ofNat column then
    ({ s with indents := s.indent :: s.indents, indent := Int.ofNat column }, true)
  else (s, false)

/-- Behind blanks, comments and line ends. -/
def skipGaps : Nat → Lexer → Lexer
  | 0, s => s
  | fuel + 1, s =>
    let c := s.place.skipWhile (· == ' ')
    let c := if c.peek == '#' then c.skipWhile (fun x => !isLineEnd x) else c
    if isBreak c.peek then
      skipGaps fuel
        { s with place := c.lineBreak.2, allowKey := if s.flow == 0 then true else s.allowKey }
    else { s with place := c }

/-- A sign of one character. -/
private def sign (s : Lexer) (t : Token) : Lexer :=
  s.pushAt t s.place.next

private def openBracket (s : Lexer) (t : Token) : Except Refused Lexer := do
  let s ← s.saveKey
  .ok (sign { s with flow := s.flow + 1, allowKey := true } t)

private def closeBracket (s : Lexer) (t : Token) : Except Refused Lexer := do
  let s ← s.dropKey
  .ok (sign { s with flow := s.flow - 1, allowKey := false } t)

/-- A collection that an item at this place opens. -/
private def openHere (s : Lexer) (t : Token) : Except Refused Lexer :=
  if s.flow != 0 then .ok s
  else if !s.allowKey then malformed
  else
    let (s, opened) := s.addIndent s.place.column
    .ok (if opened then s.push t else s)

private def blockEntry (s : Lexer) : Except Refused Lexer := do
  let s ← openHere s .blockSequence
  let s ← { s with allowKey := true }.dropKey
  .ok (sign s .blockEntry)

private def keySign (s : Lexer) : Except Refused Lexer := do
  let s ← openHere s .blockMapping
  let s ← { s with allowKey := s.flow == 0 }.dropKey
  .ok (sign s .key)

private def insertAt (ts : Array Token) (i : Nat) (t : Token) : Array Token :=
  (ts.extract 0 i).push t ++ ts.extract i ts.size

private def valueSign (s : Lexer) : Except Refused Lexer := do
  match s.keys.find? (fun (level, _) => level == s.flow) with
  | some (_, k) =>
    let s := { s with
      keys := s.keys.filter fun (level, _) => level != s.flow
      tokens := insertAt s.tokens k.before .key
      allowKey := false }
    if s.flow == 0 then
      let (s, opened) := s.addIndent k.column
      let s := if opened then { s with tokens := insertAt s.tokens k.before .blockMapping } else s
      .ok (sign s .value)
    else .ok (sign s .value)
  | none =>
    let s ← openHere s .blockMapping
    let s ← { s with allowKey := s.flow == 0 }.dropKey
    .ok (sign s .value)

/-- A name behind a sign. -/
private def named (s : Lexer) (make : String → Token) : Except Refused Lexer := do
  let s ← s.saveKey
  let (name, c) := s.place.next.span isNamePart
  let follows := isGap c.peek || ['?', ':', ',', ']', '\x7d', '%', '@', '\x60'].contains c.peek
  if name.isEmpty || !follows then malformed
  else .ok ({ s with allowKey := false }.pushAt (make (String.ofList name)) c)

/-! ## Tags -/

private def isUriPart (c : Char) : Bool :=
  c.isAlphanum || "-;/?:@&=+$,_.!~*'()[]%".toList.contains c

private def escapedBytes : Nat → List Char → List UInt8 × List Char
  | fuel + 1, '%' :: a :: b :: rest =>
    if isHex a && isHex b then
      let value (c : Char) : Nat := if c.isDigit then c.toNat - 48 else c.toLower.toNat - 87
      let (bs, rest) := escapedBytes fuel rest
      ((value a * 16 + value b).toUInt8 :: bs, rest)
    else ([], '%' :: a :: b :: rest)
  | _, rest => ([], rest)

private def unescapeUri : Nat → List Char → Except Refused (List Char)
  | _, [] => .ok []
  | 0, cs => .ok cs
  | fuel + 1, '%' :: rest =>
    let (bs, after) := escapedBytes (rest.length + 1) ('%' :: rest)
    match String.fromUTF8? (ByteArray.mk bs.toArray) with
    | some s =>
      if bs.isEmpty || after.head? == some '%' then malformed
      else do
        let more ← unescapeUri fuel after
        .ok (s.toList ++ more)
    | none => malformed
  | fuel + 1, c :: rest => do
    let more ← unescapeUri fuel rest
    .ok (c :: more)

private def tagUri (c : Cursor) : Except Refused (String × Cursor) := do
  let (cs, c) := c.span isUriPart
  if cs.isEmpty then malformed
  else
    let cs ← unescapeUri (cs.length + 1) cs
    .ok (String.ofList cs, c)

private def tagScope (c : Cursor) : Except Refused (String × Cursor) :=
  if c.peek != '!' then malformed
  else if c.peekAt 1 == ' ' then .ok ("!", c.next)
  else
    let (name, d) := c.next.span isNamePart
    if d.peek == '!' then .ok ("!" ++ String.ofList name ++ "!", d.next) else malformed

private def tagToken (s : Lexer) : Except Refused Lexer := do
  let s ← s.saveKey
  let c := s.place
  let x := c.peekAt 1
  let (t, c) ←
    if x == '<' then do
      let (uri, c) ← tagUri (c.skip 2)
      if c.peek == '>' then Except.ok (Token.tag none uri, c.next) else malformed
    else if isGap x then Except.ok (Token.tag none "!", c.next)
    else do
      let word := c.next.rest.takeWhile fun y => y != ' ' && !isLineEnd y
      let (scope, c) ← if word.contains '!' then tagScope c else Except.ok ("!", c.next)
      let (uri, c) ← tagUri c
      Except.ok (Token.tag (some scope) uri, c)
  if c.peek == ' ' || isLineEnd c.peek then .ok ({ s with allowKey := false }.pushAt t c)
  else malformed

/-! ## Directives -/

private def digitsAt (c : Cursor) : Except Refused (Nat × Cursor) :=
  let (ds, c) := c.span Char.isDigit
  if ds.isEmpty then malformed
  else .ok (ds.foldl (fun n d => n * 10 + (d.toNat - 48)) 0, c)

private def directive (s : Lexer) : Except Refused Lexer := do
  let s ← (s.unwind (-1)).dropKey
  let (name, c) := s.place.next.span isNamePart
  if name.isEmpty || !(c.peek == ' ' || isLineEnd c.peek) then malformed
  else
    let (t, c) ←
      if name == "YAML".toList then do
        let (major, c) ← digitsAt (c.skipWhile (· == ' '))
        if c.peek != '.' then malformed
        else
          let (_, c) ← digitsAt c.next
          if c.peek == ' ' || isLineEnd c.peek then Except.ok (Token.version major, c) else malformed
      else if name == "TAG".toList then do
        let (scope, c) ← tagScope (c.skipWhile (· == ' '))
        if c.peek != ' ' then malformed
        else
          let (replacement, c) ← tagUri (c.skipWhile (· == ' '))
          if c.peek == ' ' || isLineEnd c.peek then
            Except.ok (Token.tagScope scope replacement, c)
          else malformed
      else Except.ok (Token.reserved, c.skipWhile (fun x => !isLineEnd x))
    let (_, c) ← ignoredLine c
    .ok ({ s with allowKey := false }.pushAt t c)

private def marker (s : Lexer) (t : Token) : Except Refused Lexer := do
  let s ← (s.unwind (-1)).dropKey
  .ok ({ s with allowKey := false }.pushAt t (s.place.skip 3))

/-! ## Tokens -/

private def startsPlain (flow : Bool) (c : Cursor) : Bool :=
  let x := c.peek
  !(isGap x || "-?:,[]\x7b\x7d#&*!|>'\"%@\x60".toList.contains x) ||
    (!isGap (c.peekAt 1) && (x == '-' || (!flow && (x == '?' || x == ':'))))

private def scalarToken (s : Lexer) : Except Refused Lexer := do
  let s ← s.saveKey
  let (text, c) ← quotedScalar s.place
  .ok ({ s with allowKey := false }.pushAt (.scalar text false) c)

private def blockToken (s : Lexer) : Except Refused Lexer := do
  let s ← { s with allowKey := true }.dropKey
  let (text, c) ← blockScalar (s.place.peek == '>') s.indent s.place
  .ok (s.pushAt (.scalar text false) c)

private def plainToken (s : Lexer) : Except Refused Lexer := do
  let s ← s.saveKey
  let (text, ended, c) := plainScalar (s.flow != 0) s.indent s.place
  .ok ({ s with allowKey := ended }.pushAt (.scalar text true) c)

/-- The next token; the last one is the end of the stream. -/
def step (s : Lexer) : Except Refused (Lexer × Bool) := do
  let s := s.skipGaps (s.place.rest.length + 1)
  let s ← s.dropStale
  let s := s.unwind (Int.ofNat s.place.column)
  let c := s.place
  let x := c.peek
  let flow := s.flow != 0
  if c.rest.isEmpty then
    let s ← (s.unwind (-1)).dropKey
    .ok (s.push .streamEnd, true)
  else
    let s ←
      if c.column == 0 && x == '%' then directive s
      else if c.column == 0 && c.atMarker && x == '-' then marker s .documentStart
      else if c.column == 0 && c.atMarker then marker s .documentEnd
      else if x == '[' then openBracket s .flowSequence
      else if x == '\x7b' then openBracket s .flowMapping
      else if x == ']' then closeBracket s .flowSequenceEnd
      else if x == '\x7d' then closeBracket s .flowMappingEnd
      else if x == ',' then do
        let s ← { s with allowKey := true }.dropKey
        Except.ok (sign s .flowEntry)
      else if x == '-' && isGap (c.peekAt 1) then blockEntry s
      else if x == '?' && (flow || isGap (c.peekAt 1)) then keySign s
      else if x == ':' && (flow || isGap (c.peekAt 1)) then valueSign s
      else if x == '*' then named s .alias
      else if x == '&' then named s .anchor
      else if x == '!' then tagToken s
      else if (x == '|' || x == '>') && !flow then blockToken s
      else if x == '\'' || x == '"' then scalarToken s
      else if startsPlain flow c then plainToken s
      else malformed
    .ok (s, false)

private def run : Nat → Lexer → Array Token × Option Refused
  | 0, s => (s.tokens, some .malformed)
  | fuel + 1, s =>
    match s.step with
    | .error e => (s.tokens, some e)
    | .ok (s, true) => (s.tokens, none)
    | .ok (s, false) => run fuel s

end Lexer

/-- The tokens of a text up to its end or to what is wrong with it. -/
def tokens (text : String) : List Token × Option Refused :=
  let cs := text.toList
  if cs.all isAllowed then
    let cs := if cs.head? == some '\ufeff' then cs.drop 1 else cs
    let (ts, e) := Lexer.run (cs.length + 2) (Lexer.start cs)
    (ts.toList, e)
  else ([], some .malformed)

end RepairLoop.Yaml
