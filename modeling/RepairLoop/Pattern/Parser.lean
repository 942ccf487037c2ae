import RepairLoop.Json.Parser
import RepairLoop.Number.Nearest
import RepairLoop.Pattern.Matcher
import RepairLoop.Text.Quoted
import RepairLoop.Text.Word
/-!
# Reading patterns

The written form of a pattern, read from left to right. A backslash and the
character after it are one sign. Flags stand at the start of the whole pattern or
open a group. Each refusal names the position at which it was found.
-/

namespace RepairLoop.Pattern

/-- Why a text is no pattern. -/
inductive PatternError where
  | at_ (message : String) (position : Nat)
  | plain (message : String)
  | repetitionTooLarge
  | numberTooLong (digits : Nat)
  deriving DecidableEq, Inhabited

/-- The flags in force. -/
structure Flags where
  ignoreCase : Bool
  multiLine : Bool
  dotAll : Bool
  verbose : Bool
  ascii : Bool
  deriving DecidableEq, Inhabited

/-- The mode of the tests under some flags. -/
def Flags.mode (f : Flags) : Mode :=
  ⟨f.ignoreCase, f.ascii⟩

/-- A part that was read: what it is decides whether it can be repeated. -/
inductive Item where
  | place (n : Node)
  | repeated (n : Node)
  | other (n : Node)

/-- The pattern of a part. -/
def Item.node : Item → Node
  | place n => n
  | repeated n => n
  | other n => n

/-- What is known while a pattern is read: what is left of it, how much was read,
the number of groups opened so far and one more, the widths of the groups closed,
their names, the number of groups opened before the look behind that is being
read, and the groups that conditions ask for. -/
structure Reader where
  rest : List Char
  position : Nat
  length : Nat
  groups : Nat
  closed : List (Nat × Nat × Option Nat)
  names : List (String × Nat)
  behind : Option Nat
  asked : List (Nat × Nat)

/-- A step of reading. -/
abbrev Read := StateT Reader (Except PatternError)

namespace Read

/-- A refusal at `offset` characters before the next sign. -/
def fail {α : Type} (message : String) (offset : Int) : Read α := do
  let r ← get
  throw (.at_ message ((r.position : Int) - offset).toNat)

/-- The next sign: a character, or a backslash and a character. -/
def peek : Read (List Char) := do
  match (← get).rest with
  | [] => pure []
  | '\\' :: c :: _ => pure ['\\', c]
  | c :: _ => pure [c]

/-- No sign may be a backslash at the end of the pattern. -/
def checkEnd : Read Unit := do
  let r ← get
  if r.rest == ['\\'] then throw (.at_ "bad escape (end of pattern)" (r.length - 1))

/-- Takes the next sign. -/
def next : Read (List Char) := do
  let t ← peek
  modify fun r => { r with rest := r.rest.drop t.length, position := r.position + t.length }
  checkEnd
  pure t

/-- Takes the next sign if it is the given character. -/
def eat (c : Char) : Read Bool := do
  if (← peek) == [c] then
    let _ ← next
    pure true
  else pure false

/-- Takes at most `n` signs of a class. -/
def takeWhile (p : Char → Bool) : Nat → Read (List Char)
  | 0 => pure []
  | n + 1 => do
    match ← peek with
    | [c] =>
      if p c then
        let _ ← next
        pure (c :: (← takeWhile p n))
      else pure []
    | _ => pure []

/-- The text up to a closing character, which is taken too. -/
def untilChar (close : Char) (what : String) : Nat → List Char → Read (List Char)
  | 0, acc => pure acc
  | fuel + 1, acc => do
    match ← next with
    | [] =>
      if acc.isEmpty then fail s!"missing {what}" 0
      else fail s!"missing {close}, unterminated name" acc.length
    | t =>
      if t == [close] then
        if acc.isEmpty then fail s!"missing {what}" 1 else pure acc
      else untilChar close what fuel (acc ++ t)

end Read

open Read

private def isOctal (c : Char) : Bool := '0' ≤ c && c ≤ '7'

private def isHex (c : Char) : Bool := (Json.hexValue? c).isSome

private def hexNumber (cs : List Char) : Nat :=
  cs.foldl (fun n c => 16 * n + (Json.hexValue? c).getD 0) 0

private def octalNumber (cs : List Char) : Nat :=
  cs.foldl (fun n c => 8 * n + (c.toNat - 48)) 0

private def decimalNumber (cs : List Char) : Nat :=
  cs.foldl (fun n c => 10 * n + (c.toNat - 48)) 0

private def show_ (cs : List Char) : String := String.ofList cs

/-- The class that an escape names. -/
def categoryOf? (c : Char) : Option Member :=
  match c with
  | 'd' => some (.category false .digit)
  | 'D' => some (.category true .digit)
  | 's' => some (.category false .space)
  | 'S' => some (.category true .space)
  | 'w' => some (.category false .word)
  | 'W' => some (.category true .word)
  | _ => none

/-- The control character that an escape names. -/
def controlOf? (c : Char) : Option Char :=
  match c with
  | 'a' => some (Char.ofNat 7)
  | 'b' => some (Char.ofNat 8)
  | 'f' => some (Char.ofNat 12)
  | 'n' => some '\n'
  | 'r' => some '\r'
  | 't' => some '\t'
  | 'v' => some (Char.ofNat 11)
  | '\\' => some '\\'
  | _ => none

/-- The place that an escape names. -/
def placeOf? (c : Char) : Option Place :=
  match c with
  | 'A' => some .start
  | 'b' => some .boundary
  | 'B' => some .noBoundary
  | 'Z' => some .textFinish
  | _ => none

/-- A character written by its number, after `x`, `u` or `U`. -/
def numbered (escape : List Char) (width : Nat) : Read Char := do
  let ds ← takeWhile isHex width
  let escape := escape ++ ds
  if ds.length != width then fail s!"incomplete escape {show_ escape}" escape.length
  else
    let n := hexNumber ds
    if n > 0x10ffff then fail s!"bad escape {show_ escape}" escape.length
    else pure (Char.ofNat n)

/-- A character written by its name: the library knows no names. -/
def named : Read Char := do
  if !(← eat '\x7b') then fail "missing \x7b" 0
  else
    let name ← untilChar '\x7d' "character name" (← get).rest.length.succ []
    fail s!"undefined character name {Text.quoted (show_ name)}" (name.length + 4)

/-- An escape that stands for a character wherever it is. -/
def commonEscape? (escape : List Char) (c : Char) : Read (Option Char) := do
  match c with
  | 'x' => some <$> numbered escape 2
  | 'u' => some <$> numbered escape 4
  | 'U' => some <$> numbered escape 8
  | 'N' => some <$> named
  | _ => pure none

private def octalTooLarge (escape : List Char) : Read Char :=
  fail s!"octal escape value {show_ escape} outside of range 0-0o377" escape.length

/-- An escape in a class of characters. -/
def classEscape (escape : List Char) : Read Member := do
  let c := escape.getD 1 ' '
  match controlOf? c, categoryOf? c with
  | some x, _ => pure (.char x)
  | none, some k => pure k
  | none, none =>
    match ← commonEscape? escape c with
    | some x => pure (.char x)
    | none =>
      if isOctal c then
        let ds ← takeWhile isOctal 2
        let n := octalNumber (c :: ds)
        if n > 0o377 then .char <$> octalTooLarge (escape ++ ds) else pure (.char (Char.ofNat n))
      else if c.isDigit || c.isAlpha then fail s!"bad escape {show_ escape}" escape.length
      else pure (.char c)

/-- A group that is closed and not of the look behind being read can be referred
to. -/
def checkBehind (index : Nat) : Read Unit := do
  let r ← get
  match r.behind with
  | none => pure ()
  | some bound =>
    if !r.closed.any (·.1 == index) then fail "cannot refer to an open group" 0
    else if bound ≤ index then
      fail "cannot refer to group defined in the same lookbehind subpattern" 0
    else pure ()

/-- A reference back to a group. -/
def backTo (mode : Mode) (index : Nat) : Read Item := do
  checkBehind index
  let r ← get
  let w := ((r.closed.find? (·.1 == index)).map (·.2)).getD (0, some 0)
  pure (.other (.back mode index w.1 (w.2.getD (Number.twoTo 64))))

/-- An escape outside a class of characters. -/
def escapeItem (flags : Flags) (escape : List Char) : Read Item := do
  let m := flags.mode
  let c := escape.getD 1 ' '
  let literal (x : Char) : Item := .other (.test m (.char false x))
  match placeOf? c, categoryOf? c, controlOf? c with
  | some p, _, _ => pure (.place (.at_ m p))
  | none, some k, _ => pure (.other (.test m (.set false [k])))
  | none, none, some x => pure (literal x)
  | none, none, none =>
    match ← commonEscape? escape c with
    | some x => pure (literal x)
    | none =>
      if c == '0' then
        let ds ← takeWhile isOctal 2
        pure (literal (Char.ofNat (octalNumber ds)))
      else if c.isDigit then
        let more ← takeWhile Char.isDigit 1
        let third ← if isOctal c && more.all isOctal && !more.isEmpty then takeWhile isOctal 1
                    else pure []
        if !third.isEmpty then
          let n := octalNumber (c :: more ++ third)
          if n > 0o377 then literal <$> octalTooLarge (escape ++ more ++ third)
          else pure (literal (Char.ofNat n))
        else
          let escape := escape ++ more
          let index := decimalNumber (c :: more)
          let r ← get
          if index < r.groups then
            if !r.closed.any (·.1 == index) then
              fail "cannot refer to an open group" escape.length
            else backTo m index
          else fail s!"invalid group reference {index}" ((escape.length : Int) - 1)
      else if c.isAlpha then fail s!"bad escape {show_ escape}" escape.length
      else pure (literal c)

private def memberIsChar? : Member → Option Char
  | .char c => some c
  | _ => none

/-- The members of a class up to its closing bracket; `here` is the number of
characters read before its opening one. -/
def classMembers (here : Nat) : Nat → List Member → Read (List Member)
  | 0, acc => pure acc.reverse
  | fuel + 1, acc => do
    let unterminated {α : Type} : Read α := do
      fail "unterminated character set" (((← get).position : Int) - here)
    let this ← next
    if this.isEmpty then unterminated
    else if this == [']'] && !acc.isEmpty then pure acc.reverse
    else
      let first ← if this.head? == some '\\' then classEscape this
                  else pure (.char (this.headD ' '))
      if ← eat '-' then
        let that ← next
        if that.isEmpty then unterminated
        else if that == [']'] then pure (.char '-' :: first :: acc).reverse
        else
          let second ← if that.head? == some '\\' then classEscape that
                       else pure (.char (that.headD ' '))
          let bad {α : Type} : Read α :=
            fail s!"bad character range {show_ this}-{show_ that}" (this.length + 1 + that.length)
          match memberIsChar? first, memberIsChar? second with
          | some a, some b =>
            if b < a then bad else classMembers here fuel (.range a.toNat b.toNat :: acc)
          | _, _ => bad
      else classMembers here fuel (first :: acc)

private def isGroupName (cs : List Char) : Bool :=
  match cs with
  | [] => false
  | c :: rest => Text.isIdentifierStart c && rest.all Text.isIdentifierContinue

private def checkGroupName (cs : List Char) : Read Unit :=
  if isGroupName cs then pure ()
  else fail s!"bad character in group name {Text.quoted (show_ cs)}" (cs.length + 1)

/-- The greatest count of a repetition and one more. -/
def countLimit : Nat := 4294967295

private def repetitionCount (ds : List Char) : Read (Option Nat) :=
  if ds.isEmpty then pure none
  else if ds.length > Json.maxDigits then throw (.numberTooLong ds.length)
  else if decimalNumber ds ≥ countLimit then throw .repetitionTooLarge
  else pure (some (decimalNumber ds))

/-- The counts between braces; without them the brace stands for itself. -/
def counts? : Read (Option (Nat × Option Nat)) := do
  let saved ← get
  let size := saved.rest.length
  if (← peek) == ['\x7d'] then pure none
  else
    let lo ← takeWhile Char.isDigit size
    let comma ← eat ','
    let hi ← if comma then takeWhile Char.isDigit size else pure lo
    if !(← eat '\x7d') then
      set saved
      pure none
    else
      let least ← repetitionCount lo
      let most ← repetitionCount hi
      let least := least.getD 0
      match most with
      | some n =>
        if n < least then
          fail "min repeat greater than max repeat" (((← get).position : Int) - saved.position)
        else pure (some (least, some n))
      | none => pure (some (least, none))

/-- The last part read, repeated; `here` is the position after the quantifier's
first sign. -/
def repeatLast (here : Nat) (least : Nat) (most : Option Nat) (acc : List Item) :
    Read (List Item) := do
  let offset := ((← get).position : Int) - here + 1
  match acc with
  | [] => fail "nothing to repeat" offset
  | .place _ :: _ => fail "nothing to repeat" offset
  | .repeated _ :: _ => fail "multiple repeat" offset
  | .other n :: rest =>
    let greed ← if ← eat '?' then pure Greed.lazy
                else if ← eat '+' then pure Greed.possessive
                else pure Greed.greedy
    pure (.repeated (.rep greed least most n) :: rest)

private def isFlag (c : Char) : Bool :=
  ['i', 'L', 'm', 's', 'x', 'a', 't', 'u'].contains c

private def unknownFlag (t : List Char) (otherwise : String) : Read Unit :=
  fail (if t.all fun c => c.isAlpha || (128 ≤ c.toNat && Text.isAlphanumeric c) then "unknown flag"
    else otherwise) t.length

/-- The flags to turn on, up to a closing parenthesis, a dash or a colon. -/
def flagsOn : Nat → List Char → List Char → Read (List Char × List Char)
  | 0, t, acc => pure (acc, t)
  | fuel + 1, t, acc => do
    let c := t.headD ' '
    if c == 'L' then fail "bad inline flags: cannot use 'L' flag with a str pattern" 0
    else
      let acc := acc ++ [c]
      if acc.contains 'a' && acc.contains 'u' then
        fail "bad inline flags: flags 'a', 'u' and 'L' are incompatible" 0
      else
        let t ← next
        if t.isEmpty then fail "missing -, : or )" 0
        else if t == [')'] || t == ['-'] || t == [':'] then pure (acc, t)
        else
          if !(t.length == 1 && isFlag (t.headD ' ')) then unknownFlag t "missing -, : or )"
          flagsOn fuel t acc

/-- The flags to turn off, up to a colon. -/
def flagsOff : Nat → List Char → List Char → Read (List Char)
  | 0, _, acc => pure acc
  | fuel + 1, t, acc => do
    let c := t.headD ' '
    if c == 'a' || c == 'u' || c == 'L' then
      fail "bad inline flags: cannot turn off flags 'a', 'u' and 'L'" 0
    else
      let acc := acc ++ [c]
      let t ← next
      if t.isEmpty then fail "missing :" 0
      else if t == [':'] then pure acc
      else
        if !(t.length == 1 && isFlag (t.headD ' ')) then unknownFlag t "missing :"
        flagsOff fuel t acc

/-- The flags after `on` was turned on and `off` turned off. -/
def Flags.change (f : Flags) (on off : List Char) : Flags :=
  let bit (old : Bool) (c : Char) : Bool := (old || on.contains c) && !off.contains c
  ⟨bit f.ignoreCase 'i', bit f.multiLine 'm', bit f.dotAll 's', bit f.verbose 'x',
    if on.contains 'u' then false else bit f.ascii 'a'⟩

/-- Flags written inline: for the whole pattern, or for the group they open. -/
def inlineFlags (t : List Char) : Read (Bool × List Char × List Char) := do
  let size := (← get).rest.length + 1
  let (on, close) ← if t == ['-'] then pure ([], t) else flagsOn size t []
  if close == [')'] then pure (true, on, [])
  else if on.contains 't' then fail "bad inline flags: cannot turn on global flag" 1
  else if close == ['-'] then
    let t ← next
    if t.isEmpty then fail "missing flag" 0
    else
      if !(t.length == 1 && isFlag (t.headD ' ')) then unknownFlag t "missing flag"
      let off ← flagsOff size t []
      if off.contains 't' then fail "bad inline flags: cannot turn off global flag" 1
      else if on.any off.contains then fail "bad inline flags: flag turned on and off" 1
      else pure (false, on, off)
  else pure (false, on, [])

private def skipComment : Nat → Read Unit
  | 0 => pure ()
  | fuel + 1 => do
    let t ← next
    if t.isEmpty || t == ['\n'] then pure () else skipComment fuel

private def groupComment (start : Nat) : Nat → Read Unit
  | 0 => pure ()
  | fuel + 1 => do
    if (← peek).isEmpty then
      fail "missing ), unterminated comment" (((← get).position : Int) - start)
    else if (← next) == [')'] then pure ()
    else groupComment start fuel

private def unterminated {α : Type} (start : Nat) : Read α := do
  fail "missing ), unterminated subpattern" (((← get).position : Int) - start)

private def closeGroup (start : Nat) : Read Unit := do
  if ← eat ')' then pure () else unterminated start

/-- Opens a group, which may have a name. -/
def openGroup (name : Option (List Char)) : Read Nat := do
  let r ← get
  let index := r.groups
  match name with
  | none => set { r with groups := index + 1 }
  | some n =>
    match r.names.find? (·.1 == show_ n) with
    | some (_, old) =>
      fail s!"redefinition of group name {Text.quoted (show_ n)} as group {index}; was group {old}"
        (n.length + 1)
    | none => set { r with groups := index + 1, names := (show_ n, index) :: r.names }
  pure index

/-- The group that a condition asks for. -/
def conditionGroup (name : List Char) : Read Nat := do
  let r ← get
  if isGroupName name then
    match r.names.find? (·.1 == show_ name) with
    | some (_, index) => pure index
    | none => fail s!"unknown group name {Text.quoted (show_ name)}" (name.length + 1)
  else
    match Text.decimalNumber? (Text.trim name) with
    | none => fail s!"bad character in group name {Text.quoted (show_ name)}" (name.length + 1)
    | some 0 => fail "bad group number" (name.length + 1)
    | some index =>
      if index ≥ 1073741823 then fail s!"invalid group reference {index}" (name.length + 1)
      else
        set { r with asked := r.asked ++ [(index, r.position - name.length - 1)] }
        pure index

private def isSpaceSign (t : List Char) : Bool :=
  match t with
  | [c] => c == ' ' || (9 ≤ c.toNat && c.toNat ≤ 13)
  | _ => false

mutual

/-- Alternatives; `outer` says that this is the whole pattern. -/
def readAlternatives (outer : Bool) : Nat → Flags → Read (Node × Flags)
  | 0, flags => pure (.empty, flags)
  | fuel + 1, flags => do
    let (items, flags') ← readItems outer fuel flags []
    if ← eat '|' then
      let (rest, last) ← readMore fuel (if outer then flags' else flags)
      pure (.alt (row items) rest, last)
    else pure (row items, flags')

/-- The alternatives after the first one. -/
def readMore : Nat → Flags → Read (Node × Flags)
  | 0, flags => pure (.empty, flags)
  | fuel + 1, flags => do
    let (items, _) ← readItems false fuel flags []
    if ← eat '|' then
      let (rest, last) ← readMore fuel flags
      pure (.alt (row items) rest, last)
    else pure (row items, flags)

/-- The parts of one alternative; `acc` holds those read, last first, and `outer`
says that flags for the whole pattern may come. -/
def readItems (outer : Bool) : Nat → Flags → List Item → Read (List Node × Flags)
  | 0, flags, acc => pure (acc.reverse.map Item.node, flags)
  | fuel + 1, flags, acc => do
    let this ← peek
    if this.isEmpty || this == ['|'] || this == [')'] then
      pure (acc.reverse.map Item.node, flags)
    else
      let this ← next
      let m := flags.mode
      let go (item : Item) : Read (List Node × Flags) := readItems outer fuel flags (item :: acc)
      if flags.verbose && isSpaceSign this then readItems outer fuel flags acc
      else if flags.verbose && this == ['#'] then
        skipComment ((← get).rest.length + 1)
        readItems outer fuel flags acc
      else
        match this with
        | '\\' :: _ => go (← escapeItem flags this)
        | ['['] =>
          let here := (← get).position - 1
          let negated ← eat '^'
          let members ← classMembers here ((← get).rest.length + 1) []
          go (.other (.test m (.set negated members)))
        | ['.'] => go (.other (.test m (.any flags.dotAll)))
        | ['^'] => go (.place (.at_ m (if flags.multiLine then .lineStart else .start)))
        | ['$'] => go (.place (.at_ m (if flags.multiLine then .lineFinish else .finish)))
        | ['?'] => readItems outer fuel flags (← repeatLast (← get).position 0 (some 1) acc)
        | ['*'] => readItems outer fuel flags (← repeatLast (← get).position 0 none acc)
        | ['+'] => readItems outer fuel flags (← repeatLast (← get).position 1 none acc)
        | ['\x7b'] =>
          let here := (← get).position
          match ← counts? with
          | none => go (.other (.test m (.char false '\x7b')))
          | some (least, most) => readItems outer fuel flags (← repeatLast here least most acc)
        | ['('] =>
          let start := (← get).position - 1
          match ← readGroup fuel flags start (outer && acc.isEmpty) with
          | .inl flags' => readItems outer fuel flags' acc
          | .inr none => readItems outer fuel flags acc
          | .inr (some item) => go item
        | c => go (.other (.test m (.char false (c.headD ' '))))

/-- What follows an opening parenthesis: new flags for the whole pattern, nothing,
or a part. -/
def readGroup : Nat → Flags → Nat → Bool → Read (Flags ⊕ Option Item)
  | 0, _, _, _ => pure (.inr none)
  | fuel + 1, flags, start, first => do
    let m := flags.mode
    let captured (name : Option (List Char)) : Read (Flags ⊕ Option Item) := do
      let index ← openGroup name
      let (body, _) ← readAlternatives false fuel flags
      closeGroup start
      modify fun r => { r with closed := (index, body.width) :: r.closed }
      pure (.inr (some (.other (.group index body))))
    let plain (flags : Flags) : Read (Flags ⊕ Option Item) := do
      let (body, _) ← readAlternatives false fuel flags
      closeGroup start
      pure (.inr (some (.other body)))
    if !(← eat '?') then captured none
    else
      let size := (← get).rest.length + 1
      let c ← next
      match c with
      | [] => fail "unexpected end of pattern" 0
      | ['P'] =>
        if ← eat '<' then
          let name ← untilChar '>' "group name" size []
          checkGroupName name
          captured (some name)
        else if ← eat '=' then
          let name ← untilChar ')' "group name" size []
          checkGroupName name
          let r ← get
          match r.names.find? (·.1 == show_ name) with
          | none => fail s!"unknown group name {Text.quoted (show_ name)}" (name.length + 1)
          | some (_, index) =>
            if !r.closed.any (·.1 == index) then
              fail "cannot refer to an open group" (name.length + 1)
            else pure (.inr (some (← backTo m index)))
        else
          let c ← next
          if c.isEmpty then fail "unexpected end of pattern" 0
          else fail s!"unknown extension ?P{show_ c}" (c.length + 2)
      | [':'] => plain flags
      | ['#'] =>
        groupComment start size
        pure (.inr none)
      | ['='] | ['!'] =>
        let (body, _) ← readAlternatives false fuel flags
        closeGroup start
        pure (.inr (some (.other (.ahead (c == ['!']) body))))
      | ['<'] =>
        let c ← next
        if c.isEmpty then fail "unexpected end of pattern" 0
        else if c == ['='] || c == ['!'] then
          let r ← get
          let outermost := r.behind.isNone
          if outermost then set { r with behind := some r.groups }
          let (body, _) ← readAlternatives false fuel flags
          if outermost then modify fun r => { r with behind := none }
          closeGroup start
          pure (.inr (some (.other (.behind (c == ['!']) body))))
        else fail s!"unknown extension ?<{show_ c}" (c.length + 2)
      | ['('] =>
        let name ← untilChar ')' "group name" size []
        let index ← conditionGroup name
        checkBehind index
        let (yes, _) ← readItems false fuel flags []
        let no ←
          if ← eat '|' then
            let (no, _) ← readItems false fuel flags []
            if (← peek) == ['|'] then
              fail "conditional backref with more than two branches" 0
            else pure (row no)
          else pure .empty
        closeGroup start
        pure (.inr (some (.other (.cond index (row yes) no))))
      | ['>'] =>
        let (body, _) ← readAlternatives false fuel flags
        closeGroup start
        pure (.inr (some (.other (.atomic body))))
      | _ =>
        if c == ['-'] || (c.length == 1 && isFlag (c.headD ' ')) then
          let (whole, on, off) ← inlineFlags c
          if whole then
            if first then pure (.inl (flags.change on off))
            else
              fail "global flags not at the start of the expression"
                (((← get).position : Int) - start)
          else plain (flags.change on off)
        else fail s!"unknown extension ?{show_ c}" (c.length + 1)

end

/-- A pattern from its written form. -/
def parse (s : String) : Except PatternError Node := do
  let cs := s.toList
  let start : Reader := ⟨cs, 0, cs.length, 1, [], [], none, []⟩
  let whole : Read Node := do
    checkEnd
    let (node, _) ← readAlternatives true (3 * cs.length + 3) ⟨false, false, false, false, false⟩
    if !(← peek).isEmpty then fail "unbalanced parenthesis" 0
    else
      let r ← get
      match r.asked.find? fun g => r.groups ≤ g.1 with
      | some (index, position) => throw (.at_ s!"invalid group reference {index}" position)
      | none =>
        if node.looksBehindFixed then pure node
        else throw (.plain "look-behind requires fixed-width pattern")
  let (node, _) ← whole.run start
  pure node

/-- The line and the column of a position, both from one. -/
def lineColumn (cs : List Char) (position : Nat) : Nat × Nat :=
  let before := cs.take position
  (before.count '\n' + 1, (before.reverse.takeWhile (· != '\n')).length + 1)

/-- What is said of a text that is no pattern. -/
def PatternError.message (pattern : String) : PatternError → String
  | .at_ m p =>
    let cs := pattern.toList
    if cs.contains '\n' then
      let (line, column) := lineColumn cs p
      s!"{m} at position {p} (line {line}, column {column})"
    else s!"{m} at position {p}"
  | .plain m => m
  | .repetitionTooLarge => "the repetition number is too large"
  | .numberTooLong n => Json.tooManyDigitsMessage n

end RepairLoop.Pattern
