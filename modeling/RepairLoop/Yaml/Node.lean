import RepairLoop.Yaml.Lexer
/-!
# Nodes of YAML

The tree of a document: scalars, sequences and mappings, each with its tag. A plain
scalar without a tag takes one by its form. A name stands for the node that was given
it; within that node itself it stands for an empty one of the same sort.
-/

namespace RepairLoop.Yaml

/-- A node of a document. -/
inductive Node where
  | scalar (tag text : String)
  | sequence (tag : String) (items : List Node)
  | mapping (tag : String) (entries : List (Node × Node))
  deriving Inhabited

/-- The tag of the core types with a name. -/
def coreTag (name : String) : String := "tag:yaml.org,2002:" ++ name

/-! ## Tags by form -/

private def drop1 (p : Char → Bool) : List Char → Option (List Char)
  | c :: rest => if p c then some rest else none
  | [] => none

private def unsigned (cs : List Char) : List Char :=
  match cs with
  | '-' :: rest => rest
  | '+' :: rest => rest
  | cs => cs

private def isDigitOr_ (c : Char) : Bool := c.isDigit || c == '_'

/-- A digit and then digits and underscores. -/
private def isRun (cs : List Char) : Bool :=
  match cs with
  | c :: rest => c.isDigit && rest.all isDigitOr_
  | [] => false

/-- Parts below sixty behind colons, up to a point if one is asked for. -/
private def sixtieths (pointed : Bool) : Nat → List Char → Bool
  | 0, _ => false
  | fuel + 1, ':' :: rest =>
    let ds := rest.takeWhile Char.isDigit
    let after := rest.dropWhile Char.isDigit
    let small := match ds with
      | [_] => true
      | [a, _] => a ≤ '5'
      | _ => false
    small && match after with
      | [] => !pointed
      | '.' :: r => pointed && r.all isDigitOr_
      | r => sixtieths pointed fuel r
  | _, _ => false

private def isExponent (cs : List Char) : Bool :=
  match cs with
  | [] => true
  | e :: s :: d :: rest => (e == 'e' || e == 'E') && (s == '+' || s == '-') && (d :: rest).all Char.isDigit
  | _ => false

private def isFloatForm (cs : List Char) : Bool :=
  let u := unsigned cs
  let whole := u.takeWhile isDigitOr_
  let rest := u.dropWhile isDigitOr_
  let fraction (cs : List Char) : Bool := isExponent (cs.dropWhile isDigitOr_)
  (isRun whole && (match rest with
    | '.' :: r => fraction r
    | ':' :: _ => sixtieths true rest.length rest
    | _ => false)) ||
  (match cs with
    | '.' :: r => isRun (r.takeWhile isDigitOr_) && fraction r
    | _ => false) ||
  [".inf", ".Inf", ".INF"].contains (String.ofList u) ||
  [".nan", ".NaN", ".NAN"].contains (String.ofList cs)

private def isIntForm (cs : List Char) : Bool :=
  let u := unsigned cs
  let whole := u.takeWhile isDigitOr_
  let rest := u.dropWhile isDigitOr_
  let led := isRun whole && u.head? != some '0'
  (match u with
    | '0' :: 'b' :: r => !r.isEmpty && r.all fun c => c == '0' || c == '1' || c == '_'
    | '0' :: 'x' :: r => !r.isEmpty && r.all fun c => isHex c || c == '_'
    | ['0'] => true
    | '0' :: r => !r.isEmpty && r.all fun c => ('0' ≤ c && c ≤ '7') || c == '_'
    | _ => false) ||
  (led && rest.isEmpty) || (led && sixtieths false rest.length rest)

private def digits? (least most : Nat) (cs : List Char) : Option (Nat × List Char) :=
  let ds := (cs.take most).takeWhile Char.isDigit
  if ds.length < least then none
  else some (ds.foldl (fun n c => n * 10 + (c.toNat - 48)) 0, cs.drop ds.length)

/-- A date and what follows it; the time of day in hours, minutes and seconds, the
digits of the fraction and the offset. -/
structure Stamp where
  year : Nat
  month : Nat
  day : Nat
  clock : Option (Nat × Nat × Nat)
  fraction : List Char
  offset : Option (Int × Nat × Nat)

private def isSpaceOrTab (c : Char) : Bool := c == ' ' || c == '\t'

private def stampOffset? (cs : List Char) : Option (Option (Int × Nat × Nat)) :=
  match cs.dropWhile isSpaceOrTab with
  | [] => if cs.isEmpty then some none else none
  | ['Z'] => some (some (1, 0, 0))
  | s :: rest =>
    if s != '+' && s != '-' then none
    else do
      let (h, rest) ← digits? 1 2 rest
      let sign : Int := if s == '-' then -1 else 1
      match rest with
      | [] => some (some (sign, h, 0))
      | ':' :: rest =>
        let (m, rest) ← digits? 2 2 rest
        if rest.isEmpty then some (some (sign, h, m)) else none
      | _ => none

/-- Reads a date, or a date with a time of day. -/
def stamp? (cs : List Char) : Option Stamp := do
  let (y, rest) ← digits? 4 4 cs
  let rest ← drop1 (· == '-') rest
  let (m, rest) ← digits? 1 2 rest
  let rest ← drop1 (· == '-') rest
  let (d, rest) ← digits? 1 2 rest
  if rest.isEmpty then some ⟨y, m, d, none, [], none⟩
  else
    let after ← match rest with
      | 'T' :: r => some r
      | 't' :: r => some r
      | c :: r => if isSpaceOrTab c then some (r.dropWhile isSpaceOrTab) else none
      | [] => none
    let (h, rest) ← digits? 1 2 after
    let rest ← drop1 (· == ':') rest
    let (mi, rest) ← digits? 2 2 rest
    let rest ← drop1 (· == ':') rest
    let (s, rest) ← digits? 2 2 rest
    let (fraction, rest) := match rest with
      | '.' :: r => (r.takeWhile Char.isDigit, r.dropWhile Char.isDigit)
      | r => ([], r)
    let offset ← stampOffset? rest
    some ⟨y, m, d, some (h, mi, s), fraction, offset⟩

/-- The form of a date has two digits for month and day, unless a time of day
follows. -/
private def isStampForm (cs : List Char) : Bool :=
  match stamp? cs with
  | some s => s.clock.isSome || cs.length == 10
  | none => false

/-- The tag that a plain scalar takes by its form. -/
def tagOf (text : String) : String :=
  let cs := text.toList
  if ["yes", "Yes", "YES", "no", "No", "NO", "true", "True", "TRUE", "false", "False", "FALSE", "on",
      "On", "ON", "off", "Off", "OFF"].contains text then coreTag "bool"
  else if isFloatForm cs then coreTag "float"
  else if isIntForm cs then coreTag "int"
  else if text == "<<" then coreTag "merge"
  else if ["~", "null", "Null", "NULL", ""].contains text then coreTag "null"
  else if isStampForm cs then coreTag "timestamp"
  else if text == "=" then coreTag "value"
  else coreTag "str"

/-! ## Nodes from tokens -/

/-- The state of the reader: the tokens left and what stopped the lexer behind them,
the named nodes, and what the scopes of tags stand for. -/
structure Reader where
  rest : List Token
  stop : Refused
  names : List (String × Node)
  scopes : List (String × String)

/-- A step of the reader. -/
abbrev Read := StateT Reader (Except Refused)

namespace Read

/-- The text is not YAML. -/
def refuse {α : Type} : Read α := throw .malformed

/-- The next token. -/
def peek : Read Token := do
  let s ← get
  match s.rest with
  | t :: _ => pure t
  | [] => throw s.stop

/-- Takes the next token. -/
def drop : Read Unit := modify fun s => { s with rest := s.rest.drop 1 }

/-- Takes the next token if it is the given one. -/
def take? (t : Token) : Read Bool := do
  if (← peek) == t then
    drop
    pure true
  else pure false

/-- Nothing, where a node may stand. -/
def nothing : Node := .scalar (coreTag "null") ""

/-- A node that is missing before one of some tokens. -/
def unless_ (ends : List Token) (node : Read Node) : Read Node := do
  if ends.contains (← peek) then pure nothing else node

private def takeAnchor? : Read (Option String) := do
  match ← peek with
  | .anchor n =>
    drop
    pure (some n)
  | _ => pure none

private def takeTag? : Read (Option (Option String × String)) := do
  match ← peek with
  | .tag scope suffix =>
    drop
    pure (some (scope, suffix))
  | _ => pure none

private def fullTag : Option (Option String × String) → Read (Option String)
  | none => pure none
  | some (none, suffix) => pure (some suffix)
  | some (some scope, suffix) => do
    match (← get).scopes.find? (·.1 == scope) with
    | some (_, replacement) => pure (some (replacement ++ suffix))
    | none => refuse

private def name (anchor : Option String) (n : Node) : Read Unit :=
  match anchor with
  | none => pure ()
  | some a => modify fun s => { s with names := (a, n) :: s.names.filter (·.1 != a) }

private def checkAnchor : Option String → Read Unit
  | none => pure ()
  | some a => do
    if (← get).names.any (·.1 == a) then refuse else pure ()

mutual

/-- A node; outside brackets collections may be marked by indentation, and the value
of a mapping may be a sequence that is not indented more than the mapping. -/
def node (block flush : Bool) : Nat → Read Node
  | 0 => refuse
  | fuel + 1 => do
    match ← peek with
    | .alias a =>
      drop
      match (← get).names.find? (·.1 == a) with
      | some (_, n) => pure n
      | none => refuse
    | _ =>
      let a ← takeAnchor?
      let t ← takeTag?
      let a ← if a.isNone then takeAnchor? else pure a
      let t ← fullTag t
      checkAnchor a
      let given := match t with
        | some "!" => none
        | t => t
      let sequence (items : Read (List Node)) : Read Node := do
        let tag := given.getD (coreTag "seq")
        name a (.sequence tag [])
        let n := Node.sequence tag (← items)
        name a n
        pure n
      let mapping (entries : Read (List (Node × Node))) : Read Node := do
        let tag := given.getD (coreTag "map")
        name a (.mapping tag [])
        let n := Node.mapping tag (← entries)
        name a n
        pure n
      let scalar (text : String) (byForm : Bool) : Read Node := do
        let tag := given.getD (if byForm then tagOf text else coreTag "str")
        let n := Node.scalar tag text
        name a n
        pure n
      match ← peek with
      | .scalar text plain =>
        drop
        scalar text (plain || t.isSome)
      | .flowSequence =>
        drop
        sequence (flowItems true fuel)
      | .flowMapping =>
        drop
        mapping (flowEntries true fuel)
      | .blockEntry =>
        if flush then sequence (flushItems fuel)
        else if a.isSome || t.isSome then scalar "" true
        else refuse
      | .blockSequence =>
        if block then
          drop
          sequence (blockItems fuel)
        else if a.isSome || t.isSome then scalar "" true
        else refuse
      | .blockMapping =>
        if block then
          drop
          mapping (blockEntries fuel)
        else if a.isSome || t.isSome then scalar "" true
        else refuse
      | _ => if a.isSome || t.isSome then scalar "" true else refuse

/-- The items of an indented sequence. -/
def blockItems : Nat → Read (List Node)
  | 0 => refuse
  | fuel + 1 => do
    if ← take? .blockEntry then
      let n ← unless_ [.blockEntry, .blockEnd] (node true false fuel)
      let more ← blockItems fuel
      pure (n :: more)
    else if ← take? .blockEnd then pure []
    else refuse

/-- The items of a sequence that is not indented. -/
def flushItems : Nat → Read (List Node)
  | 0 => refuse
  | fuel + 1 => do
    if ← take? .blockEntry then
      let n ← unless_ [.blockEntry, .key, .value, .blockEnd] (node true false fuel)
      let more ← flushItems fuel
      pure (n :: more)
    else pure []

/-- The entries of an indented mapping. -/
def blockEntries : Nat → Read (List (Node × Node))
  | 0 => refuse
  | fuel + 1 => do
    if ← take? .key then
      let k ← unless_ [.key, .value, .blockEnd] (node true true fuel)
      let v ← if ← take? .value then unless_ [.key, .value, .blockEnd] (node true true fuel)
        else pure nothing
      let more ← blockEntries fuel
      pure ((k, v) :: more)
    else if ← take? .blockEnd then pure []
    else refuse

/-- The items of a sequence in brackets; a key makes an item a mapping of one entry. -/
def flowItems (first : Bool) : Nat → Read (List Node)
  | 0 => refuse
  | fuel + 1 => do
    if ← take? .flowSequenceEnd then pure []
    else
      if !first then
        if !(← take? .flowEntry) then refuse
      if ← take? .key then
        let k ← unless_ [.value, .flowEntry, .flowSequenceEnd] (node false false fuel)
        let v ← if ← take? .value then unless_ [.flowEntry, .flowSequenceEnd] (node false false fuel)
          else pure nothing
        let more ← flowItems false fuel
        pure (.mapping (coreTag "map") [(k, v)] :: more)
      else if ← take? .flowSequenceEnd then pure []
      else
        let n ← node false false fuel
        let more ← flowItems false fuel
        pure (n :: more)

/-- The entries of a mapping in brackets. -/
def flowEntries (first : Bool) : Nat → Read (List (Node × Node))
  | 0 => refuse
  | fuel + 1 => do
    if ← take? .flowMappingEnd then pure []
    else
      if !first then
        if !(← take? .flowEntry) then refuse
      if ← take? .key then
        let k ← unless_ [.value, .flowEntry, .flowMappingEnd] (node false false fuel)
        let v ← if ← take? .value then unless_ [.flowEntry, .flowMappingEnd] (node false false fuel)
          else pure nothing
        let more ← flowEntries false fuel
        pure ((k, v) :: more)
      else if ← take? .flowMappingEnd then pure []
      else
        let k ← node false false fuel
        let more ← flowEntries false fuel
        pure ((k, nothing) :: more)

end

/-- Takes the ends of documents. -/
def dropEnds : Nat → Read Unit
  | 0 => pure ()
  | fuel + 1 => do
    if ← take? .documentEnd then dropEnds fuel else pure ()

private def usualScopes : List (String × String) :=
  [("!", "!"), ("!!", "tag:yaml.org,2002:")]

/-- Takes the directives before a document; says what the scopes of tags stand for. -/
def directives (versioned : Bool) (scopes : List (String × String)) :
    Nat → Read (List (String × String))
  | 0 => refuse
  | fuel + 1 => do
    match ← peek with
    | .version major =>
      if versioned || major != 1 then refuse
      else
        drop
        directives true scopes fuel
    | .tagScope scope replacement =>
      if scopes.any (·.1 == scope) then refuse
      else
        drop
        directives versioned (scopes ++ [(scope, replacement)]) fuel
    | .reserved =>
      drop
      directives versioned scopes fuel
    | _ => pure (scopes ++ usualScopes.filter fun (k, _) => !scopes.any (·.1 == k))

/-- The only document of a text, if there is one. -/
def document (fuel : Nat) : Read (Option Node) := do
  let isMarked (t : Token) : Bool :=
    match t with
    | .version _ => true
    | .tagScope _ _ => true
    | .reserved => true
    | .documentStart => true
    | _ => false
  let marked := isMarked (← peek)
  if (← peek) == .streamEnd then pure none
  else
    let atEnd ← if marked then do
        let scopes ← directives false [] fuel
        modify fun s => { s with scopes := scopes }
        if !(← take? .documentStart) then refuse
        let t ← peek
        pure (isMarked t || t == .documentEnd || t == .streamEnd)
      else pure false
    let n ← if atEnd then pure nothing else node true false fuel
    dropEnds fuel
    if (← peek) == .streamEnd then pure (some n) else refuse

end Read

/-- The only document of a text, if there is one. -/
def readNode (text : String) : Except Refused (Option Node) :=
  let (ts, stop) := tokens text
  let fuel := 4 * ts.length + 8
  match (Read.document fuel).run ⟨ts, stop.getD .malformed, [], Read.usualScopes⟩ with
  | .ok (n, _) => .ok n
  | .error e => .error e

end RepairLoop.Yaml
