import RepairLoop.Json.Parser
import RepairLoop.Schema.Scalar
import RepairLoop.Text.Case
import RepairLoop.Text.Character
import RepairLoop.Text.Quoted
import RepairLoop.Yaml.Node
/-!
# Data of YAML documents

The values that the nodes of a document stand for by their tags. A mapping may take
entries from others under a key for merging; its own entries come after those and win.
-/

namespace RepairLoop.Yaml

private def refuseValue {α : Type} (what : Mishap) (message : String) : Except Refused α :=
  .error (.value what message)

private def outOfRange {α : Type} : Except Refused α :=
  refuseValue .badIndex "string index out of range"

/-! ## Numbers -/

private def digitIn? (base : Nat) (c : Char) : Option Nat :=
  let n :=
    match Text.decimalValue? c with
    | some d => some d
    | none =>
      let l := c.toLower
      if 'a' ≤ l && l ≤ 'z' then some (l.toNat - 87) else none
  n.bind fun d => if d < base then some d else none

private def numberIn? (base : Nat) (cs : List Char) : Option Nat :=
  if cs.isEmpty then none else cs.foldlM (fun n c => (digitIn? base c).map (n * base + ·)) 0

private def baseLetter? (base : Nat) : Option Char :=
  if base == 2 then some 'b' else if base == 8 then some 'o' else if base == 16 then some 'x'
  else none

/-- Reads an integer in a base, with blanks around it and a sign. -/
def readInt (base : Nat) (cs : List Char) : Except Refused Int :=
  let body := Text.trim cs
  let (sign, ds) : Int × List Char := match body with
    | '-' :: rest => (-1, rest)
    | '+' :: rest => (1, rest)
    | cs => (1, cs)
  let ds := match ds, baseLetter? base with
    | '0' :: l :: rest, some b => if l.toLower == b then rest else ds
    | _, _ => ds
  if base == 10 && ds.length > Json.maxDigits && (numberIn? base ds).isSome then
    refuseValue .badValue (Json.tooManyDigitsMessage ds.length)
  else
    match numberIn? base ds with
    | some n => .ok (sign * Int.ofNat n)
    | none =>
      refuseValue .badValue
        (s!"invalid literal for int() with base {base}: " ++ Text.quoted (String.ofList cs))

private def parts (cs : List Char) : List (List Char) :=
  ((String.ofList cs).splitOn ":").map String.toList

private def splitSign (cs : List Char) : Bool × List Char :=
  match cs with
  | '-' :: rest => (true, rest)
  | '+' :: rest => (false, rest)
  | cs => (false, cs)

/-- The integer that a text stands for: binary, octal, hexadecimal, decimal, or in
parts of sixty. -/
def intOf (text : String) : Except Refused Int := do
  let cs := text.toList.filter (· != '_')
  if cs.isEmpty then outOfRange
  else
    let (negative, ds) := splitSign cs
    let sign : Int := if negative then -1 else 1
    let n ← match ds with
      | [] => outOfRange
      | ['0'] => Except.ok 0
      | '0' :: 'b' :: rest => readInt 2 rest
      | '0' :: 'x' :: rest => readInt 16 rest
      | '0' :: _ => readInt 8 ds
      | _ =>
        if ds.contains ':' then do
          let ns ← (parts ds).mapM (readInt 10)
          Except.ok (ns.foldl (fun acc n => acc * 60 + n) 0)
        else readInt 10 ds
    .ok (sign * n)

private def readFloat (cs : List Char) : Except Refused Float :=
  match Schema.writtenFloat? (String.ofList cs) with
  | some x => .ok x
  | none =>
    refuseValue .badValue
      ("could not convert string to float: " ++ Text.quoted (String.ofList cs))

/-- The double that a text stands for. -/
def floatOf (text : String) : Except Refused Float := do
  let cs := (Text.lowerCase (String.ofList (text.toList.filter (· != '_')))).toList
  if cs.isEmpty then outOfRange
  else
    let (negative, ds) := splitSign cs
    let sign : Float := if negative then -1.0 else 1.0
    if ds == ".inf".toList then .ok (sign * (1.0 / 0.0))
    else if ds == ".nan".toList then .ok (0.0 / 0.0)
    else if ds.contains ':' then
      let xs ← (parts ds).mapM readFloat
      let (x, _) := xs.reverse.foldl
        (fun (acc : Float × Nat) d => (acc.1 + d * Number.ofInt acc.2, acc.2 * 60)) (0.0, 1)
      .ok (sign * x)
    else
      let x ← readFloat ds
      .ok (sign * x)

private def boolOf (text : String) : Except Refused Bool :=
  let l := Text.lowerCase text
  if ["yes", "true", "on"].contains l then .ok true
  else if ["no", "false", "off"].contains l then .ok false
  else refuseValue .missingKey (Text.quoted l)

/-! ## Moments -/

private def durationText (seconds : Int) : String :=
  let days := seconds.fdiv 86400
  let rest := seconds.fmod 86400
  let inner :=
    if days != 0 && rest != 0 then s!"days={days}, seconds={rest}"
    else if days != 0 then s!"days={days}"
    else if rest != 0 then s!"seconds={rest}"
    else "0"
  "datetime.timedelta(" ++ inner ++ ")"

private def checkedDate (s : Stamp) : Except Refused Date :=
  if s.year == 0 then refuseValue .badValue s!"year {s.year} is out of range"
  else if s.month == 0 || 12 < s.month then refuseValue .badValue "month must be in 1..12"
  else if s.day == 0 || monthLength s.year s.month < s.day then
    refuseValue .badValue "day is out of range for month"
  else .ok ⟨s.year, s.month, s.day⟩

private def fractionMicros (cs : List Char) : Nat :=
  let ds := cs.take 6
  (ds ++ List.replicate (6 - ds.length) '0').foldl (fun n c => n * 10 + (c.toNat - 48)) 0

/-- The date or moment that a text stands for. -/
def momentOf (text : String) : Except Refused Datum := do
  match stamp? text.toList with
  | none => refuseValue .missingAttribute "'NoneType' object has no attribute 'groupdict'"
  | some s =>
    match s.clock with
    | none =>
      let d ← checkedDate s
      .ok (.date d)
    | some (h, m, sec) =>
      let offset ← match s.offset with
        | none => Except.ok none
        | some (sign, oh, om) =>
          let total := sign * (Int.ofNat oh * 3600 + Int.ofNat om * 60)
          if total.natAbs < 86400 then Except.ok (some (total * Moment.second))
          else
            refuseValue .badValue
              ("offset must be a timedelta strictly between -timedelta(hours=24) and " ++
                "timedelta(hours=24), not " ++ durationText total)
      let d ← checkedDate s
      if 23 < h then refuseValue .badValue "hour must be in 0..23"
      else if 59 < m then refuseValue .badValue "minute must be in 0..59"
      else if 59 < sec then refuseValue .badValue "second must be in 0..59"
      else .ok (.moment (Moment.ofDate d (h * 3600 + m * 60 + sec) (fractionMicros s.fraction) offset))

/-! ## Bytes -/

private def sextet? (c : Char) : Option Nat :=
  if c.isUpper then some (c.toNat - 65)
  else if c.isLower then some (c.toNat - 71)
  else if c.isDigit then some (c.toNat + 4)
  else if c == '+' then some 62
  else if c == '/' then some 63
  else none

/-- The bytes of a text in base 64; characters outside the alphabet are passed over.
`held` is what is left of the last character, `place` its position in its group of
four, `pads` the number of signs for padding since. -/
def bytesFrom (held place pads : Nat) : List Char → Option (List UInt8)
  | [] => if place == 0 then some [] else none
  | '=' :: rest =>
    if 2 ≤ place && 4 ≤ place + pads + 1 then some [] else
      bytesFrom held place (if 2 ≤ place then pads + 1 else pads) rest
  | c :: rest =>
    match sextet? c with
    | none => bytesFrom held place pads rest
    | some n =>
      match place with
      | 0 => bytesFrom n 1 0 rest
      | 1 => (bytesFrom (n % 16) 2 0 rest).map ((held * 4 + n / 16).toUInt8 :: ·)
      | 2 => (bytesFrom (n % 4) 3 0 rest).map ((held * 16 + n / 4).toUInt8 :: ·)
      | _ => (bytesFrom 0 0 0 rest).map ((held * 64 + n).toUInt8 :: ·)

private def bytesOf (text : String) : Except Refused (List UInt8) :=
  if text.toList.any fun c => 127 < c.toNat then malformed
  else
    match bytesFrom 0 0 0 text.toList with
    | some bs => .ok bs
    | none => malformed

/-! ## Mappings -/

private def isMerge : Node → Bool
  | .scalar tag _ => tag == coreTag "merge"
  | .sequence tag _ => tag == coreTag "merge"
  | .mapping tag _ => tag == coreTag "merge"

/-- The key `=` is a text as a key. -/
private def keyNode : Node → Node
  | .scalar tag text => .scalar (if tag == coreTag "value" then coreTag "str" else tag) text
  | n => n

mutual

/-- The entries of a mapping with those that it takes from others in front. -/
def mergedEntries : Nat → List (Node × Node) → Except Refused (List (Node × Node))
  | 0, _ => malformed
  | fuel + 1, es => do
    let taken ← mergedFrom fuel es
    .ok (taken ++ (es.filter fun (k, _) => !isMerge k).map fun (k, v) => (keyNode k, v))

/-- The entries that the keys for merging bring. -/
def mergedFrom : Nat → List (Node × Node) → Except Refused (List (Node × Node))
  | 0, _ => malformed
  | _ + 1, [] => .ok []
  | fuel + 1, (k, v) :: rest => do
    let here ← if isMerge k then mergedOf fuel v else Except.ok []
    let more ← mergedFrom fuel rest
    .ok (here ++ more)

/-- The entries of a value under a key for merging. -/
def mergedOf : Nat → Node → Except Refused (List (Node × Node))
  | 0, _ => malformed
  | fuel + 1, .mapping _ es => mergedEntries fuel es
  | fuel + 1, .sequence _ items => do
    let lists ← items.mapM fun
      | .mapping _ es => mergedEntries fuel es
      | _ => malformed
    .ok lists.reverse.flatten
  | _ + 1, .scalar _ _ => malformed

end

/-- What a key of a mapping is found by. Numbers are the same key if their values are, and moments
if they are the same instant and both or neither have an offset. -/
inductive Key where
  | null
  | text (s : String)
  | bytes (bs : List UInt8)
  | date (d : Date)
  | moment (hasOffset : Bool) (instant : Int)
  | number (value : Rat)
  | infinite (negative : Bool)
  deriving DecidableEq

/-- What a value is found by as a key. What is not a number is never found again, and collections
are no keys. -/
def keyOf? : Datum → Option Key
  | .null => some .null
  | .bool b => some (.number (if b then 1 else 0))
  | .int n => some (.number n)
  | .float x =>
    match Number.decode x with
    | .infinite negative => some (.infinite negative)
    | _ => (Number.valueOf? x).map .number
  | .text s => some (.text s)
  | .bytes bs => some (.bytes bs)
  | .date d => some (.date d)
  | .moment m => some (.moment m.offset.isSome m.instant)
  | .list _ => none
  | .set _ => none
  | .map _ => none

/-- Two values are the same key. -/
def sameKey (a b : Datum) : Bool := (keyOf? a).isSome && keyOf? a == keyOf? b

private def isHashable : Datum → Bool
  | .list _ => false
  | .set _ => false
  | .map _ => false
  | _ => true

/-- The value under a key of a mapping. -/
def lookup? (k : Datum) : List (Datum × Datum) → Option Datum
  | [] => none
  | (l, w) :: rest => if sameKey l k then some w else lookup? k rest

/-- Sets a key of a mapping: in place if it is there, else at the end. -/
def putEntry (k v : Datum) : List (Datum × Datum) → List (Datum × Datum)
  | [] => [(k, v)]
  | (l, w) :: rest => if sameKey l k then (l, v) :: rest else (l, w) :: putEntry k v rest

/-- The text of a scalar; a mapping stands for the scalar under its key `=`. -/
def scalarText : Node → Except Refused String
  | .scalar _ text => .ok text
  | .mapping _ es =>
    match es.find? fun (k, _) =>
      match k with
      | .scalar tag _ => tag == coreTag "value"
      | _ => false with
    | some (_, .scalar _ text) => .ok text
    | _ => malformed
  | .sequence _ _ => malformed

/-- The tag of a node. -/
def Node.tag : Node → String
  | .scalar tag _ => tag
  | .sequence tag _ => tag
  | .mapping tag _ => tag

mutual

/-- The value that a node stands for. -/
def datumOf : Nat → Node → Except Refused Datum
  | 0, _ => malformed
  | fuel + 1, n => do
    let tag := n.tag
    if tag == coreTag "null" then
      let _ ← scalarText n
      .ok .null
    else if tag == coreTag "bool" then
      let s ← scalarText n
      let b ← boolOf s
      .ok (.bool b)
    else if tag == coreTag "int" then
      let s ← scalarText n
      let i ← intOf s
      .ok (.int i)
    else if tag == coreTag "float" then
      let s ← scalarText n
      let x ← floatOf s
      .ok (.float x)
    else if tag == coreTag "binary" then
      let s ← scalarText n
      let bs ← bytesOf s
      .ok (.bytes bs)
    else if tag == coreTag "timestamp" then
      match n with
      | .scalar _ s => momentOf s
      | n => do
        let _ ← scalarText n
        malformed
    else if tag == coreTag "str" then
      let s ← scalarText n
      .ok (.text s)
    else if tag == coreTag "seq" then
      match n with
      | .sequence _ items => do
        let ds ← dataOf fuel items
        .ok (.list ds)
      | _ => malformed
    else if tag == coreTag "map" then
      match n with
      | .mapping _ es => do
        let es ← mergedEntries fuel es
        let es ← entriesOf fuel es
        .ok (.map (es.foldl (fun acc (k, v) => putEntry k v acc) []))
      | _ => malformed
    else if tag == coreTag "set" then
      match n with
      | .mapping _ es => do
        let es ← mergedEntries fuel es
        let es ← entriesOf fuel es
        .ok (.set ((es.foldl (fun acc (k, v) => putEntry k v acc) []).map Prod.fst))
      | _ => malformed
    else if tag == coreTag "omap" || tag == coreTag "pairs" then
      match n with
      | .sequence _ items => do
        let ds ← pairsOf fuel items
        .ok (.list ds)
      | _ => malformed
    else malformed

/-- The values of some nodes. -/
def dataOf : Nat → List Node → Except Refused (List Datum)
  | 0, _ => malformed
  | _ + 1, [] => .ok []
  | fuel + 1, n :: ns => do
    let d ← datumOf fuel n
    let ds ← dataOf fuel ns
    .ok (d :: ds)

/-- The values of the entries of a mapping. -/
def entriesOf : Nat → List (Node × Node) → Except Refused (List (Datum × Datum))
  | 0, _ => malformed
  | _ + 1, [] => .ok []
  | fuel + 1, (k, v) :: es => do
    let dk ← datumOf fuel k
    if !isHashable dk then malformed
    else
      let dv ← datumOf fuel v
      let more ← entriesOf fuel es
      .ok ((dk, dv) :: more)

/-- Mappings of one entry each, as pairs. -/
def pairsOf : Nat → List Node → Except Refused (List Datum)
  | 0, _ => malformed
  | _ + 1, [] => .ok []
  | fuel + 1, .mapping _ [(k, v)] :: ns => do
    let dk ← datumOf fuel k
    let dv ← datumOf fuel v
    let more ← pairsOf fuel ns
    .ok (.list [dk, dv] :: more)
  | _ + 1, _ => malformed

end

mutual

/-- The number of nodes of a tree. -/
def Node.size : Node → Nat
  | .scalar _ _ => 1
  | .sequence _ items => 1 + sizeOfItems items
  | .mapping _ es => 1 + sizeOfEntries es

/-- The number of nodes of some trees. -/
def sizeOfItems : List Node → Nat
  | [] => 1
  | n :: ns => n.size + sizeOfItems ns

/-- The number of nodes of some entries. -/
def sizeOfEntries : List (Node × Node) → Nat
  | [] => 1
  | (k, v) :: es => k.size + v.size + sizeOfEntries es

end

/-- The value of the only document of a text; null where there is none. -/
def load (text : String) : Except Refused Datum := do
  match ← readNode text with
  | none => .ok .null
  | some n => datumOf (4 * n.size + 8) n

end RepairLoop.Yaml
