import RepairLoop.Fault
import RepairLoop.Number.Nearest
import RepairLoop.Text.Character
import RepairLoop.Text.Quoted
/-!
# Templates and layouts

Texts with fields in braces, and how the value of a field is laid out.
-/

/-!
## Layouts

How a text is laid out: cut to a length, and filled up to a width with a character on
one side or on both. A layout is written as a short text, such as `*>12.5s`; what only
numbers can have is refused.
-/

namespace RepairLoop.Text

/-- Where a text stands in a wider field. -/
inductive Side where
  | left
  | right
  | middle
  | behindSign
  deriving DecidableEq, Inhabited

/-- How a text is laid out. -/
structure Layout where
  fill : Char
  side : Side
  width : Option Nat
  precision : Option Nat
  deriving DecidableEq, Inhabited

/-- Why a text is no layout of texts. -/
inductive LayoutFault where
  | tooManyDigits
  | bothSeparators
  | separator (c : Char) (type : Char)
  | missingPrecision
  | malformed (layout : String)
  | unknownType (type : Char)
  | space
  | sign
  | negativeZero
  | alternate
  | behindSign
  deriving DecidableEq, Inhabited

namespace LayoutFault

/-- A character in a message: itself, or its number where it is not of visible ASCII. -/
def shown (c : Char) : String :=
  if 32 < c.toNat && c.toNat < 128 then String.singleton c
  else "\\x" ++ String.ofList (Nat.toDigits 16 c.toNat)

/-- What is said of a text that is no layout of texts. -/
def message : LayoutFault → String
  | tooManyDigits => "Too many decimal digits in format string"
  | bothSeparators => "Cannot specify both ',' and '_'."
  | separator c type => s!"Cannot specify '{c}' with '{shown type}'."
  | missingPrecision => "Format specifier missing precision"
  | malformed layout => s!"Invalid format specifier '{layout}' for object of type 'str'"
  | unknownType type => s!"Unknown format code '{shown type}' for object of type 'str'"
  | space => "Space not allowed in string format specifier"
  | sign => "Sign not allowed in string format specifier"
  | negativeZero => "Negative zero coercion (z) not allowed in string format specifier"
  | alternate => "Alternate form (#) not allowed in string format specifier"
  | behindSign => "'=' alignment not allowed in string format specifier"

end LayoutFault

namespace Layout

/-- The side that a character stands for. -/
def sideOf? : Char → Option Side
  | '<' => some .left
  | '>' => some .right
  | '^' => some .middle
  | '=' => some .behindSign
  | _ => none

/-- The fill and the side at the start of a layout, and the rest. -/
def opening (cs : List Char) : Option Char × Option Side × List Char :=
  match cs with
  | [] => (none, none, [])
  | c :: rest =>
    match rest.head?.bind sideOf? with
    | some side => (some c, some side, rest.tail)
    | none =>
      match sideOf? c with
      | some side => (none, some side, rest)
      | none => (none, none, cs)

/-- A text without its first character, if that is one of some; and the character. -/
def optionally (chars : List Char) : List Char → Option Char × List Char
  | [] => (none, [])
  | c :: rest => if chars.contains c then (some c, rest) else (none, c :: rest)

/-- The greatest number in a layout. -/
def greatest : Nat := Number.twoTo 63 - 1

/-- The number at the start of a text, if there is one, and the rest. -/
def number (cs : List Char) : Except LayoutFault (Option Nat × List Char) :=
  let n := decimalNumber? (cs.takeWhile isDecimalDigit)
  if n.any (greatest < ·) then .error .tooManyDigits
  else .ok (n, cs.dropWhile isDecimalDigit)

/-- The separator of thousands at the start of a text, if there is one, and the rest. -/
def separator (cs : List Char) : Except LayoutFault (Option Char × List Char) :=
  let (comma, cs) := optionally [','] cs
  let (underscore, cs) := optionally ['_'] cs
  if underscore.isSome && (comma.isSome || cs.head? == some ',') then .error .bothSeparators
  else .ok (comma.or underscore, cs)

/-- The types that go with a separator of thousands. -/
def goesWith (c type : Char) : Bool :=
  ['d', 'e', 'f', 'g', 'E', 'G', '%', 'F'].contains type ||
    (c == '_' && ['b', 'o', 'x', 'X'].contains type)

/-- Reads a layout of texts. -/
def read (cs : List Char) : Except LayoutFault Layout := do
  let (fill, side, rest) := opening cs
  let (sign, rest) := optionally [' ', '-', '+'] rest
  let (negativeZero, rest) := optionally ['z'] rest
  let (alternate, rest) := optionally ['#'] rest
  let (zero, rest) := if fill.isSome then (none, rest) else optionally ['0'] rest
  let (width, rest) ← number rest
  let (thousands, rest) ← separator rest
  let (point, rest) := optionally ['.'] rest
  let (precision, rest) ← if point.isSome then number rest else .ok (none, rest)
  if point.isSome && precision.isNone then .error .missingPrecision
  let type ← match rest with
    | [] => .ok 's'
    | [c] => .ok c
    | _ => .error (.malformed (String.ofList cs))
  match thousands with
  | some c => if goesWith c type then .ok () else .error (.separator c type)
  | none => .ok ()
  if type != 's' then .error (.unknownType type)
  if sign == some ' ' then .error .space
  if sign.isSome then .error .sign
  if negativeZero.isSome then .error .negativeZero
  if alternate.isSome then .error .alternate
  if side == some .behindSign then .error .behindSign
  .ok ⟨(fill.or zero).getD ' ', side.getD .left, width, precision⟩

/-- Lays a text out. -/
def apply (l : Layout) (cs : List Char) : List Char :=
  let cs := match l.precision with
    | some n => cs.take n
    | none => cs
  let missing := (l.width.getD 0) - cs.length
  let before := match l.side with
    | .left => 0
    | .middle => missing / 2
    | _ => missing
  List.replicate before l.fill ++ cs ++ List.replicate (missing - before) l.fill

end Layout

end RepairLoop.Text

/-!
## Templates

A template is a text with fields in braces. A field names a value, may want it quoted,
and may give it a layout, in which there may be fields again. A brace that is meant as
such is written twice.
-/

namespace RepairLoop.Text

/-- Why a template cannot be filled. -/
inductive TemplateFault where
  | loneClosing
  | loneOpening
  | openingInName
  | noConversion
  | conversionTail
  | openLayout
  | openField
  | tooDeep
  | noPosition (n : Nat)
  | tooManyDigits
  | unknown (name : String)
  | behindBracket
  | emptyPart
  | openBracket
  | noCharacter
  | noNumber
  | noPart (name : String)
  | conversion (c : Char)
  | layout (f : LayoutFault)
  deriving DecidableEq, Inhabited

namespace TemplateFault

/-- What is said of a template that cannot be filled. -/
def message : TemplateFault → String
  | loneClosing => "Single '\x7d' encountered in format string"
  | loneOpening => "Single '\x7b' encountered in format string"
  | openingInName => "unexpected '\x7b' in field name"
  | noConversion => "end of string while looking for conversion specifier"
  | conversionTail => "expected ':' after conversion specifier"
  | openLayout => "unmatched '\x7b' in format spec"
  | openField => "expected '\x7d' before end of string"
  | tooDeep => "Max string recursion exceeded"
  | noPosition n => s!"Replacement index {n} out of range for positional args tuple"
  | tooManyDigits => LayoutFault.tooManyDigits.message
  | unknown name => quoted name
  | behindBracket => "Only '.' or '[' may follow ']' in format field specifier"
  | emptyPart => "Empty attribute in format string"
  | openBracket => "Missing ']' in format string"
  | noCharacter => "string index out of range"
  | noNumber => "string indices must be integers, not 'str'"
  | noPart name => s!"'str' object has no attribute '{name}'"
  | conversion c =>
    "Unknown conversion specifier " ++ LayoutFault.shown c
  | layout f => f.message

/-- The fault that stops an operation. -/
def toFault (f : TemplateFault) : Fault :=
  .mishap (match f with
    | noPosition _ | noCharacter => .badIndex
    | unknown _ => .missingKey
    | noNumber => .badType
    | noPart _ => .missingAttribute
    | _ => .badValue) f.message

end TemplateFault

namespace Template

/-- A field: the name of its value, how the value is quoted, and its layout. -/
structure Field where
  name : List Char
  conversion : Option Char
  layout : List Char
  deriving DecidableEq, Inhabited

/-! ### Reading -/

/-- A text up to the next brace, the brace, and the rest. -/
def untilBrace : List Char → List Char × Option (Char × List Char)
  | [] => ([], none)
  | c :: rest =>
    if c == '\x7b' || c == '\x7d' then ([], some (c, rest))
    else
      let (before, after) := untilBrace rest
      (c :: before, after)

/-- The name at the start of a field, the character that ended it, and the rest; within
brackets nothing ends it. -/
def nameOf (bracket : Bool) : List Char → Except TemplateFault (List Char × Char × List Char)
  | [] => .error .openField
  | c :: rest =>
    if !bracket && c == '\x7b' then .error .openingInName
    else if !bracket && (c == '\x7d' || c == ':' || c == '!') then .ok ([], c, rest)
    else do
      let inside := if bracket then c != ']' else c == '['
      let (name, stop, after) ← nameOf inside rest
      .ok (c :: name, stop, after)

/-- A layout up to the brace that closes its field, and the rest; `depth` braces are
open in it. -/
def layoutOf (depth : Nat) : List Char → Except TemplateFault (List Char × List Char)
  | [] => .error .openLayout
  | c :: rest => do
    if c == '\x7d' && depth == 0 then .ok ([], rest)
    else
      let depth := if c == '\x7b' then depth + 1 else if c == '\x7d' then depth - 1 else depth
      let (layout, after) ← layoutOf depth rest
      .ok (c :: layout, after)

/-- The field at the start of a text, and the rest. -/
def fieldOf (cs : List Char) : Except TemplateFault (Field × List Char) := do
  let (name, stop, rest) ← nameOf false cs
  match stop, rest with
  | '\x7d', _ => .ok (⟨name, none, []⟩, rest)
  | '!', [] => .error .noConversion
  | '!', c :: '\x7d' :: rest => .ok (⟨name, some c, []⟩, rest)
  | '!', c :: ':' :: rest =>
    let (layout, rest) ← layoutOf 0 rest
    .ok (⟨name, some c, layout⟩, rest)
  | '!', [_] => .error .openLayout
  | '!', _ => .error .conversionTail
  | _, _ =>
    let (layout, rest) ← layoutOf 0 rest
    .ok (⟨name, none, layout⟩, rest)

/-! ### Values -/

/-- The number that a name is, if it is one. -/
def position? (name : List Char) : Except TemplateFault (Option Nat) :=
  if name.isEmpty || !name.all isDecimalDigit then .ok none
  else
    match decimalNumber? name with
    | some n => if Layout.greatest < n then .error .tooManyDigits else .ok (some n)
    | none => .ok none

/-- The value of a name; there are no values by position. -/
def valueOf (values : List (String × String)) (name : List Char) :
    Except TemplateFault (List Char) := do
  if name.isEmpty then .error (.noPosition 0)
  else
    match ← position? name with
    | some n => .error (.noPosition n)
    | none =>
      let name := String.ofList name
      match values.lookup name with
      | some value => .ok value.toList
      | none => .error (.unknown name)

/-- The part of a value that brackets name: one of its characters. -/
def partAt (value key : List Char) : Except TemplateFault (List Char) := do
  match ← position? key with
  | none => if key.isEmpty then .error .emptyPart else .error .noNumber
  | some n =>
    match value[n]? with
    | some c => .ok [c]
    | none => .error .noCharacter

/-- The part of a value that stands behind its name; `fuel` bounds the parts. -/
def partsOf : Nat → List Char → List Char → Except TemplateFault (List Char)
  | 0, value, _ => .ok value
  | _ + 1, value, [] => .ok value
  | fuel + 1, value, '[' :: rest => do
    match rest.dropWhile (· != ']') with
    | [] => .error .openBracket
    | _ :: more => partsOf fuel (← partAt value (rest.takeWhile (· != ']'))) more
  | _ + 1, _, '.' :: rest =>
    let name := rest.takeWhile fun c => c != '.' && c != '['
    if name.isEmpty then .error .emptyPart else .error (.noPart (String.ofList name))
  | _ + 1, _, _ => .error .behindBracket

/-- The value of a field. -/
def fieldValue (values : List (String × String)) (name : List Char) :
    Except TemplateFault (List Char) := do
  let isFirst (c : Char) : Bool := c != '.' && c != '['
  let value ← valueOf values (name.takeWhile isFirst)
  partsOf name.length value (name.dropWhile isFirst)

/-- A character as an escape if it is not of ASCII. -/
def escaped (c : Char) : List Char :=
  let n := c.toNat
  if n < 0x80 then [c]
  else if n < 0x100 then '\\' :: 'x' :: hexDigits 2 n
  else if n < 0x10000 then '\\' :: 'u' :: hexDigits 4 n
  else '\\' :: 'U' :: hexDigits 8 n

/-- A value as a conversion writes it. -/
def converted (value : List Char) : Option Char → Except TemplateFault (List Char)
  | none => .ok value
  | some 's' => .ok value
  | some 'r' => .ok (quotedChars value)
  | some 'a' => .ok ((quotedChars value).flatMap escaped)
  | some c => .error (.conversion c)

/-- A value in its layout. -/
def laidOut (value layout : List Char) : Except TemplateFault (List Char) :=
  if layout.isEmpty then .ok value
  else (Layout.read layout).map (·.apply value) |>.mapError .layout

/-! ### Filling -/

/-- A template with its fields filled; `expand` fills the fields in layouts, and `fuel`
bounds the fields. -/
def fillWith (expand : List Char → Except TemplateFault (List Char))
    (values : List (String × String)) : Nat → List Char → Except TemplateFault (List Char)
  | 0, _ => .ok []
  | fuel + 1, cs =>
    match untilBrace cs with
    | (before, none) => .ok before
    | (before, some (c, rest)) =>
      match rest with
      | [] => .error (if c == '\x7b' then .loneOpening else .loneClosing)
      | d :: more =>
        if d == c then do
          let after ← fillWith expand values fuel more
          .ok (before ++ c :: after)
        else if c == '\x7d' then .error .loneClosing
        else do
          let (field, more) ← fieldOf rest
          let value ← fieldValue values field.name
          let value ← converted value field.conversion
          let layout ← if field.layout.contains '\x7b' then expand field.layout else .ok field.layout
          let value ← laidOut value layout
          let after ← fillWith expand values fuel more
          .ok (before ++ value ++ after)

/-- A layout with its fields filled. -/
def fillLayout (values : List (String × String)) (cs : List Char) :
    Except TemplateFault (List Char) :=
  fillWith (fun _ => .error .tooDeep) values (cs.length + 1) cs

/-- A template with its fields filled. -/
def fill (template : String) (values : List (String × String)) : Except TemplateFault String :=
  let cs := template.toList
  (fillWith (fillLayout values) values (cs.length + 1) cs).map String.ofList

end Template

end RepairLoop.Text
