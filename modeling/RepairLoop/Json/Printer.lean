import RepairLoop.Json.Basic
import RepairLoop.Number.Decimal
import RepairLoop.Text.Quoted
/-!
# JSON printing

A style says what stands between items, between a key and its value, whether items go
on indented lines of their own, and whether the text is in ASCII: then every character
beyond it is written as one or two units of four hexadecimal digits. A number keeps its
kind, so a double always has a fraction or an exponent.
-/

namespace RepairLoop.Json

/-- What stands between the parts of a list or object. -/
structure Style where
  item : String
  key : String
  indent : Option Nat
  sorted : Bool
  ascii : Bool

/-- One line, with a blank after each comma and colon. -/
def Style.spaced : Style := ⟨", ", ": ", none, false, true⟩

/-- One line without blanks. -/
def Style.compact : Style := ⟨",", ":", none, false, true⟩

/-- One line without blanks, in which only control characters are escaped. -/
def Style.plain : Style := ⟨",", ":", none, false, false⟩

/-- Two blanks of indentation per level, and keys in order. -/
def Style.indented : Style := ⟨",", ": ", some 2, true, true⟩

/-- One UTF-16 unit as an escape. -/
def unitEscape (n : Nat) : List Char :=
  '\\' :: 'u' :: Text.hexDigits 4 n

/-- One character of a text, which is in ASCII or not. -/
def escaped (ascii : Bool) (c : Char) : List Char :=
  let n := c.toNat
  if c == '"' then ['\\', '"']
  else if c == '\\' then ['\\', '\\']
  else if c == '\n' then ['\\', 'n']
  else if c == '\r' then ['\\', 'r']
  else if c == '\t' then ['\\', 't']
  else if n == 8 then ['\\', 'b']
  else if n == 12 then ['\\', 'f']
  else if 32 ≤ n && (n < 127 || !ascii) then [c]
  else if n < 0x10000 then unitEscape n
  else
    let m := n - 0x10000
    unitEscape (0xd800 + m / 0x400) ++ unitEscape (0xdc00 + m % 0x400)

/-- A text between double quotes. -/
def quotedText (style : Style) (s : String) : String :=
  "\"" ++ String.ofList (s.toList.flatMap (escaped style.ascii)) ++ "\""

/-- A double; the values that are no numbers have names. -/
def floatText (x : Float) : String :=
  match Number.decode x with
  | .notANumber => "NaN"
  | .infinite true => "-Infinity"
  | .infinite false => "Infinity"
  | _ => Number.text x

/-- Members in the order in which the style prints them. -/
def Style.order (style : Style) (ms : List (String × String)) : List (String × String) :=
  if style.sorted then ms.mergeSort (fun a b => a.1 ≤ b.1) else ms

/-- The start of a line, if the style indents. -/
def newline (indent : Option Nat) (depth : Nat) : String :=
  match indent with
  | none => ""
  | some n => "\n" ++ "".pushn ' ' (n * depth)

/-- Parts between brackets, each on its own line if the style indents. -/
def enclosed (style : Style) (depth : Nat) (left right : String) (parts : List String) : String :=
  if parts.isEmpty then left ++ right
  else
    left ++ newline style.indent (depth + 1) ++
      (style.item ++ newline style.indent (depth + 1)).intercalate parts ++
      newline style.indent depth ++ right

mutual

/-- The text of a value that stands `depth` levels deep. -/
def renderAt (style : Style) (depth : Nat) : Json → String
  | .null => "null"
  | .bool true => "true"
  | .bool false => "false"
  | .int n => toString n
  | .float x => floatText x
  | .text s => quotedText style s
  | .list items => enclosed style depth "[" "]" (renderItems style (depth + 1) items)
  | .object ms =>
    enclosed style depth "\x7b" "\x7d"
      ((style.order (renderMembers style (depth + 1) ms)).map
        fun (k, v) => quotedText style k ++ style.key ++ v)

/-- The texts of the items of a list. -/
def renderItems (style : Style) (depth : Nat) : List Json → List String
  | [] => []
  | j :: rest => renderAt style depth j :: renderItems style depth rest

/-- The keys of an object with the texts of their values. -/
def renderMembers (style : Style) (depth : Nat) : List (String × Json) → List (String × String)
  | [] => []
  | (k, j) :: rest => (k, renderAt style depth j) :: renderMembers style depth rest

end

/-- The text of a value. -/
def render (style : Style) (j : Json) : String :=
  renderAt style 0 j

end RepairLoop.Json
