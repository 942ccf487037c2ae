import RepairLoop.Json.Basic
import RepairLoop.Number.Nearest
/-!
# JSON reading

Reads a JSON text. Beside the standard's values it takes `NaN`, `Infinity` and
`-Infinity`; a text must not hold a bare control character; of a key that stands
twice the last value counts. An integer of more than 4300 digits is refused with
a failure of its own. Every step hands on what it has not read.
-/

namespace RepairLoop.Json

/-- Why a text is no JSON value. -/
inductive ReadError where
  | malformed
  | tooManyDigits (count : Nat)
  deriving DecidableEq, Inhabited

/-- The most digits an integer may have. -/
def maxDigits : Nat := 4300

/-- What is said of an integer with too many digits. -/
def tooManyDigitsMessage (count : Nat) : String :=
  s!"Exceeds the limit ({maxDigits} digits) for integer string conversion: value has {count} "
    ++ "digits; use sys.set_int_max_str_digits() to increase the limit"

/-- The blanks between the parts of a value. -/
def isSpace (c : Char) : Bool :=
  c == ' ' || c == '\t' || c == '\n' || c == '\r'

/-- The value of a hexadecimal digit. -/
def hexValue? (c : Char) : Option Nat :=
  if c.isDigit then some (c.toNat - 48)
  else if 'a' ≤ c && c ≤ 'f' then some (c.toNat - 87)
  else if 'A' ≤ c && c ≤ 'F' then some (c.toNat - 55)
  else none

/-- Four hexadecimal digits. -/
def unit? : List Char → Option (Nat × List Char)
  | a :: b :: c :: d :: rest => do
    let a ← hexValue? a
    let b ← hexValue? b
    let c ← hexValue? c
    let d ← hexValue? d
    some (a * 4096 + b * 256 + c * 16 + d, rest)
  | _ => none

/-- What a character behind a backslash stands for. -/
def escapeChar? : Char → Option Char
  | '"' => some '"'
  | '\\' => some '\\'
  | '/' => some '/'
  | 'b' => some (Char.ofNat 8)
  | 'f' => some (Char.ofNat 12)
  | 'n' => some '\n'
  | 'r' => some '\r'
  | 't' => some '\t'
  | _ => none

/-- The characters of a text up to its closing quote; `acc` holds those read,
last first. Two units that form a pair are one character. -/
def readText : Nat → List Char → List Char → Option (String × List Char)
  | 0, _, _ => none
  | _ + 1, _, [] => none
  | _ + 1, acc, '"' :: rest => some (String.ofList acc.reverse, rest)
  | fuel + 1, acc, '\\' :: 'u' :: rest => do
    let (n, rest) ← unit? rest
    if 0xd800 ≤ n && n < 0xdc00 then
      match rest with
      | '\\' :: 'u' :: rest' =>
        let (m, rest'') ← unit? rest'
        if 0xdc00 ≤ m && m < 0xe000 then
          readText fuel (Char.ofNat (0x10000 + (n - 0xd800) * 0x400 + (m - 0xdc00)) :: acc) rest''
        else readText fuel (Char.ofNat 0xfffd :: acc) rest
      | _ => readText fuel (Char.ofNat 0xfffd :: acc) rest
    else if 0xdc00 ≤ n && n < 0xe000 then readText fuel (Char.ofNat 0xfffd :: acc) rest
    else readText fuel (Char.ofNat n :: acc) rest
  | fuel + 1, acc, '\\' :: c :: rest => do
    let e ← escapeChar? c
    readText fuel (e :: acc) rest
  | fuel + 1, acc, c :: rest =>
    if c.toNat < 32 || c == '\\' then none else readText fuel (c :: acc) rest

/-- The digits at the start, and what follows them. -/
def digits (cs : List Char) : List Char × List Char :=
  cs.span Char.isDigit

/-- The number that digits write. -/
def natural (ds : List Char) : Nat :=
  ds.foldl (fun n c => 10 * n + (c.toNat - 48)) 0

/-- A fraction: a point with at least one digit after it. -/
def fraction (cs : List Char) : List Char × List Char :=
  match cs with
  | '.' :: rest =>
    match digits rest with
    | ([], _) => ([], cs)
    | (ds, rest) => (ds, rest)
  | _ => ([], cs)

/-- An exponent: a sign may stand before its digits. -/
def exponent? (cs : List Char) : Option (Int × List Char) :=
  match cs with
  | e :: rest =>
    if e == 'e' || e == 'E' then
      let (negative, rest) := match rest with
        | '-' :: r => (true, r)
        | '+' :: r => (false, r)
        | r => (false, r)
      match digits rest with
      | ([], _) => none
      | (ds, rest) =>
        let n : Int := natural ds
        some (if negative then -n else n, rest)
    else none
  | [] => none

/-- A number, the minus sign read already. -/
def readNumber (negative : Bool) (cs : List Char) : Except ReadError (Json × List Char) :=
  let whole := match cs with
    | '0' :: rest => (['0'], rest)
    | _ => digits cs
  match whole with
  | ([], _) => .error .malformed
  | (ds, rest) =>
    let (frac, rest) := fraction rest
    match exponent? rest with
    | some (e, rest) =>
      .ok (.float (Number.ofDecimal negative (natural (ds ++ frac)) (e - frac.length)), rest)
    | none =>
      if frac.isEmpty then
        if ds.length > maxDigits then .error (.tooManyDigits ds.length)
        else
          let n : Int := natural ds
          .ok (.int (if negative then -n else n), rest)
      else .ok (.float (Number.ofDecimal negative (natural (ds ++ frac)) (-(frac.length : Int))), rest)

/-- What follows the blanks at the start. -/
def skip (cs : List Char) : List Char :=
  cs.dropWhile isSpace

/-- What follows a word at the start. -/
def literal? (word : String) (cs : List Char) : Option (List Char) :=
  let w := word.toList
  if w.isPrefixOf cs then some (cs.drop w.length) else none

mutual

/-- One value, with what follows it. -/
def readValue : Nat → List Char → Except ReadError (Json × List Char)
  | 0, _ => .error .malformed
  | fuel + 1, cs =>
    match cs with
    | '"' :: rest =>
      match readText (rest.length + 1) [] rest with
      | some (s, rest) => .ok (.text s, rest)
      | none => .error .malformed
    | '[' :: rest =>
      match skip rest with
      | ']' :: rest => .ok (.list [], rest)
      | rest => (readItems fuel rest).map fun (xs, rest) => (.list xs, rest)
    | '\x7b' :: rest =>
      match skip rest with
      | '\x7d' :: rest => .ok (.object [], rest)
      | rest => (readMembers fuel rest).map fun (ms, rest) => (.object (Members.dedup ms), rest)
    | '-' :: rest =>
      match literal? "Infinity" rest with
      | some rest => .ok (.float (-1.0 / 0.0), rest)
      | none => readNumber true rest
    | _ =>
      match literal? "null" cs, literal? "true" cs, literal? "false" cs, literal? "NaN" cs,
          literal? "Infinity" cs with
      | some rest, _, _, _, _ => .ok (.null, rest)
      | _, some rest, _, _, _ => .ok (.bool true, rest)
      | _, _, some rest, _, _ => .ok (.bool false, rest)
      | _, _, _, some rest, _ => .ok (.float (0.0 / 0.0), rest)
      | _, _, _, _, some rest => .ok (.float (1.0 / 0.0), rest)
      | _, _, _, _, _ => readNumber false cs

/-- The items of a list up to its closing bracket. -/
def readItems : Nat → List Char → Except ReadError (List Json × List Char)
  | 0, _ => .error .malformed
  | fuel + 1, cs => do
    let (j, rest) ← readValue fuel cs
    match skip rest with
    | ']' :: rest => .ok ([j], rest)
    | ',' :: rest =>
      let (js, rest) ← readItems fuel (skip rest)
      .ok (j :: js, rest)
    | _ => .error .malformed

/-- The members of an object up to its closing brace. -/
def readMembers : Nat → List Char → Except ReadError (List (String × Json) × List Char)
  | 0, _ => .error .malformed
  | fuel + 1, cs =>
    match cs with
    | '"' :: rest =>
      match readText (rest.length + 1) [] rest with
      | none => .error .malformed
      | some (key, rest) =>
        match skip rest with
        | ':' :: rest => do
          let (j, rest) ← readValue fuel (skip rest)
          match skip rest with
          | '\x7d' :: rest => .ok ([(key, j)], rest)
          | ',' :: rest =>
            let (ms, rest) ← readMembers fuel (skip rest)
            .ok ((key, j) :: ms, rest)
          | _ => .error .malformed
        | _ => .error .malformed
    | _ => .error .malformed

end

/-- The value of a JSON text, which holds nothing else but blanks. -/
def parse (s : String) : Except ReadError Json :=
  let cs := s.toList
  match readValue (2 * cs.length + 2) (skip cs) with
  | .error e => .error e
  | .ok (j, rest) => if (skip rest).isEmpty then .ok j else .error .malformed

end RepairLoop.Json
