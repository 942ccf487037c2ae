import RepairLoop.Number.Decimal
import RepairLoop.Schema.Reading
import RepairLoop.Text.Character
/-!
# Reading single values

Texts are taken as they are. Numbers, truth values and moments are also taken from
texts that write them; a number without a fraction passes for an integer and a
truth value for a number.
-/

namespace RepairLoop.Schema

open Reading

/-- The text that a value holds: bytes hold one where they encode one. -/
def heldText? : Datum → Option String
  | .text s => some s
  | .bytes bs => String.fromUTF8? (ByteArray.mk bs.toArray)
  | _ => none

/-- A text. -/
def text : Shape String
  | .text s => pure s
  | .bytes bs =>
    match heldText? (.bytes bs) with
    | some s => pure s
    | none => problem "string_unicode"
  | _ => problem "string_type"

/-- Digits in which single underscores may stand between digits. -/
def withoutUnderscores? (cs : List Char) : Option (List Char) :=
  let doubled := (cs.zip (cs.drop 1)).any fun (a, b) => a == '_' && b == '_'
  if cs.head? == some '_' || cs.getLast? == some '_' || doubled then none
  else some (cs.filter (· != '_'))

private def digits? (cs : List Char) : Option Nat :=
  if cs.isEmpty || !(cs.all Char.isDigit) then none
  else some (cs.foldl (fun n c => n * 10 + (c.toNat - 48)) 0)

private def signedDigits? (cs : List Char) : Option Int :=
  match cs with
  | '-' :: rest => (digits? rest).map fun n => -(Int.ofNat n)
  | '+' :: rest => (digits? rest).map Int.ofNat
  | cs => (digits? cs).map Int.ofNat

/-- An integer as it is written: zeros may follow a point, and single underscores
may stand between digits. -/
def writtenInt? (s : String) : Option Int :=
  let cs := Text.trim s.toList
  let whole := cs.takeWhile (· != '.')
  let rest := cs.dropWhile (· != '.')
  let zeros := match rest with
    | [] => true
    | _ :: ds => !ds.isEmpty && ds.all (· == '0')
  if !zeros then none
  else
    match signedDigits? whole with
    | some n => some n
    | none => (withoutUnderscores? whole).bind signedDigits?

/-- The most digits that an integer may have. -/
def maxIntDigits : Nat := 4300

/-- An integer. -/
def int : Shape Int
  | .int n => pure n
  | .bool b => pure (if b then 1 else 0)
  | .float x =>
    if x.isNaN || x.isInf then problem "finite_number"
    else
      match Number.truncate? x with
      | some n =>
        if !Number.isWhole x then problem "int_from_float"
        else if n.natAbs < Number.twoTo 63 then pure n
        else problem "int_parsing_size"
      | none => problem "int_from_float"
  | d =>
    match heldText? d with
    | some s =>
      if s.length > maxIntDigits then problem "int_parsing_size"
      else
        match writtenInt? s with
        | some n => pure n
        | none => problem "int_parsing"
    | none => problem "int_type"

private def unsignedFloat? (negative : Bool) (cs : List Char) : Option Float :=
  let lower := String.ofList (cs.map Char.toLower)
  if lower == "inf" || lower == "infinity" then
    some (if negative then -(1.0 / 0.0) else 1.0 / 0.0)
  else if lower == "nan" then some (0.0 / 0.0)
  else
    let whole := cs.takeWhile Char.isDigit
    let rest := cs.dropWhile Char.isDigit
    let (fraction, rest) := match rest with
      | '.' :: r => (r.takeWhile Char.isDigit, r.dropWhile Char.isDigit)
      | r => ([], r)
    let exponent : Option Int := match rest with
      | [] => some 0
      | c :: r => if c == 'e' || c == 'E' then signedDigits? r else none
    match exponent, digits? (whole ++ fraction) with
    | some e, some m =>
      some (Number.ofDecimal negative m (e - Int.ofNat fraction.length))
    | _, _ => none

/-- A double as it is written. -/
def writtenFloat? (s : String) : Option Float :=
  let read (cs : List Char) : Option Float :=
    match cs with
    | '-' :: rest => unsignedFloat? true rest
    | '+' :: rest => unsignedFloat? false rest
    | cs => unsignedFloat? false cs
  let cs := Text.trim s.toList
  match read cs with
  | some x => some x
  | none => (withoutUnderscores? cs).bind read

/-- A double. -/
def float : Shape Float
  | .float x => pure x
  | .int n => pure (Number.ofInt n)
  | .bool b => pure (if b then 1.0 else 0.0)
  | d =>
    match heldText? d with
    | some s =>
      match writtenFloat? s with
      | some x => pure x
      | none => problem "float_parsing"
    | none => problem "float_type"

/-- A double between two bounds. -/
def floatWithin (least most : Float) : Shape Float := fun d => ⟨fun s =>
  match (float d).run s with
  | (.ok x, s) =>
    if !(x ≤ most) then (.error [⟨[], "less_than_equal", none⟩], s)
    else if !(least ≤ x) then (.error [⟨[], "greater_than_equal", none⟩], s)
    else (.ok x, s)
  | r => r⟩

/-- An integer that is not below a bound. -/
def intAtLeast (least : Int) : Shape Int := fun d => ⟨fun s =>
  match (int d).run s with
  | (.ok n, s) => if n < least then (.error [⟨[], "greater_than_equal", none⟩], s) else (.ok n, s)
  | r => r⟩

/-- A truth value as it is written. -/
def writtenBool? (s : String) : Option Bool :=
  let l := String.ofList (s.toList.map Char.toLower)
  if ["1", "on", "t", "true", "y", "yes"].contains l then some true
  else if ["0", "off", "f", "false", "n", "no"].contains l then some false
  else none

/-- A truth value. -/
def bool : Shape Bool
  | .bool b => pure b
  | .int n => if n == 1 then pure true else if n == 0 then pure false else problem "bool_parsing"
  | .float x =>
    if x == 1.0 then pure true
    else if x == 0.0 then pure false
    else if Number.isWhole x then problem "bool_parsing"
    else problem "bool_type"
  | d =>
    match heldText? d with
    | some s =>
      match writtenBool? s with
      | some b => pure b
      | none => problem "bool_parsing"
    | none => problem "bool_type"

/-- A moment. -/
def moment : Shape Moment
  | .text s =>
    match Moment.ofText? s with
    | some m => pure m
    | none => problem "datetime_from_date_parsing"
  | .int n =>
    match Moment.ofCount? n 0 with
    | some m => pure m
    | none => problem "datetime_parsing"
  | .float x =>
    match Moment.ofFloat? x with
    | some m => pure m
    | none => problem "datetime_parsing"
  | .moment m => pure m
  | .date d => pure (Moment.ofDate d 0 0 none)
  | _ => problem "datetime_type"

/-- The text of a path. -/
def path : Shape String
  | .text s => pure s
  | _ => problem "path_type"

/-- One of some named values. -/
def oneOf {α : Type} (ofName? : String → Option α) (sort : String) : Shape α := fun d =>
  match heldText? d with
  | some s =>
    match ofName? s with
    | some a => pure a
    | none => problem sort
  | none => problem sort

/-- One of the values of an enumeration. -/
def enum {α : Type} (ofName? : String → Option α) : Shape α := oneOf ofName? "enum"

/-- One of some fixed texts. -/
def literal (names : List String) : Shape String := fun d =>
  match d with
  | .text s => if names.contains s then pure s else problem "literal_error"
  | _ => problem "literal_error"

/-- A value that may be null. -/
def nullable {α : Type} (shape : Shape α) : Shape (Option α)
  | .null => pure none
  | d => some <$> shape d

/-- A list of values. -/
def list {α : Type} (shape : Shape α) : Shape (List α) := fun d =>
  let items (ds : List Datum) : Reading (List α) :=
    Reading.sequence (ds.zipIdx.map fun (d, i) => under (.position (Int.ofNat i)) (shape d))
  match d with
  | .list ds => items ds
  | .set ds => items ds
  | _ => problem "list_type"

/-- A mapping from texts to texts. -/
def textMap : Shape (List (String × String))
  | .map es => Reading.sequence (es.map fun (k, v) =>
      let key := under (keyStep k) (under (.key "[key]") (text k))
      (fun a b => (a, b)) <$> key <*> under (keyStep k) (text v))
  | _ => problem "dict_type"

/-- A mapping from texts to any values. -/
def anyMap : Shape Members
  | .map es => Reading.sequence (es.map fun (k, v) =>
      (fun a => (a, v.toJson)) <$> under (keyStep k) (under (.key "[key]") (text k)))
  | _ => problem "dict_type"

end RepairLoop.Schema
