import RepairLoop.Json.Parser
import RepairLoop.Text.Character
import RepairLoop.Text.Quoted
/-!
# Whole numbers in texts

A whole number stands between blanks, may have a sign, and has decimal digits of any
script with single underscores between them.
-/

namespace RepairLoop.Number

/-- Why a text is no whole number. -/
inductive WholeFault where
  | malformed (text : String)
  | tooManyDigits (count : Nat)
  deriving DecidableEq, Inhabited

/-- What is said of a text that is no whole number; of a long text its start is shown. -/
def WholeFault.message : WholeFault → String
  | malformed s =>
    "invalid literal for int() with base 10: " ++ String.ofList ((Text.quoted s).toList.take 200)
  | tooManyDigits n => Json.tooManyDigitsMessage n

/-- Digits with single underscores between them, without the underscores. -/
def grouped? : List Char → Option (List Char)
  | [] => some []
  | '_' :: c :: rest => if c == '_' then none else grouped? (c :: rest)
  | ['_'] => none
  | c :: rest => (grouped? rest).map (c :: ·)

/-- Reads a whole number. -/
def readWhole (s : String) : Except WholeFault Int :=
  let (negative, cs) := match Text.trim s.toList with
    | '-' :: rest => (true, rest)
    | '+' :: rest => (false, rest)
    | cs => (false, cs)
  match cs with
  | [] => .error (.malformed s)
  | '_' :: _ => .error (.malformed s)
  | _ =>
    match (grouped? cs).bind fun ds => (Text.decimalNumber? ds).map fun n => (ds.length, n) with
    | none => .error (.malformed s)
    | some (count, n) =>
      if count > Json.maxDigits then .error (.tooManyDigits count)
      else .ok (if negative then -(n : Int) else n)

end RepairLoop.Number
