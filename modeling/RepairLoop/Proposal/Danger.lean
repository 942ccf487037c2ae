import RepairLoop.Number.Decimal
import RepairLoop.Pattern.Matcher
import RepairLoop.Pattern.Parser
import RepairLoop.Settings.Sections
import RepairLoop.Text.Line
/-!
# Dangerous constructs

Each pattern of a denylist takes its penalty off the safety of a code for every place
where it is found, line by line. More lines can only be found more dangerous.
-/

namespace RepairLoop.Proposal

/-- A pattern of a denylist, ready for use. -/
structure Danger (α : Type) where
  name : String
  pattern : Pattern.Node
  penalty : α
  deriving Inhabited

/-- The fault that stops an operation with a text that is no pattern. -/
def patternFault (pattern : String) (e : Pattern.PatternError) : Fault :=
  let what : Mishap := match e with
    | .repetitionTooLarge => .overflow
    | .numberTooLong _ => .badValue
    | _ => .badPattern
  .mishap what (e.message pattern)

/-- The patterns of a denylist. -/
def dangers : List DenylistEntry → Except Fault (List (Danger Float))
  | [] => .ok []
  | e :: es => do
    let pattern ← (Pattern.parse e.pattern).mapError (patternFault e.pattern)
    let rest ← dangers es
    .ok (⟨e.name, pattern, e.penalty⟩ :: rest)

/-- What a code lost of its safety, and where. -/
structure Safety (α : Type) where
  score : α
  matches_ : List String
  deriving Inhabited

variable {α : Type}

namespace Danger

/-- How often a danger is found in some lines. -/
def count (d : Danger α) (lines : List (Array Char)) : Nat :=
  lines.foldr (fun line n => (d.pattern.findAll line).length + n) 0

variable [Scale α] [Add α] [Sub α] [Mul α] [LT α] [DecidableLT α]

/-- The sum of penalties, each as often as it counts. -/
def total : List (Danger α × Nat) → α :=
  List.foldl (fun t (d, n) => if n = 0 then t else t + d.penalty * Scale.ofNat n) (Scale.ofNat 0)

/-- A number cut to the range from zero to one. -/
def cut (x : α) : α :=
  let low := if x < Scale.ofNat 1 then x else Scale.ofNat 1
  if Scale.ofNat 0 < low then low else Scale.ofNat 0

/-- The safety that is left after some penalties. -/
def remaining (found : List (Danger α × Nat)) : α :=
  Scale.rounded 4 (cut (Scale.ofNat 1 - total found))

end Danger

variable [Scale α] [Add α] [Sub α] [Mul α] [LT α] [DecidableLT α]

/-- The safety of a code. -/
def safety (denylist : List (Danger α)) (code : String) : Safety α :=
  let lines := (Text.lineBodies code.toList).map List.toArray
  let found := denylist.map fun d => (d, d.count lines)
  ⟨Danger.remaining found,
    (found.filter (·.2 != 0)).map fun (d, n) => s!"{d.name} x{n}"⟩

end RepairLoop.Proposal
