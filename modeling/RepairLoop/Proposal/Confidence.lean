import RepairLoop.Diff.Extract
import RepairLoop.Number.Decimal
import RepairLoop.Pattern.Matcher
/-!
# What a completion says of itself

The explanation in the prose of a completion, and the confidence in it.
-/

/-!
## The prose of a completion

A completion mixes prose and fenced blocks. Its explanation is the paragraph behind a
label such as `Explanation:`, or else its first paragraph that is not part of a diff.
-/

namespace RepairLoop.Proposal

open Pattern

/-- A text in which each fenced block has become `gap`. A block ends at the next
fence; a fence without another behind it stands for itself. -/
def replaceFences (gap : List Char) : Nat → List Char → List Char
  | 0, cs => cs
  | _ + 1, [] => []
  | fuel + 1, c :: rest =>
    if Diff.fence.isPrefixOf (c :: rest) then
      match Diff.untilFence ((c :: rest).drop 3) with
      | some (_, after) => gap ++ replaceFences gap fuel after
      | none => c :: rest
    else c :: replaceFences gap fuel rest

/-- The prose of a completion, with a text for each fenced block. -/
def prose (gap completion : String) : String :=
  let cs := completion.toList
  String.ofList (replaceFences gap.toList cs.length cs)

/-- The labels in front of an explanation. -/
def labelPattern : Node :=
  row [anyLit .caseless ["explanation", "description", "summary"], lit .caseless ":"]

/-- A blank line follows: a line feed, blanks, and another line feed. -/
def opensGap : List Char → Bool
  | '\n' :: rest => (rest.takeWhile Text.isBlank).contains '\n'
  | _ => false

/-- A text up to its first blank line, or up to its end without a last line feed. -/
def paragraph : List Char → List Char
  | [] => []
  | c :: rest =>
    if opensGap (c :: rest) then []
    else if c == '\n' && rest.isEmpty then []
    else c :: paragraph rest

/-- The paragraph behind the first label. -/
def labelled? (prose : String) : Option String :=
  let text := prose.toList.toArray
  (labelPattern.search? text).map fun m =>
    Text.squeeze (String.ofList (paragraph ((text.toList.drop m.stop).dropWhile Text.isBlank)))

/-- What separates paragraphs. -/
def gapPattern : Node := row [lit .plain "\n", blanks, lit .plain "\n"]

/-- A paragraph that belongs to a diff. -/
def looksLikeDiff (paragraph : String) : Bool :=
  ["---", "+++", "@@", "diff "].any fun s => paragraph.startsWith s

/-- The explanation in a completion, empty where there is none. -/
def explanation (completion : String) : String :=
  let prose := prose "\n\n" completion
  match labelled? prose with
  | some s => if s != "" then s else firstParagraph prose
  | none => firstParagraph prose
where
  /-- The first paragraph that does not belong to a diff. -/
  firstParagraph (prose : String) : String :=
    (((gapPattern.split prose).map Text.squeeze).find? fun p => p != "" && !looksLikeDiff p).getD ""

end RepairLoop.Proposal

/-!
## Confidence

The confidence in a completion is a sum of named parts, cut to the range from zero to
one: what it starts with, its length, whether it holds a diff and what sort of diff,
and what its prose claims.
-/

namespace RepairLoop.Proposal

open Pattern

/-- A number cut to the range from zero to one. -/
def unitInterval (x : Float) : Float :=
  let low := if x < 1.0 then x else 1.0
  if 0.0 < low then low else 0.0

/-- The named parts of a confidence. -/
structure Confidence where
  components : List (String × Float)
  deriving Inhabited

namespace Confidence

/-- The confidence: the sum of its parts, cut and rounded. -/
def score (c : Confidence) : Float :=
  Number.roundTo (unitInterval (c.components.foldl (fun t p => t + p.2) 0.0)) 4

/-- The parts that count, and the confidence. -/
def explain (c : Confidence) : String :=
  let parts := (c.components.filter (·.2 != 0.0)).map fun (name, value) =>
    s!"{name} {Number.fixedSigned value 2}"
  ", ".intercalate parts ++ s!" => {Number.fixed c.score 2}"

/-- The parts as an object. -/
def json (c : Confidence) : Json :=
  .object (c.components.map fun (name, value) => (name, .float value))

end Confidence

/-- One of some words, at word boundaries and in any case. -/
def wordPattern (words : List String) : Node :=
  row [edge, anyLit .caseless words, edge]

/-- Words that claim a success. -/
def certaintyPattern : Node :=
  wordPattern ["confident", "certain", "definitely", "this fixes", "resolves the issue"]

/-- Words that claim a check. -/
def verificationPattern : Node :=
  wordPattern ["tested", "verified", "compiles", "passes the tests"]

/-- Words that hedge. -/
def hedgingPattern : Node :=
  wordPattern ["might", "maybe", "perhaps", "possibly", "not sure", "i think", "untested"]

/-- The least and the greatest length of a completion of a usual length. -/
def usualLength : Nat × Nat := (40, 8000)

/-- The most changed lines of a diff that keeps to one thing. -/
def focusedChanges : Nat := 60

/-- The confidence in a completion, given the diff that was found in it. -/
def confidence (completion : String) (diff : Option Diff.Extraction) : Confidence :=
  let text := (prose " " completion).toList.toArray
  let tells (p : Node) : Bool := (p.search? text).isSome
  let part (holds : Bool) (weight : Float) : Float := if holds then weight else 0.0
  let length := completion.length
  let changed := (diff.map (·.changedCount)).getD 0
  ⟨[("base", 0.3),
    ("length", part (usualLength.1 ≤ length && length ≤ usualLength.2) 0.1),
    ("headers", part diff.isSome 0.15),
    ("well_formed", part (diff.any (·.adjustments.isEmpty)) 0.1),
    ("line_count", part (0 < changed && changed ≤ focusedChanges) 0.1),
    ("explanation", part (explanation completion != "") 0.05),
    ("certainty", part (tells certaintyPattern) 0.15),
    ("verification", part (tells verificationPattern) 0.1),
    ("hedging", part (tells hedgingPattern) (-0.15))]⟩

end RepairLoop.Proposal
