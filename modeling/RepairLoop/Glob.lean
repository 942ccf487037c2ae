/-!
# Globs

Patterns of names: a star stands for any characters, a question mark for one, and
brackets for one of a set. A set may be negated and may hold ranges; a bracket that
is not closed stands for itself.
-/

namespace RepairLoop.Glob

/-- A part of a glob. -/
inductive Piece where
  | char (c : Char)
  | any
  | star
  | set (negated : Bool) (chars : List Char) (ranges : List (Char × Char))
  deriving DecidableEq, Inhabited

/-- Where the bracket at the start of a text is closed: a closing bracket right after
the opening one, or after its negation, belongs to the set. -/
def closing? (cs : List Char) : Option Nat :=
  let negation := if cs.head? == some '!' then 1 else 0
  let first := if (cs.drop negation).head? == some ']' then negation + 1 else negation
  ((cs.drop first).idxOf? ']').map (· + first)

/-- The parts of a set between the hyphens that make ranges; a hyphen that is the
first character of a part, or the last of all, stands for itself. `run` holds the
characters of the current part, last first. -/
def chunks (run : List Char) : List Char → List (List Char)
  | [] => [run.reverse]
  | '-' :: c :: rest =>
    if run.isEmpty then chunks ['-'] (c :: rest)
    else run.reverse :: inner c rest
  | c :: rest => chunks (c :: run) rest
where
  /-- The part that starts with the end of a range: its first character and the one
  after it do not start a range. -/
  inner (c : Char) : List Char → List (List Char)
    | [] => [[c]]
    | d :: rest => chunks [d, c] rest

/-- Parts with each empty range between two of them taken out. -/
def joinEmpty : List (List Char) → List (List Char)
  | [] => []
  | [c] => [c]
  | c :: rest =>
    match joinEmpty rest with
    | [] => [c]
    | d :: ds =>
      match c.getLast?, d.head? with
      | some a, some b => if b < a then (c.dropLast ++ d.drop 1) :: ds else c :: d :: ds
      | _, _ => c :: d :: ds

private def rangesOf : List (List Char) → List (Char × Char)
  | c :: d :: rest =>
    match c.getLast?, d.head? with
    | some a, some b => (a, b) :: rangesOf (d :: rest)
    | _, _ => rangesOf (d :: rest)
  | _ => []

/-- A set from what stands between its brackets. -/
def setOf (cs : List Char) : Piece :=
  let negated := cs.head? == some '!'
  let parts := joinEmpty (chunks [] (if negated then cs.drop 1 else cs))
  .set negated parts.flatten (rangesOf parts)

/-- The parts of a glob; the first `skip` characters are passed over. -/
def pieces : Nat → List Char → List Piece
  | _, [] => []
  | skip + 1, _ :: rest => pieces skip rest
  | 0, '*' :: rest => .star :: pieces 0 rest
  | 0, '?' :: rest => .any :: pieces 0 rest
  | 0, '[' :: rest =>
    match closing? rest with
    | none => .char '[' :: pieces 0 rest
    | some n => setOf (rest.take n) :: pieces (n + 1) rest
  | 0, c :: rest => .char c :: pieces 0 rest

/-- A character fits a part that stands for one. -/
def Piece.fits (c : Char) : Piece → Bool
  | .char x => x == c
  | .any => true
  | .star => true
  | .set negated chars ranges =>
    (chars.contains c || ranges.any fun (a, b) => a ≤ c && c ≤ b) != negated

/-- A name fits the parts of a glob. -/
def fits : List Piece → List Char → Bool
  | [], cs => cs.isEmpty
  | .star :: ps, [] => fits ps []
  | .star :: ps, c :: cs => fits ps (c :: cs) || fits (.star :: ps) cs
  | _ :: _, [] => false
  | p :: ps, c :: cs => p.fits c && fits ps cs
termination_by ps cs => ps.length + cs.length

/-- A name fits a glob. -/
def matches_ (glob name : String) : Bool :=
  fits (pieces 0 glob.toList) name.toList

end RepairLoop.Glob
