/-!
# Characters

Classes of characters as tables, the decimal digits among them; and the blank
characters, with the functions that trim them.
-/

/-!
## Code point ranges and decimal digits

A character class of a standard is a sorted table of disjoint closed ranges of
code points. It is looked up by a halving search whose number of steps is bounded
by the size of the table. The first such class is that of the decimal digits of
Unicode 14. Every range of its table is a whole number of runs zero to nine, so
the value of a digit is its distance from the start of its range modulo ten.
-/

namespace RepairLoop.Text

/-- Halving search for `n` between the table positions `lo` and `hi`; the fuel
bounds the number of halvings. -/
def rangeSearch (table : Array (Nat × Nat)) (n : Nat) : Nat → Nat → Nat → Option (Nat × Nat)
  | 0, _, _ => none
  | fuel + 1, lo, hi =>
    if lo < hi then
      let mid := (lo + hi) / 2
      match table[mid]? with
      | none => none
      | some (first, last) =>
        if n < first then rangeSearch table n fuel lo mid
        else if last < n then rangeSearch table n fuel (mid + 1) hi
        else some (first, last)
    else none

/-- The range of the table that holds `n`. -/
def rangeOf? (table : Array (Nat × Nat)) (n : Nat) : Option (Nat × Nat) :=
  rangeSearch table n (table.size + 1) 0 table.size

/-- Membership in a table of ranges. -/
def inRanges (table : Array (Nat × Nat)) (n : Nat) : Bool :=
  (rangeOf? table n).isSome

/-! ### Decimal digits -/

private def decimalDigitRangesPart0 : Array (Nat × Nat) := #[
  (48, 57), (1632, 1641), (1776, 1785), (1984, 1993), (2406, 2415), (2534, 2543), (2662, 2671),
  (2790, 2799), (2918, 2927), (3046, 3055), (3174, 3183), (3302, 3311), (3430, 3439),
  (3558, 3567), (3664, 3673), (3792, 3801), (3872, 3881), (4160, 4169), (4240, 4249),
  (6112, 6121), (6160, 6169), (6470, 6479), (6608, 6617), (6784, 6793), (6800, 6809),
  (6992, 7001), (7088, 7097), (7232, 7241), (7248, 7257), (42528, 42537), (43216, 43225),
  (43264, 43273), (43472, 43481), (43504, 43513), (43600, 43609), (44016, 44025), (65296, 65305),
  (66720, 66729), (68912, 68921), (69734, 69743), (69872, 69881), (69942, 69951), (70096, 70105),
  (70384, 70393), (70736, 70745), (70864, 70873), (71248, 71257), (71360, 71369), (71472, 71481),
  (71904, 71913), (72016, 72025), (72784, 72793), (73040, 73049), (73120, 73129), (92768, 92777),
  (92864, 92873), (93008, 93017), (120782, 120831), (123200, 123209), (123632, 123641),
  (125264, 125273), (130032, 130041)]

/-- The decimal digits of every script. -/
def decimalDigitRanges : Array (Nat × Nat) :=
  decimalDigitRangesPart0

/-- The value of a decimal digit of any script. -/
def decimalValue? (c : Char) : Option Nat :=
  if c.toNat < 128 then
    if c.isDigit then some (c.toNat - 48) else none
  else
    (rangeOf? decimalDigitRanges c.toNat).map fun r => (c.toNat - r.1) % 10

/-- A decimal digit of any script. -/
def isDecimalDigit (c : Char) : Bool :=
  (decimalValue? c).isSome

/-- The number that a run of decimal digits writes, most significant first. -/
def decimalNumber? (cs : List Char) : Option Nat :=
  match cs with
  | [] => none
  | _ => cs.foldlM (fun n c => (decimalValue? c).map (10 * n + ·)) 0

end RepairLoop.Text

/-!
## Blank characters

The blank characters of a text and the functions that trim them: from both ends,
from the right end alone, and between words.
-/

namespace RepairLoop.Text

/-- A blank of any script: the space, the controls that act as separators, and
the separators of Unicode. -/
def isBlank (c : Char) : Bool :=
  let n := c.toNat
  n == 32 || (9 ≤ n && n ≤ 13) || (28 ≤ n && n ≤ 31) ||
    n == 0x85 || n == 0xa0 || n == 0x1680 || (0x2000 ≤ n && n ≤ 0x200a) ||
    n == 0x2028 || n == 0x2029 || n == 0x202f || n == 0x205f || n == 0x3000

/-- Every ASCII white space character is blank. -/
theorem isBlank_of_isWhitespace {c : Char} (h : c.isWhitespace = true) : isBlank c = true := by
  simp only [Char.isWhitespace, Bool.or_eq_true, decide_eq_true_eq] at h
  rcases h with (((rfl | rfl) | rfl) | rfl) <;> decide

/-- The text without the longest run of characters in `p` at its end. -/
def dropTrailing (p : Char → Bool) : List Char → List Char
  | [] => []
  | c :: rest =>
    match dropTrailing p rest with
    | [] => if p c then [] else [c]
    | kept => c :: kept

/-- The text without the longest run of characters in `p` at its start. -/
def dropLeading (p : Char → Bool) (cs : List Char) : List Char :=
  cs.dropWhile p

/-- Without blanks at the end. -/
def trimRight (cs : List Char) : List Char :=
  dropTrailing isBlank cs

/-- Without blanks at either end. -/
def trim (cs : List Char) : List Char :=
  trimRight (dropLeading isBlank cs)

/-- Without blanks at either end. -/
def strip (s : String) : String :=
  String.ofList (trim s.toList)

/-- Without blanks at the end. -/
def stripRight (s : String) : String :=
  String.ofList (trimRight s.toList)

/-- The words of a text: `pending` holds the letters, last first, of the word
that is being read. -/
def wordsFrom (pending : List Char) : List Char → List (List Char)
  | [] => if pending.isEmpty then [] else [pending.reverse]
  | c :: rest =>
    if isBlank c then
      if pending.isEmpty then wordsFrom [] rest else pending.reverse :: wordsFrom [] rest
    else wordsFrom (c :: pending) rest

/-- The maximal runs of characters that are not blank. -/
def words (cs : List Char) : List (List Char) :=
  wordsFrom [] cs

/-- The words of a text with single spaces between them. -/
def squeeze (s : String) : String :=
  " ".intercalate ((words s.toList).map String.ofList)

/-- Nothing but blanks. -/
def isBlankText (s : String) : Bool :=
  s.toList.all isBlank

theorem dropTrailing_append_of_all (p : Char → Bool) (s t : List Char)
    (h : t.all p = true) : dropTrailing p (s ++ t) = dropTrailing p s := by
  induction s with
  | nil =>
    induction t with
    | nil => rfl
    | cons c t ih =>
      simp only [List.all_cons, Bool.and_eq_true] at h
      have ht : dropTrailing p t = [] := by simpa [dropTrailing] using ih h.2
      simp [dropTrailing, ht, h.1]
  | cons c s ih => simp [dropTrailing, ih]

end RepairLoop.Text
