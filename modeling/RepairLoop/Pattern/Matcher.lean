import RepairLoop.Text.Case
import RepairLoop.Text.Character
import RepairLoop.Text.Word
/-!
# Patterns

The syntax of search patterns, and how they are matched.
-/

/-!
## Patterns

The syntax of search patterns: tests on one character, conditions on a position,
sequences, alternatives, repetitions, groups, references back and assertions about
what stands before or after. Case and script are settled in each test, so a
pattern needs no flags. A test decides one character by itself.
-/

namespace RepairLoop.Pattern

/-- A named class of characters. -/
inductive Category where
  | digit
  | space
  | word
  deriving DecidableEq, Inhabited

/-- How letters are compared: `ignoreCase`, and whether classes and case are those
of ASCII alone. -/
structure Mode where
  ignoreCase : Bool
  ascii : Bool
  deriving DecidableEq, Inhabited

/-- Letters compared as they stand, with the classes of all scripts. -/
def Mode.plain : Mode := ⟨false, false⟩

/-- Letters compared without regard to case. -/
def Mode.caseless : Mode := ⟨true, false⟩

/-- Members of a class of characters. -/
inductive Member where
  | char (c : Char)
  | range (first last : Nat)
  | category (negated : Bool) (k : Category)
  deriving DecidableEq, Inhabited

/-- A test on one character. -/
inductive Test where
  | any (newline : Bool)
  | char (negated : Bool) (c : Char)
  | set (negated : Bool) (members : List Member)
  deriving DecidableEq, Inhabited

/-- A condition on a position. -/
inductive Place where
  | start
  | lineStart
  | finish
  | lineFinish
  | textFinish
  | boundary
  | noBoundary
  deriving DecidableEq, Inhabited

/-- How eagerly a repetition goes on. -/
inductive Greed where
  | greedy
  | lazy
  | possessive
  deriving DecidableEq, Inhabited

/-- A pattern. -/
inductive Node where
  | empty
  | test (mode : Mode) (t : Test)
  | at_ (mode : Mode) (p : Place)
  | seq (first second : Node)
  | alt (first second : Node)
  | rep (greed : Greed) (least : Nat) (most : Option Nat) (body : Node)
  | group (index : Nat) (body : Node)
  | back (mode : Mode) (index : Nat) (least most : Nat)
  | ahead (negated : Bool) (body : Node)
  | behind (negated : Bool) (body : Node)
  | atomic (body : Node)
  | cond (index : Nat) (yes no : Node)
  deriving DecidableEq, Inhabited

/-- Membership in a named class. -/
def Category.holds (ascii : Bool) (k : Category) (c : Char) : Bool :=
  match k with
  | .digit => if ascii then c.isDigit else Text.isDecimalDigit c
  | .space =>
    if ascii then c == ' ' || (9 ≤ c.toNat && c.toNat ≤ 13) else Text.isBlank c
  | .word =>
    if ascii then c.toNat < 128 && (c.isAlphanum || c == '_') else Text.isWordChar c

/-- A character in the case in which it is compared. -/
def Mode.fold (m : Mode) (c : Char) : Char :=
  if m.ignoreCase then if m.ascii then c.toLower else Text.lowerChar c else c

/-- Two characters agree. -/
def Mode.same (m : Mode) (a b : Char) : Bool :=
  if m.ignoreCase then
    if m.ascii then a.toLower == b.toLower else Text.sameLetter a b
  else a == b

/-- A character belongs to a member of a class. -/
def Member.holds (m : Mode) (c : Char) : Member → Bool
  | .char x => m.same x c
  | .range first last =>
    if m.ignoreCase then
      if m.ascii then
        (first ≤ c.toLower.toNat && c.toLower.toNat ≤ last) ||
          (first ≤ c.toUpper.toNat && c.toUpper.toNat ≤ last)
      else (Text.caseVariants c).any fun n => first ≤ n && n ≤ last
    else first ≤ c.toNat && c.toNat ≤ last
  | .category negated k => k.holds m.ascii (m.fold c) != negated

/-- A character passes a test. -/
def Test.holds (m : Mode) (c : Char) : Test → Bool
  | .any newline => newline || c != '\n'
  | .char negated x => m.same x c != negated
  | .set negated members => members.any (Member.holds m c) != negated

/-- The least and the greatest number of characters a pattern takes; none stands
for no bound. -/
def Node.width : Node → Nat × Option Nat
  | .empty => (0, some 0)
  | .test .. => (1, some 1)
  | .at_ .. => (0, some 0)
  | .seq a b => (a.width.1 + b.width.1, (· + ·) <$> a.width.2 <*> b.width.2)
  | .alt a b => (min a.width.1 b.width.1, max <$> a.width.2 <*> b.width.2)
  | .rep _ least most body =>
    let w := body.width
    (w.1 * least,
      match w.2, most with
      | some 0, _ => some 0
      | some h, some n => some (h * n)
      | _, _ => none)
  | .group _ body => body.width
  | .back _ _ least most => (least, some most)
  | .ahead .. => (0, some 0)
  | .behind .. => (0, some 0)
  | .atomic body => body.width
  | .cond _ yes no => (min yes.width.1 no.width.1, max <$> yes.width.2 <*> no.width.2)

/-- Every look behind has one width. -/
def Node.looksBehindFixed : Node → Bool
  | .seq a b => a.looksBehindFixed && b.looksBehindFixed
  | .alt a b => a.looksBehindFixed && b.looksBehindFixed
  | .rep _ _ _ body => body.looksBehindFixed
  | .group _ body => body.looksBehindFixed
  | .ahead _ body => body.looksBehindFixed
  | .behind _ body => body.looksBehindFixed && body.width.2 == some body.width.1
  | .atomic body => body.looksBehindFixed
  | .cond _ yes no => yes.looksBehindFixed && no.looksBehindFixed
  | _ => true

/-! Patterns are also written as terms: a fixed text, a class, a word, and their
combinations. -/

/-- Patterns in a row. -/
def row : List Node → Node
  | [] => .empty
  | [n] => n
  | n :: ns => .seq n (row ns)

/-- One of some patterns, the first that fits. -/
def oneOf : List Node → Node
  | [] => .empty
  | [n] => n
  | n :: ns => .alt n (oneOf ns)

/-- A fixed text. -/
def lit (m : Mode) (s : String) : Node :=
  row (s.toList.map fun c => .test m (.char false c))

/-- One of some fixed texts. -/
def anyLit (m : Mode) (ss : List String) : Node :=
  oneOf (ss.map (lit m))

/-- A character of a named class. -/
def cat (k : Category) : Node :=
  .test .plain (.set false [.category false k])

/-- A word boundary. -/
def edge : Node := .at_ .plain .boundary

/-- Any number of times, as often as can be. -/
def many (n : Node) : Node := .rep .greedy 0 none n

/-- At least once, as often as can be. -/
def many1 (n : Node) : Node := .rep .greedy 1 none n

/-- At most once. -/
def optional (n : Node) : Node := .rep .greedy 0 (some 1) n

/-- Any number of blanks. -/
def blanks : Node := many (cat .space)

/-- At least one blank. -/
def blanks1 : Node := many1 (cat .space)

end RepairLoop.Pattern

/-!
## Matching

A matcher tries the choices of a pattern in order and takes the first that lets
everything after it match as well. The recursion is on the pattern; a repetition
is unrolled at most as often as the text is long, beyond its least count, because
a turn that takes no character is the last one.
-/

namespace RepairLoop.Pattern

/-- Where the groups were found, the latest first. -/
abbrev Captures := List (Nat × Nat × Nat)

/-- Where a group was found last. -/
def Captures.get? (caps : Captures) (index : Nat) : Option (Nat × Nat) :=
  (caps.find? (·.1 == index)).map (·.2)

/-- What is to match after the current part. -/
abbrev Goal := Nat → Captures → Option (Nat × Captures)

def wordAt (m : Mode) (text : Array Char) (i : Nat) : Bool :=
  match text[i]? with
  | some c => Category.word.holds m.ascii c
  | none => false

def wordBefore (m : Mode) (text : Array Char) (i : Nat) : Bool :=
  if i = 0 then false else wordAt m text (i - 1)

/-- A condition holds at a position. -/
def Place.holds (m : Mode) (text : Array Char) (i : Nat) : Place → Bool
  | .start => i == 0
  | .lineStart => i == 0 || text[i - 1]? == some '\n'
  | .finish => i == text.size || (i + 1 == text.size && text[i]? == some '\n')
  | .lineFinish => i == text.size || text[i]? == some '\n'
  | .textFinish => i == text.size
  | .boundary => text.size != 0 && wordBefore m text i != wordAt m text i
  | .noBoundary => text.size != 0 && wordBefore m text i == wordAt m text i

/-- The turns of a greedy repetition beyond its least count. -/
def greedyTurns (body : Nat → Captures → Goal → Option (Nat × Captures)) (goal : Goal) :
    Nat → Option Nat → Option Nat → Nat → Captures → Option (Nat × Captures)
  | 0, _, _, i, caps => goal i caps
  | fuel + 1, most, last, i, caps =>
    if most == some 0 || last == some i then goal i caps
    else
      match body i caps fun j caps' =>
          greedyTurns body goal fuel (most.map (· - 1)) (some i) j caps' with
      | some r => some r
      | none => goal i caps

/-- The turns of a lazy repetition beyond its least count. -/
def lazyTurns (body : Nat → Captures → Goal → Option (Nat × Captures)) (goal : Goal) :
    Nat → Option Nat → Option Nat → Nat → Captures → Option (Nat × Captures)
  | 0, _, _, i, caps => goal i caps
  | fuel + 1, most, last, i, caps =>
    match goal i caps with
    | some r => some r
    | none =>
      if most == some 0 || last == some i then none
      else body i caps fun j caps' =>
        lazyTurns body goal fuel (most.map (· - 1)) (some i) j caps'

/-- The turns that a repetition must take. -/
def neededTurns (body : Nat → Captures → Goal → Option (Nat × Captures)) (goal : Goal) :
    Nat → Nat → Captures → Option (Nat × Captures)
  | 0, i, caps => goal i caps
  | n + 1, i, caps => body i caps fun j caps' => neededTurns body goal n j caps'

private def sameSlice (m : Mode) (text : Array Char) : Nat → Nat → Nat → Bool
  | 0, _, _ => true
  | n + 1, a, b =>
    match text[a]?, text[b]? with
    | some x, some y => m.fold x == m.fold y && sameSlice m text n (a + 1) (b + 1)
    | _, _ => false

/-- Matches a pattern at a position and then the goal. -/
def Node.run (text : Array Char) : Node → Nat → Captures → Goal → Option (Nat × Captures)
  | .empty, i, caps, goal => goal i caps
  | .test m t, i, caps, goal =>
    match text[i]? with
    | some c => if t.holds m c then goal (i + 1) caps else none
    | none => none
  | .at_ m p, i, caps, goal => if p.holds m text i then goal i caps else none
  | .seq a b, i, caps, goal => a.run text i caps fun j caps' => b.run text j caps' goal
  | .alt a b, i, caps, goal =>
    match a.run text i caps goal with
    | some r => some r
    | none => b.run text i caps goal
  | .rep greed least most body, i, caps, goal =>
    let fuel := text.size - i + 2
    let rest := most.map (· - least)
    match greed with
    | .greedy =>
      neededTurns (body.run text) (greedyTurns (body.run text) goal fuel rest none) least i caps
    | .lazy =>
      neededTurns (body.run text) (lazyTurns (body.run text) goal fuel rest none) least i caps
    | .possessive =>
      match neededTurns (body.run text)
          (greedyTurns (body.run text) (fun j c => some (j, c)) fuel rest none) least i caps with
      | some (j, caps') => goal j caps'
      | none => none
  | .group index body, i, caps, goal =>
    body.run text i caps fun j caps' => goal j ((index, i, j) :: caps')
  | .back m index _ _, i, caps, goal =>
    match caps.get? index with
    | none => none
    | some (a, b) =>
      if i + (b - a) ≤ text.size && sameSlice m text (b - a) a i then goal (i + (b - a)) caps
      else none
  | .ahead negated body, i, caps, goal =>
    match body.run text i caps fun j c => some (j, c) with
    | some (_, caps') => if negated then none else goal i caps'
    | none => if negated then goal i caps else none
  | .behind negated body, i, caps, goal =>
    let w := body.width.1
    match if w ≤ i then body.run text (i - w) caps fun j c => some (j, c) else none with
    | some (_, caps') => if negated then none else goal i caps'
    | none => if negated then goal i caps else none
  | .atomic body, i, caps, goal =>
    match body.run text i caps fun j c => some (j, c) with
    | some (j, caps') => goal j caps'
    | none => none
  | .cond index yes no, i, caps, goal =>
    match caps.get? index with
    | some _ => yes.run text i caps goal
    | none => no.run text i caps goal

/-- A match: where it starts and ends, and its groups. -/
structure Match where
  start : Nat
  stop : Nat
  captures : Captures
  deriving DecidableEq, Inhabited

/-- The text between two positions. -/
def sliceText (text : Array Char) (start stop : Nat) : String :=
  String.ofList (text.extract start stop).toList

/-- The text of a group, if it took part in the match. -/
def Match.group? (m : Match) (text : Array Char) (index : Nat) : Option String :=
  (m.captures.get? index).map fun (a, b) => sliceText text a b

/-- The match that starts at a position; an empty one may be ruled out. -/
def Node.matchFrom? (n : Node) (text : Array Char) (i : Nat) (mustAdvance : Bool) : Option Match :=
  match n.run text i [] fun j caps => if mustAdvance && j == i then none else some (j, caps) with
  | some (j, caps) => some ⟨i, j, caps⟩
  | none => none

/-- The first match at or after a position; only there may an empty one be ruled
out. -/
def Node.searchFrom? (n : Node) (text : Array Char) (mustAdvance : Bool) : Nat → Nat → Option Match
  | 0, _ => none
  | fuel + 1, i =>
    match n.matchFrom? text i mustAdvance with
    | some m => some m
    | none => n.searchFrom? text false fuel (i + 1)

/-- The match at the start of a text. -/
def Node.match? (n : Node) (text : Array Char) : Option Match :=
  n.matchFrom? text 0 false

/-- The first match in a text. -/
def Node.search? (n : Node) (text : Array Char) : Option Match :=
  n.searchFrom? text false (text.size + 1) 0

def findAllFrom (n : Node) (text : Array Char) (mustAdvance : Bool) :
    Nat → Nat → List Match
  | 0, _ => []
  | fuel + 1, i =>
    if text.size < i then []
    else
      match n.searchFrom? text mustAdvance (text.size + 1 - i) i with
      | none => []
      | some m => m :: findAllFrom n text (m.stop == m.start) fuel m.stop

/-- The matches in a text from left to right; a match starts where the one before
it ends or later, and an empty one does not stand where an empty one has just
been found. -/
def Node.findAll (n : Node) (text : Array Char) : List Match :=
  findAllFrom n text false (2 * text.size + 2) 0

private def substituteFrom (text : Array Char) (replacement : String) :
    Nat → List Match → List String
  | i, [] => [sliceText text i text.size]
  | i, m :: ms => sliceText text i m.start :: replacement :: substituteFrom text replacement m.stop ms

/-- The text with each match replaced. -/
def Node.substitute (n : Node) (replacement : String) (s : String) : String :=
  let text := s.toList.toArray
  String.join (substituteFrom text replacement 0 (n.findAll text))

private def splitFrom (text : Array Char) : Nat → List Match → List String
  | i, [] => [sliceText text i text.size]
  | i, m :: ms => sliceText text i m.start :: splitFrom text m.stop ms

/-- The texts between the matches. -/
def Node.split (n : Node) (s : String) : List String :=
  let text := s.toList.toArray
  splitFrom text 0 (n.findAll text)

end RepairLoop.Pattern
