import Std.Data.HashMap
import RepairLoop.Python.Syntax
/-!
# Grammars

How the rules of a grammar are written, and what their alternatives yield.
-/

/-!
## Actions

What an alternative of a rule yields once its items have matched: a part of the
tree, a refusal, a complaint about a place, or the pieces of a text literal that
are still to be read.
-/

namespace RepairLoop.Python

/-- What an item of a rule yields. -/
inductive Part where
  | absent
  | mark (t : Token)
  | tree (s : Syn)
  | many (ps : List Part)
  deriving Inhabited

mutual

/-- The nodes in a part, in order. -/
def Part.nodes : Part → List Syn
  | .absent => []
  | .mark _ => []
  | .tree s => [s]
  | .many ps => nodesOf ps

/-- The nodes in some parts, in order. -/
def nodesOf : List Part → List Syn
  | [] => []
  | p :: ps => p.nodes ++ nodesOf ps

/-- The tokens that were kept as such in a part. -/
def Part.marks : Part → List Token
  | .absent => []
  | .mark t => [t]
  | .tree _ => []
  | .many ps => marksOf ps

/-- The tokens that were kept as such in some parts. -/
def marksOf : List Part → List Token
  | [] => []
  | p :: ps => p.marks ++ marksOf ps

end

/-- The line and column at which a part starts. -/
def Part.place (p : Part) : Nat × Option Nat :=
  match p with
  | .mark t => (t.line, t.column)
  | .tree s => (s.line, some s.column)
  | .absent => (1, some 0)
  | .many ps =>
    match nodesOf ps, marksOf ps with
    | s :: _, t :: _ =>
      if t.line < s.line || (t.line == s.line && (t.column.getD 0) < s.column) then
        (t.line, t.column)
      else (s.line, some s.column)
    | s :: _, [] => (s.line, some s.column)
    | [], t :: _ => (t.line, t.column)
    | [], [] => (1, some 0)

/-- Where an alternative matched: its first line and column, the end of its last
token and the number of brackets open there. -/
structure Site where
  line : Nat
  column : Nat
  stop : Nat
  level : Nat
  deriving Inhabited

/-- The outcome of an alternative. -/
inductive Reduction where
  | value (p : Part)
  | refuse
  | faultAt (message : String) (line : Nat) (column : Option Int)
  | faultHere (message : String)
  | literal (pieces : List Token)

/-- What an alternative does with its parts. -/
abbrev Action := Site → List Part → Reduction

namespace Action

/-- The only part, or all of them. -/
def same : Action := fun _ ps =>
  match ps with
  | [p] => .value p
  | ps => .value (.many ps)

/-- The part at a position. -/
def pick (i : Nat) : Action := fun _ ps => .value (ps.getD i .absent)

/-- A node made of a list of children at the place of the alternative. -/
def made (k : Kind) (children : List Syn) : Action := fun s _ =>
  .value (.tree (.node k s.line s.column s.stop children))

/-- A node whose children are the nodes of the parts at some positions. -/
def node (k : Kind) (order : List Nat) : Action := fun s ps =>
  made k (nodesOf (order.map fun i => ps.getD i .absent)) s ps

/-- A node whose children are all nodes of the parts. -/
def whole (k : Kind) : Action := fun s ps => made k (nodesOf ps) s ps

/-- The name that a part holds. -/
def nameOf (p : Part) : String :=
  match p.nodes with
  | .node (.name n) _ _ _ _ :: _ => n
  | .node (.item) _ _ _ (.node (.name n) _ _ _ _ :: _) :: _ => n
  | _ => ""

/-- A node that takes its name from the part at one position and its children from
others. -/
def named (k : String → Kind) (i : Nat) (order : List Nat) : Action := fun s ps =>
  node (k (nameOf (ps.getD i .absent))) order s ps

/-- A complaint about the part at a position. -/
def complain (i : Nat) (message : String) : Action := fun _ ps =>
  let (l, c) := (ps.getD i .absent).place
  .faultAt message l (c.map Int.ofNat)

/-- A complaint about the token read last. -/
def complainHere (message : String) : Action := fun _ _ => .faultHere message

/-- A missing block: the complaint names the line of the part at a position. -/
def noBlock (what : String) (i : Nat) : Action := fun _ ps =>
  let line := (ps.getD i .absent).place.1
  .faultHere s!"expected an indented block after {what} on line {line}"

/-- A complaint that describes the expression at a position. -/
def complainOf (i : Nat) (message : String → String) : Action := fun _ ps =>
  match (ps.getD i .absent).nodes with
  | t :: _ => .faultAt (message t.describe) t.line (some t.column)
  | [] => .refuse

/-- A complaint about the first part of an expression that cannot be a target. -/
def complainTarget (use : TargetUse) (i : Nat) : Action := fun _ ps =>
  match (ps.getD i .absent).nodes with
  | t :: _ =>
    match t.badTarget? use with
    | some b =>
      let verb := if use = .deleted then "delete" else "assign to"
      .faultAt s!"cannot {verb} {b.describe}" b.line (some b.column)
    | none => .refuse
  | [] => .refuse

/-- Whether a name was once the name of a statement. -/
def isOldStatement (p : Part) : Bool :=
  match p.nodes with
  | .node (.name n) _ _ _ _ :: _ => n == "print" || n == "exec"
  | _ => false

end Action

end RepairLoop.Python

/-!
## Grammars

A grammar is a list of rules; a rule has alternatives that are tried in order. The
items of an alternative are written as text: a token in quotes, a sort of token in
capital letters, a rule by its name, a word that is a keyword only here behind a
percent sign; `[x]` for an optional item, `x*` and `x+` for repetitions, `s.x+` for
a list with separators, `&x` and `!x` for a look ahead, `&&'x'` for a token that
must follow, and `~` for a point from which the other alternatives are given up.
-/

namespace RepairLoop.Python

/-- An item of an alternative. -/
inductive Item where
  | sort (s : TokenSort)
  | soft (word : String)
  | anySoft
  | rule (i : Nat)
  | maybe (x : Item)
  | many (x : Item)
  | many1 (x : Item)
  | separated (by_ x : Item)
  | ahead (x : Item)
  | notAhead (x : Item)
  | forced (s : TokenSort) (text : String)
  | cut
  | group (alternatives : List (List Item))
  deriving Inhabited

/-- How the result of a rule is kept: not at all, for each position, or by growing
it from a smaller result because the rule starts with itself. -/
inductive Keeping where
  | forgotten
  | remembered
  | grown
  deriving DecidableEq, Inhabited

/-- An alternative; one that only explains what is wrong is used in the second
pass alone. -/
structure Alternative where
  items : List Item
  explains : Bool
  action : Action

/-- A rule; a quiet rule uses no alternative that only explains. -/
structure Rule where
  name : String
  keeping : Keeping
  quiet : Bool
  alternatives : List Alternative

instance : Inhabited Rule := ⟨⟨"", .forgotten, false, []⟩⟩

/-- A rule as it is written. -/
structure RuleText where
  name : String
  keeping : Keeping
  alternatives : List (String × Action)
  quiet : Bool := false

/-- The rules of a grammar. -/
abbrev Grammar := Array Rule

/-- A sign of the notation. -/
inductive Sign where
  | quoted (text : String)
  | soft (word : String)
  | word (name : String)
  | mark (c : Char)
  deriving DecidableEq

/-- The signs of a written alternative. -/
def signs : Nat → List Char → List Sign
  | 0, _ => []
  | _ + 1, [] => []
  | fuel + 1, ' ' :: rest => signs fuel rest
  | fuel + 1, '\'' :: rest =>
    .quoted (String.ofList (rest.takeWhile (· != '\''))) ::
      signs fuel ((rest.dropWhile (· != '\'')).drop 1)
  | fuel + 1, '%' :: rest =>
    let isPart (c : Char) : Bool := c.isAlphanum || c == '_'
    .soft (String.ofList (rest.takeWhile isPart)) :: signs fuel (rest.dropWhile isPart)
  | fuel + 1, c :: rest =>
    let isPart (c : Char) : Bool := c.isAlphanum || c == '_'
    if isPart c then
      .word (String.ofList (c :: rest.takeWhile isPart)) :: signs fuel (rest.dropWhile isPart)
    else .mark c :: signs fuel rest

private def sortNamed? : String → Option TokenSort
  | "NAME" => some .name
  | "NUMBER" => some .number
  | "STRING" => some .text
  | "NEWLINE" => some .newline
  | "INDENT" => some .indent
  | "DEDENT" => some .dedent
  | "ENDMARKER" => some .finish
  | _ => none

private def fixedItem (text : String) : Item :=
  .sort ((fixedSort? text).getD .stray)

mutual

/-- Reads alternatives up to a closing bracket or the end. -/
def readGroup (rules : Std.HashMap String Nat) : Nat → List (List Item) → List Sign →
    List (List Item) × List Sign
  | 0, acc, ss => (acc.reverse, ss)
  | fuel + 1, acc, ss =>
    let (items, rest) := readItems rules fuel [] ss
    match rest with
    | .mark '|' :: rest => readGroup rules fuel (items :: acc) rest
    | rest => ((items :: acc).reverse, rest)

/-- Reads the items of one alternative. -/
def readItems (rules : Std.HashMap String Nat) : Nat → List Item → List Sign →
    List Item × List Sign
  | 0, acc, ss => (acc.reverse, ss)
  | fuel + 1, acc, ss =>
    match ss with
    | [] => (acc.reverse, [])
    | .mark ')' :: _ => (acc.reverse, ss)
    | .mark ']' :: _ => (acc.reverse, ss)
    | .mark '|' :: _ => (acc.reverse, ss)
    | ss =>
      let (x, rest) := readItem rules fuel ss
      readItems rules fuel (x :: acc) rest

/-- Reads one item with what stands before and after it. -/
def readItem (rules : Std.HashMap String Nat) : Nat → List Sign → Item × List Sign
  | 0, ss => (.cut, ss)
  | fuel + 1, ss =>
    match ss with
    | .mark '~' :: rest => (.cut, rest)
    | .mark '&' :: .mark '&' :: .quoted t :: rest =>
      (.forced ((fixedSort? t).getD .stray) t, rest)
    | .mark '&' :: rest =>
      let (x, rest) := readItem rules fuel rest
      (.ahead x, rest)
    | .mark '!' :: rest =>
      let (x, rest) := readItem rules fuel rest
      (.notAhead x, rest)
    | ss =>
      let (x, rest) : Item × List Sign :=
        match ss with
        | .quoted t :: rest => (fixedItem t, rest)
        | .soft w :: rest => (.soft w, rest)
        | .word "SOFT_KEYWORD" :: rest => (.anySoft, rest)
        | .word w :: rest =>
          match sortNamed? w with
          | some s => (.sort s, rest)
          | none => (.rule ((rules[w]?).getD rules.size), rest)
        | .mark '(' :: rest =>
          let (alts, rest) := readGroup rules fuel [] rest
          (.group alts, rest.drop 1)
        | .mark '[' :: rest =>
          let (alts, rest) := readGroup rules fuel [] rest
          (.maybe (.group alts), rest.drop 1)
        | _ :: rest => (.cut, rest)
        | [] => (.cut, [])
      match rest with
      | .mark '*' :: rest => (.many x, rest)
      | .mark '+' :: rest => (.many1 x, rest)
      | .mark '?' :: rest => (.maybe x, rest)
      | .mark '.' :: rest =>
        let (y, rest) := readItem rules fuel rest
        match y with
        | .many1 y => (.separated x y, rest)
        | y => (.separated x y, rest)
      | rest => (x, rest)

end

private def isPrefixOf (p s : List Char) : Bool := p.isPrefixOf s

/-- Whether a written alternative names a rule that only explains. -/
def namesExplanation (ss : List Sign) : Bool :=
  ss.any fun s =>
    match s with
    | .word w => isPrefixOf "invalid_".toList w.toList
    | _ => false

/-- The grammar of some written rules. -/
def Grammar.ofTexts (texts : List RuleText) : Grammar :=
  let rules := (texts.zipIdx).foldl
    (fun (m : Std.HashMap String Nat) (t, i) => m.insert t.name i) ∅
  (texts.map fun t =>
    { name := t.name
      keeping := t.keeping
      quiet := t.quiet
      alternatives := t.alternatives.map fun (text, action) =>
        let ss := signs (text.length + 1) text.toList
        ⟨(readItems rules (4 * ss.length + 4) [] ss).1, namesExplanation ss, action⟩ }).toArray

/-- The number of the rule with a name. -/
def Grammar.find (g : Grammar) (name : String) : Nat :=
  (g.findIdx? fun r => r.name == name).getD g.size

end RepairLoop.Python
