/-!
# Tokens and trees

The parts that a Python text is cut into, and the tree that they come to.
-/

/-!
## Tokens

The sorts of token of a Python text, the keywords and operators among them, and
the position of a token: its line from one, its column in bytes from zero. A
token that has no text of its own has no column.
-/

namespace RepairLoop.Python

/-- Keywords and operators; the position in the list is the number of a token's
sort. -/
def fixedTexts : List String :=
  ["False", "None", "True", "and", "as", "assert", "async", "await", "break", "class", "continue",
    "def", "del", "elif", "else", "except", "finally", "for", "from", "global", "if", "import",
    "in", "is", "lambda", "nonlocal", "not", "or", "pass", "raise", "return", "try", "while",
    "with", "yield",
    "(", ")", "[", "]", "\x7b", "\x7d", ":", ",", ";", "+", "-", "*", "/", "|", "&", "<", ">",
    "=", ".", "%", "==", "!=", "<=", ">=", "~", "^", "<<", ">>", "**", "+=", "-=", "*=", "/=",
    "%=", "&=", "|=", "^=", "<<=", ">>=", "**=", "//", "//=", "@", "@=", "->", "...", ":=", "<>"]

/-- The sort of a token. -/
inductive TokenSort where
  | name
  | number
  | text
  | newline
  | indent
  | dedent
  | finish
  | failure
  | stray
  | fixed (i : Nat)
  deriving DecidableEq, Inhabited

/-- The sort of a keyword or operator. -/
def fixedSort? (s : String) : Option TokenSort :=
  (fixedTexts.idxOf? s).map .fixed

/-- A token. -/
structure Token where
  sort : TokenSort
  text : List Char
  line : Nat
  column : Option Nat
  endLine : Nat
  endColumn : Option Nat
  level : Nat
  deriving Inhabited

/-- Why a text is not Python: what is said, the line and the column. -/
structure SyntaxFault where
  message : String
  line : Nat
  column : Nat
  deriving DecidableEq, Inhabited

end RepairLoop.Python

/-!
## Syntax trees

The tree of a Python text. A node says what it is, where it starts and where its
last token ends; its children stand in the order of the fields of its kind. The
walk visits a tree level by level, which is the order in which the rules look at
it.
-/

namespace RepairLoop.Python

/-- The sorts of constant. -/
inductive Constant where
  | nothing
  | yes
  | no
  | ellipsis
  | whole
  | real
  | imaginary
  | text
  | bytes
  deriving DecidableEq, Inhabited

/-- What a comparison asks: whether something is a member, is none, or another
question. -/
inductive Comparison where
  | member
  | notMember
  | other
  deriving DecidableEq, Inhabited

/-- What a node is. -/
inductive Kind where
  | module
  | functionDef (name : String) (returns : Bool)
  | classDef (name : String)
  | returnStmt
  | deleteStmt
  | assign
  | augAssign
  | annAssign
  | forStmt
  | whileStmt
  | ifStmt
  | withStmt
  | matchStmt
  | raiseStmt
  | tryStmt
  | tryGroupStmt
  | assertStmt
  | importStmt (names : List String)
  | importFrom (relative : Bool) (source : String)
  | globalStmt
  | nonlocalStmt
  | exprStmt
  | passStmt
  | breakStmt
  | continueStmt
  | boolOp
  | namedExpr
  | binOp
  | unaryOp
  | lambda
  | ifExp
  | dict
  | set
  | listComp
  | setComp
  | dictComp
  | generator
  | await
  | yield
  | compare (ops : List Comparison)
  | comparePair (op : Comparison)
  | call
  | formatted
  | joined
  | constant (c : Constant)
  | attribute (name : String)
  | subscript
  | starred
  | name (name : String)
  | list
  | tuple
  | slice
  | comprehension
  | handler
  | arguments
  | parameter (name : String)
  | defaulted
  | starParameters
  | keyword (name : Option String)
  | item
  | withItem
  | matchCase
  | pattern
  | guardedName (name : String)
  deriving DecidableEq, Inhabited

/-- A node of a tree. -/
inductive Syn where
  | node (kind : Kind) (line column stop : Nat) (children : List Syn)
  deriving Inhabited

namespace Syn

/-- What the node is. -/
def kind : Syn → Kind
  | node k _ _ _ _ => k

/-- The line on which it starts, from one. -/
def line : Syn → Nat
  | node _ l _ _ _ => l

/-- The column at which it starts, in bytes from zero. -/
def column : Syn → Nat
  | node _ _ c _ _ => c

/-- The column behind its last token. -/
def stop : Syn → Nat
  | node _ _ _ e _ => e

/-- Its children. -/
def children : Syn → List Syn
  | node _ _ _ _ cs => cs

end Syn

/-- Joins two lists of levels level by level. -/
def zipLevels : List (List Syn) → List (List Syn) → List (List Syn)
  | [], bs => bs
  | as, [] => as
  | a :: as, b :: bs => (a ++ b) :: zipLevels as bs

mutual

/-- The nodes of a tree, level by level. -/
def Syn.levels : Syn → List (List Syn)
  | .node k l c e cs => [.node k l c e cs] :: levelsOf cs

/-- The nodes of some trees, level by level. -/
def levelsOf : List Syn → List (List Syn)
  | [] => []
  | t :: ts => zipLevels t.levels (levelsOf ts)

end

/-- The nodes of a tree: the root, its children, their children and so on. -/
def Syn.walk (t : Syn) : List Syn :=
  t.levels.flatten

/-- The dotted name of an expression, if it is a name with attributes. -/
def Syn.dottedName? : Syn → Option String
  | .node (.name n) _ _ _ _ => some n
  | .node (.attribute a) _ _ _ (base :: _) => (base.dottedName?).map fun b => b ++ "." ++ a
  | _ => none

/-- The dotted name of what a call calls; empty if that is no such name. -/
def Syn.calledName (call : Syn) : String :=
  ((call.children.head?).bind Syn.dottedName?).getD ""

/-- How messages name an expression. -/
def Syn.describe (t : Syn) : String :=
  match t.kind with
  | .attribute _ => "attribute"
  | .subscript => "subscript"
  | .starred => "starred"
  | .name _ => "name"
  | .list => "list"
  | .tuple => "tuple"
  | .lambda => "lambda"
  | .call => "function call"
  | .boolOp => "expression"
  | .binOp => "expression"
  | .unaryOp => "expression"
  | .generator => "generator expression"
  | .yield => "yield expression"
  | .await => "await expression"
  | .listComp => "list comprehension"
  | .setComp => "set comprehension"
  | .dictComp => "dict comprehension"
  | .dict => "dict literal"
  | .set => "set display"
  | .joined => "f-string expression"
  | .formatted => "f-string expression"
  | .constant .nothing => "None"
  | .constant .yes => "True"
  | .constant .no => "False"
  | .constant .ellipsis => "ellipsis"
  | .constant _ => "literal"
  | .compare _ => "comparison"
  | .ifExp => "conditional expression"
  | .namedExpr => "named expression"
  | _ => "expression"

/-- What a list of targets is for. -/
inductive TargetUse where
  | assigned
  | deleted
  | iterated
  deriving DecidableEq, Inhabited

mutual

/-- The first part of an expression that cannot be a target. -/
def Syn.badTarget? (use : TargetUse) : Syn → Option Syn
  | .node .list _ _ _ cs => firstBadTarget? use cs
  | .node .tuple _ _ _ cs => firstBadTarget? use cs
  | .node .starred l c e cs =>
    if use = .deleted then some (.node .starred l c e cs) else firstBadTarget? use cs
  | .node (.compare (op :: ops)) l c e (left :: rest) =>
    if use = .iterated then
      if op = .member then left.badTarget? use else none
    else some (.node (.compare (op :: ops)) l c e (left :: rest))
  | .node (.name _) _ _ _ _ => none
  | .node .subscript _ _ _ _ => none
  | .node (.attribute _) _ _ _ _ => none
  | t => some t

/-- The first part of some expressions that cannot be a target. -/
def firstBadTarget? (use : TargetUse) : List Syn → Option Syn
  | [] => none
  | t :: ts =>
    match t.badTarget? use with
    | some b => some b
    | none => firstBadTarget? use ts

end

end RepairLoop.Python
