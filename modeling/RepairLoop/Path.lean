/-!
# Paths

A path is an anchor and a list of components; empty components and single dots
are dropped when it is read. `text` writes it back with single slashes. Two
leading slashes are an anchor of their own.
-/

namespace RepairLoop

/-- Where a path starts. -/
inductive Anchor where
  | relative
  | root
  | doubleRoot
  deriving DecidableEq, Inhabited

/-- A path: where it starts, and its components. -/
structure Path where
  anchor : Anchor
  parts : List String
  deriving DecidableEq, Inhabited

namespace Path

/-- The pieces of a text between slashes. -/
def pieces (s : String) : List String :=
  (s.toList.splitOn '/').map String.ofList

/-- The components of a text: its pieces without empty ones and single dots. -/
def components (s : String) : List String :=
  (pieces s).filter fun p => p != "" && p != "."

/-- The anchor that a text starts with. -/
def anchorOf (cs : List Char) : Anchor :=
  match cs with
  | '/' :: '/' :: '/' :: _ => .root
  | '/' :: '/' :: _ => .doubleRoot
  | '/' :: _ => .root
  | _ => .relative

/-- Reads a path. -/
def ofString (s : String) : Path :=
  ⟨anchorOf s.toList, components s⟩

/-- The text of an anchor. -/
def anchorText : Anchor → String
  | .relative => ""
  | .root => "/"
  | .doubleRoot => "//"

/-- The text of a path; the empty relative path is a dot. -/
def text (p : Path) : String :=
  let s := anchorText p.anchor ++ "/".intercalate p.parts
  if s == "" then "." else s

/-- A path that starts at the root. -/
def isAbsolute (p : Path) : Bool :=
  p.anchor != .relative

/-- The path `q` as seen from `p`: an absolute one stands for itself. -/
def join (p q : Path) : Path :=
  if q.isAbsolute then q else ⟨p.anchor, p.parts ++ q.parts⟩

/-- The last component, empty where there is none. -/
def name (p : Path) : String :=
  p.parts.getLast?.getD ""

/-- The part of a name from its last dot on, if the dot is neither its first nor
its last character. -/
def suffixOf (name : String) : String :=
  let rev := name.toList.reverse
  let tail := rev.takeWhile (· != '.')
  let stem := rev.drop (tail.length + 1)
  if tail.isEmpty || tail.length == rev.length || stem.isEmpty then ""
  else String.ofList ('.' :: tail.reverse)

/-- The suffix of the last component. -/
def suffix (p : Path) : String :=
  suffixOf p.name

/-- The path without its last component. -/
def parent (p : Path) : Path :=
  ⟨p.anchor, p.parts.dropLast⟩

/-- A component list in which every double dot has taken back the component
before it; `done` holds the components kept, last first. -/
def collapse (done : List String) : List String → List String
  | [] => done.reverse
  | ".." :: rest => collapse done.tail rest
  | p :: rest => collapse (p :: done) rest

/-- An absolute path without double dots. -/
def collapsed (p : Path) : Path :=
  ⟨p.anchor, collapse [] p.parts⟩

/-- The components of `p` below `base`, if `p` lies at or below it. -/
def below? (p base : Path) : Option (List String) :=
  if p.anchor == base.anchor && base.parts.isPrefixOf p.parts then
    some (p.parts.drop base.parts.length)
  else none

end Path

end RepairLoop
