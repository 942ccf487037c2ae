import RepairLoop.Inspection.Source
import RepairLoop.Pattern.Matcher
/-!
# The interface of a code

The names that a code shows to others, the names that it takes from others, and the
names that are lost from one version to the next. Where a Python text has no tree, its
lines are searched instead.
-/

namespace RepairLoop.Proposal

open Pattern

/-- Names in order, each once. -/
def sortedNames (names : List String) : List String :=
  names.eraseDups.mergeSort fun a b => a ≤ b

/-- The texts of a group in all matches of a pattern; where the group took no part,
those of another one. -/
def groupTexts (p : Node) (group other : Nat) (code : String) : List String :=
  let text := code.toList.toArray
  (p.findAll text).filterMap fun m => (m.group? text group).or (m.group? text other)

/-- A letter of ASCII or an underscore. -/
def letter (underscore : Bool) : Node :=
  .test .plain (.set false
    ([.range 65 90, .range 97 122] ++ if underscore then [.char '_'] else []))

/-- A word and at least one blank, or neither. -/
def modifier (word : String) : Node := optional (row [lit .plain word, blanks1])

/-- A public item of Rust; its name is group 1. -/
def rustItem : Node :=
  row [.at_ .plain .lineStart, blanks, lit .plain "pub",
    optional (row [lit .plain "(", many (.test .plain (.char true ')')), lit .plain ")"]),
    blanks1, modifier "async", modifier "unsafe", modifier "const",
    anyLit .plain ["fn", "struct", "enum", "trait", "type", "const", "static", "mod"], blanks1,
    .group 1 (row [letter true, many (cat .word)])]

/-- A definition at the start of a line; its name is group 1. -/
def pythonItem : Node :=
  row [.at_ .plain .lineStart,
    oneOf [row [lit .plain "async", blanks1, lit .plain "def"], lit .plain "def",
      lit .plain "class"],
    blanks1, .group 1 (row [letter false, many (cat .word)])]

/-- The name of a definition that is not private. -/
def definedName? (t : Python.Syn) : Option String :=
  match t.kind with
  | .functionDef name _ => if name.startsWith "_" then none else some name
  | .classDef name => if name.startsWith "_" then none else some name
  | _ => none

/-- The tree of a text, or none where the text has none; a null character stops the
operation. -/
def treeOf (code : String) : Except Fault (Option Python.Syn) :=
  if code.toList.contains '\x00' then .error (.badValue SourceFault.nulCharacter.message)
  else
    match Python.parseText code with
    | .ok t => .ok (some t)
    | .error _ => .ok none

/-- The names that a code shows to others. -/
def publicNames (code : String) (language : Language) : Except Fault (List String) :=
  match language with
  | .rust => .ok (sortedNames (groupTexts rustItem 1 1 code))
  | .python => do
    match ← treeOf code with
    | some t => .ok (sortedNames (t.children.filterMap definedName?))
    | none => .ok (sortedNames (groupTexts pythonItem 1 1 code))
  | .text => .ok []

/-- What is said of the names that a change takes away. -/
def breakingChanges (before after : String) (language : Language) :
    Except Fault (List String) := do
  let old ← publicNames before language
  let new ← publicNames after language
  .ok ((old.filter fun n => !new.contains n).map fun n =>
    s!"Public symbol '{n}' was removed or renamed")

/-- A use of a path in Rust; the path is group 1. -/
def rustUse : Node :=
  row [.at_ .plain .lineStart, blanks, optional (row [lit .plain "pub", blanks1]),
    lit .plain "use", blanks1,
    .group 1 (many1 (.test .plain (.set false [.category false .word, .char ':'])))]

/-- An external crate; its name is group 1. -/
def rustCrate : Node :=
  row [.at_ .plain .lineStart, blanks, lit .plain "extern", blanks1, lit .plain "crate", blanks1,
    .group 1 (many1 (cat .word))]

/-- The root of a path in lower case; it is group 1. -/
def rustRoot : Node :=
  let first : List Member := [.range 97 122, .char '_']
  row [edge, .group 1 (row [.test .plain (.set false first),
    many (.test .plain (.set false (first ++ [.range 48 57])))]), lit .plain "::"]

/-- An import; the module is group 1 or group 2. -/
def pythonImport : Node :=
  let dotted := many1 (.test .plain (.set false [.category false .word, .char '.']))
  row [.at_ .plain .lineStart, blanks,
    oneOf [
      row [lit .plain "from", blanks1, .group 1 dotted, blanks1, lit .plain "import"],
      row [lit .plain "import", blanks1, .group 2 dotted]]]

/-- The modules that an import names; a relative one names none. -/
def importedNames (t : Python.Syn) : List String :=
  match t.kind with
  | .importStmt names => names
  | .importFrom false source => if source == "" then [] else [source]
  | _ => []

/-- The names that a code takes from others. -/
def dependencies (code : String) (language : Language) : Except Fault (List String) :=
  match language with
  | .rust =>
    let uses := (groupTexts rustUse 1 1 code).map fun s =>
      String.ofList (Text.dropTrailing (· == ':') s.toList)
    let roots := (groupTexts rustRoot 1 1 code).filter fun s =>
      !(["self", "super", "crate"].contains s)
    .ok (sortedNames (uses ++ groupTexts rustCrate 1 1 code ++ roots))
  | .python => do
    match ← treeOf code with
    | some t => .ok (sortedNames (t.walk.flatMap importedNames))
    | none => .ok (sortedNames (groupTexts pythonImport 1 2 code))
  | .text => .ok []

end RepairLoop.Proposal
