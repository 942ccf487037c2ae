import RepairLoop.Fault
import RepairLoop.Files.Tree
import RepairLoop.Glob
import RepairLoop.Path
import RepairLoop.Text.Quoted
/-!
# Access to files

Files of a tree are searched for by name, written and removed.
-/

/-!
## Searching files

A search names files below a directory: a name leads to what it names, a glob to all
whose names fit it, and two stars to the directory and all directories below it. What
stands between two parts of a search is a directory.
-/

namespace RepairLoop

/-- A part of a search. -/
inductive SearchPart where
  | name (s : String)
  | glob (pieces : List Glob.Piece)
  | deep
  deriving Inhabited

/-- A search: its parts, and whether only directories are sought. -/
structure Search where
  parts : List SearchPart
  onlyDirectories : Bool
  deriving Inhabited

/-- Why a text is no search. -/
inductive SearchFault where
  | empty
  | absolute
  | onlyDot
  | onlyDotSlash
  | mixedStars
  deriving DecidableEq, Inhabited

namespace SearchFault

/-- What is said of a text that is no search. -/
def message : SearchFault → String
  | empty => "Unacceptable pattern: ''"
  | absolute => "Non-relative patterns are unsupported"
  | onlyDot => "tuple index out of range"
  | onlyDotSlash => "'_TerminatingSelector' object has no attribute 'select_from'"
  | mixedStars => "Invalid pattern: '**' can only be an entire path component"

/-- The fault that stops an operation. -/
def toFault (f : SearchFault) : Fault :=
  .mishap (match f with
    | empty => .badValue
    | absolute => .unsupported
    | onlyDot => .badIndex
    | onlyDotSlash => .missingAttribute
    | mixedStars => .badValue) f.message

end SearchFault

namespace SearchPart

/-- Two stars in a row stand somewhere in a text. -/
def hasTwoStars : List Char → Bool
  | '*' :: '*' :: _ => true
  | _ :: rest => hasTwoStars rest
  | [] => false

/-- The part that a component stands for. -/
def ofComponent (s : String) : Except SearchFault SearchPart :=
  if s == "**" then .ok .deep
  else if hasTwoStars s.toList then .error .mixedStars
  else if s.toList.any ['*', '?', '['].contains then .ok (.glob (Glob.pieces 0 s.toList))
  else .ok (.name s)

end SearchPart

namespace Search

/-- Reads a search. -/
def ofString (s : String) : Except SearchFault Search := do
  if s == "" then .error .empty
  else if s.startsWith "/" then .error .absolute
  else
    let components := Path.components s
    let onlyDirectories := s.endsWith "/"
    if components.isEmpty then .error (if onlyDirectories then .onlyDotSlash else .onlyDot)
    else
      let parts ← components.mapM SearchPart.ofComponent
      .ok ⟨parts, onlyDirectories⟩

end Search

namespace FileTree

/-- Where a way below a directory leads; double dots in it go back. -/
def reached (base : Path) (way : List String) : Location :=
  Path.collapse [] (base.parts ++ way)

/-- The names of what stands in a directory. -/
def namesIn (t : FileTree) (p : Location) : List String :=
  (t.entries.filterMap fun (q, _) =>
    if p.isPrefixOf q then q[p.length]? else none).eraseDups

/-- The beginnings of a way, itself included. -/
def beginnings (way : List String) : List (List String) :=
  (List.range (way.length + 1)).map way.take

/-- The directories below a directory, as ways from there, itself included. -/
def waysDown (t : FileTree) (p : Location) : List (List String) :=
  let below := t.entries.flatMap fun (q, _) =>
    if p.isPrefixOf q then beginnings (q.drop p.length) else []
  ([] :: below).eraseDups.filter fun way => t.isDirectory (p ++ way)

/-- The ways from a directory that a search leads to, continued from one way. -/
def waysFrom (t : FileTree) (base : Path) (onlyDirectories : Bool) :
    List SearchPart → List String → List (List String)
  | [], way => [way]
  | part :: rest, way =>
    let fits (next : List String) : Bool :=
      let l := reached base next
      if onlyDirectories || !rest.isEmpty then t.isDirectory l else t.has l
    match part with
    | .name s =>
      let next := way ++ [s]
      if fits next then t.waysFrom base onlyDirectories rest next else []
    | .glob pieces =>
      (t.namesIn (reached base way)).flatMap fun name =>
        let next := way ++ [name]
        if Glob.fits pieces name.toList && fits next then
          t.waysFrom base onlyDirectories rest next
        else []
    | .deep =>
      (t.waysDown (reached base way)).flatMap fun down =>
        t.waysFrom base onlyDirectories rest (way ++ down)

/-- The ways from a directory that a search leads to. -/
def waysOf (t : FileTree) (base : Path) (s : Search) : List (List String) :=
  if t.isDirectory base.parts then t.waysFrom base s.onlyDirectories s.parts [] else []

/-- The size of the files that some searches find, each counted once. -/
def sizeFound (t : FileTree) (base : Path) (searches : List Search) : Nat :=
  let ways := (searches.flatMap (t.waysOf base)).eraseDups
  ways.foldr (fun way n =>
    match t.content? (reached base way) with
    | some content => content.size + n
    | none => n) 0

/-- The size of the files that some patterns find below a directory. -/
def sizeMatching (t : FileTree) (base : Path) (patterns : List String) :
    Except SearchFault Nat := do
  let searches ← patterns.mapM Search.ofString
  .ok (t.sizeFound base searches)

end FileTree

end RepairLoop

/-!
## Access to files

Writing and removing files of a tree by their paths, with the faults that the state of
the tree may cause: a directory stands where a file is wanted, or a file where a
directory is.
-/

namespace RepairLoop

/-- Why a file cannot be written or removed. -/
inductive AccessFault where
  | exists_ (path : String)
  | noDirectory (path : String)
  | isDirectory (path : String)
  | missing (path : String)
  deriving DecidableEq, Inhabited

namespace AccessFault

/-- What is said of a file that cannot be written or removed. -/
def message : AccessFault → String
  | exists_ p => s!"[Errno 17] File exists: {Text.quoted p}"
  | noDirectory p => s!"[Errno 20] Not a directory: {Text.quoted p}"
  | isDirectory p => s!"[Errno 21] Is a directory: {Text.quoted p}"
  | missing p => s!"[Errno 2] No such file or directory: {Text.quoted p}"

/-- The fault that stops an operation. -/
def toFault (f : AccessFault) : Fault :=
  .mishap (match f with
    | exists_ _ => .fileExists
    | noDirectory _ => .directoryExpected
    | isDirectory _ => .fileExpected
    | missing _ => .missingFile) f.message

end AccessFault

namespace FileTree

/-- A file or a link stands at a location. -/
def isLeaf (t : FileTree) (p : Location) : Bool := t.has p && !t.isDirectory p

/-- A file stands where a directory on the way to a location is wanted. -/
def blocked (t : FileTree) (p : Location) : Bool :=
  (List.range p.length).any fun n => n != 0 && t.isLeaf (p.take n)

/-- Makes a directory and those around it. -/
def makeDirectories (t : FileTree) (p : Path) : Except AccessFault FileTree :=
  if t.blocked p.parts then .error (.noDirectory p.text)
  else if t.isLeaf p.parts then .error (.exists_ p.text)
  else .ok (t.makeDirectory p.parts)

/-- Writes a file, with the directories around it. -/
def writeDeep (t : FileTree) (p : Path) (content : ByteArray) : Except AccessFault FileTree := do
  let t ← t.makeDirectories p.parent
  if t.isDirectory p.parts then .error (.isDirectory p.text) else .ok (t.write p.parts content)

/-- Removes what stands at a location, if it is no directory. -/
def unlink (t : FileTree) (p : Path) : Except AccessFault FileTree :=
  if t.isDirectory p.parts then .error (.isDirectory p.text)
  else if t.has p.parts then .ok (t.remove p.parts)
  else .ok t

end FileTree

/-! ### Links

A way through a tree may lead over links. A link is followed to its end before the way goes
on, so what `FileTree.resolve` yields has no link and no double dots on its way. What is not
there is no link, and a link that leads back to itself is a fault, whatever follows it.
-/

/-- Why a way cannot be followed. -/
inductive WayFault where
  | nulCharacter
  | endless (path : String)
  | nameTooLong (path : String)
  deriving DecidableEq, Inhabited

namespace WayFault

/-- What is said of a way that cannot be followed. -/
def message : WayFault → String
  | nulCharacter => "lstat: embedded null character in path"
  | endless p => s!"Symlink loop from {Text.quoted p}"
  | nameTooLong p => s!"[Errno 36] File name too long: {Text.quoted p}"

/-- The fault that stops an operation. -/
def toFault (f : WayFault) : Fault :=
  .mishap (match f with
    | nulCharacter => .badValue
    | endless _ => .aborted
    | nameTooLong _ => .system) f.message

end WayFault

namespace FileTree

/-- Where a link points. -/
def link? (t : FileTree) (p : Location) : Option Path :=
  match t.entry? p with
  | some (.link target) => some (Path.ofString target)
  | _ => none

/-- Where a way leads that continues from a location, if `enter` says where the links lead;
else what is left of it at a link that leads nowhere. -/
def walk (t : FileTree) (enter : Location → Path → Except Location Location) (done : Location) :
    List String → Except Location Location
  | [] => .ok done
  | name :: rest =>
    if name == ".." then t.walk enter done.dropLast rest
    else
      match t.link? (done ++ [name]) with
      | none => t.walk enter (done ++ [name]) rest
      | some target =>
        match enter (done ++ [name]) target with
        | .ok reached => t.walk enter reached rest
        | .error left => .error (left ++ rest)

/-- Where a way leads that continues from a location. The links that it is part of are in
`entered`, and `fuel` bounds how many more may come to be; a link of a tree is in it once. -/
def follow (t : FileTree) : Nat → List Location → Location → List String → Except Location Location
  | 0, _ => t.walk fun link _ => .error link
  | fuel + 1, entered => t.walk fun link target =>
    if entered.contains link then .error link
    else
      t.follow fuel (link :: entered) (if target.isAbsolute then [] else link.dropLast) target.parts

/-- The location that an absolute path leads to. -/
def resolve (t : FileTree) (p : Path) : Except WayFault Location :=
  (t.follow t.entries.length [] [] p.parts).mapError fun left =>
    .endless (Path.mk .root left).collapsed.text

/-- The longest name of a file and the longest path, in bytes. -/
def lengthLimits : Nat × Nat := (255, 4095)

/-- A path is longer than the system takes, or a name in an existing directory is. -/
def isTooLong (t : FileTree) (p : Location) : Bool :=
  lengthLimits.2 < (locationText p).utf8ByteSize + 1 ||
    (List.range p.length).any fun n =>
      match p[n]? with
      | some name => lengthLimits.1 < name.utf8ByteSize && t.isDirectory (p.take n)
      | none => false

end FileTree

end RepairLoop
