import RepairLoop.Diff.Basic
import RepairLoop.Sequence.Basic
/-!
# The diff between two texts

Both texts are cut into lines that keep their boundaries, and the edits between
the two are shown in hunks with three lines of context. A line that does not end
with a line feed gets one, and a marker after it says so. Equal texts have an
empty diff.
-/

namespace RepairLoop.Diff

/-- Each item of a list as the position of its first occurrence in `seen`, which
holds the items met so far. -/
def numberLines (seen : List (List Char)) : List (List Char) → List Nat × List (List Char)
  | [] => ([], seen)
  | l :: ls =>
    match seen.idxOf? l with
    | some i =>
      let (ns, seen) := numberLines seen ls
      (i :: ns, seen)
    | none =>
      let (ns, seen') := numberLines (seen ++ [l]) ls
      (seen.length :: ns, seen')

/-- The groups of edits between two lists of lines. -/
def lineGroups (a b : List (List Char)) : List (List Sequence.Edit) :=
  let (xs, seen) := numberLines [] a
  let (ys, seen) := numberLines seen b
  Sequence.groups 3 (Sequence.edits xs ys seen.length)

/-- A range of lines in a hunk header: a single line has no count, and an empty
range starts one line earlier. -/
def rangeText (start stop : Nat) : String :=
  let size := stop - start
  if size == 1 then s!"{start + 1}"
  else if size == 0 then s!"{start},0"
  else s!"{start + 1},{size}"

/-- The lines `from` up to `to` of a list. -/
def slice {α : Type} (xs : List α) (start stop : Nat) : List α :=
  (xs.drop start).take (stop - start)

/-- A line of a diff; one without a final line feed is followed by the marker. -/
def written (tag : Tag) (line : List Char) : List Char :=
  let full := tag.char :: line
  if line.getLast? == some '\n' then full
  else full ++ "\n\\ No newline at end of file\n".toList

/-- The lines that an edit shows. -/
def editLines (a b : List (List Char)) (e : Sequence.Edit) : List Char :=
  let old := slice a e.aFrom e.aTo
  let new := slice b e.bFrom e.bTo
  match e.change with
  | .equal => old.flatMap (written .context)
  | .delete => old.flatMap (written .removed)
  | .insert => new.flatMap (written .added)
  | .replace => old.flatMap (written .removed) ++ new.flatMap (written .added)

/-- One hunk. -/
def groupText (a b : List (List Char)) (group : List Sequence.Edit) : List Char :=
  let first := group.headD default
  let last := group.getLastD default
  s!"@@ -{rangeText first.aFrom last.aTo} +{rangeText first.bFrom last.bTo} @@\n".toList ++
    group.flatMap (editLines a b)

/-- The diff between two texts, as a change of the file at `path`. -/
def makeChars (original updated : List Char) (path : String) : List Char :=
  let a := Text.fullLines original
  let b := Text.fullLines updated
  match lineGroups a b with
  | [] => []
  | groups =>
    s!"diff --git a/{path} b/{path}\n--- a/{path}\n+++ b/{path}\n".toList ++
      groups.flatMap (groupText a b)

/-- The diff between two texts, as a change of the file at `path`. -/
def make (original updated path : String) : String :=
  String.ofList (makeChars original.toList updated.toList path)

end RepairLoop.Diff
