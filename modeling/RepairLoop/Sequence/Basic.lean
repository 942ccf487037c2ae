/-!
# Sequences

Slices and tallies of lists, and the edits that lead from one to another.
-/

/-!
## Slices and tallies

The part of a list between two positions: a negative position counts from the end,
and positions outside the list are moved to its nearest end. And how often each item
of a list occurs, in the order in which they first do.
-/

namespace RepairLoop

variable {α : Type}

/-- A position in a list of some length. -/
def slicePosition (length : Nat) (i : Int) : Nat :=
  if i < 0 then (Int.ofNat length + i).toNat else min i.toNat length

/-- The items from one position up to another. -/
def slice (xs : List α) (start stop : Int) : List α :=
  let a := slicePosition xs.length start
  let b := slicePosition xs.length stop
  (xs.drop a).take (b - a)

/-- The last `n` items. -/
def lastItems (n : Nat) (xs : List α) : List α :=
  xs.drop (xs.length - n)

variable [BEq α]

/-- One more occurrence of an item. -/
def count1 (x : α) : List (α × Nat) → List (α × Nat)
  | [] => [(x, 1)]
  | (y, n) :: rest => if y == x then (y, n + 1) :: rest else (y, n) :: count1 x rest

/-- How often each item occurs. -/
def tally (xs : List α) : List (α × Nat) :=
  xs.foldl (fun acc x => count1 x acc) []

end RepairLoop

/-!
## Edits between two sequences

The matching blocks cut both sequences into stretches: equal ones, and between
them stretches to replace, delete or insert. Grouped with three items of context,
a group ends where more than six equal items lie between two changes.
-/

namespace RepairLoop.Sequence

/-! ### Matching blocks of two sequences

The longest run of items that two sequences share is taken first, and the same is
done to its left and to its right. Of two runs of one length the one that starts
first counts, in the first sequence and then in the second. In a second sequence
of 200 items or more an item that makes up over one part in a hundred of it does
not open a run; it can only extend one. Items are numbers.
-/

/-- `a[left + k] = b[right + k]` for every `k < size`. -/
structure Block where
  left : Nat
  right : Nat
  size : Nat
  deriving DecidableEq, Inhabited

/-- Where an item stands in a sequence, in ascending order. -/
def positionsFrom (item : Nat) : Nat → List Nat → List Nat
  | _, [] => []
  | i, x :: xs => if x == item then i :: positionsFrom item (i + 1) xs
                  else positionsFrom item (i + 1) xs

/-- Where an item stands in a sequence, in ascending order. -/
def positions (item : Nat) (b : List Nat) : List Nat :=
  positionsFrom item 0 b

/-- For each item below `count`, where it stands, unless it is too frequent. -/
def index (b : List Nat) (count : Nat) : Array (List Nat) :=
  let n := b.length
  ((List.range count).map fun item =>
    let ps := positions item b
    if n ≥ 200 && ps.length > n / 100 + 1 then [] else ps).toArray

/-- The lengths of the runs that end at each of some positions, from the runs that
end one item earlier; both lists are ascending. -/
def extendRuns : List Nat → List (Nat × Nat) → List (Nat × Nat)
  | [], _ => []
  | j :: js, runs =>
    let runs := runs.dropWhile fun r => r.1 + 1 < j
    let k := match runs with
      | (p, len) :: _ => if p + 1 == j then len + 1 else 1
      | [] => 1
    (j, k) :: extendRuns js runs

/-- The better of a block and the runs that end at `i`: only a longer one is
better. -/
def improve (i : Nat) (best : Block) : List (Nat × Nat) → Block
  | [] => best
  | (j, k) :: rest =>
    improve i (if k > best.size then ⟨i + 1 - k, j + 1 - k, k⟩ else best) rest

/-- The best block that starts with an indexed item. -/
def scan (a : Array Nat) (idx : Array (List Nat)) (blo bhi : Nat) :
    Nat → Nat → List (Nat × Nat) → Block → Block
  | 0, _, _, best => best
  | fuel + 1, i, runs, best =>
    let ps := (idx.getD (a.getD i 0) []).filter fun j => blo ≤ j && j < bhi
    let runs := extendRuns ps runs
    scan a idx blo bhi fuel (i + 1) runs (improve i best runs)

/-- A block grown to the left as far as the items agree. -/
def growLeft (a b : Array Nat) (alo blo : Nat) : Nat → Block → Block
  | 0, m => m
  | fuel + 1, m =>
    if alo < m.left && blo < m.right && a[m.left - 1]? == b[m.right - 1]? then
      growLeft a b alo blo fuel ⟨m.left - 1, m.right - 1, m.size + 1⟩
    else m

/-- A block grown to the right as far as the items agree. -/
def growRight (a b : Array Nat) (ahi bhi : Nat) : Nat → Block → Block
  | 0, m => m
  | fuel + 1, m =>
    if m.left + m.size < ahi && m.right + m.size < bhi &&
        a[m.left + m.size]? == b[m.right + m.size]? then
      growRight a b ahi bhi fuel ⟨m.left, m.right, m.size + 1⟩
    else m

/-- The longest block between the given bounds. -/
def longest (a b : Array Nat) (idx : Array (List Nat)) (alo ahi blo bhi : Nat) : Block :=
  let m := scan a idx blo bhi (ahi - alo) alo [] ⟨alo, blo, 0⟩
  growRight a b ahi bhi b.size (growLeft a b alo blo a.size m)

/-- The blocks between the given bounds, in order. -/
def blocksFrom (a b : Array Nat) (idx : Array (List Nat)) :
    Nat → Nat → Nat → Nat → Nat → List Block
  | 0, _, _, _, _ => []
  | fuel + 1, alo, ahi, blo, bhi =>
    if alo < ahi && blo < bhi then
      let m := longest a b idx alo ahi blo bhi
      if m.size == 0 then []
      else
        blocksFrom a b idx fuel alo m.left blo m.right ++
          m :: blocksFrom a b idx fuel (m.left + m.size) ahi (m.right + m.size) bhi
    else []

/-- Blocks that touch on both sides become one. -/
def merge : List Block → List Block
  | [] => []
  | m :: rest =>
    match merge rest with
    | [] => [m]
    | n :: ns =>
      if m.left + m.size == n.left && m.right + m.size == n.right then
        ⟨m.left, m.right, m.size + n.size⟩ :: ns
      else m :: n :: ns

/-- The matching blocks of two sequences of items below `count`. -/
def blocks (a b : List Nat) (count : Nat) : List Block :=
  let av := a.toArray
  let bv := b.toArray
  merge (blocksFrom av bv (index b count) (av.size + 1) 0 av.size 0 bv.size)

/-! ### Edits -/

/-- What to do with a stretch. -/
inductive Change where
  | equal
  | replace
  | delete
  | insert
  deriving DecidableEq, Inhabited

/-- A stretch of the first sequence and the stretch of the second it becomes. -/
structure Edit where
  change : Change
  aFrom : Nat
  aTo : Nat
  bFrom : Nat
  bTo : Nat
  deriving DecidableEq, Inhabited

/-- The edit between two positions and the start of the next block. -/
def gap (i j ai bj : Nat) : List Edit :=
  if i < ai && j < bj then [⟨.replace, i, ai, j, bj⟩]
  else if i < ai then [⟨.delete, i, ai, j, bj⟩]
  else if j < bj then [⟨.insert, i, ai, j, bj⟩]
  else []

/-- The edits from two positions on, up to the ends of both sequences. -/
def editsFrom (aSize bSize : Nat) : Nat → Nat → List Block → List Edit
  | i, j, [] => gap i j aSize bSize
  | i, j, m :: ms =>
    gap i j m.left m.right ++
      ⟨.equal, m.left, m.left + m.size, m.right, m.right + m.size⟩ ::
        editsFrom aSize bSize (m.left + m.size) (m.right + m.size) ms

/-- The edits that turn the first sequence into the second. -/
def edits (a b : List Nat) (count : Nat) : List Edit :=
  editsFrom a.length b.length 0 0 (blocks a b count)

/-- An equal stretch cut down to its last `n` items. -/
def Edit.keepLast (n : Nat) (e : Edit) : Edit :=
  ⟨e.change, max e.aFrom (e.aTo - n), e.aTo, max e.bFrom (e.bTo - n), e.bTo⟩

/-- An equal stretch cut down to its first `n` items. -/
def Edit.keepFirst (n : Nat) (e : Edit) : Edit :=
  ⟨e.change, e.aFrom, min e.aTo (e.aFrom + n), e.bFrom, min e.bTo (e.bFrom + n)⟩

/-- The first edit with a long equal stretch cut short in front. -/
def trimStart (n : Nat) : List Edit → List Edit
  | [] => []
  | e :: es => (if e.change == .equal then e.keepLast n else e) :: es

/-- The last edit with a long equal stretch cut short at its end. -/
def trimEnd (n : Nat) : List Edit → List Edit
  | [] => []
  | [e] => [if e.change == .equal then e.keepFirst n else e]
  | e :: es => e :: trimEnd n es

/-- A group with a change in it. -/
def changes (group : List Edit) : Bool :=
  !group.isEmpty && !(group.length == 1 && group.all (·.change == .equal))

/-- The groups of some edits; `group` holds the edits of the open group, last
first. -/
def groupsFrom (n : Nat) (group : List Edit) : List Edit → List (List Edit)
  | [] => if changes group then [group.reverse] else []
  | e :: es =>
    if e.change == .equal && e.aTo - e.aFrom > 2 * n then
      (e.keepFirst n :: group).reverse :: groupsFrom n [e.keepLast n] es
    else groupsFrom n (e :: group) es

/-- The edits in groups with `n` items of context around each. -/
def groups (n : Nat) (es : List Edit) : List (List Edit) :=
  groupsFrom n [] (trimEnd n (trimStart n es))

end RepairLoop.Sequence
