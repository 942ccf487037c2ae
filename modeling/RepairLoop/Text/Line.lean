/-!
# Lines of a text

A text is cut after every line boundary: line feed, carriage return (a carriage
return with a line feed after it is one boundary), vertical tab, form feed, the
file, group and record separators, next line, and the line and paragraph
separators. A last line may lack a boundary; an empty text has no line. The main
statement is `join_lines`: no character is lost. A text may also be cut at every
occurrence of a character, or at the first one.
-/

namespace RepairLoop.Text

/-- A character that ends a line. -/
def isLineBoundary (c : Char) : Bool :=
  let n := c.toNat
  (10 ≤ n && n ≤ 13) || (28 ≤ n && n ≤ 30) || n == 0x85 || n == 0x2028 || n == 0x2029

/-- One line: what it holds and the boundary that ends it, which only a last line
may lack. -/
structure Line where
  body : List Char
  ending : List Char
  deriving DecidableEq, Inhabited

namespace Line

/-- The line as it stands in the text. -/
def full (l : Line) : List Char :=
  l.body ++ l.ending

end Line

/-- A character put in front of the first of some lines. -/
def consLine (c : Char) : List Line → List Line
  | [] => [⟨[c], []⟩]
  | l :: ls => ⟨c :: l.body, l.ending⟩ :: ls

/-- The lines of a text. -/
def lines : List Char → List Line
  | [] => []
  | '\r' :: '\n' :: rest => ⟨[], ['\r', '\n']⟩ :: lines rest
  | c :: rest => if isLineBoundary c then ⟨[], [c]⟩ :: lines rest else consLine c (lines rest)

/-- The lines of a text without their boundaries. -/
def lineBodies (cs : List Char) : List (List Char) :=
  (lines cs).map Line.body

/-- The lines of a text with their boundaries. -/
def fullLines (cs : List Char) : List (List Char) :=
  (lines cs).map Line.full

theorem flatten_consLine (c : Char) (ls : List Line) :
    ((consLine c ls).map Line.full).flatten = c :: (ls.map Line.full).flatten := by
  cases ls with
  | nil => rfl
  | cons l ls => simp [consLine, Line.full]

/-- No character is lost: the full lines in a row are the text. -/
theorem join_lines (cs : List Char) : (fullLines cs).flatten = cs := by
  unfold fullLines
  fun_induction lines cs with
  | case1 => rfl
  | case2 rest ih => simp [Line.full, ih]
  | case3 c rest _ hb ih => simp [Line.full, ih]
  | case4 c rest _ hb ih => rw [flatten_consLine, ih]

/-- A text in which every carriage return, with the line feed behind it if there is
one, has become a line feed. -/
def unifyFeeds : List Char → List Char
  | [] => []
  | '\r' :: '\n' :: rest => '\n' :: unifyFeeds rest
  | '\r' :: rest => '\n' :: unifyFeeds rest
  | c :: rest => c :: unifyFeeds rest

/-- The lines of a string without their boundaries. -/
def splitLines (s : String) : List String :=
  (lineBodies s.toList).map String.ofList

/-! ## Pieces -/

/-- A character put in front of the first of some pieces. -/
def consPiece (c : Char) : List (List Char) → List (List Char)
  | [] => [[c]]
  | p :: ps => (c :: p) :: ps

/-- The pieces between the occurrences of a character; there is at least one. -/
def pieces (sep : Char) : List Char → List (List Char)
  | [] => [[]]
  | c :: rest => if c == sep then [] :: pieces sep rest else consPiece c (pieces sep rest)

/-- The text up to the first occurrence of a character, and what follows it. -/
def cutAt (sep : Char) (cs : List Char) : List Char × List Char :=
  (cs.takeWhile (· != sep), (cs.dropWhile (· != sep)).drop 1)

theorem pieces_ne_nil (sep : Char) (cs : List Char) : pieces sep cs ≠ [] := by
  cases cs with
  | nil => simp [pieces]
  | cons c rest =>
    unfold pieces
    split
    · simp
    · unfold consPiece
      split <;> simp

/-- A piece that holds no separator stands before what follows the separator. -/
theorem pieces_append_cons (sep : Char) (p rest : List Char) (h : ∀ c ∈ p, (c == sep) = false) :
    pieces sep (p ++ sep :: rest) = p :: pieces sep rest := by
  induction p with
  | nil => simp [pieces]
  | cons c p ih =>
    have hc : (c == sep) = false := h c (by simp)
    have hp : ∀ d ∈ p, (d == sep) = false := fun d hd => h d (by simp [hd])
    simp [pieces, hc, ih hp, consPiece]

end RepairLoop.Text
