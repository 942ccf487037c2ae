/-!
# Words of a command line

A command line is cut into words at blanks outside quotes. Between single quotes
every character stands for itself; between double quotes a backslash keeps its
place unless a double quote or a backslash follows; elsewhere a backslash makes
the next character stand for itself. Writing words back quotes those that hold
anything but letters, digits and a few signs.
-/

namespace RepairLoop.Command

/-- Why a command line has no words. -/
inductive SplitError where
  | noClosingQuotation
  | noEscapedCharacter
  deriving DecidableEq, Inhabited

/-- What is said of a command line without words. -/
def SplitError.message : SplitError → String
  | noClosingQuotation => "No closing quotation"
  | noEscapedCharacter => "No escaped character"

/-- A blank between words. -/
def isWordGap (c : Char) : Bool :=
  c == ' ' || c == '\t' || c == '\r' || c == '\n'

/-- What surrounds the current character. -/
inductive Quoting where
  | none
  | single
  | double
  deriving DecidableEq, Inhabited

/-- The words of the rest of a line. The pending word is absent between words; its
letters are held last first. -/
def splitFrom : Quoting → Option (List Char) → List Char → Except SplitError (List (List Char))
  | .none, pending, [] => .ok ((pending.map List.reverse).toList)
  | _, _, [] => .error .noClosingQuotation
  | .none, pending, c :: rest =>
    if isWordGap c then do
      let ws ← splitFrom .none none rest
      .ok ((pending.map List.reverse).toList ++ ws)
    else if c == '\'' then splitFrom .single (some (pending.getD [])) rest
    else if c == '"' then splitFrom .double (some (pending.getD [])) rest
    else if c == '\\' then
      match rest with
      | [] => .error .noEscapedCharacter
      | d :: rest => splitFrom .none (some (d :: pending.getD [])) rest
    else splitFrom .none (some (c :: pending.getD [])) rest
  | .single, pending, c :: rest =>
    if c == '\'' then splitFrom .none pending rest
    else splitFrom .single (some (c :: pending.getD [])) rest
  | .double, pending, c :: rest =>
    if c == '"' then splitFrom .none pending rest
    else if c == '\\' then
      match rest with
      | [] => .error .noEscapedCharacter
      | d :: rest =>
        if d == '"' || d == '\\' then splitFrom .double (some (d :: pending.getD [])) rest
        else splitFrom .double (some (d :: '\\' :: pending.getD [])) rest
    else splitFrom .double (some (c :: pending.getD [])) rest

/-- The words of a command line. -/
def split (s : String) : Except SplitError (List String) :=
  (splitFrom .none none s.toList).map fun ws => ws.map String.ofList

/-- A character that needs no quotes. -/
def isPlain (c : Char) : Bool :=
  c.isAlphanum || ['_', '@', '%', '+', '=', ':', ',', '.', '/', '-'].contains c

/-- A word as it is written in a command line. -/
def quote (s : String) : String :=
  let cs := s.toList
  if cs.isEmpty then "''"
  else if cs.all isPlain then s
  else
    "'" ++ String.ofList (cs.flatMap fun c => if c == '\'' then "'\"'\"'".toList else [c]) ++ "'"

/-- Words as a command line. -/
def display (ws : List String) : String :=
  " ".intercalate (ws.map quote)

end RepairLoop.Command
