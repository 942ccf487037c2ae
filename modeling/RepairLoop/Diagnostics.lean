import RepairLoop.Fault
import RepairLoop.Json.Parser
import RepairLoop.Pattern.Matcher
import RepairLoop.Text.Line
/-!
# Diagnostics

The errors and warnings in the output of a tool. A line that is a JSON record
with a level and a message counts as such; another line counts if it starts, a
place in a file aside, with `error` or `warning` and a colon. Each message is
kept once under its word, in order of first appearance, and at most fifty of
either sort.
-/

namespace RepairLoop

/-- The digest of some outputs. -/
structure Diagnostics where
  errors : List String
  warnings : List String
  deriving DecidableEq, Inhabited

namespace Diagnostics

/-- The most messages kept of one sort. -/
def limit : Nat := 50

/-- A message, and the word in lower case that tells its sort. -/
structure Finding where
  word : String
  message : String
  deriving DecidableEq, Inhabited

/-- An error; whatever is none is a warning. -/
def Finding.isError (f : Finding) : Bool := f.word == "error"

open Pattern in
/-- A place in a file, which is group 1, the level, which is group 2, a code
between brackets, and the message, which is group 4. -/
def textPattern : Node :=
  let m := Mode.caseless
  row [.at_ m .start,
    optional (row [
      .group 1 (row [
        .test m (.set true [.category false .space, .char ':']),
        many (.test m (.set true [.char ':'])),
        lit m ":", many1 (cat .digit), optional (row [lit m ":", many1 (cat .digit)])]),
      lit m ":", blanks]),
    .group 2 (anyLit m ["error", "warning"]),
    optional (row [lit m "[", .group 3 (many1 (.test m (.set false [.category false .word, .char '-']))),
      lit m "]"]),
    lit m ":", blanks, .group 4 (many1 (.test m (.any false))), .at_ m .finish]

/-- The finding in a line of text. -/
def ofText (line : String) : Option Finding :=
  let text := line.toList.toArray
  match textPattern.match? text with
  | none => none
  | some m =>
    let message := Text.strip ((m.group? text 4).getD "")
    let message := match m.group? text 1 with
      | some place => if place == "" then message else s!"{place}: {message}"
      | none => message
    some ⟨Text.lowerCase ((m.group? text 2).getD ""), message⟩

private def orElse (a b : Json) : Json := if a.truthy then a else b

/-- The record inside a wrapper of the build tool, or the record itself. -/
def unwrapped (ms : Members) : Members :=
  match ms.get? "reason", ms.get? "message" with
  | some (.text "compiler-message"), some (.object inner) => inner
  | _, _ => ms

/-- The finding in a record. -/
def ofRecord (ms : Members) : Option Finding :=
  let ms := unwrapped ms
  let value (key : String) : Json := (ms.get? key).getD .null
  let level := orElse (value "level") (value "severity")
  let message := match value "message" with
    | .object inner =>
      orElse ((Members.get? inner "text").getD .null) ((Members.get? inner "message").getD .null)
    | j => j
  match level, message with
  | .text level, .text message =>
    let level := Text.lowerCase level
    if level.startsWith "error" then some ⟨"error", Text.strip message⟩
    else if level.startsWith "warn" then some ⟨"warning", Text.strip message⟩
    else none
  | _, _ => none

/-- The finding in a line without blanks around it. -/
def ofLine (line : String) : Except Json.ReadError (Option Finding) :=
  if line.startsWith "\x7b" then
    match Json.parse line with
    | .ok (.object ms) => .ok (ofRecord ms)
    | .error (.tooManyDigits n) => .error (.tooManyDigits n)
    | _ => .ok (ofText line)
  else .ok (ofText line)

/-- The lines of an output that are not blank, without the blanks around them. -/
def contentLines (output : String) : List String :=
  ((Text.splitLines output).map Text.strip).filter (· != "")

/-- The findings of some lines. -/
def findings : List String → Except Json.ReadError (List Finding)
  | [] => .ok []
  | l :: ls => do
    let f ← ofLine l
    let fs ← findings ls
    .ok (f.toList ++ fs)

/-- The first occurrences of the items of a list, those of `seen` left out. -/
def firsts (seen : List Finding) : List Finding → List Finding
  | [] => []
  | f :: fs => if seen.contains f then firsts seen fs else f :: firsts (f :: seen) fs

/-- The fault of an output that cannot be read. -/
def faultOf : Json.ReadError → Fault
  | .tooManyDigits n => .badValue (Json.tooManyDigitsMessage n)
  | .malformed => .badValue "malformed"

/-- The messages of one sort. -/
def messages (errors : Bool) (fs : List Finding) : List String :=
  (fs.filter (·.isError == errors)).map Finding.message

/-- The digest of some findings. -/
def digest (fs : List Finding) : Diagnostics :=
  let fs := firsts [] (fs.filter (·.message != ""))
  ⟨(messages true fs).take limit, (messages false fs).take limit⟩

/-- The digest of some outputs. -/
def extract (outputs : List String) : Except Json.ReadError Diagnostics := do
  let fs ← findings (outputs.flatMap contentLines)
  .ok (digest fs)

end Diagnostics

end RepairLoop
