import RepairLoop.Files.Access
import RepairLoop.Number.Decimal
import RepairLoop.World.Basic
/-!
# Everyday programs

A few small programs as they are found on most systems: what each prints, how it ends
and how long it runs, from its words, its input and the files around it.
-/

namespace RepairLoop.Rehearsal

/-- How a program ended: with an exit code or by a signal. -/
inductive Ending where
  | code (n : Nat)
  | signal (n : Nat)
  deriving DecidableEq, Inhabited

/-- The exit code of a process; one that a signal ended has the negative of it. -/
def Ending.exit : Ending → Int
  | code n => n
  | signal n => -n

/-- What a program left. -/
structure Trace where
  out : ByteArray
  err : ByteArray
  ending : Ending
  seconds : Float
  deriving Inhabited

namespace Trace

/-- A program that printed a text and succeeded. -/
def saying (s : String) : Trace := ⟨s.toUTF8, .empty, .code 0, 0.0⟩

/-- A program that printed nothing and ended with a code. -/
def quiet (code : Nat) : Trace := ⟨.empty, .empty, .code code, 0.0⟩

/-- A program that complained and ended with a code. -/
def failing (complaint : String) (code : Nat) : Trace :=
  ⟨.empty, complaint.toUTF8, .code code, 0.0⟩

end Trace

/-- What a program finds: the files, the place where it runs, and its input. -/
structure Setting where
  files : FileTree
  place : Path
  input : ByteArray
  deriving Inhabited

namespace Setting

/-- Where a path leads. -/
def location (s : Setting) (path : String) : Location :=
  (s.place.join (Path.ofString path)).collapsed.parts

/-- The content of a file as a program reads it, or why it cannot. -/
def read (s : Setting) (path : String) : Except String ByteArray :=
  if path == "-" then .ok s.input
  else if path == "/dev/null" then .ok .empty
  else
    let l := s.location path
    match s.files.content? l with
    | some content => .ok content
    | none =>
      if s.files.isDirectory l then .error "Is a directory"
      else if s.files.blocked l then .error "Not a directory"
      else .error "No such file or directory"

end Setting

/-! ## Escapes -/

private def octal (cs : List Char) : List Char := (cs.take 3).takeWhile fun c => '0' ≤ c && c ≤ '7'

private def octalValue (cs : List Char) : Nat :=
  cs.foldl (fun n c => n * 8 + (c.toNat - '0'.toNat)) 0

private def simpleEscape? : Char → Option Nat
  | 'a' => some 7
  | 'b' => some 8
  | 'f' => some 12
  | 'n' => some 10
  | 'r' => some 13
  | 't' => some 9
  | 'v' => some 11
  | '\\' => some 92
  | _ => none

/-- The bytes of a text with its escapes resolved; the first `skip` characters are passed
over. An octal escape may need a zero in front. -/
def unescaped (zero : Bool) : Nat → List Char → List UInt8
  | _, [] => []
  | skip + 1, _ :: rest => unescaped zero skip rest
  | 0, '\\' :: c :: rest =>
    match simpleEscape? c with
    | some n => n.toUInt8 :: unescaped zero 1 (c :: rest)
    | none =>
      let digits := octal (if zero && c == '0' then rest else c :: rest)
      if digits.isEmpty || (zero && c != '0') then 92 :: unescaped zero 0 (c :: rest)
      else
        (octalValue digits).toUInt8 ::
          unescaped zero (digits.length + if zero then 1 else 0) (c :: rest)
  | 0, c :: rest => (String.singleton c).toUTF8.toList ++ unescaped zero 0 rest

private def bytesOf (bs : List UInt8) : ByteArray := ⟨bs.toArray⟩

/-! ## Programs -/

/-- A word that sets how a text is echoed. -/
def isEchoFlag (word : String) : Bool :=
  match word.toList with
  | '-' :: c :: cs => (c :: cs).all ['n', 'e', 'E'].contains
  | _ => false

/-- Prints words; escapes are resolved if a flag asks for it, or always. -/
def echo (always : Bool) (words : List String) : Trace :=
  let flags := if always then words.takeWhile (· == "-n") else words.takeWhile isEchoFlag
  let has (c : Char) : Bool := flags.any fun f => f.toList.contains c
  let text := " ".intercalate (words.drop flags.length)
  let bytes :=
    if always || has 'e' then bytesOf (unescaped true 0 text.toList) else text.toUTF8
  ⟨if has 'n' then bytes else bytes ++ "\n".toUTF8, .empty, .code 0, 0.0⟩

/-- One pass over a form: what it prints, and the words that are left. -/
def formOnce : Nat → List Char → List String → List UInt8 × List String
  | _, [], words => ([], words)
  | skip + 1, _ :: rest, words => formOnce skip rest words
  | 0, '%' :: '%' :: rest, words =>
    let (bs, words) := formOnce 1 ('%' :: rest) words
    (37 :: bs, words)
  | 0, '%' :: c :: rest, words =>
    let word := words.head?.getD (if c == 'd' || c == 'i' then "0" else "")
    let shown := if c == 'c' then String.ofList (word.toList.take 1) else word
    let (bs, words) := formOnce 1 (c :: rest) words.tail
    (shown.toUTF8.toList ++ bs, words)
  | 0, '\\' :: c :: rest, words =>
    match simpleEscape? c with
    | some n =>
      let (bs, words) := formOnce 1 (c :: rest) words
      (n.toUInt8 :: bs, words)
    | none =>
      let digits := octal (c :: rest)
      if digits.isEmpty then
        let (bs, words) := formOnce 0 (c :: rest) words
        (92 :: bs, words)
      else
        let (bs, words) := formOnce digits.length (c :: rest) words
        ((octalValue digits).toUInt8 :: bs, words)
  | 0, c :: rest, words =>
    let (bs, words) := formOnce 0 rest words
    ((String.singleton c).toUTF8.toList ++ bs, words)

/-- Passes over a form as long as words are left and it takes some. -/
def formAll (form : List Char) : Nat → List String → List UInt8
  | 0, _ => []
  | n + 1, words =>
    let (bs, left) := formOnce 0 form words
    if left.isEmpty || left.length == words.length then bs else bs ++ formAll form n left

/-- Prints words after a form. -/
def printf : List String → Trace
  | [] => .failing "printf: missing operand\n" 1
  | form :: words => ⟨bytesOf (formAll form.toList (words.length + 1) words), .empty, .code 0, 0.0⟩

/-- Prints files one after the other. -/
def cat (s : Setting) (paths : List String) : Trace :=
  (if paths.isEmpty then ["-"] else paths).foldl (fun t path =>
    match s.read path with
    | .ok content => { t with out := t.out ++ content }
    | .error why =>
      { t with err := t.err ++ s!"cat: {path}: {why}\n".toUTF8, ending := .code 1 })
    (Trace.quiet 0)

/-- The first lines of some bytes. -/
def firstLines : Nat → List UInt8 → List UInt8
  | 0, _ => []
  | _ + 1, [] => []
  | n + 1, b :: bs => b :: firstLines (if b == 10 then n else n + 1) bs

/-- Prints the start of a file: so many bytes, or so many lines. -/
def head (s : Setting) (bytes : Bool) (count : Nat) (path : String) : Trace :=
  if path == "/dev/zero" then ⟨⟨Array.replicate count 0⟩, .empty, .code 0, 0.0⟩
  else match s.read path with
    | .ok content =>
      let bs := content.toList
      ⟨bytesOf (if bytes then bs.take count else firstLines count bs), .empty, .code 0, 0.0⟩
    | .error why => .failing s!"head: cannot open '{path}' for reading: {why}\n" 1

/-- Seconds as a program reads them. -/
def readSeconds (word : String) : Float :=
  let cs := word.toList
  let unit := match cs.getLast? with
    | some 'm' => 60.0
    | some 'h' => 3600.0
    | some 'd' => 86400.0
    | _ => 1.0
  let digits := cs.filter fun c => c.isDigit
  let places := ((cs.dropWhile (· != '.')).drop 1).countP Char.isDigit
  Number.nearest false ((String.ofList digits).toNat?.getD 0) (Number.tenTo places) * unit

/-- The names in a directory, each on a line. -/
def list (s : Setting) (all : Bool) (path : String) : Trace :=
  let l := s.location path
  if s.files.isDirectory l then
    let below := (s.files.below l).entries.filterMap fun (p, _) => p.head?
    let names := (below.eraseDups.filter fun n => all || !n.startsWith ".").mergeSort
    let shown := (if all then [".", ".."] else []) ++ names
    .saying (String.join (shown.map (· ++ "\n")))
  else if s.files.has l then .saying (path ++ "\n")
  else .failing s!"ls: cannot access '{path}': No such file or directory\n" 2

/-- The numbers of signals that are named. -/
def signalOf (name : String) : Nat :=
  match (name.dropPrefix? "SIG").map (·.toString) |>.getD name with
  | "HUP" => 1
  | "INT" => 2
  | "QUIT" => 3
  | "ABRT" => 6
  | "KILL" => 9
  | "USR1" => 10
  | "SEGV" => 11
  | "USR2" => 12
  | "PIPE" => 13
  | "ALRM" => 14
  | "TERM" => 15
  | other => other.toNat?.getD 15

/-- The answer to a question about texts, numbers and files. -/
def holds (s : Setting) : List String → Bool
  | ["!", a] => a == ""
  | "!" :: rest => !holds s rest
  | [a] => a != ""
  | ["-n", a] => a != ""
  | ["-z", a] => a == ""
  | ["-e", a] => s.files.has (s.location a)
  | ["-f", a] => s.files.isFile (s.location a)
  | ["-d", a] => s.files.isDirectory (s.location a)
  | [a, "=", b] => a == b
  | [a, "!=", b] => a != b
  | [a, "-eq", b] => a.toInt? == b.toInt?
  | [a, "-ne", b] => a.toInt? != b.toInt?
  | [a, "-lt", b] => (a.toInt?.getD 0) < (b.toInt?.getD 0)
  | [a, "-gt", b] => (b.toInt?.getD 0) < (a.toInt?.getD 0)
  | _ => false

/-- A program that is found by its name, with its words. -/
def program? (s : Setting) : List String → Option Trace
  | "echo" :: words => some (echo false words)
  | "printf" :: words => some (printf words)
  | "true" :: _ => some (.quiet 0)
  | "false" :: _ => some (.quiet 1)
  | ["pwd"] => some (.saying (s.place.text ++ "\n"))
  | "cat" :: paths => some (cat s paths)
  | ["head", "-c", n, path] => some (head s true (n.toNat?.getD 0) path)
  | ["head", "-n", n, path] => some (head s false (n.toNat?.getD 0) path)
  | ["head", "-c", n] => some (head s true (n.toNat?.getD 0) "-")
  | ["head", "-n", n] => some (head s false (n.toNat?.getD 0) "-")
  | ["head", path] => some (head s false 10 path)
  | ["head"] => some (head s false 10 "-")
  | "sleep" :: times =>
    some { Trace.quiet 0 with seconds := times.foldl (fun t w => t + readSeconds w) 0.0 }
  | ["ls"] => some (list s false ".")
  | ["ls", "-a"] => some (list s true ".")
  | ["ls", "-1"] => some (list s false ".")
  | ["ls", path] => some (list s false path)
  | "test" :: words => some (.quiet (if holds s words then 0 else 1))
  | "[" :: words =>
    some (if words.getLast? == some "]" then .quiet (if holds s words.dropLast then 0 else 1)
      else .failing "[: missing ']'\n" 2)
  | ["seq", last] =>
    some (.saying (String.join ((List.range (last.toNat?.getD 0)).map fun n => s!"{n + 1}\n")))
  | _ => none

/-- Why a file that is named by its path cannot be run: there is none, something on the
way is no directory, or it may not be run. -/
inductive Unstartable where
  | absent
  | blocked
  | forbidden
  deriving DecidableEq, Inhabited

/-- Why a word starts no program, if it is none of those that are found. -/
def whyUnstartable (s : Setting) (word : String) : Unstartable :=
  if word == "" then .forbidden
  else if !word.toList.contains '/' then .absent
  else
    let l := s.location word
    if s.files.blocked l then .blocked
    else if !s.files.has l then .absent
    else if word.endsWith "/" && s.files.isFile l then .blocked
    else .forbidden

end RepairLoop.Rehearsal
