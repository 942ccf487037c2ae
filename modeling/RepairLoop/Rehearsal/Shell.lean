import RepairLoop.Rehearsal.Program
import RepairLoop.Rehearsal.Repository
import RepairLoop.Text.Encoded
import RepairLoop.Text.Quoted
/-!
# A small shell

A shell that runs everyday programs one after the other: as long as they succeed, if
the one before failed, or in any case; with the output of one as the input of the next;
and with outputs that go to another stream, to a file or nowhere.
-/

namespace RepairLoop.Rehearsal

/-- A piece of a word: characters, or a name whose value is put there. -/
inductive WordPart where
  | chars (cs : List Char)
  | value (name : String) (quoted : Bool)
  deriving Inhabited

/-- A word, or a sign between words. -/
inductive Lexeme where
  | word (parts : List WordPart)
  | sign (s : String)
  deriving Inhabited

namespace Shell

/-- The signs, the longer ones first. -/
def signs : List String :=
  ["2>&1", "1>&2", "2>>", "1>>", ">&2", ">&1", "&&", "||", ">>", "2>", "1>", ";", "|", "&", ">",
    "<", "\n"]

private def isNameChar (c : Char) : Bool := c.isAlphanum || c == '_'

/-- The name behind a dollar sign. -/
def nameAt : List Char → Option String
  | [] => none
  | c :: rest =>
    if ['?', '$', '#'].contains c then some (String.singleton c)
    else if c.isAlpha || c == '_' then some (String.ofList (c :: rest.takeWhile isNameChar))
    else none

/-- What is between double quotes, up to the closing one, and how many characters that
takes; the first `skip` characters are passed over. -/
def inDouble : Nat → Nat → List Char → List WordPart → Option (List WordPart × Nat)
  | _, _, [], _ => none
  | skip + 1, used, _ :: rest, parts => inDouble skip (used + 1) rest parts
  | 0, used, '"' :: _, parts => some (parts, used + 1)
  | 0, used, '\\' :: c :: rest, parts =>
    let cs := if ['$', '\x60', '"', '\\'].contains c then [c] else ['\\', c]
    inDouble 0 (used + 2) rest (parts ++ [.chars cs])
  | 0, used, '$' :: rest, parts =>
    match nameAt rest with
    | some name => inDouble name.length (used + 1) rest (parts ++ [.value name true])
    | none => inDouble 0 (used + 1) rest (parts ++ [.chars ['$']])
  | 0, used, c :: rest, parts => inDouble 0 (used + 1) rest (parts ++ [.chars [c]])

/-- The words and signs of a script; the first `skip` characters are passed over, and
the word that has begun is held. -/
def lexemes : Nat → Option (List WordPart) → List Char → Option (List Lexeme)
  | _, pending, [] => some (pending.map Lexeme.word).toList
  | skip + 1, pending, _ :: rest => lexemes skip pending rest
  | 0, pending, c :: rest =>
    let sign := signs.find? fun s =>
      s.toList.isPrefixOf (c :: rest) && (pending.isNone || !c.isDigit)
    match sign with
    | some s => do
      let more ← lexemes (s.length - 1) none rest
      some ((pending.map Lexeme.word).toList ++ .sign s :: more)
    | none =>
      let parts := pending.getD []
      if c == ' ' || c == '\t' then do
        let more ← lexemes 0 none rest
        some ((pending.map Lexeme.word).toList ++ more)
      else if c == '#' && pending.isNone then
        lexemes (rest.takeWhile (· != '\n')).length none rest
      else if c == '\'' then
        let inside := rest.takeWhile (· != '\'')
        if inside.length == rest.length then none
        else lexemes (inside.length + 1) (some (parts ++ [.chars inside])) rest
      else if c == '"' then
        match inDouble 0 0 rest [] with
        | none => none
        | some (inside, used) => lexemes used (some (parts ++ .chars [] :: inside)) rest
      else if c == '\\' then
        match rest with
        | [] => some [.word (parts ++ [.chars ['\\']])]
        | d :: _ => lexemes 1 (if d == '\n' then pending else some (parts ++ [.chars [d]])) rest
      else if c == '$' then
        match nameAt rest with
        | some name => lexemes name.length (some (parts ++ [.value name false])) rest
        | none => lexemes 0 (some (parts ++ [.chars [c]])) rest
      else lexemes 0 (some (parts ++ [.chars [c]])) rest

/-- Where an output or the input goes to or comes from. -/
structure Redirect where
  sign : String
  target : List WordPart
  deriving Inhabited

/-- A command: its words and where its streams go. -/
structure Simple where
  words : List (List WordPart)
  redirects : List Redirect
  deriving Inhabited

/-- Commands with the output of each as the input of the next, and the sign in front of
the first. -/
structure Step where
  link : String
  commands : List Simple
  deriving Inhabited

private def links : List String := [";", "\n", "&", "&&", "||"]

/-- The steps of a script; the step and the command that have begun are held. -/
def steps (step : Step) (c : Simple) : List Lexeme → List Step
  | [] => [{ step with commands := step.commands ++ [c] }]
  | .word w :: rest => steps step { c with words := c.words ++ [w] } rest
  | .sign s :: rest =>
    if s == "|" then steps { step with commands := step.commands ++ [c] } default rest
    else if links.contains s then
      { step with commands := step.commands ++ [c] } :: steps ⟨s, []⟩ default rest
    else match rest with
      | .word w :: rest =>
        if s.endsWith "&1" || s.endsWith "&2" then
          steps step { words := c.words ++ [w], redirects := c.redirects ++ [⟨s, []⟩] } rest
        else steps step { c with redirects := c.redirects ++ [⟨s, w⟩] } rest
      | rest => steps step { c with redirects := c.redirects ++ [⟨s, []⟩] } rest

/-- The state of a shell. -/
structure State where
  setting : Setting
  names : List (String × String)
  status : Nat
  out : ByteArray
  err : ByteArray
  seconds : Float
  ending : Option Ending
  deriving Inhabited

/-- The number that a shell has as a process. -/
def ownNumber : String := "4711"

/-- The value of a name. -/
def valueOf (s : State) (name : String) : String :=
  if name == "?" then toString s.status
  else if name == "$" then ownNumber
  else if name == "#" then "0"
  else (s.names.lookup name).getD ""

/-- The text of a word. -/
def expanded (s : State) (parts : List WordPart) : String :=
  String.join (parts.map fun
    | .chars cs => String.ofList cs
    | .value name _ => valueOf s name)

/-- A word that vanishes if it is empty. -/
def mayVanish (parts : List WordPart) : Bool :=
  parts.all fun
    | .value _ quoted => !quoted
    | .chars _ => false

/-- The words of a command with their values. -/
def wordsOf (s : State) (c : Simple) : List String :=
  c.words.filterMap fun w =>
    let text := expanded s w
    if text == "" && mayVanish w then none else some text

/-- A word that gives a name a value. -/
def assignment? (word : String) : Option (String × String) :=
  let name := word.toList.takeWhile isNameChar
  match word.toList.drop name.length with
  | '=' :: value =>
    if name.isEmpty || (name.head?.any Char.isDigit) then none
    else some (String.ofList name, String.ofList value)
  | _ => none

/-- What the shell says of itself. -/
def complaint (text : String) : String := s!"sh: 1: {text}\n"

/-- Runs words that are neither a value for a name nor a word of the shell. -/
def runProgram (s : State) (words : List String) : Trace :=
  match words with
  | "echo" :: rest => echo true rest
  | word :: _ =>
    match program? s.setting words with
    | some t => t
    | none =>
      match whyUnstartable s.setting word with
      | .forbidden => .failing (complaint s!"{word}: Permission denied") 126
      | _ => .failing (complaint s!"{word}: not found") 127
  | [] => .quiet 0

/-- The signal and the process that words name. -/
def killOf : List String → Nat × Option String
  | ["-s", name, process] => (signalOf name, some process)
  | [first, process] =>
    match first.dropPrefix? "-" with
    | some name => (signalOf name.toString, some process)
    | none => (15, none)
  | [process] => (15, some process)
  | _ => (15, none)

/-- Sends the output of a command where it goes. -/
def redirected (s : State) (t : Trace) (redirects : List Redirect) : State × Trace :=
  redirects.foldl (fun (s, t) r =>
    let path := expanded s r.target
    let place := s.setting.location path
    let write (s : State) (content : ByteArray) (append : Bool) : State :=
      if path == "/dev/null" then s
      else
        let old := if append then (s.setting.files.content? place).getD .empty else .empty
        { s with setting := { s.setting with files := s.setting.files.write place (old ++ content) } }
    if r.sign == ">&2" || r.sign == "1>&2" then
      (s, { t with out := .empty, err := t.err ++ t.out })
    else if r.sign == "2>&1" then (s, { t with out := t.out ++ t.err, err := .empty })
    else if r.sign == ">" || r.sign == "1>" then (write s t.out false, { t with out := .empty })
    else if r.sign == ">>" || r.sign == "1>>" then (write s t.out true, { t with out := .empty })
    else if r.sign == "2>" then (write s t.err false, { t with err := .empty })
    else if r.sign == "2>>" then (write s t.err true, { t with err := .empty })
    else (s, t)) (s, t)

/-- The input of a command: a file if one is named. -/
def withInput (s : State) (c : Simple) : State :=
  match c.redirects.find? (·.sign == "<") with
  | some r =>
    match s.setting.read (expanded s r.target) with
    | .ok content => { s with setting := { s.setting with input := content } }
    | .error _ => s
  | none => s

/-- The status that a program leaves. -/
def statusOf : Ending → Nat
  | .code n => n % 256
  | .signal n => 128 + n

/-- Runs one command; its output is the input of the next one if there is one. -/
def runSimple (s : State) (c : Simple) (last : Bool) : State :=
  let s := withInput s c
  let words := wordsOf s c
  let done (s : State) (t : Trace) : State :=
    let (s, t) := redirected s t c.redirects
    let s := { s with
      err := s.err ++ t.err, seconds := s.seconds + t.seconds, status := statusOf t.ending }
    if last then { s with out := s.out ++ t.out }
    else { s with setting := { s.setting with input := t.out } }
  match words with
  | [] => done s (.quiet 0)
  | [":"] => done s (.quiet 0)
  | "exit" :: rest =>
    let code := ((rest.head?.bind String.toNat?).getD s.status) % 256
    { s with ending := some (.code code), status := code }
  | "kill" :: rest =>
    let (signal, process) := killOf rest
    if process == some ownNumber && signal != 0 then { s with ending := some (.signal signal) }
    else done s (.quiet 0)
  | "cd" :: path :: _ =>
    let place := (s.setting.place.join (Path.ofString path)).collapsed
    if s.setting.files.isDirectory place.parts then
      { done s (.quiet 0) with setting := { s.setting with place := place } }
    else done s (.failing (complaint s!"cd: can't cd to {path}") 2)
  | "exec" :: rest =>
    let t := runProgram s rest
    { done s t with ending := some t.ending }
  | words =>
    let (given, rest) := match words with
      | "export" :: rest => (rest, [])
      | words => (words.takeWhile fun w => (assignment? w).isSome,
          words.dropWhile fun w => (assignment? w).isSome)
    if rest.isEmpty then
      done { s with names := (given.filterMap assignment?) ++ s.names } (.quiet 0)
    else done s (runProgram s rest)

/-- Runs commands with the output of each as the input of the next. -/
def runCommands (s : State) : List Simple → State
  | [] => s
  | [c] => runSimple s c true
  | c :: cs => runCommands { runSimple s c false with ending := s.ending } cs

/-- Runs the steps of a script. -/
def runSteps (s : State) : List Step → State
  | [] => s
  | step :: rest =>
    if s.ending.isSome then s
    else
      let skips := (step.link == "&&" && s.status != 0) || (step.link == "||" && s.status == 0)
      runSteps (if skips then s else runCommands s step.commands) rest

/-- Runs a script. -/
def run (setting : Setting) (script : String) : Trace :=
  match lexemes 0 none script.toList with
  | none => .failing (complaint "Syntax error: Unterminated quoted string") 2
  | some ls =>
    let s := runSteps ⟨setting, [], 0, .empty, .empty, 0.0, none⟩ (steps ⟨";", []⟩ default ls)
    ⟨s.out, s.err, s.ending.getD (.code s.status), s.seconds⟩

end Shell

/-- What a program leaves that is started by its words; a shell runs its script. -/
def started (s : Setting) (words : List String) : Except Unstartable Trace :=
  let name := match words.head? with
    | some w => (((w.dropPrefix? "/usr/bin/").or (w.dropPrefix? "/bin/")).map (·.toString)).getD w
    | none => ""
  match name :: words.tail with
  | ["sh", "-c", script] | ["bash", "-c", script] | ["dash", "-c", script] =>
    .ok (Shell.run s script)
  | ["sh", path] | ["bash", path] =>
    match s.read path with
    | .ok content => .ok (Shell.run s (Text.decodeLossy content))
    | .error _ => .ok (.failing s!"sh: 0: cannot open {path}: No such file\n" 2)
  | words =>
    match program? s words with
    | some t => .ok t
    | none => .error (whyUnstartable s name)

/-- What is said of a program that cannot be started. -/
def Unstartable.message (u : Unstartable) (word : String) : String :=
  (match u with
    | .absent => "[Errno 2] No such file or directory: "
    | .blocked => "[Errno 20] Not a directory: "
    | .forbidden => "[Errno 13] Permission denied: ") ++ Text.quoted word

/-- A command that everyday programs answer. -/
def everydayReply (files : FileTree) (call : CommandCall) : CommandReply :=
  let word := call.words.head?.getD ""
  if call.words.any fun w => w.toList.contains '\x00' then
    { quietCommand with failure := some (.badValue "embedded null byte") }
  else match started ⟨files, call.place, .empty⟩ call.words with
    | .error .blocked =>
      { quietCommand with
        failure := some (.mishap .directoryExpected (Unstartable.blocked.message word)) }
    | .error u =>
      { quietCommand with
        exit := none
        missing := true
        err := s!"Executable not available: {word} ({u.message word})" }
    | .ok t =>
      if call.timeout.value ≤ 0.0 || call.timeout.value < t.seconds then
        let limit := Number.fixed call.timeout.value 1
        { quietCommand with
          exit := some (-9), timedOut := true, err := s!"Timed out after {limit}s" }
      else
        { quietCommand with
          exit := some t.ending.exit
          out := Text.decodeLossy t.out
          err := Text.decodeLossy t.err }

end RepairLoop.Rehearsal
