import RepairLoop.Number.Whole
import RepairLoop.Path
import RepairLoop.Record.Kinds
/-!
# Invocations

The options of a command line, and what it asks for.
-/

/-!
## Options

Words of a command line are options or arguments. An option has a long name behind two
dashes or a letter behind one; some options take a value, which is attached to the name
or is the next word. Two dashes alone end the options. Of an option that is given twice
the last counts.
-/

namespace RepairLoop.Console

/-- What an option does: it takes a value, or it switches something on or off. -/
inductive OptionSort where
  | value
  | switch (on : Bool)
  deriving DecidableEq, Inhabited

/-- An option: what it sets, its names, and what it does. -/
structure OptionSpec where
  key : String
  names : List String
  sort : OptionSort
  deriving DecidableEq, Inhabited

/-- What an option was given. -/
inductive OptionValue where
  | text (s : String)
  | on (b : Bool)
  deriving DecidableEq, Inhabited

/-- Why a command line is not understood. -/
inductive UsageFault where
  | unknownOption (name : String)
  | missingValue (name : String)
  | unwantedValue (name : String)
  | badValue (name value : String)
  | missingArgument (name : String)
  | extraArgument (word : String)
  | unknownCommand (name : String)
  | missingCommand
  deriving DecidableEq, Inhabited

namespace UsageFault

/-- What is said of a command line that is not understood. -/
def message : UsageFault → String
  | unknownOption name => s!"No such option: {name}"
  | missingValue name => s!"Option '{name}' requires an argument."
  | unwantedValue name => s!"Option '{name}' does not take a value."
  | badValue name value => s!"Invalid value for '{name}': '{value}'"
  | missingArgument name => s!"Missing argument '{name}'."
  | extraArgument word => s!"Got unexpected extra argument ({word})"
  | unknownCommand name => s!"No such command '{name}'."
  | missingCommand => "Missing command."

end UsageFault

/-- The options that were given, in order, and the arguments. -/
structure Given where
  options : List (String × OptionValue)
  arguments : List String
  deriving DecidableEq, Inhabited

namespace Given

/-- The value that was given last. -/
def value? (g : Given) (key : String) : Option OptionValue := g.options.reverse.lookup key

/-- The text that was given last. -/
def text? (g : Given) (key : String) : Option String :=
  match g.value? key with
  | some (.text s) => some s
  | _ => none

/-- A switch was last set on. -/
def isOn (g : Given) (key : String) : Bool := g.value? key == some (.on true)

end Given

/-- A name of one dash and one letter. -/
def isLetterName (name : String) : Bool := name.length == 2 && !name.startsWith "--"

/-- The option with a long name. -/
def longOption? (specs : List OptionSpec) (name : String) : Option OptionSpec :=
  specs.find? fun s => s.names.contains name && !isLetterName name

/-- A word up to its first equals sign, and what stands behind the sign. -/
def attached (word : String) : String × Option String :=
  let cs := word.toList
  (String.ofList (cs.takeWhile (· != '=')),
    match cs.dropWhile (· != '=') with
    | [] => none
    | _ :: value => some (String.ofList value))

/-- The option of a letter at the start of a word, with the rest of the words. -/
def letterOption (specs : List OptionSpec) (word : String) (rest : List String) :
    Except UsageFault ((String × OptionValue) × List String) :=
  let name := String.ofList (word.toList.take 2)
  let tail := String.ofList (word.toList.drop 2)
  match specs.find? (·.names.contains name) with
  | none => .error (.unknownOption name)
  | some spec =>
    match spec.sort, rest with
    | .switch b, _ =>
      if tail == "" then .ok ((spec.key, .on b), rest) else .error (.unknownOption word)
    | .value, next :: more =>
      if tail == "" then .ok ((spec.key, .text next), more)
      else .ok ((spec.key, .text tail), rest)
    | .value, [] =>
      if tail == "" then .error (.missingValue name) else .ok ((spec.key, .text tail), [])

/-- The option that a word starts, with the rest of the words. -/
def optionOf (specs : List OptionSpec) (word : String) (rest : List String) :
    Except UsageFault ((String × OptionValue) × List String) :=
  let (name, value) := attached word
  match longOption? specs name with
  | some spec =>
    match spec.sort, value, rest with
    | .switch b, none, _ => .ok ((spec.key, .on b), rest)
    | .switch _, some _, _ => .error (.unwantedValue name)
    | .value, some v, _ => .ok ((spec.key, .text v), rest)
    | .value, none, next :: more => .ok ((spec.key, .text next), more)
    | .value, none, [] => .error (.missingValue name)
  | none =>
    if word.startsWith "--" then .error (.unknownOption name)
    else letterOption specs word rest

/-- A word that stands for an option. -/
def isOption (word : String) : Bool := word.startsWith "-" && 1 < word.length

/-- The options and arguments in some words. Where `mixed` does not hold, the first
argument ends the options. -/
def gather (specs : List OptionSpec) (mixed : Bool) : Nat → List String → Except UsageFault Given
  | 0, words => .ok ⟨[], words⟩
  | _, [] => .ok ⟨[], []⟩
  | fuel + 1, word :: rest => do
    if word == "--" then .ok ⟨[], rest⟩
    else if isOption word then
      let (o, rest) ← optionOf specs word rest
      let g ← gather specs mixed fuel rest
      .ok { g with options := o :: g.options }
    else if mixed then
      let g ← gather specs mixed fuel rest
      .ok { g with arguments := word :: g.arguments }
    else .ok ⟨[], word :: rest⟩

/-- The options and arguments in some words. -/
def given (specs : List OptionSpec) (mixed : Bool) (words : List String) :
    Except UsageFault Given :=
  gather specs mixed (words.length + 1) words

end RepairLoop.Console

/-!
## Invocations

What a command line asks for: a job with its arguments, and the file with the settings.
-/

namespace RepairLoop.Console

/-- What is to be done. -/
inductive Job where
  | help
  | analyze (path : Option Path) (record asJson : Bool)
  | generate (issue : String) (count : Option Int) (explain review : Bool)
  | validate (patches : List String)
  | run (path : Option Path) (limit : Option Int)
  | issues (status : Option IssueStatus) (search : Option String) (limit : Int)
  | rollback (patch : String)
  | passes
  | stats
  | cleanup (days : Option Int)
  deriving DecidableEq, Inhabited

/-- What a command line asks for. -/
structure Invocation where
  config : Path
  job : Job
  deriving DecidableEq, Inhabited

namespace Invocation

/-- The file with the settings if none is named. -/
def usualConfig : String := "selfheal.yaml"

private def value (key : String) (names : List String) : OptionSpec := ⟨key, names, .value⟩

private def switch (key : String) : OptionSpec := ⟨key, ["--" ++ key], .switch true⟩

/-- The options that stand in front of a command. -/
def commonOptions : List OptionSpec :=
  [value "log-level" ["--log-level"], switch "telemetry",
    ⟨"telemetry", ["--no-telemetry"], .switch false⟩, switch "help"]

/-- The options of each command. -/
def commands : List (String × List OptionSpec) :=
  [("analyze", [switch "record", ⟨"record", ["--no-record"], .switch false⟩, switch "json"]),
    ("generate", [value "count" ["--count", "-n"], switch "explain", switch "review"]),
    ("validate", []),
    ("run", [value "max-issues" ["--max-issues"]]),
    ("issues", [value "status" ["--status"], value "search" ["--search"],
      value "limit" ["--limit"]]),
    ("rollback", []), ("passes", []), ("stats", []),
    ("cleanup", [value "days" ["--days"]])]

/-- The options that every command has. -/
def sharedOptions : List OptionSpec := [value "config" ["--config", "-c"], switch "help"]

/-- A whole number that was given. -/
def whole? (g : Given) (key : String) : Except UsageFault (Option Int) :=
  match g.text? key with
  | none => .ok none
  | some s =>
    match Number.readWhole s with
    | .ok n => .ok (some n)
    | .error _ => .error (.badValue key s)

/-- The status that was given. -/
def status? (g : Given) : Except UsageFault (Option IssueStatus) :=
  match g.text? "status" with
  | none => .ok none
  | some s =>
    match IssueStatus.ofName? s with
    | some x => .ok (some x)
    | none => .error (.badValue "status" s)

/-- The only argument, if there is one. -/
def argument? (g : Given) : Except UsageFault (Option String) :=
  match g.arguments with
  | [] => .ok none
  | [a] => .ok (some a)
  | _ :: b :: _ => .error (.extraArgument b)

/-- The only argument, which must be there. -/
def argument (g : Given) (name : String) : Except UsageFault String := do
  match ← argument? g with
  | some a => .ok a
  | none => .error (.missingArgument name)

/-- Refuses arguments. -/
def noArgument (g : Given) : Except UsageFault Unit :=
  match g.arguments with
  | [] => .ok ()
  | a :: _ => .error (.extraArgument a)

/-- The job of a command. -/
def jobOf (command : String) (g : Given) : Except UsageFault Job := do
  match command with
  | "analyze" =>
    let path ← argument? g
    .ok (.analyze (path.map Path.ofString) (g.isOn "record") (g.isOn "json"))
  | "generate" =>
    let count ← whole? g "count"
    .ok (.generate (← argument g "ISSUE_ID") count (g.isOn "explain") (g.isOn "review"))
  | "validate" =>
    if g.arguments.isEmpty then .error (.missingArgument "PATCH_IDS")
    else .ok (.validate g.arguments)
  | "run" =>
    let limit ← whole? g "max-issues"
    let path ← argument? g
    .ok (.run (path.map Path.ofString) limit)
  | "issues" =>
    noArgument g
    let limit ← whole? g "limit"
    .ok (.issues (← status? g) (g.text? "search") (limit.getD 50))
  | "rollback" => .ok (.rollback (← argument g "PATCH_ID"))
  | "passes" =>
    noArgument g
    .ok .passes
  | "stats" =>
    noArgument g
    .ok .stats
  | _ =>
    noArgument g
    .ok (.cleanup (← whole? g "days"))

/-- Reads a command line. -/
def read (words : List String) : Except UsageFault Invocation := do
  let common ← given commonOptions false words
  let config := Path.ofString usualConfig
  if common.isOn "help" then .ok ⟨config, .help⟩
  else
    match common.arguments with
    | [] => .error .missingCommand
    | command :: rest =>
      match commands.lookup command with
      | none => .error (.unknownCommand command)
      | some specs =>
        let g ← given (sharedOptions ++ specs) true rest
        let config := Path.ofString ((g.text? "config").getD usualConfig)
        if g.isOn "help" then .ok ⟨config, .help⟩
        else .ok ⟨config, ← jobOf command g⟩

end Invocation

end RepairLoop.Console
