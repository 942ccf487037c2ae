import RepairLoop.World.Basic
/-!
# An outside that follows a script

Answers are given one after the other, and the last of them again and again; a rule
may also be used up. Behind the rules for git stands a minimal repository: it knows
its branches, which of them is checked out, and how many commits were made; a commit
is named by its number. All else that git is asked for succeeds and does nothing.
-/

namespace RepairLoop.Rehearsal

/-! ## Queues of answers -/

variable {α : Type}

/-- The answer to the call with a number, from one; the last answer repeats. -/
def nth? (answers : List α) (number : Nat) : Option α :=
  answers[number - 1]?.or answers.getLast?

/-- A rule: what it answers to, how often it may still be used, and its answer. -/
structure Rule (α : Type) where
  opening : List String
  times : Option Nat
  answer : α
  deriving Inhabited

namespace Rule

/-- A rule answers to words that start with its own, unless it is used up. -/
def fits (r : Rule α) (words : List String) : Bool :=
  r.opening.isPrefixOf words && r.times != some 0

/-- The first rule that fits, and the rules once it was used. -/
def use? (words : List String) : List (Rule α) → Option (α × List (Rule α))
  | [] => none
  | r :: rs =>
    if r.fits words then some (r.answer, { r with times := r.times.map (· - 1) } :: rs)
    else (use? words rs).map fun (a, rs) => (a, r :: rs)

end Rule

/-! ## A minimal repository -/

/-- The state of a minimal repository. -/
structure Repository where
  commits : Nat
  current : String
  branches : List String
  deriving DecidableEq, Inhabited

/-- A reply of git with a code, an output and a complaint. -/
def reply (code : Int) (out err : String) : GitReply :=
  ⟨code, out.toUTF8, err.toUTF8, [], none⟩

namespace Repository

/-- The name of the last commit. -/
def head (r : Repository) : String :=
  let ds := Nat.toDigits 16 r.commits
  String.ofList (List.replicate (40 - ds.length) '0' ++ ds)

/-- The branch that a reference names. -/
def branchOf (reference : String) : String :=
  match reference.dropPrefix? "refs/heads/" with
  | some name => name.toString
  | none => reference

/-- The repository and its reply after a run of git. -/
def run (r : Repository) (arguments : List String) : GitReply × Repository :=
  match arguments with
  | "rev-parse" :: "--abbrev-ref" :: _ =>
    (if r.commits = 0 then reply 128 "" "fatal: ambiguous argument 'HEAD'"
      else reply 0 (r.current ++ "\n") "", r)
  | "rev-parse" :: "--verify" :: _ =>
    (if r.commits = 0 then reply 128 "" "fatal: Needed a single revision"
      else reply 0 (r.head ++ "\n") "", r)
  | "show-ref" :: rest =>
    (reply (if r.branches.contains (branchOf (rest.getLast?.getD "")) then 0 else 1) "" "", r)
  | ["branch"] => (reply 0 "" "", r)
  | "branch" :: first :: rest =>
    if first == "-D" || first == "-d" then
      let name := rest.head?.getD ""
      if r.branches.contains name then
        (reply 0 "" "", { r with branches := r.branches.erase name })
      else (reply 1 "" s!"error: branch '{name}' not found.", r)
    else if r.branches.contains first then
      (reply 128 "" s!"fatal: A branch named '{first}' already exists.", r)
    else (reply 0 "" "", { r with branches := r.branches ++ [first] })
  | "checkout" :: rest =>
    let name := rest.getLast?.getD ""
    if r.branches.contains name then (reply 0 "" "", { r with current := name })
    else (reply 1 "" s!"error: pathspec '{name}' did not match any file(s) known to git", r)
  | "commit" :: _ => (reply 0 "" "", { r with commits := r.commits + 1 })
  | "cherry-pick" :: rest =>
    (reply 0 "" "", if rest.contains "--abort" then r else { r with commits := r.commits + 1 })
  | _ => (reply 0 "" "", r)

end Repository

/-- A run of `git init` leaves a repository behind, whatever it answers. -/
def initChanges (arguments : List String) : Changes :=
  match arguments with
  | "init" :: rest =>
    match rest.getLast? with
    | some path => [((Path.ofString path).join (Path.ofString ".git"), .directory)]
    | none => []
  | _ => []

/-- A minimal repository and rules that answer in its place. -/
structure GitScript where
  rules : List (Rule GitReply)
  repository : Repository
  deriving Inhabited

namespace GitScript

/-- The reply to a call and the script after it. -/
def next (s : GitScript) (call : GitCall) : GitReply × GitScript :=
  let (r, s) := match Rule.use? call.arguments s.rules with
    | some (r, rules) => (r, { s with rules := rules })
    | none =>
      let (r, repository) := s.repository.run call.arguments
      (r, { s with repository := repository })
  ({ r with changes := initChanges call.arguments ++ r.changes }, s)

/-- The reply to the last of some calls. -/
def answer (s : GitScript) (calls : List GitCall) : GitReply :=
  (calls.foldl (fun (_, s) call => s.next call) (reply 0 "" "", s)).1

/-- Longer than any search for a branch can take that comes to an end: each branch and each
rule that is used up answers to one question. -/
def patience (s : GitScript) : Nat :=
  1000 + s.repository.branches.length + (s.rules.filterMap Rule.times).foldl (· + ·) 0

end GitScript

/-! ## Scripts -/

/-- A command that succeeds and does nothing. -/
def quietCommand : CommandReply := ⟨some 0, "", "", 0, false, false, [], none⟩

/-- The reply to the last of some commands. -/
def commandAnswer (rules : List (Rule CommandReply)) (calls : List CommandCall) : CommandReply :=
  (calls.foldl (fun (_, rules) call =>
    match Rule.use? call.words rules with
    | some (r, rules) => (r, rules)
    | none => (quietCommand, rules)) (quietCommand, rules)).1

/-- An outside that follows a script. -/
structure Script where
  git : GitScript
  commands : List (Rule CommandReply)
  web : List WebReply
  model : List ModelReply
  programs : List String
  breakdown : Option String
  deriving Inhabited

/-- The outside that follows a script. -/
def Script.outside (s : Script) : Outside where
  git := s.git.answer
  command := commandAnswer s.commands
  web calls := (nth? s.web calls.length).getD (.unreachable "empty")
  model calls := (nth? s.model calls.length).getD (.failure "empty")
  finds := s.programs.contains
  breakdown := s.breakdown
  patience := s.git.patience

end RepairLoop.Rehearsal
