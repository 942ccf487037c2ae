import RepairLoop.Console.Invocation
import RepairLoop.Repair.Process
import RepairLoop.Store.Statistics
/-!
# Performing jobs

A job reads the settings, works in a session where it needs one, and prints what came of
it. It ends well or badly; a fault that it does not expect stops it.
-/

namespace RepairLoop.Console

/-- How a job ends. -/
inductive Ending where
  | good
  | bad
  deriving DecidableEq, Inhabited

/-- The exit code of an ending. -/
def Ending.code : Ending → Nat
  | good => 0
  | bad => 1

/-- Prints a text and ends the line. -/
def say (text : String) : Act Unit :=
  modify fun w => { w with printed := w.printed ++ [text ++ "\n"] }

/-- Prints a text and ends badly. -/
def complain (text : String) : Act Ending := do
  say text
  pure .bad

/-- Does some work, of which a refusal is printed. -/
def orComplain {α : Type} (work : Act α) (after : α → Act Ending) : Act Ending := do
  match ← Act.attempt work with
  | .ok a => after a
  | .error f => if f.isRefusal then complain (Session.reported f) else throw f

/-! ## Settings and sessions -/

/-- The document at a path, if there is one. -/
def documentAt (path : Path) : Act (Option (String × ByteArray)) := do
  let w ← get
  let place := (w.absolute path).collapsed.parts
  if w.files.isDirectory place then throw (AccessFault.isDirectory path.text).toFault
  else pure ((w.files.content? place).map fun content => (path.text, content))

/-- The settings in a file and the environment. The directory of the project is seen from
that of the file. -/
def readSettings (path : Path) : Act Settings := do
  let document ← documentAt path
  let w ← get
  let s ← Act.ofExcept (Settings.load document w.environment)
  if s.project.repoRoot.isAbsolute then pure s
  else
    let base := (w.absolute path).collapsed.parent
    pure { s with project := ⟨(base.join s.project.repoRoot).collapsed⟩ }

/-- Works with the settings in a file. -/
def withSettings (path : Path) (work : Settings → Act Ending) : Act Ending := do
  match ← Act.attempt (readSettings path) with
  | .ok s => work s
  | .error f =>
    if f.isRefusalOf .configuration then complain s!"Failed to load config: {f.message}"
    else throw f

/-- Works in a session. -/
def withSession (path : Path) (work : Session → Act Ending) : Act Ending :=
  withSettings path fun settings => do
    match ← Act.attempt (Session.opened settings none) with
    | .ok s => s.within (work s)
    | .error f =>
      if f.isRefusalOf .configuration then complain s!"Configuration error: {f.message}"
      else throw f

/-! ## Issues -/

/-- Prints each of some texts. -/
def sayAll : List String → Act Unit
  | [] => pure ()
  | t :: ts => do
    say t
    sayAll ts

/-- An issue as a line of a list. -/
def issueLine (i : Issue) : String :=
  s!"- [{i.severity.name}] {i.kind.name} {i.location} :: {i.message} ({i.id})"

/-- A stored issue as a line of a list. -/
def storedLine (i : Issue) : String :=
  s!"- {i.id} [{i.status.name}] {i.kind.name} {i.location} :: {i.message}"

/-- Prints issues that were found. -/
def sayIssues (asJson : Bool) (issues : List Issue) : Act Ending := do
  if asJson then sayAll (issues.map fun i => (Json.object i.members).render .plain)
  else sayAll (s!"Issues: {issues.length}" :: issues.map issueLine)
  pure .good

/-- Looks for issues, and stores them where that is wanted. -/
def analyze (config : Path) (path : Option Path) (record asJson : Bool) : Act Ending :=
  if record then
    withSession config fun s => do sayIssues asJson (← s.detectAndRecord path)
  else
    withSettings config fun s => do
      sayIssues asJson (← Session.detect s.analysis (path.getD s.project.repoRoot))

/-- The stored issues that are asked for: those that fit a query, or those with a status;
with both, those of the found ones that have the status. -/
def chosenIssues (s : Store) (status : Option IssueStatus) (search : Option String)
    (limit : Int) : Except StoreFault (List Issue) :=
  match search.filter (· != "") with
  | none => .ok (s.issuesByStatus (status.getD .open_))
  | some query => do
    let found ← s.searchIssues query limit
    match status with
    | none => .ok found
    | some status => .ok (found.filter (·.status == status))

/-- Lists stored issues. -/
def listIssues (status : Option IssueStatus) (search : Option String) (limit : Int) :
    Act Ending := do
  let found ← Act.stored fun s => chosenIssues s status search limit
  if found.isEmpty then say "No matching issues." else sayAll (found.map storedLine)
  pure .good

/-! ## Patches -/

/-- Asks for reviews of the pending ones of some patches. -/
def reviewsOf (p : Proposer) (i : Issue) : List Patch → Act (List (String × Review))
  | [] => pure []
  | q :: qs => do
    if q.state == .pending then
      let r ← p.review i q
      let rs ← reviewsOf p i qs
      pure ((q.id, r) :: rs)
    else reviewsOf p i qs

/-- Asks for candidates of an issue, and for an explanation and reviews where they are
wanted. -/
def candidatesOf (s : Session) (i : Issue) (count : Option Int) (explain review : Bool) :
    Act (List Patch × List (String × Review)) := do
  let p ← s.asking
  if explain then sayAll [← p.explain i, ""]
  let patches ← p.candidates i count
  Session.keepPatches patches
  let reviews ← if review then reviewsOf p i patches else pure []
  pure (patches, reviews)

/-- Prints candidates for an issue. -/
def generate (s : Session) (issue : String) (count : Option Int) (explain review : Bool) :
    Act Ending := do
  match (← Act.store).issue? issue with
  | none => complain s!"Unknown issue: {issue}"
  | some i =>
    orComplain (candidatesOf s i count explain review) fun (patches, reviews) => do
      sayAll (patches.flatMap fun p => [p.forReader (some i) (reviews.lookup p.id), ""])
      pure .good

/-- The pending patches with some names, or what is said of a name that stands for
none. -/
def pendingPatches (s : Store) : List String → Except StoreFault (Except String (List Patch))
  | [] => .ok (.ok [])
  | id :: ids => do
    match ← s.patch? id with
    | none => .ok (.error s!"Unknown patch: {id}")
    | some p =>
      if p.state != .pending then
        .ok (.error s!"Patch {id} is {p.state.name}; only Pending patches can be validated.")
      else
        match ← pendingPatches s ids with
        | .ok ps => .ok (.ok (p :: ps))
        | .error m => .ok (.error m)

/-- Begins the validation of patches. -/
def beginEach : List Patch → Act (List Patch)
  | [] => pure []
  | p :: ps => do
    let q ← Session.move p .begin
    Session.keepPatch q
    let qs ← beginEach ps
    pure (q :: qs)

/-- Records the results of patches. -/
def recordEach (allowWarnings : Bool) : List (Patch × ValidationResult) → Act Unit
  | [] => pure ()
  | (p, r) :: rest => do
    let _ ← Session.recordResult allowWarnings p r
    recordEach allowWarnings rest

/-- Validates stored patches and prints a report. -/
def validate (s : Session) (ids : List String) : Act Ending := do
  match ← Act.stored fun store => pendingPatches store ids with
  | .error m => complain m
  | .ok pending =>
    let patches ← beginEach pending
    let results ← s.gate.validateMany patches
    recordEach s.settings.validation.allowSecurityWarnings (patches.zip results)
    say (ValidationResult.report results)
    pure .good

/-! ## The other jobs -/

/-- The lines for a pass. -/
def passLines (enabled : List PassName) (p : PassName) : List String :=
  let mark := if enabled.contains p then "x" else " "
  let rules := ", ".intercalate p.rules
  [s!"[{mark}] {p.name}: {p.description}", s!"    rules: {rules}"]

/-- Drops old issues. -/
def cleanUp (s : Session) (days : Option Int) : Act Ending := do
  let days := days.getD s.settings.storage.retentionDays
  let now ← Act.now
  let (kept, removed) ← Act.stored fun store => do
    let age ← (Span.ofDays days).mapError .span
    store.cleanUp age now
  modify fun w => { w with store := kept }
  say s!"Removed {removed} resolved issue(s) older than {days} day(s)."
  pure .good

/-- What the program is for. -/
def purpose : String :=
  "Detect code issues, generate patches, validate them in a sandbox and apply them."

/-- Performs a job. -/
def perform (i : Invocation) : Act Ending :=
  match i.job with
  | .help => do
    sayAll (purpose :: "" :: Invocation.commands.map fun c => "  " ++ c.1)
    pure .good
  | .analyze path record asJson => analyze i.config path record asJson
  | .generate issue count explain review =>
    withSession i.config fun s => generate s issue count explain review
  | .validate patches => withSession i.config fun s => validate s patches
  | .run path limit =>
    withSession i.config fun s => orComplain (s.run path limit) fun reports => do
      say (IssueReport.text reports)
      pure .good
  | .issues status search limit =>
    withSession i.config fun _ => listIssues status search limit
  | .rollback patch =>
    withSession i.config fun s => orComplain (s.rollBack patch) fun p => do
      say s!"Rolled back patch {p.id}; issue {p.issueId} reopened."
      pure .good
  | .passes =>
    withSettings i.config fun s => do
      sayAll (PassName.all.flatMap (passLines s.analysis.passes))
      pure .good
  | .stats =>
    withSession i.config fun _ => do
      say ((← Act.store).statistics.render .indented)
      pure .good
  | .cleanup days => withSession i.config fun s => cleanUp s days

/-! ## A run of the program -/

/-- A run of the program: its exit code, what it printed, and the fault that stopped it,
if one did. -/
structure Finished where
  code : Nat
  output : String
  fault : Option Fault
  deriving Inhabited

/-- A text without the sequences that control a terminal; `fuel` bounds it. -/
def withoutControls : Nat → List Char → List Char
  | 0, cs => cs
  | _, [] => []
  | fuel + 1, '\x1b' :: '[' :: rest =>
    match rest.dropWhile fun c => c == ';' || c == '?' || c.isDigit with
    | c :: after =>
      if c.isAlpha then withoutControls fuel after
      else '\x1b' :: withoutControls fuel ('[' :: rest)
    | [] => '\x1b' :: '[' :: rest
  | fuel + 1, c :: rest => c :: withoutControls fuel rest

/-- A text in which each pair of a carriage return and a line feed is a line feed. -/
def withLineFeeds : List Char → List Char
  | '\r' :: '\n' :: rest => '\n' :: withLineFeeds rest
  | c :: rest => c :: withLineFeeds rest
  | [] => []

/-- What was printed, as it arrives. -/
def arrived (printed : List String) : String :=
  let plain := printed.map fun s =>
    let cs := s.toList
    withoutControls cs.length cs
  String.ofList (withLineFeeds plain.flatten)

/-- Runs the program with some words. -/
def finish (words : List String) : StateM World Finished := do
  match Invocation.read words with
  | .error f => pure ⟨2, s!"Error: {f.message}\n", none⟩
  | .ok i =>
    modify fun w => { w with printed := [] }
    let ending ← (perform i).run
    let output := arrived (← get).printed
    match ending with
    | .ok e => pure ⟨e.code, output, none⟩
    | .error f => pure ⟨1, output, some f⟩

end RepairLoop.Console
