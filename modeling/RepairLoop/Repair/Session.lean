import RepairLoop.Files.Access
import RepairLoop.Inspection.Detector
import RepairLoop.Proposal.Proposer
import RepairLoop.Repository.Mutation
import RepairLoop.Settings.Load
import RepairLoop.Trial.Gate
/-!
# Sessions

A session works on one repository with its settings. It has a store open, which is kept
in a file or lasts as long as the session, and a proposer, which is made when it is
first needed.
-/

namespace RepairLoop

/-- A session. -/
structure Session where
  settings : Settings
  repository : Repository
  proposer : Option Proposer
  place : Option Location
  deriving Inhabited

namespace Session

/-! ## Stores in files -/

/-- The name of a store that is not kept. -/
def unkept : String := ":memory:"

/-- What the file of a store starts with. -/
def storeMark : ByteArray := "SQLite format 3\x00".toUTF8

/-- Refuses to open a store. -/
def cannotOpen {α : Type} (path : Path) (reason : String) : Act α :=
  throw (.refuse .persistence s!"Unable to open store at {path.text}: {reason}" [])

/-- Opens the store that is kept in a file, or a new one if there is no such file. -/
def openFile (path : Path) : Act Location := do
  let place := path.collapsed
  let files ← Act.ofExcept (((← Act.files).makeDirectories place.parent).mapError (·.toFault))
  Act.setFiles fun _ => files
  if files.isDirectory place.parts then cannotOpen path "unable to open database file"
  let content := (files.content? place.parts).getD ByteArray.empty
  if content.isEmpty then
    modify fun w => { w with files := w.files.write place.parts storeMark, store := Store.empty }
  else if content.toList == storeMark.toList then
    modify fun w => { w with store := (w.stores.lookup place.parts).getD Store.empty }
  else cannotOpen path "file is not a database"
  pure place.parts

/-- Opens the store of some settings. -/
def openStore (s : Settings) : Act (Option Location) := do
  let path := s.storage.dbPath
  if path.text == unkept then
    modify fun w => { w with store := Store.empty }
    pure none
  else
    let w ← get
    some <$> openFile (w.absolute (s.resolvePath w.here path))

/-- Stores by their places, with one of them put in its place. -/
def keeping (stores : List (Location × Store)) (place : Location) (s : Store) :
    List (Location × Store) :=
  (place, s) :: stores.filter (·.1 != place)

/-- Closes a session: a store that is kept is put in its place. -/
def close (s : Session) : Act Unit :=
  match s.place with
  | none => pure ()
  | some place => modify fun w => { w with stores := keeping w.stores place w.store }

/-! ## Opening -/

/-- The repository of some settings. -/
def openRepository (s : Settings) : Act Repository := do
  let root := ((← get).absolute s.project.repoRoot).collapsed
  match ← Act.attempt (Repository.at_ root s.git) with
  | .ok r => pure r
  | .error f =>
    match f with
    | .refused what _ message _ _ =>
      if what.isOfGit then
        throw (.refuse .configuration
          s!"Version control is unavailable at {root.text}: {message}"
          [("repo_root", .text root.text)])
      else throw f
    | f => throw f

/-- A session without anything from an earlier one, except for a proposer that is
given. -/
def forget (proposer : Option Proposer) : Act Unit :=
  modify fun w => { w with
    baseline := none
    lastBackup := none
    allowance := if proposer.isSome then w.allowance else none }

/-- Opens a session. The repository must have a commit to branch from. -/
def opened (settings : Settings) (proposer : Option Proposer) : Act Session := do
  forget proposer
  let repository ← openRepository settings
  let root := repository.root.text
  match ← repository.head with
  | none =>
    throw (.refuse .configuration s!"Repository {root} has no commits; nothing to branch from."
      [("repo_root", .text root)])
  | some _ =>
    let place ← openStore settings
    pure ⟨settings, repository, proposer, place⟩

/-- Works in a session, which is closed in any case. -/
def within {α : Type} (s : Session) (work : Act α) : Act α := Act.finally_ work s.close

/-- The gate in front of the repository. -/
def gate (s : Session) : Gate := ⟨s.repository.root, s.settings.validation, s.settings.git⟩

/-- The proposer: the one that was given, or that of the settings. -/
def asking (s : Session) : Act Proposer := do
  match s.proposer with
  | some p => pure p
  | none =>
    let service ← Act.ofExcept
      (Service.ofSettings s.settings.llm false (← get).environment)
    Proposer.make service s.repository.root s.settings.llm s.settings.safety

/-! ## Records -/

/-- Stores a patch under the present time. -/
def keepPatch (p : Patch) : Act Unit := do
  let now ← Act.now
  Act.storing fun s => s.putPatch { p with updatedAt := now }

/-- Sets the status of an issue. -/
def setStatus (i : Issue) (status : IssueStatus) : Act Issue := do
  let now ← Act.now
  Act.storing fun s => s.setIssueStatus i.id status now
  pure { i with status := status }

/-- Moves a patch. -/
def move (p : Patch) (a : PatchAction) : Act Patch := do
  Act.ofExcept ((← Act.supplied (p.actNow a).run).mapError TransitionFault.toFault)

/-- The issues below a directory. -/
def detect (settings : AnalysisSettings) (root : Path) : Act (List Issue) := do
  let root := ((← get).absolute root).collapsed
  let files := Inspection.sourceFiles settings ((← Act.files).below root.parts)
  let issues ← Act.supplying (Inspection.analyzeFiles settings files)
  Act.emit (Inspection.detectedEvent root issues)
  pure issues

/-- Stores issues; for one that is known and still open, the known one is taken. -/
def recordIssues : List Issue → Act (List Issue)
  | [] => pure []
  | i :: rest => do
    let known ← Act.stored fun s => s.duplicateOf? i
    let kept ← match known with
      | some j => pure j
      | none => do
        Act.storing fun s => s.addIssue i
        pure i
    let more ← recordIssues rest
    pure (kept :: more)

/-- Stores the issues below a directory, or of the whole repository. -/
def detectAndRecord (s : Session) (root : Option Path) : Act (List Issue) := do
  recordIssues (← detect s.settings.analysis (root.getD s.repository.root))

end Session

end RepairLoop
