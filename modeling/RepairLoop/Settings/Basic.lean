import RepairLoop.Path
import RepairLoop.Settings.Sections
/-!
# Settings

All settings in their sections: project, analysis, model, safety, validation,
repository and storage.
-/

namespace RepairLoop

/-- Settings of the project. -/
structure ProjectSettings where
  repoRoot : Path
  deriving DecidableEq, Inhabited

namespace ProjectSettings

/-- The usual settings. -/
def usual : ProjectSettings := ⟨Path.ofString "."⟩

/-- How the settings are read. -/
def shape : Shape ProjectSettings :=
  Reading.record ["repo_root"] fun es =>
    ProjectSettings.mk
      <$> Reading.field es "repo_root" (pure usual.repoRoot)
        (fun d => Path.ofString <$> Schema.path d)

/-- The settings as an object. -/
def json (s : ProjectSettings) : Json := .object [("repo_root", .text s.repoRoot.text)]

end ProjectSettings

/-- Settings of the repository. -/
structure GitSettings where
  authorName : String
  authorEmail : String
  branchPrefix : String
  backupPrefix : String
  commitMessageTemplate : String
  lockRetries : Int
  lockBackoff : Float
  deriving Inhabited

namespace GitSettings

/-- The usual settings. -/
def usual : GitSettings :=
  ⟨"Self-Healing Bot", "bot@self-heal.local", "self-heal", "backup", "fix: \x7bdescription\x7d", 5,
    0.2⟩

/-- The keys of the settings. -/
def keys : List String :=
  ["author_name", "author_email", "branch_prefix", "backup_prefix", "commit_message_template",
    "lock_retries", "lock_backoff"]

/-- How the settings are read. -/
def shape : Shape GitSettings :=
  Reading.record keys fun es =>
    GitSettings.mk
      <$> Reading.field es "author_name" (pure usual.authorName) Schema.text
      <*> Reading.field es "author_email" (pure usual.authorEmail) Schema.text
      <*> Reading.field es "branch_prefix" (pure usual.branchPrefix) Schema.text
      <*> Reading.field es "backup_prefix" (pure usual.backupPrefix) Schema.text
      <*> Reading.field es "commit_message_template" (pure usual.commitMessageTemplate) Schema.text
      <*> Reading.field es "lock_retries" (pure usual.lockRetries) Schema.int
      <*> Reading.field es "lock_backoff" (pure usual.lockBackoff) Schema.float

/-- The settings as an object. -/
def json (s : GitSettings) : Json :=
  .object [("author_name", .text s.authorName), ("author_email", .text s.authorEmail),
    ("branch_prefix", .text s.branchPrefix), ("backup_prefix", .text s.backupPrefix),
    ("commit_message_template", .text s.commitMessageTemplate),
    ("lock_retries", .int s.lockRetries), ("lock_backoff", .float s.lockBackoff)]

end GitSettings

/-- Settings of the store. -/
structure StorageSettings where
  dbPath : Path
  retentionDays : Int
  deriving DecidableEq, Inhabited

namespace StorageSettings

/-- The usual settings. -/
def usual : StorageSettings := ⟨Path.ofString "data/selfheal.sqlite", 30⟩

/-- How the settings are read. -/
def shape : Shape StorageSettings :=
  Reading.record ["db_path", "retention_days"] fun es =>
    StorageSettings.mk
      <$> Reading.field es "db_path" (pure usual.dbPath) (fun d => Path.ofString <$> Schema.path d)
      <*> Reading.field es "retention_days" (pure usual.retentionDays) Schema.int

/-- The settings as an object. -/
def json (s : StorageSettings) : Json :=
  .object [("db_path", .text s.dbPath.text), ("retention_days", .int s.retentionDays)]

end StorageSettings

/-- All settings. -/
structure Settings where
  project : ProjectSettings
  analysis : AnalysisSettings
  llm : ModelSettings
  safety : SafetySettings
  validation : ValidationSettings
  git : GitSettings
  storage : StorageSettings
  deriving Inhabited

namespace Settings

/-- The usual settings. -/
def usual : Settings :=
  ⟨.usual, .usual, .usual, .usual, .usual, .usual, .usual⟩

/-- The names of the sections. -/
def keys : List String :=
  ["project", "analysis", "llm", "safety", "validation", "git", "storage"]

/-- How the settings are read. -/
def shape : Shape Settings :=
  Reading.record keys fun es =>
    Settings.mk
      <$> Reading.field es "project" (pure .usual) ProjectSettings.shape
      <*> Reading.field es "analysis" (pure .usual) AnalysisSettings.shape
      <*> Reading.field es "llm" (pure .usual) ModelSettings.shape
      <*> Reading.field es "safety" (pure .usual) SafetySettings.shape
      <*> Reading.field es "validation" (pure .usual) ValidationSettings.shape
      <*> Reading.field es "git" (pure .usual) GitSettings.shape
      <*> Reading.field es "storage" (pure .usual) StorageSettings.shape

/-- The settings as an object. -/
def json (s : Settings) : Json :=
  .object [("project", s.project.json), ("analysis", s.analysis.json), ("llm", s.llm.json),
    ("safety", s.safety.json), ("validation", s.validation.json), ("git", s.git.json),
    ("storage", s.storage.json)]

end Settings

/-- Reads a value on its own, without names and times. -/
def Reading.plain {α : Type} (shape : Shape α) (d : Datum) : Except (List Problem) α :=
  ((shape d).run default).1

end RepairLoop
