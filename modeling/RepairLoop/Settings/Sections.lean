import RepairLoop.Command.Words
import RepairLoop.Schema.Scalar
import RepairLoop.Text.Quoted
/-!
# Sections of the settings

What is set of the model, of the analysis, of the safety gate and of the validation. Each
section is a record with its usual values and the shape in which it is read.
-/

/-!
## Settings of the model

Which service writes the patches, how it is reached, and how often it may be asked.
-/

namespace RepairLoop

/-- The services that write patches. -/
inductive BackendName where
  | openai
  | anthropic
  | local_
  deriving DecidableEq, Inhabited

namespace BackendName

/-- The name of a service. -/
def name : BackendName → String
  | openai => "openai"
  | anthropic => "anthropic"
  | local_ => "local"

/-- All services. -/
def all : List BackendName := [openai, anthropic, local_]

/-- The service of a name. -/
def ofName? (s : String) : Option BackendName := all.find? (·.name == s)

end BackendName

/-- Settings of the model. -/
structure ModelSettings where
  backend : BackendName
  model : String
  maxTokens : Int
  temperature : Float
  timeout : Float
  baseUrl : Option String
  apiKeyEnv : Option String
  requestsPerWindow : Int
  windowSeconds : Float
  candidates : Int
  maxContextLines : Int
  rateLimitRetries : Int
  rateLimitBackoff : Float
  deriving Inhabited

namespace ModelSettings

/-- The usual settings. -/
def usual : ModelSettings :=
  ⟨.openai, "gpt-4", 4000, 0.1, 60.0, none, none, 60, 60.0, 1, 40, 3, 1.0⟩

/-- The keys of the settings. -/
def keys : List String :=
  ["backend", "model", "max_tokens", "temperature", "timeout", "base_url", "api_key_env",
    "requests_per_window", "window_seconds", "candidates", "max_context_lines",
    "rate_limit_retries", "rate_limit_backoff"]

/-- How the settings are read. -/
def shape : Shape ModelSettings :=
  Reading.record keys fun es =>
    ModelSettings.mk
      <$> Reading.field es "backend" (pure usual.backend)
        (Schema.oneOf BackendName.ofName? "literal_error")
      <*> Reading.field es "model" (pure usual.model) Schema.text
      <*> Reading.field es "max_tokens" (pure usual.maxTokens) Schema.int
      <*> Reading.field es "temperature" (pure usual.temperature) Schema.float
      <*> Reading.field es "timeout" (pure usual.timeout) Schema.float
      <*> Reading.field es "base_url" (pure none) (Schema.nullable Schema.text)
      <*> Reading.field es "api_key_env" (pure none) (Schema.nullable Schema.text)
      <*> Reading.field es "requests_per_window" (pure usual.requestsPerWindow) Schema.int
      <*> Reading.field es "window_seconds" (pure usual.windowSeconds) Schema.float
      <*> Reading.field es "candidates" (pure usual.candidates) Schema.int
      <*> Reading.field es "max_context_lines" (pure usual.maxContextLines) Schema.int
      <*> Reading.field es "rate_limit_retries" (pure usual.rateLimitRetries) Schema.int
      <*> Reading.field es "rate_limit_backoff" (pure usual.rateLimitBackoff) Schema.float

/-- The settings as an object. -/
def json (s : ModelSettings) : Json :=
  .object [("backend", .text s.backend.name), ("model", .text s.model),
    ("max_tokens", .int s.maxTokens), ("temperature", .float s.temperature),
    ("timeout", .float s.timeout), ("base_url", Json.ofText? s.baseUrl),
    ("api_key_env", Json.ofText? s.apiKeyEnv), ("requests_per_window", .int s.requestsPerWindow),
    ("window_seconds", .float s.windowSeconds), ("candidates", .int s.candidates),
    ("max_context_lines", .int s.maxContextLines), ("rate_limit_retries", .int s.rateLimitRetries),
    ("rate_limit_backoff", .float s.rateLimitBackoff)]

end ModelSettings

end RepairLoop

/-!
## Settings of the analysis

Which files are looked at and which passes look at them.
-/

namespace RepairLoop

/-- The passes of the analysis, in the order in which they run. -/
inductive PassName where
  | security
  | unsafeCode
  | performance
  | style
  | complexity
  | compatibility
  deriving DecidableEq, Inhabited

namespace PassName

/-- The name of a pass. -/
def name : PassName → String
  | security => "security"
  | unsafeCode => "unsafe"
  | performance => "performance"
  | style => "style"
  | complexity => "complexity"
  | compatibility => "compatibility"

/-- All passes. -/
def all : List PassName :=
  [security, unsafeCode, performance, style, complexity, compatibility]

/-- The pass of a name. -/
def ofName? (s : String) : Option PassName := all.find? (·.name == s)

theorem ofName?_name (x : PassName) : ofName? x.name = some x := by
  cases x <;> decide

end PassName

/-- Settings of the analysis. -/
structure AnalysisSettings where
  extensions : List String
  ignorePatterns : List String
  maxFileSize : Int
  enabledPasses : List String
  contextLines : Int
  maxFunctionBranches : Int
  maxLineLength : Int
  deriving DecidableEq, Inhabited

namespace AnalysisSettings

/-- The usual settings. -/
def usual : AnalysisSettings :=
  ⟨[".py", ".rs"], ["target/", ".git/", "node_modules/", "__pycache__/", ".venv/"], 1048576,
    PassName.all.map PassName.name, 2, 10, 120⟩

/-- The keys of the settings. -/
def keys : List String :=
  ["extensions", "ignore_patterns", "max_file_size", "enabled_passes", "context_lines",
    "max_function_branches", "max_line_length"]

/-- What is wrong with a list of passes. -/
def passRule (names : List String) : Option String :=
  let unknown := names.filter fun n => (PassName.ofName? n).isNone
  if unknown.isEmpty then none
  else some ("unknown detector passes: " ++ ", ".intercalate unknown)

/-- A field that keeps the usual value where it is missing. -/
private def plain {α : Type} (es : Entries) (key : String) (usual : α) (shape : Shape α) :
    Reading α :=
  Reading.field es key (pure usual) shape

/-- How the settings are read. -/
def shape : Shape AnalysisSettings :=
  Reading.record keys fun es =>
    AnalysisSettings.mk
      <$> plain es "extensions" usual.extensions (Schema.list Schema.text)
      <*> plain es "ignore_patterns" usual.ignorePatterns (Schema.list Schema.text)
      <*> plain es "max_file_size" usual.maxFileSize Schema.int
      <*> plain es "enabled_passes" usual.enabledPasses
        (fun d => Reading.checked (Schema.list Schema.text d) passRule)
      <*> plain es "context_lines" usual.contextLines Schema.int
      <*> plain es "max_function_branches" usual.maxFunctionBranches Schema.int
      <*> plain es "max_line_length" usual.maxLineLength Schema.int

/-- The settings as an object. -/
def json (s : AnalysisSettings) : Json :=
  .object [("extensions", Json.texts s.extensions),
    ("ignore_patterns", Json.texts s.ignorePatterns), ("max_file_size", .int s.maxFileSize),
    ("enabled_passes", Json.texts s.enabledPasses), ("context_lines", .int s.contextLines),
    ("max_function_branches", .int s.maxFunctionBranches),
    ("max_line_length", .int s.maxLineLength)]

/-- The enabled passes, each once, in the order in which they are first named. -/
def passes (s : AnalysisSettings) : List PassName :=
  (s.enabledPasses.filterMap PassName.ofName?).foldl
    (fun acc p => if acc.contains p then acc else acc ++ [p]) []

end AnalysisSettings

end RepairLoop

/-!
## Settings of the safety gate

The patterns that lower the safety score of a patch, and what the gate lets pass.
-/

namespace RepairLoop

/-- A pattern that lowers the safety score. -/
structure DenylistEntry where
  name : String
  pattern : String
  penalty : Float
  deriving Inhabited

namespace DenylistEntry

/-- The keys of an entry. -/
def keys : List String := ["name", "pattern", "penalty"]

/-- How an entry is read. -/
def shape : Shape DenylistEntry :=
  Reading.record keys fun es =>
    DenylistEntry.mk
      <$> Reading.required es "name" Schema.text
      <*> Reading.required es "pattern" Schema.text
      <*> Reading.required es "penalty" (Schema.floatWithin 0.0 1.0)

/-- An entry as an object. -/
def json (e : DenylistEntry) : Json :=
  .object [("name", .text e.name), ("pattern", .text e.pattern), ("penalty", .float e.penalty)]

end DenylistEntry

/-- Settings of the safety gate. -/
structure SafetySettings where
  denylist : List DenylistEntry
  rejectionThreshold : Float
  requireReview : Bool
  maxPatchSize : Int
  deriving Inhabited

namespace SafetySettings

/-- The usual denylist. -/
def usualDenylist : List DenylistEntry := [
  ⟨"unsafe-block", "unsafe\\s*\\\x7b", 0.3⟩,
  ⟨"process-execution",
    "std::process::Command|Command::new|\\bsubprocess\\.|\\bos\\.system\\(|\\bos\\.popen\\(", 0.6⟩,
  ⟨"raw-pointer",
    "\\bptr::(?:read|write)\\b|\\btransmute\\s*\\(|mem::uninitialized|\\bas\\s+\\*(?:const|mut)\\b",
    0.3⟩,
  ⟨"filesystem-deletion",
    "\\bfs::remove_(?:file|dir|dir_all)\\b|\\bshutil\\.rmtree\\(|\\bos\\.(?:remove|unlink|rmdir)\\(",
    0.4⟩,
  ⟨"dynamic-evaluation", "\\beval\\(|\\bexec\\(", 0.4⟩]

/-- The usual settings. -/
def usual : SafetySettings := ⟨usualDenylist, 0.5, false, 10000⟩

/-- The keys of the settings. -/
def keys : List String := ["denylist", "rejection_threshold", "require_review", "max_patch_size"]

/-- How the settings are read. -/
def shape : Shape SafetySettings :=
  Reading.record keys fun es =>
    SafetySettings.mk
      <$> Reading.field es "denylist" (pure usualDenylist) (Schema.list DenylistEntry.shape)
      <*> Reading.field es "rejection_threshold" (pure usual.rejectionThreshold)
        (Schema.floatWithin 0.0 1.0)
      <*> Reading.field es "require_review" (pure usual.requireReview) Schema.bool
      <*> Reading.field es "max_patch_size" (pure usual.maxPatchSize) Schema.int

/-- The settings as an object. -/
def json (s : SafetySettings) : Json :=
  .object [("denylist", .list (s.denylist.map DenylistEntry.json)),
    ("rejection_threshold", .float s.rejectionThreshold),
    ("require_review", .bool s.requireReview), ("max_patch_size", .int s.maxPatchSize)]

end SafetySettings

end RepairLoop

/-!
## Settings of the validation

The commands of the stages and their limits. A command is cut into words and run as
it stands, so that signs which only a shell understands are refused.
-/

namespace RepairLoop

/-- Settings of containers. -/
structure ContainerSettings where
  enabled : Bool
  image : String
  executable : String
  deriving DecidableEq, Inhabited

namespace ContainerSettings

/-- The usual settings. -/
def usual : ContainerSettings := ⟨false, "rust:1.75", "docker"⟩

/-- The keys of the settings. -/
def keys : List String := ["enabled", "image", "executable"]

/-- How the settings are read. -/
def shape : Shape ContainerSettings :=
  Reading.record keys fun es =>
    ContainerSettings.mk
      <$> Reading.field es "enabled" (pure usual.enabled) Schema.bool
      <*> Reading.field es "image" (pure usual.image) Schema.text
      <*> Reading.field es "executable" (pure usual.executable) Schema.text

/-- The settings as an object. -/
def json (s : ContainerSettings) : Json :=
  .object [("enabled", .bool s.enabled), ("image", .text s.image),
    ("executable", .text s.executable)]

end ContainerSettings

/-- Settings of the validation. -/
structure ValidationSettings where
  buildCommand : Option String
  testCommand : Option String
  securityCommand : Option String
  benchmarkCommand : Option String
  buildTimeout : Float
  testTimeout : Float
  securityTimeout : Float
  benchmarkTimeout : Float
  artifactGlobs : List String
  measurePerformance : Bool
  maxConcurrentValidations : Int
  maxAttempts : Int
  sandboxIgnore : List String
  allowSecurityWarnings : Bool
  verifyAfterApply : Bool
  container : ContainerSettings
  deriving Inhabited

namespace ValidationSettings

/-- The usual settings. -/
def usual : ValidationSettings :=
  ⟨some "cargo build", some "cargo test", some "cargo audit", none, 300.0, 300.0, 120.0, 300.0,
    ["target/debug/*", "target/release/*"], false, 2, 1,
    ["target", "node_modules", "__pycache__", ".venv"], false, false, ContainerSettings.usual⟩

/-- The signs that only a shell understands, in order. -/
def shellOperators : List String :=
  ["&", "&&", "2>", "2>&1", ";", "<", ">", ">>", "|", "||"]

/-- What is wrong with a command. -/
def commandRule : Option String → Option String
  | none => none
  | some s =>
    match Command.split s with
    | .error e => some s!"cannot split command {Text.quoted s}: {e.message}"
    | .ok words =>
      if words.isEmpty then some "command must not be empty; use null to disable the stage"
      else
        let used := shellOperators.filter words.contains
        if used.isEmpty then none
        else
          let named := ", ".intercalate used
          some (s!"command {Text.quoted s} uses shell operators {named}; wrap it in sh -c "
            ++ "\"...\"")

/-- A command, or null for none. -/
def command : Shape (Option String) := fun d =>
  Reading.checked (Schema.nullable Schema.text d) commandRule

/-- The keys of the settings. -/
def keys : List String :=
  ["build_command", "test_command", "security_command", "benchmark_command", "build_timeout",
    "test_timeout", "security_timeout", "benchmark_timeout", "artifact_globs",
    "measure_performance", "max_concurrent_validations", "max_attempts", "sandbox_ignore",
    "allow_security_warnings", "verify_after_apply", "container"]

/-- How the settings are read. -/
def shape : Shape ValidationSettings :=
  Reading.record keys fun es =>
    ValidationSettings.mk
      <$> Reading.field es "build_command" (pure usual.buildCommand) command
      <*> Reading.field es "test_command" (pure usual.testCommand) command
      <*> Reading.field es "security_command" (pure usual.securityCommand) command
      <*> Reading.field es "benchmark_command" (pure usual.benchmarkCommand) command
      <*> Reading.field es "build_timeout" (pure usual.buildTimeout) Schema.float
      <*> Reading.field es "test_timeout" (pure usual.testTimeout) Schema.float
      <*> Reading.field es "security_timeout" (pure usual.securityTimeout) Schema.float
      <*> Reading.field es "benchmark_timeout" (pure usual.benchmarkTimeout) Schema.float
      <*> Reading.field es "artifact_globs" (pure usual.artifactGlobs) (Schema.list Schema.text)
      <*> Reading.field es "measure_performance" (pure usual.measurePerformance) Schema.bool
      <*> Reading.field es "max_concurrent_validations" (pure usual.maxConcurrentValidations)
        (Schema.intAtLeast 1)
      <*> Reading.field es "max_attempts" (pure usual.maxAttempts) (Schema.intAtLeast 1)
      <*> Reading.field es "sandbox_ignore" (pure usual.sandboxIgnore) (Schema.list Schema.text)
      <*> Reading.field es "allow_security_warnings" (pure usual.allowSecurityWarnings) Schema.bool
      <*> Reading.field es "verify_after_apply" (pure usual.verifyAfterApply) Schema.bool
      <*> Reading.field es "container" (pure usual.container) ContainerSettings.shape

/-- The settings as an object. -/
def json (s : ValidationSettings) : Json :=
  .object [("build_command", Json.ofText? s.buildCommand),
    ("test_command", Json.ofText? s.testCommand),
    ("security_command", Json.ofText? s.securityCommand),
    ("benchmark_command", Json.ofText? s.benchmarkCommand),
    ("build_timeout", .float s.buildTimeout), ("test_timeout", .float s.testTimeout),
    ("security_timeout", .float s.securityTimeout),
    ("benchmark_timeout", .float s.benchmarkTimeout),
    ("artifact_globs", Json.texts s.artifactGlobs),
    ("measure_performance", .bool s.measurePerformance),
    ("max_concurrent_validations", .int s.maxConcurrentValidations),
    ("max_attempts", .int s.maxAttempts), ("sandbox_ignore", Json.texts s.sandboxIgnore),
    ("allow_security_warnings", .bool s.allowSecurityWarnings),
    ("verify_after_apply", .bool s.verifyAfterApply), ("container", s.container.json)]

end ValidationSettings

end RepairLoop
