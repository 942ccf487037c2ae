import RepairLoop.Inspection.Source
import RepairLoop.Pattern.Matcher
import RepairLoop.Rust.Source
/-!
# Passes

The rules for the two languages, and the passes that apply them to a source.
-/

/-!
## Rules for Python

A rule looks at one node of the tree. The nodes are visited level by level, and what
is found stands where its node starts.
-/

namespace RepairLoop.Inspection

open Python

/-- What a rule says of a node. -/
structure Verdict where
  code : String
  severity : Severity
  message : String
  suggestion : Option String

/-- The keywords of a call. -/
def keywords (call : Syn) : List (Option String × Syn) :=
  call.children.filterMap fun c =>
    match c with
    | .node (.keyword name) _ _ _ (value :: _) => some (name, value)
    | _ => none

/-- A keyword of a call is the constant true. -/
def keywordHolds (call : Syn) (name : String) : Bool :=
  (keywords call).any fun (n, v) => n == some name && v.kind == .constant .yes

/-- Calls that run or read what they should not. -/
def judgeCall (node : Syn) : List Verdict :=
  match node.kind with
  | .call =>
    let name := node.calledName
    if name == "eval" || name == "exec" then
      [⟨"SEC101", .high, s!"Use of {name}() on dynamic input.", none⟩]
    else if name == "os.system" || name == "os.popen" then
      [⟨"SEC102", .high, s!"{name}() runs a shell command.", none⟩]
    else if name.startsWith "subprocess." && keywordHolds node "shell" then
      [⟨"SEC103", .high, s!"{name}() called with shell=True.", none⟩]
    else if ["pickle.loads", "pickle.load", "marshal.loads"].contains name then
      [⟨"SEC104", .medium, s!"{name}() deserialises untrusted data.", none⟩]
    else if name == "yaml.load" && !(keywords node).any (·.1 == some "Loader") then
      [⟨"SEC105", .medium, "yaml.load() without an explicit Loader.", none⟩]
    else []
  | _ => []

/-- The modules that an import names; an import from a module names only that. -/
def importedModules (node : Syn) : List String :=
  match node.kind with
  | .importStmt names => names
  | .importFrom _ source => [source]
  | _ => []

/-- The part of a dotted name before its first dot. -/
def topName (name : String) : String :=
  String.ofList (name.toList.takeWhile (· != '.'))

/-- Imports of native memory. -/
def judgeNative (node : Syn) : List Verdict :=
  ((importedModules node).filter (topName · == "ctypes")).map fun _ =>
    ⟨"UNS101", .medium, "ctypes gives unchecked access to native memory.", none⟩

/-- Membership tests on lists that are built for the test. -/
def judgeMembership (node : Syn) : List Verdict :=
  match node.kind with
  | .compare ops =>
    (ops.zip (node.children.drop 1)).filterMap fun (op, right) =>
      let name := right.calledName
      if op != .other && right.kind == .call && (name == "list" || name.endsWith ".keys") then
        some ⟨"PERF101", .low,
          s!"Membership test against {name}() builds a throwaway view or list.",
          some "Test membership on the container itself."⟩
      else none
  | _ => []

/-- Handlers that catch everything. -/
def judgeHandler (node : Syn) : List Verdict :=
  match node.kind with
  | .handler =>
    if (node.children.head?.map Syn.kind) == some .item then
      [⟨"STY101", .medium, "Bare except clause also catches SystemExit and KeyboardInterrupt.",
        some "Catch Exception or a narrower error type."⟩]
    else []
  | _ => []

/-- The modules that are gone or going. -/
def oldModules : List String :=
  ["imp", "distutils", "asyncore", "asynchat", "smtpd", "cgi", "cgitb", "telnetlib"]

/-- The calls that are going, and what is said of them. -/
def oldCall? (name : String) : Option String :=
  if name == "datetime.utcnow" || name == "datetime.datetime.utcnow" then
    some "datetime.utcnow() is deprecated; use datetime.now(timezone.utc)."
  else if name == "asyncio.get_event_loop" then
    some "asyncio.get_event_loop() is deprecated outside a running loop."
  else none

/-- Imports and calls of what is gone or going. -/
def judgeAge (node : Syn) : List Verdict :=
  match node.kind with
  | .call =>
    match oldCall? node.calledName with
    | some m => [⟨"CMP102", .low, m, none⟩]
    | none => []
  | _ =>
    ((importedModules node).filter fun n => oldModules.contains (topName n)).map fun n =>
      ⟨"CMP101", .medium, s!"Module {n} is deprecated or removed in current Python releases.", none⟩

/-- What a rule finds in the tree of a source. -/
def scanTree (s : Source) (kind : IssueKind) (judge : Syn → List Verdict) : List Finding :=
  match s.tree with
  | none => []
  | some tree =>
    tree.walk.flatMap fun node =>
      (judge node).map fun v =>
        s.finding v.code node.line (node.column + 1) kind v.severity v.message v.suggestion

/-- A node at which a run may branch. -/
def isBranch (node : Syn) : Bool :=
  match node.kind with
  | .ifStmt => true
  | .forStmt => true
  | .whileStmt => true
  | .tryStmt => true
  | .withStmt => true
  | .ifExp => true
  | .boolOp => true
  | .comprehension => true
  | .handler => true
  | _ => false

/-- The functions of a tree: name, line and number of branches. -/
def functionBranches (tree : Syn) : List (String × Nat × Nat) :=
  tree.walk.filterMap fun node =>
    match node.kind with
    | .functionDef name _ => some (name, node.line, (node.walk.filter isBranch).length)
    | _ => none

end RepairLoop.Inspection

/-!
## Rules for Rust

A rule is a pattern that is looked for in each masked line; of the matches in a line
the first counts.
-/

namespace RepairLoop.Inspection

open Pattern

/-- A pattern and what its matches say. -/
structure LineRule where
  code : String
  pattern : Node
  kind : IssueKind
  severity : Severity
  message : String
  suggestion : Option String

private def word (s : String) : Node := lit .plain s

/-- Blanks and an opening parenthesis. -/
private def callOpen : Node := row [blanks, word "("]

/-- Type arguments behind a double colon, if there are any. -/
private def typeArguments : Node :=
  optional (row [word "::<", many (.test .plain (.set true [.char '>'])), word ">"])

/-- Process execution and file deletion. -/
def rustSecurity : List LineRule := [
  ⟨"SEC001", row [edge, optional (word "std::process::"), word "Command::new", callOpen], .security,
    .high, "External process spawned; validate every argument that reaches it.",
    some "Avoid spawning processes or pass a fixed, validated argument list."⟩,
  ⟨"SEC002",
    row [edge, word "fs::remove_", anyLit .plain ["file", "dir", "dir_all"], callOpen],
    .security, .medium, "Filesystem deletion without path validation.",
    some "Check the target path is inside the expected directory before deleting."⟩,
  ⟨"SEC003", row [edge, word "fs::write", callOpen], .security, .low, "Direct filesystem write.",
    none⟩]

/-- Code outside the borrow checker. -/
def rustUnsafe : List LineRule := [
  ⟨"UNS001", row [edge, word "unsafe", blanks, word "\x7b"], .unsafeCode, .high,
    "Unsafe block bypasses borrow and memory checks.",
    some "Replace with a safe abstraction or document the invariants it relies on."⟩,
  ⟨"UNS002", row [edge, word "unsafe", blanks1, word "fn", edge], .unsafeCode, .medium,
    "Unsafe function declaration.", none⟩,
  ⟨"UNS003",
    row [edge, optional (word "mem::"), word "transmute", blanks, typeArguments, callOpen],
    .unsafeCode, .critical, "transmute reinterprets memory without any type checking.", none⟩,
  ⟨"UNS004", row [edge, word "ptr::", anyLit .plain ["read", "write"], callOpen], .unsafeCode, .high,
    "Raw pointer read/write.", none⟩]

/-- Collections and copies that are thrown away. -/
def rustPerformance : List LineRule := [
  ⟨"PERF001",
    row [word ".collect::<Vec<_>>()", blanks, word ".",
      anyLit .plain ["len", "iter", "into_iter", "is_empty"], word "()"],
    .performance, .low, "Intermediate Vec is collected only to be measured or iterated again.",
    some "Use the iterator directly (count(), any(), or chain the adaptor)."⟩,
  ⟨"PERF002", word ".clone().clone()", .performance, .low, "Redundant clone.", none⟩]

/-- Macros that stand for code to come. -/
def rustPlaceholders : List LineRule := [
  ⟨"STY003", row [edge, anyLit .plain ["todo", "unimplemented"], word "!", callOpen], .style, .low,
    "Placeholder macro panics at runtime.", none⟩]

/-- What later editions of the language no longer have. -/
def rustCompatibility : List LineRule := [
  ⟨"CMP001", row [edge, word "try!", callOpen], .typeCompat, .medium,
    "try! is reserved since the 2018 edition.", some "Use the ? operator."⟩,
  ⟨"CMP002", row [edge, word "mem::uninitialized", blanks, typeArguments, callOpen], .deprecation,
    .high, "mem::uninitialized is deprecated and undefined behaviour for most types.",
    some "Use MaybeUninit."⟩,
  ⟨"CMP003", row [.at_ .plain .start, blanks, word "extern", blanks1, word "crate", edge],
    .deprecation, .info, "extern crate is unnecessary since the 2018 edition.", none⟩,
  ⟨"CMP004",
    row [edge, word "Box<", blanks, .ahead true (row [word "dyn", edge]),
      anyLit .plain ["Error", "Fn", "FnMut", "FnOnce", "Any"], edge],
    .typeCompat, .low, "Trait object without dyn.", some "Write Box<dyn Trait>."⟩]

/-- What some rules find in the masked lines of a source, line by line. -/
def scanLines (s : Source) (rules : List LineRule) : List Finding :=
  s.codeLines.zipIdx.flatMap fun (line, i) =>
    let text := line.toList.toArray
    rules.filterMap fun r =>
      (r.pattern.search? text).map fun m =>
        s.finding r.code (i + 1) (m.start + 1) r.kind r.severity r.message r.suggestion

end RepairLoop.Inspection

/-!
## Passes

A pass is a function from a source to findings. Passes share nothing: what one finds
does not depend on which others run.
-/

namespace RepairLoop.Inspection

/-- What a pass finds by its rules, of which some look at lines of Rust and some at
the tree of Python. -/
def byLanguage (s : Source) (rust : List LineRule) (python : List Finding) : List Finding :=
  if s.language = .rust then scanLines s rust else python

/-- Process execution, unchecked deletion, and unsafe deserialisation. -/
def securityPass (s : Source) : List Finding :=
  byLanguage s rustSecurity (scanTree s .security judgeCall)

/-- Unsafe blocks, raw pointer operations, and native memory access. -/
def unsafePass (s : Source) : List Finding :=
  byLanguage s rustUnsafe (scanTree s .unsafeCode judgeNative)

/-- Needless intermediate collections and copies. -/
def performancePass (s : Source) : List Finding :=
  byLanguage s rustPerformance (scanTree s .performance judgeMembership)

/-- Lines that are too long or end in blanks. -/
def styleOfLine (s : Source) (number : Nat) (line : String) : List Finding :=
  let limit := s.settings.maxLineLength
  let length := line.length
  let kept := (Text.stripRight line).length
  let long :=
    if limit < Int.ofNat length then
      [s.finding "STY001" number (limit + 1) .style .info
        s!"Line is {length} characters long (limit {limit})." none]
    else []
  let trailing :=
    if kept != length then
      [s.finding "STY002" number (kept + 1) .style .info "Trailing whitespace." none]
    else []
  long ++ trailing

/-- Line length, trailing whitespace, bare excepts, and placeholder macros. -/
def stylePass (s : Source) : List Finding :=
  s.lines.zipIdx.flatMap (fun (line, i) => styleOfLine s (i + 1) line) ++
    byLanguage s rustPlaceholders (scanTree s .style judgeHandler)

/-- The functions of a source: name, line and number of branches. -/
def branchesOf (s : Source) : List (String × Nat × Nat) :=
  match s.tree with
  | some tree => functionBranches tree
  | none =>
    if s.language = .rust then Rust.functionBranches 1 (s.codeLines.map String.toList) else []

/-- Functions with too many branches. -/
def complexityPass (s : Source) : List Finding :=
  let limit := s.settings.maxFunctionBranches
  (branchesOf s).filterMap fun (name, line, branches) =>
    if limit < Int.ofNat branches then
      some (s.finding "CPX001" line 1 .complexity
        (if Int.ofNat branches < limit * 2 then .medium else .high)
        s!"Function {name} has {branches} branches (limit {limit})."
        (some "Split the function into smaller helpers."))
    else none

/-- What Python deprecates is found by node, with the kind of a deprecation. -/
def compatibilityPass (s : Source) : List Finding :=
  byLanguage s rustCompatibility (scanTree s .deprecation judgeAge)

/-- The function of a pass. -/
def runPass : PassName → Source → List Finding
  | .security => securityPass
  | .unsafeCode => unsafePass
  | .performance => performancePass
  | .style => stylePass
  | .complexity => complexityPass
  | .compatibility => compatibilityPass

end RepairLoop.Inspection

namespace RepairLoop.PassName

/-- What a pass finds. -/
def description : PassName → String
  | security => "Process execution, unchecked deletion, and unsafe deserialisation."
  | unsafeCode => "Unsafe blocks, raw pointer operations, and native memory access."
  | performance => "Needless intermediate collections and copies."
  | style => "Line length, trailing whitespace, bare excepts, and placeholder macros."
  | complexity => "Functions with too many branches."
  | compatibility => "Edition and interpreter compatibility, deprecated APIs."

/-- The rules of a pass. -/
def rules : PassName → List String
  | security =>
    ["SEC001", "SEC002", "SEC003", "SEC101", "SEC102", "SEC103", "SEC104", "SEC105"]
  | unsafeCode => ["UNS001", "UNS002", "UNS003", "UNS004", "UNS101"]
  | performance => ["PERF001", "PERF002", "PERF101"]
  | style => ["STY001", "STY002", "STY003", "STY101"]
  | complexity => ["CPX001"]
  | compatibility => ["CMP001", "CMP002", "CMP003", "CMP004", "CMP101", "CMP102"]

end RepairLoop.PassName
