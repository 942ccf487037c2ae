import RepairLoop.Record.Issue
/-!
# Commits and branches

Read-only views of the history and of the branches of a repository.
-/

namespace RepairLoop

/-- A commit. -/
structure GitCommit where
  hash : String
  message : String
  author : String
  email : String
  timestamp : Moment
  filesChanged : List String
  deriving Inhabited

namespace GitCommit

/-- The keys of a commit. -/
def keys : List String := ["hash", "message", "author", "email", "timestamp", "files_changed"]

/-- How a commit is read. -/
def shape : Shape GitCommit :=
  Reading.record keys fun es =>
    GitCommit.mk
      <$> Reading.required es "hash" Schema.text
      <*> Reading.required es "message" Schema.text
      <*> Reading.required es "author" Schema.text
      <*> Reading.required es "email" Schema.text
      <*> Reading.required es "timestamp" Schema.moment
      <*> Reading.field es "files_changed" (pure []) (Schema.list Schema.text)

/-- All fields of a commit. -/
def json (c : GitCommit) : Json :=
  .object [("hash", .text c.hash), ("message", .text c.message), ("author", .text c.author),
    ("email", .text c.email), ("timestamp", .text c.timestamp.wireText),
    ("files_changed", Json.texts c.filesChanged)]

end GitCommit

/-- A local branch. -/
structure BranchInfo where
  name : String
  isCurrent : Bool
  head : String
  upstream : Option String
  ahead : Int
  behind : Int
  deriving DecidableEq, Inhabited

namespace BranchInfo

/-- The keys of a branch. -/
def keys : List String := ["name", "is_current", "head", "upstream", "ahead", "behind"]

/-- How a branch is read. -/
def shape : Shape BranchInfo :=
  Reading.record keys fun es =>
    BranchInfo.mk
      <$> Reading.required es "name" Schema.text
      <*> Reading.required es "is_current" Schema.bool
      <*> Reading.required es "head" Schema.text
      <*> Reading.field es "upstream" (pure none) (Schema.nullable Schema.text)
      <*> Reading.field es "ahead" (pure 0) Schema.int
      <*> Reading.field es "behind" (pure 0) Schema.int

/-- All fields of a branch. -/
def json (b : BranchInfo) : Json :=
  .object [("name", .text b.name), ("is_current", .bool b.isCurrent), ("head", .text b.head),
    ("upstream", Json.ofText? b.upstream), ("ahead", .int b.ahead), ("behind", .int b.behind)]

end BranchInfo

end RepairLoop
