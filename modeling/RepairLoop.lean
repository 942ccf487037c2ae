import RepairLoop.Command.Words
import RepairLoop.Console.Invocation
import RepairLoop.Console.Perform
import RepairLoop.Diagnostics
import RepairLoop.Diff.Apply
import RepairLoop.Diff.Basic
import RepairLoop.Diff.Extract
import RepairLoop.Diff.Make
import RepairLoop.Diff.Parser
import RepairLoop.Fault
import RepairLoop.Files.Access
import RepairLoop.Files.Tree
import RepairLoop.Glob
import RepairLoop.Inspection.Detector
import RepairLoop.Inspection.Pass
import RepairLoop.Inspection.Source
import RepairLoop.Json.Basic
import RepairLoop.Json.Parser
import RepairLoop.Json.Printer
import RepairLoop.Lifecycle
import RepairLoop.Main
import RepairLoop.Number.Decimal
import RepairLoop.Number.Nearest
import RepairLoop.Number.Whole
import RepairLoop.Path
import RepairLoop.Pattern.Matcher
import RepairLoop.Pattern.Parser
import RepairLoop.Proofs.Console.Leftovers
import RepairLoop.Proofs.Console.Listing
import RepairLoop.Proofs.Console.Perform
import RepairLoop.Proofs.Console.Validation
import RepairLoop.Proofs.Console.Withdrawal
import RepairLoop.Proofs.Diagnostics
import RepairLoop.Proofs.Diff.Apply
import RepairLoop.Proofs.Diff.Extract
import RepairLoop.Proofs.Diff.LineEnds
import RepairLoop.Proofs.Diff.Made
import RepairLoop.Proofs.Diff.Make
import RepairLoop.Proofs.Diff.Nearest
import RepairLoop.Proofs.Diff.Parsed
import RepairLoop.Proofs.Diff.Parser
import RepairLoop.Proofs.Diff.Rendered
import RepairLoop.Proofs.Diff.Reread
import RepairLoop.Proofs.Diff.Restated
import RepairLoop.Proofs.Diff.Rewrites
import RepairLoop.Proofs.Diff.WellFormed
import RepairLoop.Proofs.Files.Change
import RepairLoop.Proofs.Files.Tree
import RepairLoop.Proofs.Inspection.Files
import RepairLoop.Proofs.Inspection.Passes
import RepairLoop.Proofs.Json.RoundTrip
import RepairLoop.Proofs.Json.Scalars
import RepairLoop.Proofs.Lifecycle
import RepairLoop.Proofs.Lifecycle.History
import RepairLoop.Proofs.Number.Order
import RepairLoop.Proofs.Number.Rounding
import RepairLoop.Proofs.Number.Shortest
import RepairLoop.Proofs.Pattern.Matches
import RepairLoop.Proofs.Pattern.Pieces
import RepairLoop.Proofs.Proposal.Allowance
import RepairLoop.Proofs.Proposal.Consistency
import RepairLoop.Proofs.Proposal.Danger
import RepairLoop.Proofs.Proposal.Desk
import RepairLoop.Proofs.Proposal.Draft
import RepairLoop.Proofs.Proposal.Errand
import RepairLoop.Proofs.Proposal.Refusals
import RepairLoop.Proofs.Proposal.Sources
import RepairLoop.Proofs.Proposal.Verdicts
import RepairLoop.Proofs.Proposal.Vetting
import RepairLoop.Proofs.Record.Result
import RepairLoop.Proofs.Rehearsal.Repository
import RepairLoop.Proofs.Repair.Branches
import RepairLoop.Proofs.Repair.Candidates
import RepairLoop.Proofs.Repair.Course
import RepairLoop.Proofs.Repair.Detection
import RepairLoop.Proofs.Repair.EndStates
import RepairLoop.Proofs.Repair.InHand
import RepairLoop.Proofs.Repair.Landing
import RepairLoop.Proofs.Repair.Naming
import RepairLoop.Proofs.Repair.Patience
import RepairLoop.Proofs.Repair.Process
import RepairLoop.Proofs.Repair.Ranking
import RepairLoop.Proofs.Repair.Records
import RepairLoop.Proofs.Repair.Rollback
import RepairLoop.Proofs.Repair.Settled
import RepairLoop.Proofs.Repair.Tracks
import RepairLoop.Proofs.Repository.Conflict
import RepairLoop.Proofs.Repository.FreeName
import RepairLoop.Proofs.Repository.Mild
import RepairLoop.Proofs.Repository.Precaution
import RepairLoop.Proofs.Repository.Runs
import RepairLoop.Proofs.Repository.Status
import RepairLoop.Proofs.Rust.Balance
import RepairLoop.Proofs.Rust.Bodies
import RepairLoop.Proofs.Rust.Functions
import RepairLoop.Proofs.Rust.Heads
import RepairLoop.Proofs.Rust.Literals
import RepairLoop.Proofs.Rust.Mirror
import RepairLoop.Proofs.Rust.Scanner
import RepairLoop.Proofs.Sequence.Diagonal
import RepairLoop.Proofs.Sequence.Distinct
import RepairLoop.Proofs.Sequence.Edit
import RepairLoop.Proofs.Sequence.Matching
import RepairLoop.Proofs.Service.Answer
import RepairLoop.Proofs.Settings
import RepairLoop.Proofs.Settings.Overrides
import RepairLoop.Proofs.Settings.Paths
import RepairLoop.Proofs.Settings.Placing
import RepairLoop.Proofs.Steps
import RepairLoop.Proofs.Store.Agreement
import RepairLoop.Proofs.Store.Changes
import RepairLoop.Proofs.Store.Duplicates
import RepairLoop.Proofs.Store.Operations
import RepairLoop.Proofs.Store.Origin
import RepairLoop.Proofs.Store.Results
import RepairLoop.Proofs.Store.Rows
import RepairLoop.Proofs.Store.Search
import RepairLoop.Proofs.Store.Sound
import RepairLoop.Proofs.Store.Sweep
import RepairLoop.Proofs.Store.Writes
import RepairLoop.Proofs.Supply
import RepairLoop.Proofs.Text.Character
import RepairLoop.Proofs.Text.Encoded
import RepairLoop.Proofs.Text.Lines
import RepairLoop.Proofs.Time.Reread
import RepairLoop.Proofs.Time.Taken
import RepairLoop.Proofs.Time.Written
import RepairLoop.Proofs.Trial.Decided
import RepairLoop.Proofs.Trial.Gate
import RepairLoop.Proofs.Trial.Measuring
import RepairLoop.Proofs.Trial.Results
import RepairLoop.Proofs.Trial.Seclusion
import RepairLoop.Proofs.World.Beside
import RepairLoop.Proofs.World.Obeys
import RepairLoop.Proofs.World.Runs
import RepairLoop.Proposal.Allowance
import RepairLoop.Proposal.Confidence
import RepairLoop.Proposal.Danger
import RepairLoop.Proposal.Draft
import RepairLoop.Proposal.Interface
import RepairLoop.Proposal.Prompt
import RepairLoop.Proposal.Proposer
import RepairLoop.Proposal.Review
import RepairLoop.Python.Grammar.Expressions
import RepairLoop.Python.Grammar.Notation
import RepairLoop.Python.Grammar.Statements
import RepairLoop.Python.Lexer
import RepairLoop.Python.Literal
import RepairLoop.Python.Mask
import RepairLoop.Python.Parser
import RepairLoop.Python.Syntax
import RepairLoop.Record.Issue
import RepairLoop.Record.Kinds
import RepairLoop.Record.Result
import RepairLoop.Record.Revision
import RepairLoop.Rehearsal.Program
import RepairLoop.Rehearsal.Reading
import RepairLoop.Rehearsal.Repository
import RepairLoop.Rehearsal.Shell
import RepairLoop.Repair.Application
import RepairLoop.Repair.Process
import RepairLoop.Repair.Session
import RepairLoop.Repository.Basic
import RepairLoop.Repository.Branch
import RepairLoop.Repository.History
import RepairLoop.Repository.Mutation
import RepairLoop.Rust.Source
import RepairLoop.Schema.Reading
import RepairLoop.Schema.Scalar
import RepairLoop.Sequence.Basic
import RepairLoop.Service.Answer
import RepairLoop.Service.Basic
import RepairLoop.Settings.Basic
import RepairLoop.Settings.Load
import RepairLoop.Settings.Sections
import RepairLoop.Store.Basic
import RepairLoop.Store.Statistics
import RepairLoop.Store.Table
import RepairLoop.Telemetry
import RepairLoop.Text.Case
import RepairLoop.Text.Character
import RepairLoop.Text.Encoded
import RepairLoop.Text.Line
import RepairLoop.Text.Quoted
import RepairLoop.Text.Template
import RepairLoop.Text.Word
import RepairLoop.Time.Iso
import RepairLoop.Time.Moment
import RepairLoop.Trial.Gate
import RepairLoop.Trial.Report
import RepairLoop.Trial.Sandbox
import RepairLoop.Trial.Stage
import RepairLoop.World.Basic
import RepairLoop.Yaml.Data
import RepairLoop.Yaml.Lexer
import RepairLoop.Yaml.Node
import RepairLoop.Yaml.Scalar
