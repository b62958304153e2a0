import Automation.Address
import Automation.ArtifactStore
import Automation.Behaviour
import Automation.Boundary
import Automation.Capture
import Automation.CommandLine.Arguments
import Automation.CommandLine.Execution
import Automation.CommandLine.Report
import Automation.Compiler.Basic
import Automation.Compiler.Command
import Automation.Compiler.Diagnostics
import Automation.Compiler.Scripted
import Automation.Config.Basic
import Automation.Config.File
import Automation.Config.Written
import Automation.Diagnostic
import Automation.Engine.Compile
import Automation.Engine.Invocation
import Automation.Engine.State
import Automation.Environment
import Automation.Failure
import Automation.Fault
import Automation.Files.Action
import Automation.Files.Error
import Automation.Files.Operation
import Automation.Files.Tree
import Automation.Instant
import Automation.Json.Decode
import Automation.Json.Document
import Automation.Json.Double
import Automation.Json.Numeral
import Automation.Json.Value
import Automation.LineOffsets
import Automation.Loading.Basic
import Automation.Loading.Isolated
import Automation.Loading.Message
import Automation.Loading.Scripted
import Automation.Main
import Automation.Path
import Automation.ProgramBlock
import Automation.Registry
import Automation.Shell.Arithmetic
import Automation.Shell.Builtins
import Automation.Shell.Catalogue
import Automation.Shell.Condition
import Automation.Shell.Expression
import Automation.Shell.Fields
import Automation.Shell.Filters
import Automation.Shell.Interpreter
import Automation.Shell.Machine
import Automation.Shell.Parser
import Automation.Shell.Pathnames
import Automation.Shell.Pattern
import Automation.Shell.Printing
import Automation.Shell.Programs
import Automation.Shell.Reader
import Automation.Shell.Script
import Automation.Shell.Sed
import Automation.Shell.Spawn
import Automation.Site
import Automation.Surroundings
import Automation.Table
import Automation.Template
import Automation.Text.Blank
import Automation.Text.Lines
import Automation.Text.Octets
import Automation.Text.Quoted
import Automation.Text.Shown
import Automation.Text.Utf8
import Automation.Toml.Atom
import Automation.Toml.Quoted
import Automation.Toml.Reader
import Automation.Toml.Value
import Automation.Toml.Writer
import Automation.Tool
import Automation.World
import Automation.Proofs.Composition
import Automation.Proofs.Markers
import Automation.Proofs.Engine.Watched
import Automation.Proofs.Engine.Binding
import Automation.Proofs.Engine.Course
import Automation.Proofs.Engine.Liveness
import Automation.Proofs.Engine.Tenure
import Automation.Proofs.Engine.Correspondence
import Automation.Proofs.Starting
import Automation.Proofs.Engine.Housekeeping
import Automation.Proofs.Engine.History
import Automation.Proofs.Files.Resolution
import Automation.Proofs.Files.Effects
import Automation.Proofs.Sharing.Claiming
import Automation.Proofs.Sharing.Claims
import Automation.Proofs.Sharing.Commons
import Automation.Proofs.Sharing.Settled
import Automation.Proofs.Sharing.Starting
import Automation.Proofs.Sharing.Exclusion
import Automation.Proofs.Files.Histories
import Automation.Proofs.Files.Moves
import Automation.Proofs.Files.Contents
import Automation.Proofs.Files.Extensions
import Automation.Proofs.Files.Directories
import Automation.Proofs.Publishing.Names
import Automation.Proofs.Publishing.Swapping
import Automation.Proofs.Publishing.Course
import Automation.Proofs.Publishing.Rollback
import Automation.Proofs.Publishing.Swapped
import Automation.Proofs.Publishing.Switch
import Automation.Proofs.Publishing.Commit
import Automation.Proofs.Publishing.Progress
import Automation.Proofs.Publishing.Visibility
import Automation.Proofs.Publishing.Staging
import Automation.Proofs.Engine.Compiling
import Automation.Proofs.Compiler.Decoding
import Automation.Proofs.Compiler.Reporting
import Automation.Proofs.Engine.Reported
import Automation.Proofs.Engine.Invoking
import Automation.Proofs.Engine.Events
import Automation.Proofs.Engine.Loading
import Automation.Proofs.Engine.Origins
import Automation.Proofs.Engine.Snapshots
import Automation.Proofs.Loading.Traffic
import Automation.Proofs.Loading.Stages
import Automation.Proofs.Engine.Traffic
import Automation.Proofs.Engine.Protocol
import Automation.Proofs.Loading.Conversation
import Automation.Proofs.Loading.Standing
import Automation.Proofs.Loading.Chatter
import Automation.Proofs.Publishing.Collisions
import Automation.Proofs.Publishing.Isolation
import Automation.Proofs.Json.Leaves
import Automation.Proofs.Json.Compact
import Automation.Proofs.Json.Records
import Automation.Proofs.Compiler.Parsing
import Automation.Proofs.Compiler.Printed
import Automation.Proofs.Engine.Judged
import Automation.Proofs.Engine.Answers
import Automation.Proofs.Engine.Faults
import Automation.Proofs.Engine.Warnings
import Automation.Proofs.Files.Sparing
import Automation.Proofs.Files.Soundness
import Automation.Proofs.Publishing.Reworked
import Automation.Proofs.Loading.Copies
import Automation.Proofs.Loading.Shelving
import Automation.Proofs.Engine.Shelves
import Automation.Proofs.Engine.Tidiness
import Automation.Proofs.Engine.Holdings
import Automation.Proofs.Engine.Depots
import Automation.Proofs.Engine.Accounts
import Automation.Proofs.Loading.Requests
import Automation.Proofs.Json.Plain
import Automation.Proofs.Boundary
import Automation.Proofs.Toml.Quoted
import Automation.Proofs.Toml.Written
import Automation.Proofs.Config.Written
import Automation.Proofs.Config.Saving
import Automation.Proofs.Files.Endings
import Automation.Proofs.Files.Ways
import Automation.Proofs.Sharing.Sweeping
import Automation.Proofs.Sharing.Cleanup
import Automation.Proofs.Capture
import Automation.Proofs.Sharing.Releasing
import Automation.Proofs.Loading.Firmness
import Automation.Proofs.Engine.Executions
import Automation.Proofs.Engine.Closings
import Automation.Proofs.CommandLine.Serving
import Automation.Proofs.CommandLine.Endings
import Automation.Proofs.CommandLine.Building
import Automation.Proofs.CommandLine.ExitCodes
