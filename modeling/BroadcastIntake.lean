import BroadcastIntake.Batch
import BroadcastIntake.Batch.Stats
import BroadcastIntake.Child.Arithmetic
import BroadcastIntake.Child.Escape
import BroadcastIntake.Child.Flow
import BroadcastIntake.Child.Program
import BroadcastIntake.Child.Program.Filtering
import BroadcastIntake.Child.Program.Printing
import BroadcastIntake.Child.Program.Testing
import BroadcastIntake.Child.Run
import BroadcastIntake.Child.Script
import BroadcastIntake.Child.Script.Reader
import BroadcastIntake.Child.Script.Token
import BroadcastIntake.Child.Shell
import BroadcastIntake.Child.Shell.Basic
import BroadcastIntake.Child.Shell.Command
import BroadcastIntake.Child.Shell.Expansion
import BroadcastIntake.Child.Toolset
import BroadcastIntake.Collection
import BroadcastIntake.CommandLine
import BroadcastIntake.Console.Basic
import BroadcastIntake.Console.Plain
import BroadcastIntake.Console.Report
import BroadcastIntake.Crash
import BroadcastIntake.Csv
import BroadcastIntake.Date
import BroadcastIntake.EnvironmentFile
import BroadcastIntake.Extraction
import BroadcastIntake.FileSize
import BroadcastIntake.FileTree
import BroadcastIntake.FilterChain
import BroadcastIntake.Job.File
import BroadcastIntake.Job.Machine
import BroadcastIntake.Job.Moves
import BroadcastIntake.Job.Result
import BroadcastIntake.Job.Run
import BroadcastIntake.Json.Basic
import BroadcastIntake.Json.Reader
import BroadcastIntake.Json.Writer
import BroadcastIntake.Log
import BroadcastIntake.LogFile
import BroadcastIntake.Main
import BroadcastIntake.Number.Binary64
import BroadcastIntake.Number.Reading
import BroadcastIntake.Number.Rounding
import BroadcastIntake.Number.Text
import BroadcastIntake.Options
import BroadcastIntake.OutputFile
import BroadcastIntake.OutputName
import BroadcastIntake.Path
import BroadcastIntake.Pattern.Basic
import BroadcastIntake.Pattern.Check
import BroadcastIntake.Pattern.Placeholder
import BroadcastIntake.Pattern.Token
import BroadcastIntake.Plan
import BroadcastIntake.Probe
import BroadcastIntake.Profile
import BroadcastIntake.ProfileFile
import BroadcastIntake.Proofs.Batch.Ownership
import BroadcastIntake.Proofs.Csv
import BroadcastIntake.Proofs.FileTree.Frame
import BroadcastIntake.Proofs.FileTree.Lookup
import BroadcastIntake.Proofs.Job.Effect
import BroadcastIntake.Proofs.Job.Steps
import BroadcastIntake.Proofs.Job.Tracking
import BroadcastIntake.Proofs.Members
import BroadcastIntake.Proofs.Outcome
import BroadcastIntake.Proofs.OutputFile
import BroadcastIntake.Proofs.Report.File
import BroadcastIntake.Proofs.Report.Row
import BroadcastIntake.Proofs.Report.Update
import BroadcastIntake.Report.File
import BroadcastIntake.Report.Row
import BroadcastIntake.Report.Survey
import BroadcastIntake.Schema.Checked
import BroadcastIntake.Schema.Scalar
import BroadcastIntake.Session
import BroadcastIntake.Session.Basic
import BroadcastIntake.Session.DryRun
import BroadcastIntake.Session.Planning
import BroadcastIntake.Session.Processing
import BroadcastIntake.Settings
import BroadcastIntake.Template
import BroadcastIntake.Text.Blank
import BroadcastIntake.Text.Case
import BroadcastIntake.Text.CaseContext
import BroadcastIntake.Text.CaseRun
import BroadcastIntake.Text.Decode
import BroadcastIntake.Text.Digit
import BroadcastIntake.Text.Lines
import BroadcastIntake.Text.Quoted
import BroadcastIntake.Text.Unprintable
import BroadcastIntake.Timestamp
import BroadcastIntake.Tool.Basic
import BroadcastIntake.Tool.Prober
import BroadcastIntake.Tool.Script
import BroadcastIntake.Tool.Transcoder
import BroadcastIntake.Proofs.Number.Digits
import BroadcastIntake.Proofs.Number.Reading
import BroadcastIntake.Proofs.Json.Strings
import BroadcastIntake.Proofs.Json.Record
import BroadcastIntake.Proofs.Extraction
import BroadcastIntake.Proofs.Report.Planned
import BroadcastIntake.Proofs.Report.Fresh
import BroadcastIntake.Proofs.FileTree.Directories
import BroadcastIntake.Proofs.Job.Course
import BroadcastIntake.Proofs.Tool.Prober
import BroadcastIntake.Proofs.Job.Calls
import BroadcastIntake.Proofs.OutputFile.Candidate
import BroadcastIntake.Proofs.Plan.Prediction
import BroadcastIntake.Proofs.Pattern.Expression
import BroadcastIntake.Proofs.Pattern.Matching
import BroadcastIntake.Proofs.Pattern.Tokens
import BroadcastIntake.Proofs.Pattern.Filling
import BroadcastIntake.Proofs.Batch.Stats
import BroadcastIntake.Proofs.Job.Remaining
import BroadcastIntake.Proofs.Batch.Completion
import BroadcastIntake.Proofs.Job.Locality
import BroadcastIntake.Proofs.Batch.Planned
import BroadcastIntake.Proofs.Batch.Order
import BroadcastIntake.Proofs.FileTree.Missing
import BroadcastIntake.Proofs.Report.Missing
import BroadcastIntake.Proofs.Session.Frame
import BroadcastIntake.Proofs.Session.DryRun
import BroadcastIntake.Proofs.Path
import BroadcastIntake.Proofs.Profile
import BroadcastIntake.Proofs.OutputName
import BroadcastIntake.Proofs.Number.RoundTrip
import BroadcastIntake.Proofs.Report.RoundTrip
import BroadcastIntake.Proofs.Plan.Selection
import BroadcastIntake.Proofs.Job.Answer
import BroadcastIntake.Proofs.Job.Sparing
import BroadcastIntake.Proofs.Report.Entries
import BroadcastIntake.Proofs.Report.Run
import BroadcastIntake.Proofs.Report.Resume
import BroadcastIntake.Proofs.Session.Resume
import BroadcastIntake.Proofs.Text.Case
import BroadcastIntake.Proofs.Extraction.Confidence
import BroadcastIntake.Proofs.Extraction.Weekday
import BroadcastIntake.Proofs.Plan.Output
import BroadcastIntake.Proofs.Text.Blank
import BroadcastIntake.Proofs.Template
import BroadcastIntake.Proofs.Template.Dated
import BroadcastIntake.Proofs.Template.Groups
import BroadcastIntake.Proofs.Template.Values
import BroadcastIntake.Proofs.Number.Nearest
import BroadcastIntake.Proofs.FilterChain.Seconds
import BroadcastIntake.Proofs.FilterChain.Thousandths
import BroadcastIntake.Proofs.FilterChain
import BroadcastIntake.Proofs.FilterChain.Window
import BroadcastIntake.Proofs.FilterChain.Words
import BroadcastIntake.Proofs.FilterChain.Unbounded
import BroadcastIntake.Proofs.Json.Doubles
import BroadcastIntake.Proofs.Tool.Duration
import BroadcastIntake.Proofs.FileTree.Parents
import BroadcastIntake.Proofs.OutputFile.Conflicts
import BroadcastIntake.Proofs.OutputName.Values
import BroadcastIntake.Proofs.ProfileFile
import BroadcastIntake.Proofs.Report.Marking
import BroadcastIntake.Proofs.OutputName.Safe
import BroadcastIntake.Proofs.Pattern.Tokenization
import BroadcastIntake.Proofs.Pattern.Acceptance
import BroadcastIntake.Proofs.Text.Lowered
import BroadcastIntake.Proofs.Profile.RoundTrip
import BroadcastIntake.Proofs.Profile.Format
