import JobShell.Sys.Errno
import JobShell.Text.Escaped
import JobShell.Jobs.Status
import JobShell.Jobs.Waiter
import JobShell.Jobs.Job
import JobShell.Jobs.Table
import JobShell.Json.Value
import JobShell.Json.Read
import JobShell.Json.Decode
import JobShell.Jobs.Snapshot
import JobShell.Text.ShellWords
import JobShell.Command.Pipeline
import JobShell.Env
import JobShell.Fs.Path
import JobShell.Fs.Tree
import JobShell.Options
import JobShell.Tools.Run
import JobShell.Tools.Files
import JobShell.Script.Ast
import JobShell.Script.Reader
import JobShell.Script.Parser
import JobShell.Script.Pattern
import JobShell.Script.Expand
import JobShell.Num.Binary64
import JobShell.Yaml.Read
import JobShell.Yaml.Scalar
import JobShell.Yaml.Write
import JobShell.Config.Settings
import JobShell.Config.Load
import JobShell.Log.Entry
import JobShell.Log.Read
import JobShell.Log.Report
import JobShell.Host.Sh
import JobShell.Host.Procs
import JobShell.Shell.State
import JobShell.Shell.JobControl
import JobShell.Shell.Builtins
import JobShell.Text.AliasWords
import JobShell.Shell.Expansion
import JobShell.Shell.Stage
import JobShell.Shell.Exec
import JobShell.Shell.Eval
import JobShell.Text.Printf
import JobShell.Text.CaseMap
import JobShell.Regex.Syntax
import JobShell.Regex.Match
import JobShell.Awk.Number
import JobShell.Awk.Syntax
import JobShell.Awk.Lexer
import JobShell.Awk.Parser
import JobShell.Awk.Value
import JobShell.Awk.Interp
import JobShell.Tools.Awk
import JobShell.Main
import JobShell.Proofs.Jobs.Invariant
import JobShell.Proofs.Json.Roundtrip
import JobShell.Proofs.Jobs.Snapshot
import JobShell.Proofs.Jobs.Reachable
import JobShell.Proofs.Jobs.Reaping
import JobShell.Proofs.Jobs.Accounting
import JobShell.Proofs.Shell.ControlFlow
import JobShell.Proofs.Num.IntegerText
import JobShell.Proofs.Log.Lawful
import JobShell.Proofs.Log.ReadBack
import JobShell.Proofs.Log.Tally
import JobShell.Proofs.Log.Aggregate
import JobShell.Proofs.Shell.Waits
import JobShell.Proofs.Shell.Lifecycle
import JobShell.Proofs.Shell.Triples
import JobShell.Proofs.Shell.JobControl
import JobShell.Proofs.Shell.JobEvents
import JobShell.Proofs.Jobs.Reconciliation
import JobShell.Proofs.Shell.PipelineWaits
import JobShell.Proofs.Jobs.Quiescence
import JobShell.Proofs.Shell.StageEnviron
import JobShell.Proofs.Shell.StageCommandLine
import JobShell.Proofs.Fs.Frame
import JobShell.Proofs.Tools.Copy
import JobShell.Proofs.Tools.Cat
import JobShell.Proofs.Shell.ForegroundBackground
import JobShell.Proofs.Shell.SetupFailure
import JobShell.Proofs.Env.History
import JobShell.Proofs.Shell.JobsListing
import JobShell.Proofs.Script.ExpansionReads
import JobShell.Proofs.Shell.VariableFrame
import JobShell.Proofs.Shell.BareAssignments
import JobShell.Proofs.Jobs.CommandCut
import JobShell.Proofs.Jobs.RetryLoops
