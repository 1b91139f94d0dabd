import ChainCoverage.Assignment.Basic
import ChainCoverage.Assignment.LaunchQueue
import ChainCoverage.Block
import ChainCoverage.Bytes
import ChainCoverage.CommandLine.BlockArgument
import ChainCoverage.CommandLine.Command
import ChainCoverage.CommandLine.Usage
import ChainCoverage.Counters
import ChainCoverage.Coverage.Basic
import ChainCoverage.Coverage.Measure
import ChainCoverage.Coverage.Network
import ChainCoverage.Failure
import ChainCoverage.Json.Printer
import ChainCoverage.Json.Schema
import ChainCoverage.Json.Shape
import ChainCoverage.Json.Token
import ChainCoverage.Json.Value
import ChainCoverage.Ledger.Archive
import ChainCoverage.Ledger.Basic
import ChainCoverage.Ledger.Key
import ChainCoverage.Level
import ChainCoverage.Main
import ChainCoverage.Network
import ChainCoverage.Paging
import ChainCoverage.Partition
import ChainCoverage.Run
import ChainCoverage.Service.Basic
import ChainCoverage.Service.Http
import ChainCoverage.Service.MediaType
import ChainCoverage.Service.Query
import ChainCoverage.Settings
import ChainCoverage.SocketAddress
import ChainCoverage.Sweep.Ascending
import ChainCoverage.Sweep.Basic
import ChainCoverage.Sweep.Gap
import ChainCoverage.Text.Basic
import ChainCoverage.Text.Combining
import ChainCoverage.Text.Invisible
import ChainCoverage.Text.Quoted
import ChainCoverage.Text.Unsigned
import ChainCoverage.Text.Utf8
import ChainCoverage.WorkerTask
import ChainCoverage.Proofs.Block
import ChainCoverage.Proofs.Bytes
import ChainCoverage.Proofs.Partition
import ChainCoverage.Proofs.Text.Blank
import ChainCoverage.Proofs.Text.Unsigned
import ChainCoverage.Proofs.Sweep.Ascending
import ChainCoverage.Proofs.Sweep.Gap
import ChainCoverage.Proofs.Sweep.Skip
import ChainCoverage.Proofs.Sweep.Invariant
import ChainCoverage.Proofs.Coverage.Counts
import ChainCoverage.Proofs.Coverage.Exact
import ChainCoverage.Proofs.Coverage.Stream
import ChainCoverage.Proofs.Run
import ChainCoverage.Proofs.Paging.Steady
import ChainCoverage.Proofs.Coverage.Sums
import ChainCoverage.Proofs.CommandLine.Stats
import ChainCoverage.Proofs.Coverage.Runs
import ChainCoverage.Proofs.Paging.Page
import ChainCoverage.Proofs.Paging.Snapshots
import ChainCoverage.Proofs.Paging.Alike
import ChainCoverage.Proofs.Paging.Answers
import ChainCoverage.Proofs.Paging.Requests
import ChainCoverage.Proofs.Coverage.Network
import ChainCoverage.Proofs.Coverage.Untrusted
import ChainCoverage.Proofs.Ledger.Archive
import ChainCoverage.Proofs.Ledger.Contents
import ChainCoverage.Proofs.Ledger.Coverage
import ChainCoverage.Proofs.Ledger.Damaged
import ChainCoverage.Proofs.Ledger.History
import ChainCoverage.Proofs.Ledger.Key
import ChainCoverage.Proofs.Ledger.Marked
import ChainCoverage.Proofs.Ledger.Page
import ChainCoverage.Proofs.Ledger.Readings
import ChainCoverage.Proofs.Ledger.Represents
import ChainCoverage.Proofs.CommandLine.BlockLanguage
import ChainCoverage.Proofs.CommandLine.BlockArgument
import ChainCoverage.Proofs.CommandLine.Effect
import ChainCoverage.Proofs.CommandLine.Spelling
import ChainCoverage.Proofs.CommandLine.Pending
import ChainCoverage.Proofs.CommandLine.Reading
import ChainCoverage.Proofs.CommandLine.Usage
import ChainCoverage.Proofs.CommandLine.Session
import ChainCoverage.Proofs.CommandLine.Backfill
import ChainCoverage.Proofs.Service.Coverage
import ChainCoverage.Proofs.Service.Response
import ChainCoverage.Proofs.WorkerTask
import ChainCoverage.Proofs.WorkerTask.Balance
import ChainCoverage.Proofs.Assignment.LaunchQueue
import ChainCoverage.Proofs.Assignment.Report
import ChainCoverage.Proofs.Service.StartTasks
import ChainCoverage.Proofs.Assignment.Launcher
import ChainCoverage.Proofs.Assignment.Exchange
import ChainCoverage.Proofs.Assignment.Delivery
import ChainCoverage.Proofs.Partition.Words
import ChainCoverage.Proofs.Partition.Balance
import ChainCoverage.Proofs.Partition.Lookup
import ChainCoverage.Proofs.Service.Tally
import ChainCoverage.Proofs.Json.Scalar
import ChainCoverage.Proofs.Json.Printer
import ChainCoverage.Proofs.Json.Schema
import ChainCoverage.Proofs.Json.Shape
import ChainCoverage.Proofs.Ledger.PageSizes
import ChainCoverage.Proofs.Ledger.AnyName
import ChainCoverage.Proofs.Settings
import ChainCoverage.Proofs.Sweep.State
import ChainCoverage.Proofs.Sweep.Rounds
import ChainCoverage.Proofs.Ledger.KeySpace
