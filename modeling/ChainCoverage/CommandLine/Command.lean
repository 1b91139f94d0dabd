import ChainCoverage.CommandLine.BlockArgument
import ChainCoverage.Json.Shape
import ChainCoverage.Settings
import ChainCoverage.Ledger.Basic

/-!
# Commands

What the command line does once its arguments are understood.  A command prints one
JSON value, or fails and prints nothing.  Commands on a network check its name first,
and those that change blocks read all of their block arguments before they change any.

Main definitions:

- `Command`: one command with its arguments.
- `Command.Context`: what a command finds besides the ledger.
- `Command.run`: the printed value, and the ledger afterwards.
-/

namespace ChainCoverage

/-- One command with its arguments. -/
inductive Command where
  | bucketize (total : Block) (count : UInt32)
  | plan (first last : Block) (workers : UInt32) (options : TaskOptions)
  | reconcile (network : String) (count : Option UInt32) (runsOnly : Bool)
  | markIndexed (network : String) (blocks : List String)
  | unmark (network : String) (blocks : List String)
  | setLatest (network : String) (block : Block)
  | stats (network : String)
deriving DecidableEq

/-- Why a command fails. -/
inductive CommandError where
  | parameters (reason : ParameterError)
  | coverage (reason : CoverageFailure LedgerError)
  | network (reason : NetworkError)
  | ledger (reason : LedgerError)
  | blocks (reason : BlockArgument.Error)
deriving DecidableEq

namespace CommandError

/-- The wording. -/
def message : CommandError → String
  | parameters reason => reason.message
  | coverage reason => reason.message
  | network reason => reason.message
  | ledger reason => reason.message
  | blocks reason => reason.message

end CommandError

namespace Command

/-- What a command finds besides the ledger: the defaults in the settings, and the estimate that the
storage gives of the number of all keys of blocks. -/
structure Context where
  bucketCount : UInt32
  pageSize : Nat
  estimate : UInt64

/-- The defaults in the settings, with an estimate. -/
def Context.ofSettings (s : CommandSettings) (estimate : UInt64) : Context :=
  ⟨s.bucketCount, s.pageSize, estimate⟩

/-- The outcome of a command: its printed value or its failure, and the ledger afterwards. -/
abbrev Outcome := Except CommandError Json × Ledger

/-- The spans of block arguments, up to the first that names no blocks. -/
def spansOf (arguments : List String) : Except CommandError (List Span) :=
  (arguments.mapM BlockArgument.parse).mapError .blocks

/-- The blocks of spans, one span after another. -/
def blocksOf (spans : List Span) : List Block :=
  spans.flatMap Span.blocks

/-- Prints the answer of a write, or fails with it. -/
def answer {α : Type} (print : α → Json) : Except LedgerError α × Ledger → Outcome
  | (.ok value, s) => (.ok (print value), s)
  | (.error reason, s) => (.error (.ledger reason), s)

/-- Writes the blocks of block arguments and prints their number, unless one of the arguments names
no blocks: then nothing is written. -/
def writeBlocks (s : Ledger) (arguments : List String) (print : Nat → Json)
    (write : List Block → Except LedgerError Nat × Ledger) : Outcome :=
  match spansOf arguments with
  | .error reason => (.error reason, s)
  | .ok spans => answer print (write (blocksOf spans))

/-- The printed form of a coverage. -/
def printCoverage (runsOnly : Bool) (c : Coverage) : Json :=
  if runsOnly then .array (c.runs.map Span.toJson) else Shaped.toJson c

/-- The printed form of a number of blocks. -/
def printCount (count : Nat) : Json :=
  .ofWord (Ledger.countWord count)

/-- A number of blocks that fits a word is printed as it is. -/
theorem printCount_of_lt {count : Nat} (h : count < UInt64.size) :
    printCount count = .ofNat count := by
  rw [printCount, Json.ofWord, Ledger.toNat_countWord h]

/-- What the ledger knows of a network, with an estimate of the number of all keys. -/
def printStats (estimate : UInt64) (s : Ledger) (network : String) : Except LedgerError Json := do
  let head ← s.head? network
  let count ← s.markedCount network
  return .object [
    ("approximate_total_indexed", .ofWord estimate),
    ("indexed_count", printCount count),
    ("latest", (head.map Json.ofWord).getD .null),
    ("network", .text network)]

/-- The network that a command works on, if it works on one. -/
def network? : Command → Option String
  | bucketize .. | plan .. => none
  | reconcile network .. | markIndexed network _ | unmark network _ | setLatest network _
  | stats network => some network

/-- Runs a command whose network has been checked. -/
def runChecked (context : Context) (s : Ledger) : Command → Outcome
  | bucketize total count =>
    match balancedSpans total count with
    | .error reason => (.error (.parameters reason), s)
    | .ok spans => (.ok (.array (spans.map Span.toJson)), s)
  | plan first last workers options =>
    match workerPlan first last workers options with
    | .error reason => (.error (.parameters reason), s)
    | .ok tasks => (.ok (.array (tasks.map Shaped.toJson)), s)
  | reconcile network count runsOnly =>
    match s.coverage network (count.getD context.bucketCount) context.pageSize with
    | .error reason => (.error (.coverage reason), s)
    | .ok coverage => (.ok (printCoverage runsOnly coverage), s)
  | markIndexed network arguments =>
    writeBlocks s arguments
      (fun count => .object [("marked", printCount count), ("network", .text network)])
      (s.markAll network)
  | unmark network arguments =>
    writeBlocks s arguments
      (fun count => .object [("network", .text network), ("unmarked", printCount count)])
      (s.unmarkAll network)
  | setLatest network block =>
    answer (fun () => .object [("latest", .ofWord block), ("network", .text network)])
      (s.setHead network block)
  | stats network =>
    match printStats context.estimate s network with
    | .error reason => (.error (.ledger reason), s)
    | .ok json => (.ok json, s)

/-- What is known of a network is printed, and nothing changes. -/
theorem runChecked_stats {context : Context} {s : Ledger} {network : String} {json : Json}
    (h : printStats context.estimate s network = .ok json) :
    runChecked context s (stats network) = (.ok json, s) := by
  rw [runChecked, h]

/-- Runs a command. -/
def run (context : Context) (s : Ledger) (command : Command) : Outcome :=
  match command.network? with
  | none => command.runChecked context s
  | some network =>
    match Network.ofName network with
    | .error reason => (.error (.network reason), s)
    | .ok _ => command.runChecked context s

/-- The text that a printed value comes out as. -/
def printed (json : Json) : String :=
  json.pretty ++ "\n"

end Command
end ChainCoverage
