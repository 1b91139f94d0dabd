import ChainCoverage.CommandLine.Usage
import ChainCoverage.Ledger.Archive

/-!
# The command line as a program

One run reads the settings from the environment, opens the ledger that is saved in a
file, carries out one command and prints its value.  The ledger is saved again when the
command succeeds.  A failure is written to the error stream and nothing is saved.

Main definitions:

- `Usage.message` and `Usage.exitCode`: what is said of a line that is no command.
- `Program.openLedger` and `Program.saveLedger`: the file of the ledger.
- `main`: one run.
-/

namespace ChainCoverage

namespace Usage

/-- The wording. -/
def message : Usage → String
  | nothing => "a command is required"
  | help => "usage: coverage COMMAND ARGUMENTS"
  | version => "coverage"
  | unknownCommand => "there is no such command"
  | unknownArgument => "there is no such argument"
  | missingArgument => "a required argument is missing"
  | missingValue => "an option lacks its value"
  | badValue => "a value does not parse"
  | repeatedOption => "an option is given twice"
  | surplusValue => "an option takes no value"

/-- Requests for help are no failures. -/
def exitCode : Usage → UInt32
  | help | version => 0
  | _ => 2

end Usage

namespace Program

/-! ## Settings -/

/-- The variables that the command line reads. -/
def variableNames : List String :=
  ["rust_log", "coverage_db_root", "default_bucket_count", "page_size"]

/-- Looks up the variables, in lower case and in upper case, and the home directory. -/
def readEnvironment : IO Environment := do
  let mut entries := []
  for lower in variableNames do
    for name in [lower, String.ofList (lower.toList.map Char.toUpper)] do
      if let some value ← IO.getEnv name then
        entries := entries ++ [(name, value)]
  return ⟨entries, (← IO.getEnv "HOME").getD ""⟩

/-! ## The file of the ledger -/

/-- The text of a file; a file that does not exist is empty. -/
def readText (path : String) : IO String :=
  tryCatch (IO.FS.readFile path) fun
    | .noFileOrDirectory .. => return ""
    | failure => throw failure

/-- Opens the ledger that is saved in a file. -/
def openLedger (path : String) : IO Ledger := do
  match Ledger.ofText? (← readText path) with
  | some ledger => return ledger
  | none => throw (IO.userError ("the ledger is damaged: " ++ path))

/-- Saves the ledger in a file of a directory that is made if it does not exist. -/
def saveLedger (directory path : String) (ledger : Ledger) : IO Unit := do
  IO.FS.createDirAll directory
  IO.FS.writeFile path ledger.text

/-! ## One run -/

/-- Carries out a command on the saved ledger. -/
def carryOut (settings : CommandSettings) (command : Command) : IO UInt32 := do
  let ledger ← openLedger settings.ledgerPath
  let context := Command.Context.ofSettings settings (.ofNat ledger.blocks.size)
  match Command.run context ledger command with
  | (.error reason, _) =>
    IO.eprintln ("Error: " ++ reason.message)
    return 1
  | (.ok value, next) =>
    saveLedger settings.root settings.ledgerPath next
    IO.print (Command.printed value)
    return 0

/-- One run.  The settings are read before the arguments. -/
def run (args : List String) : IO UInt32 := do
  match CommandSettings.load (← readEnvironment) with
  | .error reason =>
    IO.eprintln ("Error: " ++ reason.message)
    return 1
  | .ok settings =>
    match Command.parse args with
    | .error usage =>
      (if usage.exitCode = 0 then IO.println usage.message else IO.eprintln usage.message)
      return usage.exitCode
    | .ok command => carryOut settings command

end Program
end ChainCoverage

/-- Runs the command line with its arguments. -/
def main (args : List String) : IO UInt32 :=
  ChainCoverage.Program.run args
