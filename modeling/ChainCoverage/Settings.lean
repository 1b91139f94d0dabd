import ChainCoverage.Level
import ChainCoverage.Coverage.Network

/-!
# Settings

Both programs take their settings from environment variables.  The name of a variable
counts in any case.  A setting without a variable has a default; two variables for one
setting are refused, and so is a value that does not parse.  Other variables are
ignored.

Each program has settings of its own, with their own defaults, also where the other one
has a setting of the same name.

Main definitions:

- `Environment`: the variables and the home directory.
- `Environment.setting`: the value of one setting.
- `CommandSettings`: the settings of the command line, and where its ledger lies.
- `ServiceSettings`: those of the service, and where its ledger and its log files lie.
-/

namespace ChainCoverage

/-- Environment variables with their values, and the home directory. -/
structure Environment where
  entries : List (String × String)
  home : String

/-- Why the settings cannot be loaded. -/
inductive SettingsError where
  | repeated (setting : String)
  | unreadable (setting : String)
deriving DecidableEq

namespace SettingsError

/-- The wording. -/
def message : SettingsError → String
  | repeated setting => "two variables stand for the setting " ++ setting
  | unreadable setting => "the value of the setting " ++ setting ++ " does not parse"

end SettingsError

/-- A path with one more part.  A slash goes between them unless the path is empty or ends
with one. -/
def joinPath (path part : String) : String :=
  if path.isEmpty || path.toList.getLast? == some '/' then path ++ part
  else path ++ "/" ++ part

/-- The lower case of a character of a variable's name.  The Kelvin sign is the one character
outside ASCII whose lower case is an ASCII letter. -/
def foldChar (c : Char) : Char :=
  if c.toNat = 0x212A then 'k' else c.toLower

/-- The name of a variable as it is compared. -/
def foldName (name : String) : String :=
  String.ofList (name.toList.map foldChar)

namespace Environment

/-- The values of all variables for a setting. -/
def valuesOf (env : Environment) (setting : String) : List String :=
  (env.entries.filter fun entry => foldName entry.1 == setting).map (·.2)

/-- The value of a setting, read by `parse`, or its default. -/
def setting {α : Type} (env : Environment) (name : String) (parse : String → Option α)
    (default : α) : Except SettingsError α :=
  match env.valuesOf name with
  | [] => .ok default
  | [value] =>
    match parse value with
    | some result => .ok result
    | none => .error (.unreadable name)
  | _ => .error (.repeated name)

/-- Reads a size, which is a word. -/
def readSize? (text : String) : Option Nat :=
  (Unsigned.word? text).map UInt64.toNat

end Environment

/-! ## The command line -/

/-- The settings of the command line. -/
structure CommandSettings where
  verbosity : Verbosity
  root : String
  bucketCount : UInt32
  pageSize : Nat
deriving DecidableEq

namespace CommandSettings

/-- What is logged when nothing is set. -/
def defaultVerbosity : Verbosity := .upTo .info

/-- The root directory when none is set. -/
def defaultRoot (env : Environment) : String :=
  joinPath env.home ".block-coverage"

/-- Number of buckets when none is set. -/
def defaultBucketCount : UInt32 := defaultBuckets

/-- Number of blocks in a page when none is set. -/
def defaultPageSize : Nat := defaultPageLimit

/-- Loads the settings of the command line. -/
def load (env : Environment) : Except SettingsError CommandSettings := do
  let verbosity ← env.setting "rust_log" Verbosity.parse? defaultVerbosity
  let root ← env.setting "coverage_db_root" some (defaultRoot env)
  let bucketCount ← env.setting "default_bucket_count" Unsigned.halfWord? defaultBucketCount
  let pageSize ← env.setting "page_size" Environment.readSize? defaultPageSize
  return ⟨verbosity, root, bucketCount, pageSize⟩

/-- Where the ledger lies. -/
def ledgerPath (s : CommandSettings) : String :=
  joinPath s.root "db"

end CommandSettings

/-! ## The service -/

/-- The settings of the service. -/
structure ServiceSettings where
  verbosity : Verbosity
  root : String
  bindAddress : String
  bucketCount : UInt32
  pageSize : Nat
  maxWorkers : UInt32
  /-- The largest number of buckets that a request for coverage may ask for. -/
  maxBuckets : UInt32
deriving DecidableEq

namespace ServiceSettings

/-- What is logged when nothing is set. -/
def defaultVerbosity : Verbosity := .upTo .info

/-- The root directory when none is set. -/
def defaultRoot (env : Environment) : String :=
  joinPath env.home ".block-coverage"

/-- The address that is listened at when none is set. -/
def defaultBindAddress : String := "0.0.0.0:8080"

/-- Number of buckets when none is set. -/
def defaultBucketCount : UInt32 := defaultBuckets

/-- Number of blocks in a page when none is set. -/
def defaultPageSize : Nat := defaultPageLimit

/-- The largest number of workers when none is set. -/
def defaultMaxWorkers : UInt32 := 64

/-- The largest number of buckets when none is set. -/
def defaultMaxBuckets : UInt32 := 1000

/-- Loads the settings of the service. -/
def load (env : Environment) : Except SettingsError ServiceSettings := do
  let verbosity ← env.setting "rust_log" Verbosity.parse? defaultVerbosity
  let root ← env.setting "coverage_db_root" some (defaultRoot env)
  let bindAddress ← env.setting "bind_address" some defaultBindAddress
  let bucketCount ← env.setting "default_bucket_count" Unsigned.halfWord? defaultBucketCount
  let pageSize ← env.setting "page_size" Environment.readSize? defaultPageSize
  let maxWorkers ← env.setting "max_workers" Unsigned.halfWord? defaultMaxWorkers
  let maxBuckets ← env.setting "max_buckets" Unsigned.halfWord? defaultMaxBuckets
  return ⟨verbosity, root, bindAddress, bucketCount, pageSize, maxWorkers, maxBuckets⟩

/-- Where the ledger lies. -/
def ledgerPath (s : ServiceSettings) : String :=
  joinPath s.root "db"

/-- Where log files lie. -/
def logPath (s : ServiceSettings) : String :=
  joinPath s.root "app_logs"

end ServiceSettings
end ChainCoverage
