import ChainCoverage.Counters
import ChainCoverage.Assignment.LaunchQueue
import ChainCoverage.Json.Shape
import ChainCoverage.Settings
import ChainCoverage.Ledger.Basic

/-!
# The service

The service answers for the coverage of a network, plans worker tasks and has them
started, and counts what it did.  Its limits on buckets and workers come from its settings.

Main definitions:

- `Service`: settings, ledger, launcher and counters.
- `Service.coverage`, `Service.tasksFor` and `Service.startTasks`: the three requests.
- `ServiceError`: why a request is refused or has no answer.
-/

namespace ChainCoverage

/-- Everything the service works on. -/
structure Service where
  settings : ServiceSettings
  ledger : Ledger
  launcher : LaunchQueue
  counters : Counters

/-- Why a request is refused or has no answer. -/
inductive ServiceError where
  | network (reason : NetworkError)
  | tooManyBuckets (limit : UInt32)
  | tooManyWorkers (limit : UInt32)
  | unsupportedLevel (level : String)
  | parameters (reason : ParameterError)
  /-- The progress of the network could not be read. -/
  | unavailable (reason : Unavailable LedgerError)
deriving DecidableEq

namespace ServiceError

/-- The wording. -/
def message : ServiceError → String
  | network reason => reason.message
  | tooManyBuckets limit => s!"at most {limit} buckets can be requested"
  | tooManyWorkers limit => s!"at most {limit} workers can be dispatched at once"
  | unsupportedLevel level => (LaunchError.unsupportedLevel level).message
  | parameters reason => reason.detail
  | unavailable reason => "could not determine indexing progress: " ++ reason.detail

end ServiceError

/-- Asks for worker tasks. -/
structure PlanOrder where
  first : Block
  last : Block
  workers : UInt32
  force : Bool
  logLevel : Option String
deriving DecidableEq

/-- Asks for worker tasks to be started for a network. -/
structure StartOrder where
  network : String
  plan : PlanOrder
deriving DecidableEq

namespace StartOrder

/-- An order is only read.  In an array it has all of its fields. -/
instance : Shaped StartOrder where
  schema := .record [
    ("network", .text, none),
    ("from", .word, none),
    ("to", .word, none),
    ("workers", .halfWord, none),
    ("force_mode", .flag, some (.bool false)),
    ("log_level", .optional .text, none)]
  toJson o := .object [
    ("network", .text o.network),
    ("from", .ofWord o.plan.first),
    ("to", .ofWord o.plan.last),
    ("workers", .ofNat o.plan.workers.toNat),
    ("force_mode", .bool o.plan.force),
    ("log_level", (o.plan.logLevel.map Json.text).getD .null)]
  ofJson?
    | .object [(_, network), (_, first), (_, last), (_, workers), (_, force), (_, level)] => do
      return ⟨← network.toText?, ← first.toWord?, ← last.toWord?, ← workers.toHalfWord?,
        ← force.toBool?, level.toText?⟩
    | _ => none

end StartOrder

namespace Service

/-- Checks the name of a network. -/
def checkName (name : String) : Except ServiceError Unit :=
  match Network.ofName name with
  | .error reason => .error (.network reason)
  | .ok _ => .ok ()

/-- The service with one more coverage counted. -/
def countMeasured (s : Service) : Service :=
  { s with counters := s.counters.addMeasured }

/-- The service with one more failure to read the progress of a chain counted. -/
def countUnmeasured (s : Service) : Service :=
  { s with counters := s.counters.addUnmeasured }

/-- The coverage of a network in a number of buckets.  It is counted unless no bucket is asked
for. -/
def measure (s : Service) (name : String) (count : UInt32) :
    Except ServiceError Coverage × Service :=
  match s.ledger.coverage name count s.settings.pageSize with
  | .ok coverage => (.ok coverage, s.countMeasured)
  | .error (.invalid reason) => (.error (.parameters reason), s)
  | .error (.unavailable reason) => (.error (.unavailable reason), s.countUnmeasured)

/-- The coverage of a network.  The name is checked before the number of buckets. -/
def coverage (s : Service) (name : String) (buckets : Option UInt32) :
    Except ServiceError Coverage × Service :=
  let count := buckets.getD s.settings.bucketCount
  match checkName name with
  | .error reason => (.error reason, s)
  | .ok () =>
    if s.settings.maxBuckets < count then
      (.error (.tooManyBuckets s.settings.maxBuckets), s)
    else
      s.measure name count

/-- The tasks of an order.  The number of workers is checked before the log level, and that
before the range. -/
def tasksFor (settings : ServiceSettings) (order : PlanOrder) :
    Except ServiceError (List WorkerTask) :=
  let level := order.logLevel.getD TaskOptions.defaultLogLevel
  if settings.maxWorkers < order.workers then
    .error (.tooManyWorkers settings.maxWorkers)
  else if (Level.parse? level).isNone then
    .error (.unsupportedLevel level)
  else
    (workerPlan order.first order.last order.workers ⟨order.force, level⟩).mapError .parameters

/-- Hands tasks of a network to the launcher and counts them. -/
def handOver (s : Service) (name : String) (tasks : List WorkerTask) :
    AssignmentReport × Service :=
  let (report, launcher) := assignAll LaunchQueue.assign name tasks s.launcher
  let counters := s.counters.addTasks (.ofNat report.started.length)
    (.ofNat report.failed.length)
  (report, { s with launcher := launcher, counters := counters })

/-- Starts the tasks of an order.  The name of the network is checked first. -/
def startTasks (s : Service) (order : StartOrder) :
    Except ServiceError AssignmentReport × Service :=
  match checkName order.network with
  | .error reason => (.error reason, s)
  | .ok () =>
    match tasksFor s.settings order.plan with
    | .error reason => (.error reason, s)
    | .ok tasks =>
      let (report, next) := s.handOver order.network tasks
      (.ok report, next)

/-- The service after its launcher was shut down. -/
def shutdownLauncher (s : Service) : Service :=
  { s with launcher := s.launcher.shutdown }

end Service
end ChainCoverage
