import ChainCoverage.Partition

/-!
# Worker plans

A range of blocks is cut into contiguous worker tasks, balanced like buckets and
carrying the same options.  Surplus workers get no task.

Main definitions:

- `WorkerTask`: a span with the options it is to be indexed under.
- `workerPlan`: the tasks that cover a range.
-/

namespace ChainCoverage

/-- Settings shared by every task of one plan. -/
structure TaskOptions where
  force : Bool
  logLevel : String
deriving DecidableEq

namespace TaskOptions

/-- Log level of a worker when none is asked for. -/
def defaultLogLevel : String := "info"

/-- No forcing, and the default log level. -/
protected def default : TaskOptions := ⟨false, defaultLogLevel⟩

instance : Inhabited TaskOptions := ⟨TaskOptions.default⟩

end TaskOptions

/-- One worker's share of a range. -/
structure WorkerTask where
  span : Span
  options : TaskOptions
deriving DecidableEq, Inhabited

/-- Cuts the blocks `first … last` into at most `workers` tasks.  A range whose end is below
its start is refused before the number of workers is looked at. -/
def workerPlan (first last : Block) (workers : UInt32) (options : TaskOptions) :
    Except ParameterError (List WorkerTask) :=
  if last < first then
    .error (.inverted first last)
  else if workers = 0 then
    .error .noWorkers
  else
    (balancedSpans (last - first) workers).map
      (·.map fun span => ⟨span.shift first, options⟩)

end ChainCoverage
