import ChainCoverage.Failure
import ChainCoverage.WorkerTask

/-!
# Assignment of tasks

Worker tasks are handed to a sink one after another.  A task that fails does not stop
the ones behind it and is not tried again; it is reported with the wording of its
failure.

A sink is a function on a state of its own, so that its answers may depend on what it
was asked before.

Main definitions:

- `Assignment` and `Sink`.
- `AssignmentReport`: the tasks that started and those that failed, each in task order.
- `assignAll`: the report on a list of tasks.
-/

namespace ChainCoverage

/-- The name a started task is known by. -/
abbrev TaskName := String

/-- Asks for one task of a network to be started. -/
structure Assignment where
  network : String
  task : WorkerTask
deriving DecidableEq, Inhabited

/-- Starts tasks, from a state that each request may change. -/
abbrev Sink (σ ε : Type) := Assignment → σ → Except ε TaskName × σ

/-- A task that was started. -/
structure Started where
  id : TaskName
  task : WorkerTask
deriving DecidableEq

/-- A task that was not started, with the wording of the failure. -/
structure NotStarted where
  task : WorkerTask
  error : String
deriving DecidableEq

/-- What became of a list of tasks. -/
structure AssignmentReport where
  started : List Started
  failed : List NotStarted
deriving DecidableEq

namespace AssignmentReport

/-- The report on no task. -/
def empty : AssignmentReport := ⟨[], []⟩

/-- Whether every task was started. -/
def isComplete (r : AssignmentReport) : Bool :=
  r.failed.isEmpty

/-- The report with the answer for one more task in front. -/
def cons {ε : Type} [ToString ε] (task : WorkerTask) (answer : Except ε TaskName)
    (r : AssignmentReport) : AssignmentReport :=
  match answer with
  | .ok id => { r with started := ⟨id, task⟩ :: r.started }
  | .error failure => { r with failed := ⟨task, toString failure⟩ :: r.failed }

end AssignmentReport

/-- Hands every task to the sink in order, and reports on all of them. -/
def assignAll {σ ε : Type} [ToString ε] (sink : Sink σ ε) (network : String) :
    List WorkerTask → σ → AssignmentReport × σ
  | [], state => (.empty, state)
  | task :: rest, state =>
    let (answer, next) := sink ⟨network, task⟩ state
    let (report, final) := assignAll sink network rest next
    (report.cons task answer, final)

end ChainCoverage
