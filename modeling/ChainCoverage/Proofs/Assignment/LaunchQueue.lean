import ChainCoverage.Assignment.LaunchQueue

/-!
# Tasks handed to a launcher

A launcher that takes commands starts every task whose log level it knows, and counts on from
one task to the next.  Without a receiver for the commands every task fails in the same way.

Main definitions:

- `startedFrom`: tasks that are started one after another.

Main results:

- `LaunchQueue.assignAll_running`: all tasks are started.
- `LaunchQueue.assignAll_of_not_open`: all tasks fail.
- `LaunchQueue.launches_assignAll`: a report has as many started tasks as there were launches.
-/

namespace ChainCoverage

/-- Tasks that are started one after another behind some launches. -/
def startedFrom (network : String) (launches : UInt64) : List WorkerTask → List Started
  | [] => []
  | task :: rest =>
    ⟨taskName ⟨network, task⟩ (launches + 1), task⟩ :: startedFrom network (launches + 1) rest

@[simp]
theorem map_task_startedFrom (network : String) (launches : UInt64) (tasks : List WorkerTask) :
    (startedFrom network launches tasks).map Started.task = tasks := by
  induction tasks generalizing launches with
  | nil => rfl
  | cons task rest ih => rw [startedFrom, List.map_cons, ih]

namespace LaunchQueue

/-- A launcher that takes commands starts all tasks with a log level that it knows. -/
theorem assignAll_running (network : String) {tasks : List WorkerTask}
    (hlevels : ∀ task ∈ tasks, (Level.parse? task.options.logLevel).isSome)
    (launcher : Launcher) :
    assignAll assign network tasks (running launcher) =
      (⟨startedFrom network launcher.launches tasks, []⟩,
        running ⟨launcher.launches + .ofNat tasks.length⟩) := by
  induction tasks generalizing launcher with
  | nil => simp [assignAll, startedFrom, AssignmentReport.empty]
  | cons task rest ih =>
    obtain ⟨hlevel, hrest⟩ := List.forall_mem_cons.1 hlevels
    obtain ⟨level, hlevel⟩ := Option.isSome_iff_exists.1 hlevel
    have hassign : assign ⟨network, task⟩ (running launcher) =
        (.ok (taskName ⟨network, task⟩ (launcher.launches + 1)),
          running ⟨launcher.launches + 1⟩) := by
      rw [assign, Launcher.launch, hlevel]
    have hcount : launcher.launches + 1 + UInt64.ofNat rest.length =
        launcher.launches + UInt64.ofNat (task :: rest).length := by
      rw [List.length_cons, Nat.add_comm, UInt64.ofNat_add, UInt64.add_assoc]
      rfl
    rw [assignAll, hassign]
    dsimp only
    rw [ih hrest, hcount]
    rfl

/-- Without a receiver all tasks fail, and nothing changes. -/
theorem assignAll_of_not_open {queue : LaunchQueue} (hopen : queue.isOpen = false)
    (network : String) (tasks : List WorkerTask) :
    assignAll assign network tasks queue =
      (⟨[], tasks.map (⟨·, LaunchError.notRunning.message⟩)⟩, queue) := by
  have hassign : ∀ request, assign request queue = (.error .notRunning, queue) := by
    intro request
    cases queue with
    | running | deaf => cases hopen
    | finished | absent => rfl
  induction tasks with
  | nil => rfl
  | cons task rest ih =>
    rw [assignAll, hassign]
    dsimp only
    rw [ih]
    rfl

/-- One more task is launched for each task that is started, and for no other. -/
theorem launches_assign (request : Assignment) (queue : LaunchQueue) :
    (∃ id, (assign request queue).1 = .ok id ∧
        (assign request queue).2.launches = queue.launches + 1) ∨
      ∃ reason, (assign request queue).1 = .error reason ∧
        (assign request queue).2.launches = queue.launches := by
  cases queue with
  | running launcher =>
    rw [assign, Launcher.launch]
    cases Level.parse? request.task.options.logLevel with
    | none => exact .inr ⟨_, rfl, rfl⟩
    | some level => exact .inl ⟨_, rfl, rfl⟩
  | finished | absent | deaf => exact .inr ⟨_, rfl, rfl⟩

/-- As many tasks are launched as the report has started tasks. -/
theorem launches_assignAll (network : String) (tasks : List WorkerTask) (queue : LaunchQueue) :
    (assignAll assign network tasks queue).2.launches =
      queue.launches + .ofNat (assignAll assign network tasks queue).1.started.length := by
  induction tasks generalizing queue with
  | nil => exact (UInt64.add_zero _).symm
  | cons task rest ih =>
    rw [assignAll]
    dsimp only
    rw [ih]
    rcases launches_assign ⟨network, task⟩ queue with ⟨id, hid, hnext⟩ | ⟨reason, hreason, hnext⟩
    · rw [hid, hnext, AssignmentReport.cons, List.length_cons, UInt64.add_assoc, UInt64.ofNat_add,
        UInt64.add_comm 1]
      rfl
    · rw [hreason, hnext, AssignmentReport.cons]

end LaunchQueue
end ChainCoverage
