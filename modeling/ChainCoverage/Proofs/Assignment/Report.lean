import ChainCoverage.Assignment.Basic
import ChainCoverage.Proofs.WorkerTask

/-!
# A report loses no task

Whatever a sink answers, and whatever it remembers, it is asked once for each task, in
task order.  A log kept beside the sink has every request with its answer.  The report is
the split of that log by the answers: what it has started and what it has not are each in
the order of the requests, and merged again request by request they are the tasks.

Main definitions:

- `Fault.texts`: the contexts of a failure, outermost first, and its cause.
- `Sink.logged`: a sink that writes down each request with its answer.
- `AssignmentReport.SplitOf`: a report that is the split of a log.
- `interleave`: two lists merged by a list of choices.

Main results:

- `assignAll_logged`: one request for each task, and a report that is the split of the log.
- `AssignmentReport.SplitOf.interleave_eq`: the tasks, recovered from the report.
- `AssignmentReport.SplitOf.tasks_perm`: together the started and the failed tasks are all tasks.
- `assignAll_splits_tasks`: the report on any tasks from any sink.
-/

namespace ChainCoverage

/-! ## The wording of a failure -/

/-- The texts that make up a failure: its contexts, the outermost first, and its cause. -/
def Fault.texts : Fault → List String
  | cause text => [text]
  | within context inner => context :: inner.texts

theorem Fault.texts_ne_nil (failure : Fault) : failure.texts ≠ [] := by
  cases failure <;> simp [texts]

/-- A failure is worded with its contexts outermost first and a colon between the texts. -/
theorem Fault.toString_eq (failure : Fault) :
    toString failure = ": ".intercalate failure.texts := by
  change failure.message = _
  induction failure with
  | cause text => simp [message, texts]
  | within context inner ih =>
    rw [message, texts, String.intercalate_cons_of_ne_nil inner.texts_ne_nil, ih]

/-! ## Logs -/

/-- A request to a sink, with the answer. -/
structure LogEntry where
  request : Assignment
  answer : Except Fault TaskName

namespace LogEntry

/-- Whether the request was answered with a name. -/
def isStarted (entry : LogEntry) : Bool :=
  entry.answer.isOk

/-- The task under the name that the request was answered with. -/
def started? (entry : LogEntry) : Option Started :=
  match entry.answer with
  | .ok id => some ⟨id, entry.request.task⟩
  | .error _ => none

/-- The task with the wording of the failure that the request was answered with. -/
def notStarted? (entry : LogEntry) : Option NotStarted :=
  match entry.answer with
  | .ok _ => none
  | .error failure => some ⟨entry.request.task, ": ".intercalate failure.texts⟩

section Answers

variable (request : Assignment) (id : TaskName) (failure : Fault)

@[simp]
theorem isStarted_ok : (LogEntry.mk request (.ok id)).isStarted = true :=
  rfl

@[simp]
theorem isStarted_error : (LogEntry.mk request (.error failure)).isStarted = false :=
  rfl

@[simp]
theorem started?_ok : (LogEntry.mk request (.ok id)).started? = some ⟨id, request.task⟩ :=
  rfl

@[simp]
theorem started?_error : (LogEntry.mk request (.error failure)).started? = none :=
  rfl

@[simp]
theorem notStarted?_ok : (LogEntry.mk request (.ok id)).notStarted? = none :=
  rfl

@[simp]
theorem notStarted?_error : (LogEntry.mk request (.error failure)).notStarted? =
    some ⟨request.task, ": ".intercalate failure.texts⟩ :=
  rfl

end Answers

theorem notStarted?_eq_none_iff {entry : LogEntry} :
    entry.notStarted? = none ↔ ∃ id, entry.answer = .ok id := by
  rcases entry with ⟨request, failure | id⟩ <;> simp

end LogEntry

/-- The sink with a log beside its state, in which it writes down each request with its answer. -/
def Sink.logged {σ : Type} (sink : Sink σ Fault) : Sink (List LogEntry × σ) Fault :=
  fun request state =>
    let (answer, next) := sink request state.2
    (answer, (state.1 ++ [⟨request, answer⟩], next))

namespace AssignmentReport

/-- A report that is the split of a log by the answers. -/
structure SplitOf (log : List LogEntry) (r : AssignmentReport) : Prop where
  started_eq : r.started = log.filterMap LogEntry.started?
  failed_eq : r.failed = log.filterMap LogEntry.notStarted?

/-- One more request in front of a log. -/
theorem SplitOf.cons {log : List LogEntry} {r : AssignmentReport} (h : r.SplitOf log)
    (entry : LogEntry) : (r.cons entry.request.task entry.answer).SplitOf (entry :: log) := by
  rcases entry with ⟨request, failure | id⟩
  · constructor
    · exact h.started_eq
    · simp [AssignmentReport.cons, h.failed_eq, Fault.toString_eq]
  · constructor
    · simp [AssignmentReport.cons, h.started_eq]
    · exact h.failed_eq

end AssignmentReport

/-- A sink with a log is asked once for each task and answers as without it, and the report is the
split of what the log gains. -/
theorem assignAll_logged {σ : Type} (sink : Sink σ Fault) (network : String)
    (tasks : List WorkerTask) (log : List LogEntry) (state : σ) :
    ∃ entries : List LogEntry,
      assignAll sink.logged network tasks (log, state) =
        ((assignAll sink network tasks state).1,
          (log ++ entries, (assignAll sink network tasks state).2)) ∧
      entries.map (·.request) = tasks.map (Assignment.mk network) ∧
      (assignAll sink network tasks state).1.SplitOf entries := by
  induction tasks generalizing log state with
  | nil => exact ⟨[], by simp [assignAll], rfl, rfl, rfl⟩
  | cons task tasks ih =>
    let entry : LogEntry := ⟨⟨network, task⟩, (sink ⟨network, task⟩ state).1⟩
    obtain ⟨entries, hrun, hrequests, hsplit⟩ :=
      ih (log ++ [entry]) (sink ⟨network, task⟩ state).2
    refine ⟨entry :: entries, ?_, ?_, hsplit.cons entry⟩
    · rw [List.append_assoc] at hrun
      simp only [assignAll, Sink.logged]
      rw [hrun]
      rfl
    · rw [List.map_cons, List.map_cons, hrequests]

/-! ## The tasks of a report -/

/-- Takes from the first list at every `true`, and from the second at every `false`. -/
def interleave {α : Type} : List Bool → List α → List α → List α
  | true :: choices, a :: first, second => a :: interleave choices first second
  | false :: choices, first, a :: second => a :: interleave choices first second
  | _, _, _ => []

namespace AssignmentReport

/-- All tasks of a report, those that were started before those that were not. -/
def tasks (r : AssignmentReport) : List WorkerTask :=
  r.started.map (·.task) ++ r.failed.map (·.task)

namespace SplitOf

variable {log : List LogEntry} {r : AssignmentReport} (h : r.SplitOf log)
include h

/-- The two parts of a report, merged request by request, are the tasks of the requests. -/
theorem interleave_eq :
    interleave (log.map LogEntry.isStarted) (r.started.map (·.task)) (r.failed.map (·.task)) =
      log.map (·.request.task) := by
  rw [h.started_eq, h.failed_eq]
  clear h
  induction log with
  | nil => rfl
  | cons entry log ih =>
    rcases entry with ⟨request, failure | id⟩
    · simpa [List.filterMap_cons, interleave] using ih
    · simpa [List.filterMap_cons, interleave] using ih

/-- The tasks of a report are the tasks of the requests, each as often as it was asked for. -/
theorem tasks_perm : r.tasks.Perm (log.map (·.request.task)) := by
  rw [tasks, h.started_eq, h.failed_eq]
  clear h
  induction log with
  | nil => rfl
  | cons entry log ih =>
    rcases entry with ⟨request, failure | id⟩
    · simpa [List.filterMap_cons] using List.perm_middle.trans (ih.cons request.task)
    · simpa [List.filterMap_cons] using ih

/-- A report is complete when no request failed. -/
theorem isComplete_iff :
    r.isComplete = true ↔ ∀ entry ∈ log, ∃ id, entry.answer = .ok id := by
  rw [isComplete, List.isEmpty_iff, h.failed_eq, List.filterMap_eq_nil_iff]
  simp only [LogEntry.notStarted?_eq_none_iff]

end SplitOf
end AssignmentReport

/-- A sink that answers as it likes is asked once for each task, in task order, for the network and
that task.  The report is the split of its answers in the order of the requests, with the name or
the wording of the failure that the same request was answered with.  Merged request by request the
parts of the report are the tasks, and it is complete exactly when no request failed.  For a plan
the started and the failed tasks together tile the range of the plan. -/
theorem assignAll_splits_tasks {σ : Type} (sink : Sink σ Fault) (network : String)
    (tasks : List WorkerTask) (state : σ) :
    ∃ (log : List LogEntry) (report : AssignmentReport) (final : σ),
      assignAll sink network tasks state = (report, final) ∧
      assignAll sink.logged network tasks ([], state) = (report, (log, final)) ∧
      log.map (·.request) = tasks.map (Assignment.mk network) ∧
      report.started = log.filterMap LogEntry.started? ∧
      report.failed = log.filterMap LogEntry.notStarted? ∧
      interleave (log.map LogEntry.isStarted) (report.started.map (·.task))
        (report.failed.map (·.task)) = tasks ∧
      (report.isComplete = true ↔ ∀ entry ∈ log, ∃ id, entry.answer = .ok id) ∧
      ∀ first last workers options, workerPlan first last workers options = .ok tasks →
        (∀ task ∈ report.tasks, task.span.first ≤ task.span.last) ∧
          (report.tasks.flatMap (·.span.blocks)).Perm (Span.mk first last).blocks := by
  obtain ⟨log, hrun, hrequests, hsplit⟩ := assignAll_logged sink network tasks [] state
  have htasks : log.map (·.request.task) = tasks := by
    have hmap := congrArg (List.map Assignment.task) hrequests
    rw [List.map_map, List.map_map] at hmap
    exact hmap.trans (List.map_id tasks)
  refine ⟨log, _, _, rfl, hrun, hrequests, hsplit.started_eq, hsplit.failed_eq,
    hsplit.interleave_eq.trans htasks, hsplit.isComplete_iff, ?_⟩
  intro first last workers options hplan
  obtain ⟨htile, _⟩ := tile_of_workerPlan hplan
  have hperm := hsplit.tasks_perm
  rw [htasks] at hperm
  constructor
  · intro task htask
    exact htile.nonempty task (hperm.mem_iff.1 htask)
  · rw [← htile.blocks]
    exact hperm.flatMap_right _

/-- A sink that has no room for the second task gets the third as well. -/
theorem assignAll_splits_tasks_one_failure :
    let sink : Sink Nat Fault := fun _ asked =>
      (if asked = 1 then .error (.within "launcher" (.cause "queue full")) else .ok "worker",
        asked + 1)
    ∃ tasks, workerPlan 0 10 3 .default = .ok tasks ∧ ∃ report,
      assignAll sink "main" tasks 0 = (report, 3) ∧
      report.failed = [⟨⟨⟨4, 7⟩, .default⟩, "launcher: queue full"⟩] ∧
      (report.tasks.flatMap (·.span.blocks)).Perm (Span.mk 0 10).blocks := by
  intro sink
  let tasks : List WorkerTask :=
    [⟨⟨0, 3⟩, .default⟩, ⟨⟨4, 7⟩, .default⟩, ⟨⟨8, 10⟩, .default⟩]
  have hplan : workerPlan 0 10 3 .default = .ok tasks := by decide
  refine ⟨tasks, hplan, ?_⟩
  obtain ⟨log, report, final, hrun, _, _, _, _, _, _, htile⟩ :=
    assignAll_splits_tasks sink "main" tasks 0
  refine ⟨report, ?_, ?_, (htile 0 10 3 .default hplan).2⟩
  · rw [hrun]
    cases hrun
    rfl
  · cases hrun
    decide

end ChainCoverage
