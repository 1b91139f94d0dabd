import ChainCoverage.Assignment.Basic
import ChainCoverage.Level
import ChainCoverage.Text.Quoted

/-!
# The task launcher

A launcher takes commands from a queue, one at a time.  It gives each task it launches
an id made of the network, the ends of the task and the number of launches so far.  A
log level it does not know is refused and uses up no number.  A shutdown command ends
its work; commands behind it are never taken.

Main definitions:

- `Launcher.launch`: one launch.
- `QueueEntry` and `Launcher.drain`: the work on a queue of commands, with the
  replies in order.
- `LaunchQueue`: what a client sees of the queue.
- `LaunchQueue.assign`: the queue as a sink for tasks.
- `LaunchQueue.launches`: how many tasks were launched behind the queue.
-/

namespace ChainCoverage

/-- Why a task was not launched. -/
inductive LaunchError where
  | unsupportedLevel (level : String)
  | notRunning
  | dropped
deriving DecidableEq

namespace LaunchError

/-- The wording. -/
def message : LaunchError → String
  | unsupportedLevel level => "unsupported worker log level " ++ Text.quoted level
  | notRunning => "task launcher is not running"
  | dropped => "task launcher dropped the request"

instance : ToString LaunchError := ⟨message⟩

end LaunchError

/-- A launcher, with the number of its launches as a word. -/
structure Launcher where
  launches : UInt64
deriving DecidableEq

/-- The id of the launch with a number. -/
def taskName (request : Assignment) (number : UInt64) : TaskName :=
  s!"{request.network}-{request.task.span.first}-{request.task.span.last}-{number}"

namespace Launcher

/-- A launcher before its first launch. -/
def idle : Launcher := ⟨0⟩

/-- Launches one task. -/
def launch (l : Launcher) (request : Assignment) :
    Except LaunchError TaskName × Launcher :=
  match Level.parse? request.task.options.logLevel with
  | none => (.error (.unsupportedLevel request.task.options.logLevel), l)
  | some _ => (.ok (taskName request (l.launches + 1)), ⟨l.launches + 1⟩)

end Launcher

/-- A command in the queue of a launcher; `client` tells who gets the reply. -/
inductive QueueEntry (κ : Type) where
  | launch (client : κ) (request : Assignment)
  | shutdown
deriving DecidableEq

/-- The reply to a launch command, with the client it is for. -/
structure QueueReply (κ : Type) where
  client : κ
  answer : Except LaunchError TaskName

namespace Launcher

variable {κ : Type}

/-- Takes the commands of a queue up to a shutdown, or to the end of the queue.  Returns the
replies in order, the launcher, and the commands that were not taken. -/
def drain (l : Launcher) :
    List (QueueEntry κ) →
      List (QueueReply κ) × Launcher × List (QueueEntry κ)
  | [] => ([], l, [])
  | .shutdown :: rest => ([], l, rest)
  | .launch client request :: rest =>
    let (answer, next) := l.launch request
    let (replies, final, untaken) := next.drain rest
    (⟨client, answer⟩ :: replies, final, untaken)

end Launcher

/-- What stands behind a queue of launch commands. -/
inductive LaunchQueue where
  /-- A launcher that takes the commands. -/
  | running (launcher : Launcher)
  /-- A launcher that was shut down: a command cannot be queued. -/
  | finished (launcher : Launcher)
  /-- Nothing: a command cannot be queued. -/
  | absent
  /-- A receiver that takes each command up to a shutdown and answers none. -/
  | deaf
deriving DecidableEq

namespace LaunchQueue

/-- Queues one launch command and waits for the reply. -/
def assign : Sink LaunchQueue LaunchError
  | request, running launcher =>
    let (answer, next) := launcher.launch request
    (answer, running next)
  | _, deaf => (.error .dropped, deaf)
  | _, queue => (.error .notRunning, queue)

/-- Whether a receiver takes the commands.  Then a command can be queued, and the receiver ends
well when it is shut down or nobody is left to queue commands. -/
def isOpen : LaunchQueue → Bool
  | running _ | deaf => true
  | finished _ | absent => false

/-- Queues a shutdown command, which ends the receiver. -/
def shutdown : LaunchQueue → LaunchQueue
  | running launcher => finished launcher
  | deaf => absent
  | queue => queue

@[simp]
theorem isOpen_shutdown (queue : LaunchQueue) : queue.shutdown.isOpen = false := by
  cases queue <;> rfl

/-- Number of tasks that were launched behind the queue, as a word. -/
def launches : LaunchQueue → UInt64
  | running launcher | finished launcher => launcher.launches
  | absent | deaf => 0

@[simp]
theorem launches_shutdown (queue : LaunchQueue) :
    queue.shutdown.launches = queue.launches := by
  cases queue <;> rfl

end LaunchQueue
end ChainCoverage
