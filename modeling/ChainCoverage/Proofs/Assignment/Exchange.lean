import ChainCoverage.Proofs.Assignment.Launcher
import Mathlib.Logic.Function.Basic

/-!
# Clients and a launcher

Any number of clients queue launch commands for one launcher.  A client waits for the reply
before it queues the next command; each command has a reply channel of its own, and channels
are numbered in the order in which their commands were queued.  What the clients and the
launcher do may come in any order, and shutdown commands may come in between.

An event that is not possible in a state changes nothing.  A queue of bounded length only
holds up a client that sends, which does not count as sent until its command is queued.

Main definitions:

- `Exchange`: the queue, the launcher and the clients, with what went on between them.
- `Exchange.step` and `Exchange.run`: one event, and a sequence of them.
- `Exchange.Becomes`: what one event can do, case by case.
- `Exchange.InQueueOrder`: what the launcher took and answered, said of the requests sent.

Main results:

- `Exchange.becomes_step`: an event does nothing else.
- `Exchange.inQueueOrder_run`: every sequence of events keeps the queue order.
- `Exchange.untouched_run`: a launcher that has stopped takes nothing any more.
- `Exchange.InQueueOrder.drain_taken`: the launcher works as if it had found all commands in its
  queue.
-/

namespace ChainCoverage

/-- What a launcher does with its queue. -/
inductive Attention where
  /-- It takes the commands. -/
  | taking
  /-- It takes none any more, but they can still be queued. -/
  | stopped
  /-- It is gone, and commands are refused. -/
  | gone
deriving DecidableEq

/-- The end of a request, as its client heard of it. -/
structure Delivery (ι : Type) where
  client : ι
  channel : Nat
  answer : Except LaunchError TaskName

/-- What goes on between clients and a launcher. -/
structure Exchange (ι : Type) where
  /-- The requests that were queued with their clients, in order.  The place of a request is its
  channel. -/
  sent : List (ι × Assignment)
  /-- The commands that are not taken yet; a launch command holds its channel. -/
  queue : List (QueueEntry Nat)
  attention : Attention
  launcher : Launcher
  /-- The commands that were taken, in order. -/
  taken : List (QueueEntry Nat)
  /-- The replies on the channels, in order. -/
  replies : List (QueueReply Nat)
  /-- The channel that a client is waiting on. -/
  waiting : ι → Option Nat
  /-- What the clients heard, in order. -/
  delivered : List (Delivery ι)

/-- What a client or the launcher does. -/
inductive ExchangeEvent (ι : Type) where
  /-- A client queues a launch command. -/
  | send (client : ι) (request : Assignment)
  /-- Somebody queues a shutdown command. -/
  | shut
  /-- The launcher takes a command. -/
  | take
  /-- The launcher goes away: it was shut down, or nobody is left to queue commands. -/
  | leave
  /-- A client gets the reply on its channel. -/
  | collect (client : ι)
  /-- A client hears that its command was dropped. -/
  | abandon (client : ι)

namespace Exchange

variable {ι : Type}

/-- Before the first event. -/
def start : Exchange ι := ⟨[], [], .taking, .idle, [], [], fun _ => none, []⟩

/-! ## The launcher and its queue -/

/-- Queues a shutdown command. -/
def shut (e : Exchange ι) : Exchange ι :=
  if e.attention = .gone then e else { e with queue := e.queue ++ [.shutdown] }

/-- Takes the first command of the queue. -/
def take (e : Exchange ι) : Exchange ι :=
  match e.attention, e.queue with
  | .taking, .launch channel request :: rest =>
    let (answer, next) := e.launcher.launch request
    { e with
      queue := rest
      launcher := next
      taken := e.taken ++ [.launch channel request]
      replies := e.replies ++ [⟨channel, answer⟩] }
  | .taking, .shutdown :: rest =>
    { e with
      queue := rest
      attention := .stopped
      taken := e.taken ++ [.shutdown] }
  | _, _ => e

/-- Goes away. -/
def leave (e : Exchange ι) : Exchange ι :=
  if e.attention = .taking ∧ e.queue ≠ [] then e else { e with attention := .gone }

/-! ## The clients -/

variable [DecidableEq ι]

/-- Queues a launch command on a new channel. -/
def enqueue (e : Exchange ι) (client : ι) (request : Assignment) : Exchange ι :=
  { e with
    sent := e.sent ++ [(client, request)]
    queue := e.queue ++ [.launch e.sent.length request]
    waiting := Function.update e.waiting client (some e.sent.length) }

/-- Ends the request on a channel. -/
def deliver (e : Exchange ι) (client : ι) (channel : Nat) (answer : Except LaunchError TaskName) :
    Exchange ι :=
  { e with
    waiting := Function.update e.waiting client none
    delivered := e.delivered ++ [⟨client, channel, answer⟩] }

section Waiting

variable (e : Exchange ι) {client other : ι} {request : Assignment} {channel : Nat}
  {answer : Except LaunchError TaskName}

@[simp]
theorem waiting_enqueue_self :
    (e.enqueue client request).waiting client = some e.sent.length :=
  Function.update_self ..

theorem waiting_enqueue_of_ne (hother : other ≠ client) :
    (e.enqueue client request).waiting other = e.waiting other :=
  Function.update_of_ne hother ..

@[simp]
theorem waiting_deliver_self : (e.deliver client channel answer).waiting client = none :=
  Function.update_self ..

theorem waiting_deliver_of_ne (hother : other ≠ client) :
    (e.deliver client channel answer).waiting other = e.waiting other :=
  Function.update_of_ne hother ..

end Waiting

/-- Queues a launch command of a client that is not waiting.  When the launcher is gone, the client
hears at once that it is not running, and has nothing to wait for. -/
def send (e : Exchange ι) (client : ι) (request : Assignment) : Exchange ι :=
  if e.attention = .gone ∨ e.waiting client ≠ none then e else e.enqueue client request

/-- Gives a client the reply on its channel. -/
def collect (e : Exchange ι) (client : ι) : Exchange ι :=
  match e.waiting client with
  | none => e
  | some channel =>
    match e.replies.find? (·.client == channel) with
    | none => e
    | some reply => e.deliver client channel reply.answer

/-- Tells a client that its command was dropped, when it will not be taken. -/
def abandon (e : Exchange ι) (client : ι) : Exchange ι :=
  match e.waiting client with
  | none => e
  | some channel =>
    if e.attention = .taking ∨ (e.replies.any (·.client == channel)) then e
    else e.deliver client channel (.error .dropped)

/-! ## One event -/

/-- One event. -/
def step (e : Exchange ι) : ExchangeEvent ι → Exchange ι
  | .send client request => e.send client request
  | .shut => e.shut
  | .take => e.take
  | .leave => e.leave
  | .collect client => e.collect client
  | .abandon client => e.abandon client

/-- What the client on a channel can hear: the reply, or that its command was dropped when there
is no reply and will be none. -/
def Hears (e : Exchange ι) (channel : Nat) (answer : Except LaunchError TaskName) : Prop :=
  ⟨channel, answer⟩ ∈ e.replies ∨
    answer = .error .dropped ∧ e.attention ≠ .taking ∧ ∀ reply ∈ e.replies, reply.client ≠ channel

/-- What becomes of the clients and the launcher in one event. -/
inductive Becomes (e : Exchange ι) : Exchange ι → Prop where
  | same : e.Becomes e
  | enqueued {client : ι} {request : Assignment} (hidle : e.waiting client = none) :
    e.Becomes (e.enqueue client request)
  | shutdownQueued : e.Becomes { e with queue := e.queue ++ [.shutdown] }
  | launched {channel : Nat} {request : Assignment} {rest : List (QueueEntry Nat)}
    (htaking : e.attention = .taking) (hqueue : e.queue = .launch channel request :: rest) :
    e.Becomes { e with
      queue := rest
      launcher := (e.launcher.launch request).2
      taken := e.taken ++ [.launch channel request]
      replies := e.replies ++ [⟨channel, (e.launcher.launch request).1⟩] }
  | stopped {rest : List (QueueEntry Nat)} (htaking : e.attention = .taking)
    (hqueue : e.queue = .shutdown :: rest) :
    e.Becomes { e with
      queue := rest
      attention := .stopped
      taken := e.taken ++ [.shutdown] }
  | left : e.Becomes { e with attention := .gone }
  | delivered {client : ι} {channel : Nat} {answer : Except LaunchError TaskName}
    (hwaiting : e.waiting client = some channel) (hhears : e.Hears channel answer) :
    e.Becomes (e.deliver client channel answer)

theorem becomes_collect (e : Exchange ι) (client : ι) : e.Becomes (e.collect client) := by
  rw [collect]
  split
  · exact .same
  · rename_i channel hwaiting
    split
    · exact .same
    · rename_i reply hfound
      have hclient : reply.client = channel := by simpa using List.find?_some hfound
      subst hclient
      exact .delivered hwaiting (Or.inl (List.mem_of_find?_eq_some hfound))

theorem becomes_abandon (e : Exchange ι) (client : ι) : e.Becomes (e.abandon client) := by
  rw [abandon]
  split
  · exact .same
  · rename_i channel hwaiting
    split
    · exact .same
    · rename_i hpossible
      rw [not_or] at hpossible
      exact .delivered hwaiting (Or.inr ⟨rfl, hpossible.1, by simpa using hpossible.2⟩)

/-- All that one event can do. -/
theorem becomes_step (e : Exchange ι) (event : ExchangeEvent ι) : e.Becomes (e.step event) := by
  cases event with
  | send client request =>
    rw [step, send]
    split
    · exact .same
    · rename_i hpossible
      rw [not_or, Classical.not_not] at hpossible
      exact .enqueued hpossible.2
  | shut =>
    rw [step, shut]
    split
    · exact .same
    · exact .shutdownQueued
  | take =>
    rw [step, take]
    split
    · exact .launched (by assumption) (by assumption)
    · exact .stopped (by assumption) (by assumption)
    · exact .same
  | leave =>
    rw [step, leave]
    split
    · exact .same
    · exact .left
  | collect client => exact e.becomes_collect client
  | abandon client => exact e.becomes_abandon client

/-! ## Sequences of events -/

/-- A sequence of events. -/
def run (e : Exchange ι) (events : List (ExchangeEvent ι)) : Exchange ι :=
  events.foldl step e

theorem run_append (e : Exchange ι) (events more : List (ExchangeEvent ι)) :
    e.run (events ++ more) = (e.run events).run more :=
  List.foldl_append

/-- What is kept in every event is kept in every sequence of events. -/
theorem run_of_becomes {P : Exchange ι → Prop}
    (hkeeps : ∀ {e e' : Exchange ι}, e.Becomes e' → P e → P e')
    {e : Exchange ι} (h : P e) (events : List (ExchangeEvent ι)) : P (e.run events) := by
  induction events generalizing e with
  | nil => exact h
  | cons event events ih => exact ih (hkeeps (e.becomes_step event) h)

/-! ## The queue order -/

/-- The commands are taken in the order of the queue, which is that in which the requests were
sent, and the launcher has answered those it took.  A shutdown is the last command that is
taken. -/
structure InQueueOrder (e : Exchange ι) : Prop where
  queued : QueueEntry.launches (e.taken ++ e.queue) =
    e.sent.mapIdx fun channel sent => (channel, sent.2)
  replies_eq : e.replies = Launcher.repliesBehind [] (QueueEntry.launches e.taken)
  launcher_eq : e.launcher = Launcher.behind ((QueueEntry.launches e.taken).map Prod.snd)
  shutdown_last : .shutdown ∉ e.taken ∨
    e.attention ≠ .taking ∧ ∃ front, .shutdown ∉ front ∧ e.taken = front ++ [.shutdown]

omit [DecidableEq ι] in
theorem inQueueOrder_start : (start : Exchange ι).InQueueOrder where
  queued := rfl
  replies_eq := rfl
  launcher_eq := rfl
  shutdown_last := Or.inl List.not_mem_nil

namespace InQueueOrder

variable {e : Exchange ι} (h : e.InQueueOrder)
include h

omit [DecidableEq ι] in
/-- While the launcher takes commands, it has not taken a shutdown. -/
theorem shutdown_notMem_taken (htaking : e.attention = .taking) : .shutdown ∉ e.taken :=
  h.shutdown_last.resolve_right fun hstopped => hstopped.1 htaking

omit [DecidableEq ι] in
/-- A command moves from the queue to those that were taken. -/
theorem queued_of_taken {entry : QueueEntry Nat} {rest : List (QueueEntry Nat)}
    (hqueue : e.queue = entry :: rest) :
    QueueEntry.launches (e.taken ++ [entry] ++ rest) =
      e.sent.mapIdx fun channel sent => (channel, sent.2) := by
  rw [List.append_assoc, List.singleton_append, ← hqueue]
  exact h.queued

/-- The queue order is kept in every event. -/
theorem becomes {e' : Exchange ι} (hbecomes : e.Becomes e') : e'.InQueueOrder := by
  cases hbecomes with
  | same => exact h
  | enqueued hidle =>
    rename_i client request
    refine ⟨?_, h.replies_eq, h.launcher_eq, h.shutdown_last⟩
    have hlaunches : QueueEntry.launches (e.taken ++ (e.queue ++ [.launch e.sent.length request])) =
        QueueEntry.launches (e.taken ++ e.queue) ++ [(e.sent.length, request)] := by
      rw [← List.append_assoc, QueueEntry.launches_concat_launch]
    exact hlaunches.trans (by rw [h.queued, enqueue, List.mapIdx_concat])
  | shutdownQueued =>
    refine ⟨?_, h.replies_eq, h.launcher_eq, h.shutdown_last⟩
    have hlaunches : QueueEntry.launches (e.taken ++ (e.queue ++ [.shutdown])) =
        QueueEntry.launches (e.taken ++ e.queue) := by
      rw [← List.append_assoc, QueueEntry.launches_concat_shutdown]
    exact hlaunches.trans h.queued
  | launched htaking hqueue =>
    rename_i channel request rest
    rw [h.launcher_eq, Launcher.launch_behind]
    constructor
    case queued => exact h.queued_of_taken hqueue
    case replies_eq =>
      dsimp only
      rw [QueueEntry.launches_concat_launch, Launcher.repliesBehind_append, ← h.replies_eq,
        List.nil_append]
      rfl
    case launcher_eq =>
      dsimp only
      rw [QueueEntry.launches_concat_launch, List.map_append]
      rfl
    case shutdown_last => exact Or.inl (by simp [h.shutdown_notMem_taken htaking])
  | stopped htaking hqueue =>
    constructor
    case queued => exact h.queued_of_taken hqueue
    case replies_eq =>
      dsimp only
      rw [QueueEntry.launches_concat_shutdown]
      exact h.replies_eq
    case launcher_eq =>
      dsimp only
      rw [QueueEntry.launches_concat_shutdown]
      exact h.launcher_eq
    case shutdown_last =>
      exact Or.inr ⟨by simp, e.taken, h.shutdown_notMem_taken htaking, rfl⟩
  | left =>
    exact ⟨h.queued, h.replies_eq, h.launcher_eq,
      h.shutdown_last.imp_right fun hstopped => ⟨by simp, hstopped.2⟩⟩
  | delivered => exact ⟨h.queued, h.replies_eq, h.launcher_eq, h.shutdown_last⟩

omit [DecidableEq ι] in
/-- The launcher has done what it does with all commands in its queue at once. -/
theorem drain_taken : Launcher.idle.drain e.taken = (e.replies, e.launcher, []) := by
  rw [h.replies_eq, h.launcher_eq, ← Launcher.behind_nil]
  rcases h.shutdown_last with hrunning | ⟨_, front, hrunning, htaken⟩
  · have hdrain := Launcher.drain_behind [] hrunning []
    simpa [Launcher.drain] using hdrain
  · have hdrain := Launcher.drain_behind [] hrunning [.shutdown]
    rw [htaken, QueueEntry.launches_concat_shutdown]
    simpa [Launcher.drain] using hdrain

end InQueueOrder

/-- The queue order is kept in every sequence of events. -/
theorem inQueueOrder_run (events : List (ExchangeEvent ι)) :
    (start.run events : Exchange ι).InQueueOrder :=
  run_of_becomes (fun hbecomes h => h.becomes hbecomes) inQueueOrder_start events

/-! ## After a shutdown -/

/-- What the launcher has done is the same before and after. -/
structure Untouched (e e' : Exchange ι) : Prop where
  attention : e'.attention ≠ .taking
  taken : e'.taken = e.taken
  replies : e'.replies = e.replies
  launcher : e'.launcher = e.launcher

/-- A launcher that has stopped does nothing in one event. -/
theorem Untouched.becomes {e₀ e e' : Exchange ι} (h : e₀.Untouched e) (hbecomes : e.Becomes e') :
    e₀.Untouched e' := by
  cases hbecomes with
  | same => exact h
  | enqueued | shutdownQueued | delivered => exact ⟨h.attention, h.taken, h.replies, h.launcher⟩
  | launched htaking | stopped htaking => exact absurd htaking h.attention
  | left => exact ⟨by simp, h.taken, h.replies, h.launcher⟩

/-- A launcher that has stopped does nothing in any sequence of events. -/
theorem untouched_run {e : Exchange ι} (hstopped : e.attention ≠ .taking)
    (events : List (ExchangeEvent ι)) : e.Untouched (e.run events) :=
  run_of_becomes (fun hbecomes h => h.becomes hbecomes) ⟨hstopped, rfl, rfl, rfl⟩ events

end Exchange
end ChainCoverage
