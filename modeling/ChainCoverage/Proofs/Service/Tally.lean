import ChainCoverage.Proofs.Assignment.LaunchQueue
import ChainCoverage.Proofs.Service.Coverage
import Mathlib.Algebra.BigOperators.Group.List.Basic
import Mathlib.Algebra.GroupWithZero.Nat

/-!
# What the service counts

Every answer counts once or not at all: a coverage that is measured, a network whose progress
cannot be read, and the tasks of a report.  So after any run of requests, between which the
launcher may be stopped, the counters agree with the answers, and with the launcher's own count.

Main definitions:

- `ServiceEvent` and `Service.serve`: requests one after another, and the launcher stopped
  somewhere between them.
- `Answered`: a request with its response, and what is counted of it.
- `Service.Responds`: all that one request can do to the service.
- `Service.Tallies`: what some answers add to the counts.

Main results:

- `Service.responds_respond`: there is nothing else that a request can do.
- `Service.tallies_serve`: the counts after a run are those of the answers.
- `Service.counters_serve`: the same for a fresh service, as its counters are read.
-/

namespace ChainCoverage

namespace Counters

/-- The counts of two together. -/
protected def add (c d : Counters) : Counters where
  measured := c.measured + d.measured
  unmeasured := c.unmeasured + d.unmeasured
  started := c.started + d.started
  failed := c.failed + d.failed

@[simp]
theorem zero_add (c : Counters) : Counters.zero.add c = c := by
  simp [Counters.add, zero]

@[simp]
theorem add_zero (c : Counters) : c.add .zero = c := by
  simp [Counters.add, zero]

theorem add_assoc (c d e : Counters) : (c.add d).add e = c.add (d.add e) := by
  simp [Counters.add, UInt64.add_assoc]

end Counters

/-! ## Answers -/

/-- What a content reports on tasks, which is nothing unless it is a report. -/
def Content.reported : Content → AssignmentReport
  | report summary => summary
  | _ => .empty

@[simp]
theorem Content.reported_headOnly (content : Content) : content.headOnly.reported = .empty := by
  cases content <;> rfl

/-- A request with the response to it. -/
structure Answered where
  request : HttpRequest
  response : HttpResponse

namespace Answered

/-- Whether a request for a coverage is answered with a status. -/
def isCoverage (status : Nat) (a : Answered) : Bool :=
  decide (a.request.Reaches .coverage) && a.response.status == status

/-- How many requests for a coverage are answered with a status. -/
def coverageCount (status : Nat) (answers : List Answered) : Nat :=
  answers.countP (isCoverage status)

/-- How many tasks the answers report as started. -/
def startedCount (answers : List Answered) : Nat :=
  (answers.map fun a => a.response.content.reported.started.length).sum

/-- How many tasks the answers report as failed. -/
def failedCount (answers : List Answered) : Nat :=
  (answers.map fun a => a.response.content.reported.failed.length).sum

/-- The counters that agree with some answers. -/
def counters (answers : List Answered) : Counters where
  measured := .ofNat (coverageCount 200 answers)
  unmeasured := .ofNat (coverageCount 503 answers)
  started := .ofNat (startedCount answers)
  failed := .ofNat (failedCount answers)

@[simp]
theorem startedCount_nil : startedCount [] = 0 :=
  rfl

/-- One more answer adds its own started tasks. -/
theorem startedCount_cons (a : Answered) (answers : List Answered) :
    startedCount (a :: answers) = startedCount [a] + startedCount answers := by
  simp [startedCount]

@[simp]
theorem counters_nil : counters [] = .zero :=
  rfl

/-- One more answer adds its own counts. -/
theorem counters_cons (a : Answered) (answers : List Answered) :
    counters (a :: answers) = (counters [a]).add (counters answers) := by
  have hcoverage : ∀ status, coverageCount status (a :: answers) =
      coverageCount status [a] + coverageCount status answers := by
    intro status
    rw [coverageCount, List.countP_cons, Nat.add_comm]
    simp [coverageCount]
  have hfailed : failedCount (a :: answers) = failedCount [a] + failedCount answers := by
    simp [failedCount]
  simp only [counters, Counters.add, hcoverage, hfailed, startedCount_cons a answers,
    UInt64.ofNat_add]

/-- An answer that reports nothing on tasks counts at most as a coverage. -/
theorem counters_of_reported_empty {r : HttpRequest} {status : Nat} {content : Content}
    (hreported : content.reported = .empty) :
    counters [⟨r, ⟨status, content⟩⟩] =
      ⟨if r.Reaches .coverage ∧ status = 200 then 1 else 0,
        if r.Reaches .coverage ∧ status = 503 then 1 else 0, 0, 0⟩ := by
  have hcount : ∀ wanted, UInt64.ofNat (coverageCount wanted [⟨r, ⟨status, content⟩⟩]) =
      if r.Reaches .coverage ∧ status = wanted then 1 else 0 := by
    intro wanted
    by_cases hcounts : r.Reaches .coverage ∧ status = wanted
    · simp [coverageCount, isCoverage, hcounts]
    · simp [coverageCount, isCoverage, hcounts]
  simp only [counters, hcount, startedCount, failedCount, List.map_cons, List.map_nil, hreported]
  rfl

/-- An answer on another route counts what it reports on tasks. -/
theorem counters_of_not_reaches {r : HttpRequest} (hreaches : ¬ r.Reaches .coverage)
    (response : HttpResponse) :
    counters [⟨r, response⟩] =
      ⟨0, 0, .ofNat response.content.reported.started.length,
        .ofNat response.content.reported.failed.length⟩ := by
  have hcount : ∀ wanted, coverageCount wanted [⟨r, response⟩] = 0 := by
    intro wanted
    simp [coverageCount, isCoverage, hreaches]
  simp [counters, hcount, startedCount, failedCount]

end Answered

/-! ## Runs -/

/-- What happens to a service: a request comes in, or its launcher is stopped. -/
inductive ServiceEvent where
  | request (r : HttpRequest)
  | stopLauncher

/-- The request that comes in, if one does. -/
def ServiceEvent.request? : ServiceEvent → Option HttpRequest
  | request r => some r
  | stopLauncher => none

namespace Service

/-- The answers to the requests of a run, and the service after it. -/
def serve (s : Service) : List ServiceEvent → List Answered × Service
  | [] => ([], s)
  | .request r :: rest =>
    let (response, next) := s.respond r
    let (answers, final) := next.serve rest
    (⟨r, response⟩ :: answers, final)
  | .stopLauncher :: rest => s.shutdownLauncher.serve rest

/-! ## One request -/

/-- All that one request can do to the service, with the response to it. -/
inductive Responds (s : Service) (r : HttpRequest) : HttpResponse → Service → Prop
  /-- Nothing is reported on tasks, and a request for a coverage is refused. -/
  | unchanged {status : Nat} {content : Content} (hreported : content.reported = .empty)
      (hstatus : r.Reaches .coverage → status = 400) : Responds s r ⟨status, content⟩ s
  /-- The coverage is measured. -/
  | measured {content : Content} (hreported : content.reported = .empty)
      (hreaches : r.Reaches .coverage) : Responds s r ⟨200, content⟩ s.countMeasured
  /-- The progress of the network cannot be read. -/
  | unmeasured {content : Content} (hreported : content.reported = .empty)
      (hreaches : r.Reaches .coverage) : Responds s r ⟨503, content⟩ s.countUnmeasured
  /-- Tasks are handed over and reported on. -/
  | handedOver (name : String) (tasks : List WorkerTask) (hreaches : r.Reaches .start) :
      Responds s r ⟨200, .report (s.handOver name tasks).1⟩ (s.handOver name tasks).2

variable (s : Service)

/-- On a request for a coverage the service changes by one count at most. -/
theorem coverage_cases (name : String) (buckets : Option UInt32) :
    (∃ reason, reason.status = 400 ∧ s.coverage name buckets = (.error reason, s)) ∨
      (∃ reason, reason.status = 503 ∧
        s.coverage name buckets = (.error reason, s.countUnmeasured)) ∨
      ∃ c, s.coverage name buckets = (.ok c, s.countMeasured) := by
  rw [coverage, checkName]
  cases Network.ofName name with
  | error reason => exact .inl ⟨_, rfl, rfl⟩
  | ok network =>
    dsimp only
    split
    · exact .inl ⟨_, rfl, rfl⟩
    · rw [measure]
      cases s.ledger.coverage name (buckets.getD s.settings.bucketCount) s.settings.pageSize with
      | ok c => exact .inr (.inr ⟨c, rfl⟩)
      | error failure =>
        cases failure with
        | invalid reason => exact .inl ⟨_, rfl, rfl⟩
        | unavailable reason => exact .inr (.inl ⟨_, rfl, rfl⟩)

/-- On a request to start tasks the service changes only by handing them over. -/
theorem startTasks_cases (order : StartOrder) :
    (∃ reason, s.startTasks order = (.error reason, s)) ∨
      ∃ tasks, s.startTasks order =
        (.ok (s.handOver order.network tasks).1, (s.handOver order.network tasks).2) := by
  rw [startTasks]
  cases checkName order.network with
  | error reason => exact .inl ⟨reason, rfl⟩
  | ok _ =>
    dsimp only
    cases tasksFor s.settings order.plan with
    | error reason => exact .inl ⟨reason, rfl⟩
    | ok tasks => exact .inr ⟨tasks, rfl⟩

/-- The head of a response has its status, and reports nothing on tasks. -/
theorem exists_trim_eq (method : String) (status : Nat) {content : Content}
    (hreported : content.reported = .empty) :
    ∃ trimmed : Content, trim method ⟨status, content⟩ = ⟨status, trimmed⟩ ∧
      trimmed.reported = .empty := by
  rw [trim]
  split
  · exact ⟨content.headOnly, rfl, content.reported_headOnly⟩
  · exact ⟨content, rfl, hreported⟩

variable {s} {r : HttpRequest}

/-- The head of a response changes nothing when the response does not. -/
theorem responds_trim_unchanged {status : Nat} {content : Content}
    (hreported : content.reported = .empty) (hstatus : r.Reaches .coverage → status = 400) :
    s.Responds r (trim r.method ⟨status, content⟩) s := by
  obtain ⟨trimmed, htrim, htrimmed⟩ := exists_trim_eq r.method status hreported
  rw [htrim]
  exact .unchanged htrimmed hstatus

/-- The response to a request for a coverage. -/
theorem responds_coverage (hreaches : r.Reaches .coverage) :
    s.Responds r (trim r.method (s.respondCoverage r).1) (s.respondCoverage r).2 := by
  rw [respondCoverage]
  cases HttpRequest.coverageOrder? r.query with
  | none => exact responds_trim_unchanged rfl fun _ => rfl
  | some order =>
    obtain ⟨name, buckets⟩ := order
    dsimp only
    rcases s.coverage_cases name buckets with
      ⟨reason, hstatus, hcoverage⟩ | ⟨reason, hstatus, hcoverage⟩ | ⟨c, hcoverage⟩
    · rw [hcoverage]
      dsimp only
      rw [HttpResponse.failure_eq, hstatus]
      exact responds_trim_unchanged rfl fun _ => rfl
    · have hreported : (Content.error reason.message).reported = .empty := rfl
      obtain ⟨trimmed, htrim, htrimmed⟩ := exists_trim_eq r.method 503 hreported
      rw [hcoverage]
      dsimp only
      rw [HttpResponse.failure_eq, hstatus, htrim]
      exact .unmeasured htrimmed hreaches
    · have hreported : (Content.coverage (.ofCoverage name c)).reported = .empty := rfl
      obtain ⟨trimmed, htrim, htrimmed⟩ := exists_trim_eq r.method 200 hreported
      rw [hcoverage]
      dsimp only
      rw [HttpResponse.ok, htrim]
      exact .measured htrimmed hreaches

/-- The response to a request for a plan. -/
theorem responds_plan (hreaches : r.Reaches .plan) :
    s.Responds r (trim r.method (s.respondPlan r)) s := by
  have hroute : ¬ r.Reaches .coverage := fun hother => nomatch hreaches.unique hother
  rw [respondPlan]
  cases HttpRequest.planOrder? r.query with
  | none => exact responds_trim_unchanged rfl fun hother => absurd hother hroute
  | some order =>
    dsimp only
    cases tasksFor s.settings order with
    | error reason =>
      dsimp only
      rw [HttpResponse.failure_eq]
      exact responds_trim_unchanged rfl fun hother => absurd hother hroute
    | ok tasks => exact responds_trim_unchanged rfl fun hother => absurd hother hroute

/-- The response to a request to start tasks. -/
theorem responds_start (hreaches : r.Reaches .start) :
    s.Responds r (trim r.method (s.respondStart r).1) (s.respondStart r).2 := by
  have hroute : ¬ r.Reaches .coverage := fun hother => nomatch hreaches.unique hother
  have hmethod : r.method ≠ "HEAD" := by
    intro hhead
    have haccepts := hreaches.accepts
    rw [hhead] at haccepts
    exact absurd haccepts (by decide)
  have hunchanged : ∀ {status : Nat} {content : Content}, content.reported = .empty →
      s.Responds r ⟨status, content⟩ s :=
    fun hreported => .unchanged hreported fun hother => absurd hother hroute
  rw [trim, if_neg hmethod, respondStart]
  split
  · exact hunchanged rfl
  split
  · exact hunchanged rfl
  split
  · exact hunchanged rfl
  · exact hunchanged rfl
  · rename_i order _
    rcases s.startTasks_cases order with ⟨reason, hstart⟩ | ⟨tasks, hstart⟩
    · rw [hstart]
      dsimp only
      rw [HttpResponse.failure_eq]
      exact hunchanged rfl
    · rw [hstart]
      exact .handedOver order.network tasks hreaches

/-- There is nothing else that a request can do. -/
theorem responds_respond (s : Service) (r : HttpRequest) :
    s.Responds r (s.respond r).1 (s.respond r).2 := by
  by_cases hany : ∃ route, r.Reaches route
  · obtain ⟨route, hreaches⟩ := hany
    rw [s.respond_of_reaches hreaches]
    cases route with
    | coverage => exact responds_coverage hreaches
    | plan => exact responds_plan hreaches
    | start => exact responds_start hreaches
    | counters =>
      exact responds_trim_unchanged rfl fun hother => nomatch hreaches.unique hother
    | description =>
      exact responds_trim_unchanged rfl fun hother => nomatch hreaches.unique hother
  · have hnone : ∀ route, ¬ r.Reaches route := fun route hreaches => hany ⟨route, hreaches⟩
    obtain ⟨status, hrespond⟩ := s.respond_of_not_reaches hnone
    rw [hrespond]
    exact .unchanged rfl fun hreaches => absurd hreaches (hnone .coverage)

/-! ## Counts -/

/-- What answers count, from a service before them to one after them. -/
structure Tallies (before : Service) (answers : List Answered) (after : Service) : Prop where
  counters : after.counters = before.counters.add (Answered.counters answers)
  /-- The launcher counts the tasks that are reported as started. -/
  launches : after.launcher.launches =
    before.launcher.launches + .ofNat (Answered.startedCount answers)

/-- Counts of one answer and of the answers behind it add up. -/
theorem Tallies.cons {before next after : Service} {a : Answered} {answers : List Answered}
    (hhead : before.Tallies [a] next) (htail : next.Tallies answers after) :
    before.Tallies (a :: answers) after := by
  constructor
  case counters =>
    rw [htail.counters, hhead.counters, Answered.counters_cons a answers, Counters.add_assoc]
  case launches =>
    rw [htail.launches, hhead.launches, Answered.startedCount_cons a answers, UInt64.ofNat_add,
      UInt64.add_assoc]

/-- An answer that reports nothing on tasks launches none. -/
theorem tallies_of_reported_empty {before after : Service} {status : Nat} {content : Content}
    (hreported : content.reported = .empty)
    (hcounters : after.counters = before.counters.add
      ⟨if r.Reaches .coverage ∧ status = 200 then 1 else 0,
        if r.Reaches .coverage ∧ status = 503 then 1 else 0, 0, 0⟩)
    (hlauncher : after.launcher = before.launcher) :
    before.Tallies [⟨r, ⟨status, content⟩⟩] after := by
  constructor
  case counters => rw [hcounters, Answered.counters_of_reported_empty hreported]
  case launches =>
    rw [hlauncher, Answered.startedCount, List.map_singleton, hreported]
    exact (UInt64.add_zero _).symm

/-- Each answer counts what the service has changed. -/
theorem Responds.tallies {response : HttpResponse} {next : Service}
    (hresponds : s.Responds r response next) : s.Tallies [⟨r, response⟩] next := by
  cases hresponds with
  | @unchanged status content hreported hstatus =>
    refine tallies_of_reported_empty hreported ?_ rfl
    have hok : ¬ (r.Reaches .coverage ∧ status = 200) := by
      rintro ⟨hreaches, hok⟩
      cases hok.symm.trans (hstatus hreaches)
    have hfailed : ¬ (r.Reaches .coverage ∧ status = 503) := by
      rintro ⟨hreaches, hfailed⟩
      cases hfailed.symm.trans (hstatus hreaches)
    rw [if_neg hok, if_neg hfailed]
    exact s.counters.add_zero.symm
  | measured hreported hreaches =>
    refine tallies_of_reported_empty hreported ?_ rfl
    rw [if_pos ⟨hreaches, rfl⟩, if_neg (by simp)]
    simp [countMeasured, Counters.addMeasured, Counters.add]
  | unmeasured hreported hreaches =>
    refine tallies_of_reported_empty hreported ?_ rfl
    rw [if_neg (by simp), if_pos ⟨hreaches, rfl⟩]
    simp [countUnmeasured, Counters.addUnmeasured, Counters.add]
  | handedOver name tasks hreaches =>
    have hroute : ¬ r.Reaches .coverage := fun hother => nomatch hreaches.unique hother
    constructor
    case counters =>
      rw [Answered.counters_of_not_reaches hroute]
      simp [handOver, Counters.addTasks, Counters.add, Content.reported]
    case launches =>
      rw [handOver]
      exact LaunchQueue.launches_assignAll name tasks s.launcher

/-- The counts after a run are those of the answers. -/
theorem tallies_serve (s : Service) (events : List ServiceEvent) :
    s.Tallies (s.serve events).1 (s.serve events).2 := by
  induction events generalizing s with
  | nil => exact ⟨(Counters.add_zero _).symm, (UInt64.add_zero _).symm⟩
  | cons event rest ih =>
    cases event with
    | request r => exact (s.responds_respond r).tallies.cons (ih (s.respond r).2)
    | stopLauncher =>
      have hstopped := ih s.shutdownLauncher
      refine ⟨hstopped.counters, ?_⟩
      rw [serve, hstopped.launches, shutdownLauncher, LaunchQueue.launches_shutdown]

/-- Requests that are refused, and requests for a plan or for the counters, count nothing. -/
theorem counters_respond_eq (s : Service) (r : HttpRequest)
    (hquiet : (s.respond r).1.status = 400 ∨ r.Reaches .plan ∨ r.Reaches .counters) :
    (s.respond r).2.counters = s.counters := by
  have hroute : ∀ route, r.Reaches route → route ≠ .plan → route ≠ .counters →
      (s.respond r).1.status = 400 := by
    intro route hreaches hplan hcounters
    rcases hquiet with hrefused | hother | hother
    · exact hrefused
    · exact absurd (hreaches.unique hother) hplan
    · exact absurd (hreaches.unique hother) hcounters
  have hresponds := s.responds_respond r
  generalize (s.respond r).1 = response at hroute hresponds
  generalize (s.respond r).2 = next at hresponds
  cases hresponds with
  | unchanged => rfl
  | measured _ hreaches => exact nomatch hroute .coverage hreaches nofun nofun
  | unmeasured _ hreaches => exact nomatch hroute .coverage hreaches nofun nofun
  | handedOver _ _ hreaches => exact nomatch hroute .start hreaches nofun nofun

/-- Every request of a run is answered, in order. -/
theorem map_request_serve (s : Service) (events : List ServiceEvent) :
    (s.serve events).1.map Answered.request = events.filterMap ServiceEvent.request? := by
  induction events generalizing s with
  | nil => rfl
  | cons event rest ih =>
    cases event with
    | request r => exact congrArg (r :: ·) (ih (s.respond r).2)
    | stopLauncher => exact ih s.shutdownLauncher

/-- After any run of a fresh service, the counters are the number of coverages that were answered,
the number of those that could not be, and the lengths of all lists of started and of failed tasks;
the launcher has launched as many tasks as were reported as started.  Requests that are refused,
and requests for a plan or for the counters, change no counter. -/
theorem counters_serve {s : Service} (hcounters : s.counters = .zero)
    (hlaunches : s.launcher.launches = 0) (events : List ServiceEvent) :
    let answers := (s.serve events).1
    let final := (s.serve events).2
    answers.map Answered.request = events.filterMap ServiceEvent.request? ∧
      final.counters = Answered.counters answers ∧
      final.launcher.launches = final.counters.started ∧
      (∀ r : HttpRequest, r.Asks .counters →
        final.respond r = (.ok (.counters final.counters), final)) ∧
      ∀ (reached : Service) (r : HttpRequest),
        (reached.respond r).1.status = 400 ∨ r.Reaches .plan ∨ r.Reaches .counters →
          (reached.respond r).2.counters = reached.counters := by
  intro answers final
  have htallies := s.tallies_serve events
  have hfinal : final.counters = Answered.counters answers := by
    rw [htallies.counters, hcounters, Counters.zero_add]
  have hlaunched : final.launcher.launches = .ofNat (Answered.startedCount answers) := by
    rw [htallies.launches, hlaunches]
    exact UInt64.zero_add _
  refine ⟨s.map_request_serve events, hfinal, ?_, ?_, counters_respond_eq⟩
  · rw [hlaunched, hfinal]
    rfl
  · intro r hasks
    rw [final.respond_of_asks hasks, respondOn]

/-- A coverage, then a network that is not known, tasks in front of a stop of the launcher and
behind it, and a request for too many buckets. -/
theorem counters_serve_stopped_launcher :
    let ledger := (Ledger.empty.setHead "main" 7).2
    let s : Service := ⟨⟨.off, "", "", 4, 2, 3, 16⟩, ledger, .running .idle, .zero⟩
    let get := fun target : String => HttpRequest.mk "GET" target none ""
    let start : HttpRequest := ⟨"POST", "/dispatch", some "application/json",
      "\x7b\"network\": \"main\", \"from\": 3, \"to\": 12, \"workers\": 3\x7d"⟩
    let rest : List ServiceEvent := [.request (get "/coverage?network=test"), .request start,
      .stopLauncher, .request start, .request (get "/coverage?network=main&buckets=17")]
    let final := (s.serve (.request (get "/coverage?network=main") :: rest)).2
    s.counters = .zero ∧ s.launcher.launches = 0 ∧ final.counters = ⟨1, 1, 3, 3⟩ ∧
      final.launcher.launches = 3 := by
  intro ledger s get start rest
  let n : Network := ⟨"main", by decide⟩
  -- The ledger is searched for blocks on the first request only, which is answered by a lemma.
  have hasks : (get "/coverage?network=main").Asks .coverage := by decide
  have horder : HttpRequest.coverageOrder? (get "/coverage?network=main").query =
      some ("main", none) := by decide +kernel
  have haccepted : ¬ s.RefusesCoverage "main" 4 := by
    unfold RefusesCoverage
    decide
  have hhead : ledger.head n.name = .ok 7 := by decide +kernel
  have hkeys : ledger.WellFormed n := by
    have hledger : ledger = Ledger.empty.insertHead n.headKey (headValue 7) :=
      congrArg Prod.snd (Ledger.empty.setHead_name n 7)
    intro key hmem
    rw [hledger] at hmem
    exact absurd hmem Std.TreeSet.not_mem_emptyc
  obtain ⟨a, hcoverage, _⟩ := respond_of_not_readFails hasks horder rfl haccepted
    (Ledger.not_readFails_of_wellFormed hhead hkeys 2)
  have hserve : (s.serve (.request (get "/coverage?network=main") :: rest)).1 =
      ⟨get "/coverage?network=main", .ok (.coverage a)⟩ ::
        (s.countMeasured.serve rest).1 := by
    rw [serve, hcoverage]
  have hcounts : Answered.counters (s.serve (.request (get "/coverage?network=main") :: rest)).1 =
      ⟨1, 1, 3, 3⟩ := by
    rw [hserve, Answered.counters_cons, HttpResponse.ok, Answered.counters_of_reported_empty rfl]
    decide +kernel
  obtain ⟨_, hfinal, hlaunches, _⟩ :=
    counters_serve (s := s) rfl rfl (.request (get "/coverage?network=main") :: rest)
  rw [hcounts] at hfinal
  rw [hfinal] at hlaunches
  exact ⟨rfl, rfl, hfinal, hlaunches⟩

end Service
end ChainCoverage
