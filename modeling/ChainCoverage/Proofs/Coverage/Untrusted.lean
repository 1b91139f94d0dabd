import ChainCoverage.Proofs.Coverage.Network
import ChainCoverage.Proofs.Paging.Answers

/-!
# Coverage from collaborators that keep no promise

The oracle and the source may answer a coverage request with whatever they like.  The
request still has a coverage only when no answer has a fault, and then it is the coverage
of the blocks received; otherwise its outcome is the first fault, unchanged, and nobody is
asked after it.

Main results:

- `measureNetwork_of_any_answers`: the outcome of a request, from the answers it got.
-/

namespace ChainCoverage

section Request

variable {σ ε : Type} (oracle : Oracle σ ε) (source : Source σ ε) (network : String)
  (pageSize : Nat) (state : σ)

/-- A request for no bucket asks nobody. -/
theorem measureNetwork_zero :
    measureNetwork oracle source network 0 pageSize state =
      ⟨[], [], .error (.invalid .noBuckets), state⟩ :=
  if_pos rfl

variable {oracle state} {next : σ}

/-- Without a head from the oracle, its failure is the outcome and the source is not asked. -/
theorem measureNetwork_of_oracle_error {count : UInt32} (hcount : count ≠ 0) {failure : ε}
    (horacle : oracle network state = (.error failure, next)) :
    measureNetwork oracle source network count pageSize state =
      ⟨[network], [], .error (.unavailable (.reported failure)), next⟩ := by
  rw [measureNetwork, if_neg hcount, horacle]

section Head

variable (p : Partition) (horacle : oracle network state = (.ok p.total, next))
include horacle

/-- With a head from the oracle, the oracle was asked once and the source what its reading asks. -/
theorem asked_measureNetwork :
    (measureNetwork oracle source network p.requested pageSize state).asked = [network] := by
  rw [measureNetwork, if_neg p.requested_ne_zero, horacle]

/-- With a head from the oracle, the state at the end is the one the reading leaves. -/
theorem state_measureNetwork :
    (measureNetwork oracle source network p.requested pageSize state).state =
      (readPages source network p.total pageSize next).source := by
  rw [measureNetwork, if_neg p.requested_ne_zero, horacle]

/-- With a head from the oracle, a request is unavailable exactly as its reading fails. -/
theorem outcome_measureNetwork_eq_unavailable_iff (reason : Unavailable ε) :
    (measureNetwork oracle source network p.requested pageSize state).outcome =
        .error (.unavailable reason) ↔
      (readPages source network p.total pageSize next).failure = some reason := by
  cases hfailure : (readPages source network p.total pageSize next).failure with
  | none => simp [outcome_measureNetwork p horacle hfailure]
  | some actual => simp [outcome_measureNetwork_of_failure p horacle hfailure]

/-- With a head from the oracle, a request is not refused. -/
theorem outcome_measureNetwork_ne_invalid (reason : ParameterError) :
    (measureNetwork oracle source network p.requested pageSize state).outcome ≠
      .error (.invalid reason) := by
  cases hfailure : (readPages source network p.total pageSize next).failure with
  | none => simp [outcome_measureNetwork p horacle hfailure]
  | some actual => simp [outcome_measureNetwork_of_failure p horacle hfailure]

end Head
end Request

/-- A request with the head `latest` that the source's answers, from the state `next` on, account
for. -/
structure NetworkCoverage.Accounted {σ ε : Type} (source : Source σ ε) (latest : Block)
    (count : UInt32) (next : σ) (run : NetworkCoverage σ ε) : Prop where
  requests_ne_nil : run.requests ≠ []
  /-- Nothing was asked of the source but the requests. -/
  state_eq : run.state = (answersTo source run.requests next).2
  /-- The request is unavailable exactly with the fault of an answer. -/
  unavailable_iff : ∀ reason, run.outcome = .error (.unavailable reason) ↔
    ∃ k, FaultAt none (answersTo source run.requests next).1 k reason
  /-- An answer with a fault is the last one, so it is the first with a fault. -/
  last_of_faultAt : ∀ k reason, FaultAt none (answersTo source run.requests next).1 k reason →
    k + 1 = run.requests.length
  /-- Without a fault the outcome is exact for the blocks of all pages received. -/
  exact_of_no_fault :
    (∀ k reason, ¬ FaultAt none (answersTo source run.requests next).1 k reason) →
      ∃ c, run.outcome = .ok c ∧ c.Exact latest count
        ((receivedPages (answersTo source run.requests next).1).flatten.contains ·)

/-- With a head from the oracle, the answers of the source account for a request. -/
theorem accounted_measureNetwork {σ ε : Type} {oracle : Oracle σ ε} (source : Source σ ε)
    (network : String) (pageSize : Nat) {state next : σ} (p : Partition)
    (horacle : oracle network state = (.ok p.total, next)) :
    (measureNetwork oracle source network p.requested pageSize state).Accounted source p.total
      p.requested next := by
  have hanswered := answered_readPages source network p.total pageSize next
  have houtcome := outcome_measureNetwork_eq_unavailable_iff source network pageSize p horacle
  have hfailure := hanswered.failure_iff
  constructor
  · rw [requests_measureNetwork p horacle]
    exact hanswered.requests_ne_nil
  · rw [requests_measureNetwork p horacle, state_measureNetwork source network pageSize p horacle]
    exact hanswered.source_eq
  · intro reason
    rw [requests_measureNetwork p horacle, houtcome, hfailure]
  · rw [requests_measureNetwork p horacle]
    exact hanswered.last_of_faultAt
  · rw [requests_measureNetwork p horacle]
    intro hnone
    have hread : (readPages source network p.total pageSize next).failure = none := by
      rw [Option.eq_none_iff_forall_ne_some]
      intro reason hsome
      obtain ⟨k, hfault⟩ := (hfailure reason).1 hsome
      exact hnone k reason hfault
    refine ⟨_, outcome_measureNetwork p horacle hread, ?_⟩
    rw [hanswered.flatten_pages hread]
    exact p.exact_coverageOf _

/-- Whatever the oracle and the source answer, a request is refused exactly when no bucket is
wanted, and then nobody is asked.  Otherwise the oracle is asked once; its failure is the outcome
without a word to the source, and with a head the source's answers account for the outcome. -/
theorem measureNetwork_of_any_answers {σ ε : Type} (oracle : Oracle σ ε) (source : Source σ ε)
    (network : String) (count : UInt32) (pageSize : Nat) (state : σ) :
    let run := measureNetwork oracle source network count pageSize state
    ((∃ reason, run.outcome = .error (.invalid reason)) ↔ count = 0) ∧
      (count = 0 → run.asked = [] ∧ run.requests = [] ∧ run.state = state) ∧
      (count ≠ 0 → run.asked = [network]) ∧
      (∀ failure next, count ≠ 0 → oracle network state = (.error failure, next) →
        run.outcome = .error (.unavailable (.reported failure)) ∧ run.requests = [] ∧
          run.state = next) ∧
      ∀ latest next, count ≠ 0 → oracle network state = (.ok latest, next) →
        run.Accounted source latest count next := by
  intro run
  by_cases hcount : count = 0
  · subst hcount
    simp [run, measureNetwork_zero]
  rcases horacle : oracle network state with ⟨answer, next⟩
  cases answer with
  | error failure =>
    have hrun : run = ⟨[network], [], .error (.unavailable (.reported failure)), next⟩ :=
      measureNetwork_of_oracle_error source network pageSize hcount horacle
    simp [hrun, hcount]
  | ok latest =>
    let p : Partition := ⟨latest, count, UInt32.pos_iff_ne_zero.2 hcount⟩
    have hinvalid : ∀ reason, run.outcome ≠ .error (.invalid reason) :=
      outcome_measureNetwork_ne_invalid source network pageSize p horacle
    refine ⟨iff_of_false (fun ⟨reason, h⟩ => hinvalid reason h) hcount,
      fun hzero => absurd hzero hcount,
      fun _ => asked_measureNetwork source network pageSize p horacle, ?_, ?_⟩
    · rintro failure next' _ ⟨⟩
    · rintro _ _ _ ⟨⟩
      exact accounted_measureNetwork source network pageSize p horacle

/-- A source that repeats its first page is found out by its second answer. -/
theorem measureNetwork_of_any_answers_repeated_page :
    let run := measureNetwork (ε := String) (fun _ fetched => (.ok 9, fetched))
      (fun _ fetched => (.ok [7, 1, 2], fetched + 1)) "mainnet" 3 2 0
    run.asked = ["mainnet"] ∧ run.requests.length = 2 ∧
      run.outcome = .error (.unavailable (.stalled 2)) := by
  intro run
  have hcount : (3 : UInt32) ≠ 0 := by decide
  obtain ⟨_, _, hasked, _, hhead⟩ := measureNetwork_of_any_answers (ε := String)
    (fun _ fetched => (.ok 9, fetched)) (fun _ fetched => (.ok [7, 1, 2], fetched + 1))
    "mainnet" 3 2 0
  have hrun : run.Accounted _ 9 3 0 := hhead 9 0 hcount rfl
  have hrequests : run.requests = [⟨"mainnet", none, 9, 2⟩, ⟨"mainnet", some 2, 9, 2⟩] := by
    simp [run, measureNetwork, readPages, readPagesAfter, firstAbove, Paging.single, Paging.cons]
  refine ⟨hasked hcount, by rw [hrequests]; rfl, (hrun.unavailable_iff _).2 ⟨1, ?_⟩⟩
  rw [hrequests]
  exact .stalled rfl rfl rfl (UInt64.le_refl 2)

end ChainCoverage
