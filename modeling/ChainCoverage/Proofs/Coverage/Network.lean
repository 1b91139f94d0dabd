import ChainCoverage.Coverage.Network
import ChainCoverage.Proofs.Coverage.Stream
import ChainCoverage.Proofs.Paging.Snapshots

/-!
# Coverage of a network whose blocks change

A coverage request reads page after page while other clients mark and forget blocks.
Its outcome is still a coverage of the whole chain: each block is reported as the one
fetch that settles it saw it.

Main results:

- `outcome_measureNetwork`: a request whose reading does not fail has a coverage.
- `measureNetwork_snapshotSource`: each block is missing exactly when it is absent from the
  set of the fetch that decides it.
-/

namespace ChainCoverage

/-! ## Requests -/

section Request

variable {σ ε : Type} {oracle : Oracle σ ε} {source : Source σ ε} {network : String}
  {pageSize : Nat} {state next : σ}

/-- With a head from the oracle, what is asked of the source is what its reading asks. -/
theorem requests_measureNetwork (p : Partition)
    (horacle : oracle network state = (.ok p.total, next)) :
    (measureNetwork oracle source network p.requested pageSize state).requests =
      (readPages source network p.total pageSize next).requests := by
  rw [measureNetwork, if_neg p.requested_ne_zero, horacle]

/-- A request whose reading does not fail has the coverage of the blocks read. -/
theorem outcome_measureNetwork (p : Partition)
    (horacle : oracle network state = (.ok p.total, next))
    (hfailure : (readPages source network p.total pageSize next).failure = none) :
    (measureNetwork oracle source network p.requested pageSize state).outcome =
      .ok (p.coverageOf
        ((readPages source network p.total pageSize next).pages.flatten.contains ·)) := by
  rw [measureNetwork, if_neg p.requested_ne_zero, horacle]
  simp only [Paging.items, hfailure, Option.toList_none, List.map_nil, List.append_nil]
  rw [Coverage.ofPages_map_ok]

/-- A request whose reading fails has no coverage but that failure. -/
theorem outcome_measureNetwork_of_failure (p : Partition)
    (horacle : oracle network state = (.ok p.total, next)) {reason : Unavailable ε}
    (hfailure : (readPages source network p.total pageSize next).failure = some reason) :
    (measureNetwork oracle source network p.requested pageSize state).outcome =
      .error (.unavailable reason) := by
  rw [measureNetwork, if_neg p.requested_ne_zero, horacle]
  simp only [Paging.items, hfailure, Option.toList_some, List.map_singleton]
  rw [Coverage.ofPages_append_error]

end Request

/-! ## Sets that change between fetches -/

/-- What the pages of a settled reading miss is what the fetches that decide it do not have. -/
theorem Settles.mem_missing_coverageOf {ε : Type} (p : Partition)
    {snapshots : Nat → Finset Block} {reading : Paging Nat ε}
    (h : Settles snapshots none p.total reading) {k : Nat} {block : Block} (hle : block ≤ p.total)
    (hdecided : DecidedBy snapshots reading.requests k block) :
    block ∈ (p.coverageOf (reading.pages.flatten.contains ·)).missing ↔ block ∉ snapshots k := by
  rw [p.mem_missing_coverageOf, ← Bool.not_eq_true, List.contains_iff_mem,
    h.mem_pages_iff k block hdecided]
  exact and_iff_right hle

/-- A fetch that decides a block is one of the requests. -/
theorem DecidedBy.lt_length {snapshots : Nat → Finset Block} {requests : List PageQuery} {k : Nat}
    {block : Block} (h : DecidedBy snapshots requests k block) : k < requests.length := by
  obtain ⟨request, hrequest, _⟩ := h
  exact (List.getElem?_eq_some_iff.1 hrequest).1

/-- Whatever the sets are that the fetches are answered from, each block of the chain is decided by
exactly one fetch and is missing exactly when it is absent from the set of that fetch. -/
theorem measureNetwork_snapshotSource {ε : Type} {oracle : Oracle Nat ε} {network : String}
    {latest : Block} {count : UInt32} (hcount : 0 < count)
    (horacle : oracle network 0 = (.ok latest, 0)) (snapshots : Nat → Finset Block)
    (pageSize : Nat) :
    let run := measureNetwork oracle (snapshotSource snapshots) network count pageSize 0
    ∃ c, run.outcome = .ok c ∧ c.Exact latest count (fun block => !c.missing.contains block) ∧
      c.missing.Pairwise (· < ·) ∧ (∀ block ∈ c.missing, block ≤ latest) ∧
      ∀ block ≤ latest,
        (∃! k, DecidedBy snapshots run.requests k block) ∧
        (∀ k, DecidedBy snapshots run.requests k block →
          (block ∈ c.missing ↔ block ∉ snapshots k)) ∧
        ((∀ k < run.requests.length, block ∈ snapshots k) → block ∉ c.missing) ∧
        ((∀ k < run.requests.length, block ∉ snapshots k) → block ∈ c.missing) := by
  intro run
  let p : Partition := ⟨latest, count, hcount⟩
  let reading := readPages (ε := ε) (snapshotSource snapshots) network latest pageSize 0
  have hsettles : Settles snapshots none latest reading :=
    settles_readPages snapshots network latest pageSize
  have hrequests : run.requests = reading.requests := requests_measureNetwork p horacle
  have houtcome : run.outcome = .ok (p.coverageOf (reading.pages.flatten.contains ·)) :=
    outcome_measureNetwork p horacle hsettles.failure_eq
  refine ⟨_, houtcome, ?_, p.pairwise_missing_coverageOf _, ?_, ?_⟩
  · have hexact := p.exact_coverageOf fun block =>
      !(p.coverageOf (reading.pages.flatten.contains ·)).missing.contains block
    rwa [p.coverageOf_not_missing] at hexact
  · exact fun block hmem => (p.mem_missing_coverageOf.1 hmem).1
  · intro block hle
    obtain ⟨k, hk⟩ := hsettles.exists_decidedBy block (Nat.zero_le _) hle
    have hmissing := fun j => hsettles.mem_missing_coverageOf p (k := j) hle
    rw [hrequests]
    refine ⟨⟨k, hk, fun j hj => hsettles.decidedBy_unique j k block hj hk⟩, hmissing, ?_, ?_⟩
    · intro hall hmem
      exact (hmissing k hk).1 hmem (hall k hk.lt_length)
    · intro hnone
      exact (hmissing k hk).2 (hnone k hk.lt_length)

/-- Of blocks that come and go while the pages are read, one that stays is not missing and one that
never comes is. -/
theorem measureNetwork_snapshotSource_change :
    (0 : UInt32) < 2 ∧
      ∃ c, (measureNetwork (ε := Empty) (fun _ fetched => (.ok 9, fetched))
          (snapshotSource fun k => if k = 0 then {1, 2} else {2, 7}) "mainnet" 2 2 0).outcome =
            .ok c ∧
        2 ∉ c.missing ∧ 5 ∈ c.missing := by
  have hcount : (0 : UInt32) < 2 := by decide
  obtain ⟨c, houtcome, _, _, _, hblocks⟩ := @measureNetwork_snapshotSource Empty
    (fun _ fetched => (.ok 9, fetched)) "mainnet" 9 2 hcount rfl
    (fun k => if k = 0 then {1, 2} else {2, 7}) 2
  obtain ⟨_, _, hstays, _⟩ := hblocks 2 (by decide)
  obtain ⟨_, _, _, hnever⟩ := hblocks 5 (by decide)
  refine ⟨hcount, c, houtcome, hstays fun k _ => ?_, hnever fun k _ => ?_⟩
  · split <;> decide
  · split <;> decide

end ChainCoverage
