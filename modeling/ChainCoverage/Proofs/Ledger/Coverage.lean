import ChainCoverage.Proofs.Ledger.Damaged
import ChainCoverage.Proofs.Ledger.History
import ChainCoverage.Proofs.Ledger.Represents

/-!
# Coverage from a ledger

A ledger is its own oracle and its own source.  Whatever clients did to it before, the
coverage of a network is the one that the last writes about each of its blocks and about
its head give, whatever the size of the pages and whatever happened to other networks.

Main results:

- `Ledger.Represents.coverage_eq`: the coverage of what a ledger represents.
- `Ledger.coverage_after`: the coverage after any sequence of events.
-/

namespace ChainCoverage
namespace Ledger

/-- Nothing is unreadable of a network with a head. -/
theorem Represents.not_unreadable {s : Ledger} {c : Contents} (h : Represents s c) {n : Network}
    {latest : Block} (hhead : (c n).head = some latest) (reason : LedgerError) :
    ¬ s.Unreadable n reason := by
  have hvalue : s.heads[n.headKey]? = some (headValue latest) := by
    rw [h.heads_eq, hhead, Option.map_some]
  intro hunreadable
  cases hunreadable with
  | noHead hnone =>
    rw [hvalue] at hnone
    contradiction
  | malformedHead hother hlength =>
    obtain rfl := Option.some.inj (hvalue.symm.trans hother)
    exact hlength (Bytes.length_littleEndian _ _)
  | malformedKey _ hmem hstem _ hlength =>
    obtain ⟨block, rfl⟩ := h.eq_blockKey_of_keyStem_isPrefix hmem hstem
    exact hlength (n.length_blockKey block)

/-- The coverage of a network is the coverage of its set of blocks. -/
theorem Represents.coverage_eq {s : Ledger} {c : Contents} (h : Represents s c) {n : Network}
    (p : Partition) (hhead : (c n).head = some p.total) (pageSize : Nat) :
    s.coverage n.name p.requested pageSize =
      .ok (p.coverageOf fun block => decide (block ∈ (c n).blocks)) := by
  have htotal : s.head n.name = .ok p.total := by
    rw [h.head_eq, Progress.requireHead, hhead]
  rcases coverage_name_cases p htotal pageSize with ⟨reason, hunreadable, _⟩ | hcoverage
  · exact absurd hunreadable (h.not_unreadable hhead reason)
  · rw [hcoverage]
    congr 2
    funext block
    rw [Bool.eq_iff_iff, Std.TreeSet.contains_iff_mem, h.mem_blockKey_iff, decide_eq_true_iff]

/-- Without buckets there is no coverage. -/
theorem coverage_zero (s : Ledger) (name : String) (pageSize : Nat) :
    s.coverage name 0 pageSize = .error (.invalid .noBuckets) := by
  rw [coverage, measureNetwork_zero]

/-- Without a head there is no coverage. -/
theorem Represents.coverage_of_no_head {s : Ledger} {c : Contents} (h : Represents s c)
    {n : Network} (hhead : (c n).head = none) {count : UInt32} (hcount : count ≠ 0)
    (pageSize : Nat) :
    s.coverage n.name count pageSize = .error (.unavailable (.reported (.noHead n.name))) := by
  have horacle : oracle n.name s = (.error (.noHead n.name), s) := by
    rw [oracle, h.head_eq, Progress.requireHead, hhead]
  rw [coverage, measureNetwork_of_oracle_error source n.name pageSize hcount horacle]

/-- After any sequence of events, the coverage of a network with a head succeeds and is exact for
the last head and for the blocks whose last write marked them.  It is the same for every page size,
and for every sequence that does the same to this network. -/
theorem coverage_after {events : List Event} {n : Network} {latest : Block}
    (hhead : lastHead? events n = some latest) {count : UInt32} (hcount : 0 < count) :
    (∃ c, c.Exact latest count (lastMarked events n) ∧
      ∀ pageSize, (empty.after events).coverage n.name count pageSize = .ok c) ∧
    ∀ others : List Event, others.filter (·.concerns n) = events.filter (·.concerns n) →
      ∀ pageSize, (empty.after others).coverage n.name count pageSize =
        (empty.after events).coverage n.name count pageSize := by
  let p : Partition := ⟨latest, count, hcount⟩
  have hcontents : (Contents.empty.after events n).head = some p.total :=
    (Contents.head_after events n).trans hhead
  have hcoverage : ∀ pageSize, (empty.after events).coverage n.name count pageSize =
      .ok (p.coverageOf (lastMarked events n)) := by
    intro pageSize
    have hindexed : (fun block => decide (block ∈ (Contents.empty.after events n).blocks)) =
        lastMarked events n := by
      funext block
      rw [Bool.eq_iff_iff, decide_eq_true_iff, Contents.mem_blocks_after]
    rw [← hindexed]
    exact (represents_empty.after events).coverage_eq p hcontents pageSize
  refine ⟨⟨_, p.exact_coverageOf _, hcoverage⟩, ?_⟩
  intro others hsame pageSize
  have hprogress : Contents.empty.after others n = Contents.empty.after events n := by
    rw [← Contents.after_filter_concerns rfl others, hsame, Contents.after_filter_concerns rfl]
  have hothers := (represents_empty.after others).coverage_eq p (by rw [hprogress, hcontents])
    pageSize
  have hevents := (represents_empty.after events).coverage_eq p hcontents pageSize
  rw [hothers, hevents, hprogress]

/-- A block marked and forgotten again is missing, also when a network whose name starts alike has
it. -/
theorem coverage_after_forgotten :
    let main : Network := ⟨"main", by decide⟩
    let mainnet : Network := ⟨"mainnet", by decide⟩
    let events : List Event := [.on main (.setHead 9), .on main (.markAll [0, 4, 12]),
      .on mainnet (.mark 4), .on mainnet (.setHead 20), .on main (.unmark 4), .reopened]
    lastHead? events main = some 9 ∧ (0 : UInt32) < 3 ∧
      ∃ c, c.Exact 9 3 (lastMarked events main) ∧ lastMarked events main 4 = false ∧
        ∀ pageSize, (empty.after events).coverage "main" 3 pageSize = .ok c := by
  intro main mainnet events
  have hhead : lastHead? events main = some 9 := by decide
  have hcount : (0 : UInt32) < 3 := by decide
  obtain ⟨⟨c, hexact, hcoverage⟩, _⟩ := coverage_after hhead hcount
  exact ⟨hhead, hcount, c, hexact, by decide, hcoverage⟩

end Ledger
end ChainCoverage
