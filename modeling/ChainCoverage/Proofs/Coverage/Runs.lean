import ChainCoverage.Proofs.Coverage.Exact
import ChainCoverage.Proofs.Run

/-!
# The missing blocks as runs

A coverage says which blocks are missing in runs, those of a single bucket or those of the whole
chain.  Nothing is lost in this, for any missing blocks.  After a sweep the runs of the chain are
the intervals of blocks that did not come, whatever the buckets, and the runs of a bucket are such
intervals cut at the ends of the bucket.

Main results:

- `Coverage.Exact.enumerates_runs`: the runs of one bucket.
- `Partition.enumerates_runs_coverageOf` and `Partition.runs_coverageOf_congr`: the runs of the
  chain, which do not depend on the buckets.
- `Coverage.runs_of_missing_blocks`: the runs of any missing blocks, and those after a sweep.
-/

namespace ChainCoverage

/-- The maximal intervals depend only on which blocks have the property. -/
theorem Run.Enumerates.congr {p q : Block → Prop} {runs : List Span} (h : Enumerates p runs)
    (hiff : ∀ block, p block ↔ q block) : Enumerates q runs := by
  have hsame : p = q := funext fun block => propext (hiff block)
  rwa [← hsame]

/-- The runs of a bucket are the maximal intervals of its blocks that are not indexed. -/
theorem Coverage.Exact.enumerates_runs {latest : Block} {count : UInt32} {indexed : Block → Bool}
    {c : Coverage} (h : c.Exact latest count indexed) {range : RangeCoverage}
    (hrange : range ∈ c.ranges) :
    Run.Enumerates (fun block => block ∈ range.span ∧ indexed block = false) range.runs :=
  (Run.enumerates_ofBlocks (h.ascending range hrange)).congr (h.mem_missing range hrange)

namespace Partition

variable (p : Partition) (indexed : Block → Bool)

/-- The runs of a coverage are the maximal intervals of the chain's blocks that are not indexed. -/
theorem enumerates_runs_coverageOf :
    Run.Enumerates (fun block => block ≤ p.total ∧ indexed block = false)
      (p.coverageOf indexed).runs :=
  (Run.enumerates_ofBlocks (p.pairwise_missing_coverageOf indexed)).congr fun _ =>
    p.mem_missing_coverageOf

/-- The runs of a coverage do not depend on the number of buckets. -/
theorem runs_coverageOf_congr {q : Partition} (htotal : p.total = q.total) :
    (p.coverageOf indexed).runs = (q.coverageOf indexed).runs := by
  rw [Coverage.runs, Coverage.runs, missing_coverageOf, missing_coverageOf, htotal]

end Partition

namespace Coverage

/-- The runs of missing blocks, of one range or of all ranges, are the only canonical runs that
stand for them.  After a sweep over any blocks the runs of the chain are the maximal intervals of
the blocks up to the latest one that did not come, in ascending order and for every number of
buckets; the runs of a range are such intervals within the range. -/
theorem runs_of_missing_blocks :
    (∀ (range : RangeCoverage) (runs : List Span),
      runs = range.runs ↔ Run.blocks runs = range.missing ∧ Run.Canonical runs) ∧
    (∀ (c : Coverage) (runs : List Span),
      runs = c.runs ↔
        Run.blocks runs = c.ranges.flatMap RangeCoverage.missing ∧ Run.Canonical runs) ∧
    ∀ (latest : Block) (blocks : List Block), ∃ intervals : List Span,
      Run.Enumerates (fun block => block ≤ latest ∧ block ∉ blocks) intervals ∧
      ∀ count : UInt32, 0 < count → ∃ c, ofBlocks latest blocks count = .ok c ∧
        c.runs = intervals ∧
        ∀ range ∈ c.ranges,
          Run.Enumerates (fun block => block ∈ range.span ∧ block ∉ blocks) range.runs := by
  refine ⟨fun _ _ => Run.eq_ofBlocks_iff, fun _ _ => Run.eq_ofBlocks_iff, ?_⟩
  intro latest blocks
  have habsent : ∀ block, blocks.contains block = false ↔ block ∉ blocks := by
    intro block
    rw [← Bool.not_eq_true, List.contains_iff_mem]
  let whole : Partition := ⟨latest, 1, by decide⟩
  refine ⟨(whole.coverageOf (blocks.contains ·)).runs, ?_, ?_⟩
  · exact (whole.enumerates_runs_coverageOf _).congr fun block =>
      and_congr_right fun _ => habsent block
  · intro count hcount
    let p : Partition := ⟨latest, count, hcount⟩
    refine ⟨_, ofBlocks_eq_coverageOf p blocks, p.runs_coverageOf_congr _ rfl, ?_⟩
    intro range hrange
    exact ((p.exact_coverageOf _).enumerates_runs hrange).congr fun block =>
      and_congr_right fun _ => habsent block

/-- A run that goes on from one bucket into the next is the same in two buckets and in five. -/
theorem runs_of_missing_blocks_across_buckets :
    (0 : UInt32) < 2 ∧ (0 : UInt32) < 5 ∧
      ∃ c c', ofBlocks 9 [0, 7, 3, 12] 2 = .ok c ∧ ofBlocks 9 [0, 7, 3, 12] 5 = .ok c' ∧
        c.runs = c'.runs ∧ ⟨4, 6⟩ ∈ c.runs := by
  have htwo : (0 : UInt32) < 2 := by decide
  have hfive : (0 : UInt32) < 5 := by decide
  obtain ⟨_, _, hsweep⟩ := runs_of_missing_blocks
  obtain ⟨intervals, hintervals, hcounts⟩ := hsweep 9 [0, 7, 3, 12]
  obtain ⟨c, hc, hruns, _⟩ := hcounts 2 htwo
  obtain ⟨c', hc', hruns', _⟩ := hcounts 5 hfive
  refine ⟨htwo, hfive, c, c', hc, hc', hruns.trans hruns'.symm, ?_⟩
  rw [hruns, hintervals.mem_iff]
  constructor
  case first_le_last => decide
  case holds =>
    rintro block ⟨hlow, hhigh⟩
    simp only [List.mem_cons, List.not_mem_nil]
    grind
  case before =>
    intro block hbefore
    obtain rfl : block = 3 := UInt64.toNat_inj.1 (Nat.succ.inj hbefore)
    decide
  case behind =>
    intro block hbehind
    obtain rfl : block = 7 := UInt64.toNat_inj.1 hbehind
    decide

end Coverage
end ChainCoverage
