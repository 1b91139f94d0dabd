import ChainCoverage.Coverage.Measure
import ChainCoverage.Proofs.Sweep.Invariant
import Mathlib.Data.List.Sort

/-!
# Coverage is exact

A sweep over any blocks ends with the coverage that a look at every block of the chain
would give: the balanced buckets, each with the ascending list of its blocks that were
not taken.

Main results:

- `Coverage.Exact`: what a coverage has to say about the indexed blocks.
- `Sweep.conclude_visitAll_start`: a sweep computes the coverage of the blocks it took.
- `Coverage.ofBlocks_exact`: coverage from blocks in any order is exact.
-/

namespace ChainCoverage

/-! ## The coverage of a set of blocks -/

namespace Partition

/-- The coverage of the chain when exactly the blocks with `indexed` are indexed. -/
def coverageOf (p : Partition) (indexed : Block → Bool) : Coverage :=
  let ranges := p.spans.map fun span => ⟨span, span.blocks.filter (!indexed ·)⟩
  { latest := p.total
    ranges := ranges
    bucketWidth := p.width
    missingCount := .ofNat (ranges.flatMap RangeCoverage.missing).length }

variable (p : Partition)

/-- The missing blocks of all buckets are the missing blocks of the chain. -/
theorem missing_coverageOf (indexed : Block → Bool) :
    (p.coverageOf indexed).missing = (Span.mk 0 p.total).blocks.filter (!indexed ·) := by
  rw [← flatMap_blocks_spans, List.filter_flatMap, Coverage.missing, coverageOf,
    List.flatMap_map]

theorem mem_missing_coverageOf {indexed : Block → Bool} {block : Block} :
    block ∈ (p.coverageOf indexed).missing ↔ block ≤ p.total ∧ indexed block = false := by
  rw [missing_coverageOf, List.mem_filter, Span.mem_blocks, Span.mem_zero_iff, Bool.not_eq_true']

/-- No block is missing twice. -/
theorem pairwise_missing_coverageOf (indexed : Block → Bool) :
    (p.coverageOf indexed).missing.Pairwise (· < ·) := by
  rw [missing_coverageOf]
  exact (Span.pairwise_blocks _).filter _

/-- A bucket of the chain holds no block past the total. -/
theorem le_total_of_mem_spans {span : Span} (hspan : span ∈ p.spans) {block : Block}
    (hmem : block ∈ span) : block ≤ p.total := by
  have hchain : block ∈ p.spans.flatMap Span.blocks :=
    List.mem_flatMap.2 ⟨span, hspan, Span.mem_blocks.2 hmem⟩
  rw [flatMap_blocks_spans, Span.mem_blocks] at hchain
  exact hchain.2

/-- Blocks past the total do not count. -/
theorem coverageOf_congr {indexed indexed' : Block → Bool}
    (h : ∀ block ≤ p.total, indexed block = indexed' block) :
    p.coverageOf indexed = p.coverageOf indexed' := by
  have hranges : ∀ span ∈ p.spans, span.blocks.filter (!indexed ·) =
      span.blocks.filter (!indexed' ·) := by
    intro span hspan
    apply List.filter_congr
    intro block hmem
    rw [h block (p.le_total_of_mem_spans hspan (Span.mem_blocks.1 hmem))]
  have hmap : p.spans.map (fun span => RangeCoverage.mk span (span.blocks.filter (!indexed ·))) =
      p.spans.map fun span => RangeCoverage.mk span (span.blocks.filter (!indexed' ·)) := by
    apply List.map_congr_left
    intro span hspan
    rw [hranges span hspan]
  simp only [coverageOf, hmap]

/-- A coverage is the coverage of the blocks that it does not report. -/
theorem coverageOf_not_missing (indexed : Block → Bool) :
    p.coverageOf (fun block => !(p.coverageOf indexed).missing.contains block) =
      p.coverageOf indexed := by
  apply p.coverageOf_congr
  intro block hle
  rw [Bool.eq_iff_iff, Bool.not_eq_true', ← Bool.not_eq_true, List.contains_iff_mem,
    mem_missing_coverageOf, ← Bool.not_eq_true]
  exact ⟨fun hnot => Classical.not_not.1 fun hindexed => hnot ⟨hle, hindexed⟩,
    fun hindexed hmem => hmem.2 hindexed⟩

end Partition

/-! ## Exactness -/

/-- Number of blocks of the chain `0 … latest` that are not indexed. -/
def unindexedCount (latest : Block) (indexed : Block → Bool) : Nat :=
  (Span.mk 0 latest).blocks.countP (!indexed ·)

/-- A coverage of the chain `0 … latest` that says exactly which of its blocks are indexed. -/
structure Coverage.Exact (latest : Block) (count : UInt32) (indexed : Block → Bool)
    (c : Coverage) : Prop where
  latest_eq : c.latest = latest
  /-- The ranges are the balanced buckets in order. -/
  spans_eq : balancedSpans latest count = .ok (c.ranges.map RangeCoverage.span)
  ascending : ∀ range ∈ c.ranges, range.missing.Pairwise (· < ·)
  mem_missing : ∀ range ∈ c.ranges, ∀ block,
    block ∈ range.missing ↔ block ∈ range.span ∧ indexed block = false
  /-- The width is that of the widest bucket, or the largest word when it does not fit one. -/
  width_eq : ∃ widest ∈ c.ranges, (∀ range ∈ c.ranges, range.span.size ≤ widest.span.size) ∧
    c.bucketWidth.toNat = min widest.span.size (UInt64.size - 1)
  /-- The count is right whenever it fits a word. -/
  missingCount_eq : unindexedCount latest indexed < UInt64.size →
    c.missingCount.toNat = unindexedCount latest indexed

/-- The missing blocks fit a word unless nothing is indexed of a chain that uses all blocks. -/
theorem unindexedCount_lt_size_iff (latest : Block) (indexed : Block → Bool) :
    unindexedCount latest indexed < UInt64.size ↔
      ¬ (latest.toNat + 1 = UInt64.size ∧ ∀ block, indexed block = false) := by
  have hlength : (Span.mk 0 latest).blocks.length = latest.toNat + 1 := Span.length_blocks _
  have hle := List.countP_le_length (p := fun block => !indexed block)
    (l := (Span.mk 0 latest).blocks)
  have hbound := latest.toNat_lt_size
  constructor
  · rintro hlt ⟨htop, hnone⟩
    have hall : unindexedCount latest indexed = (Span.mk 0 latest).blocks.length :=
      List.countP_eq_length.2 fun block _ => by simp [hnone block]
    omega
  · intro hnot
    apply Nat.lt_of_not_le
    intro hge
    have hall : unindexedCount latest indexed = (Span.mk 0 latest).blocks.length := by
      rw [unindexedCount] at hge ⊢
      omega
    refine hnot ⟨by omega, fun block => ?_⟩
    have hmem : block ∈ (Span.mk 0 latest).blocks := by
      have hblock := block.toNat_lt_size
      rw [Span.mem_blocks, Span.mem_iff, UInt64.le_iff_toNat_le, UInt64.le_iff_toNat_le]
      refine ⟨Nat.zero_le _, ?_⟩
      change block.toNat ≤ latest.toNat
      omega
    simpa using List.countP_eq_length.1 hall block hmem

namespace Partition

variable (p : Partition)

/-- The coverage of a set of blocks is exact. -/
theorem exact_coverageOf (indexed : Block → Bool) :
    (p.coverageOf indexed).Exact p.total p.requested indexed where
  latest_eq := rfl
  spans_eq := by
    rw [balancedSpans_eq, coverageOf, List.map_map]
    congr 1
    exact (List.map_id' _).symm
  ascending := by
    simp only [coverageOf, List.forall_mem_map]
    exact fun span _ => span.pairwise_blocks.filter _
  mem_missing := by
    simp only [coverageOf, List.forall_mem_map]
    intro span _ block
    rw [List.mem_filter, Span.mem_blocks, Bool.not_eq_true']
  width_eq := by
    obtain ⟨widest, hwidest, hle, hwidth⟩ := p.exists_widest_span
    refine ⟨⟨widest, widest.blocks.filter (!indexed ·)⟩, List.mem_map_of_mem hwidest, ?_, hwidth⟩
    simp only [coverageOf, List.forall_mem_map]
    exact hle
  missingCount_eq := by
    intro hlt
    have hlength : unindexedCount p.total indexed = (p.coverageOf indexed).missing.length := by
      rw [missing_coverageOf, unindexedCount, List.countP_eq_length_filter]
    rw [hlength] at hlt ⊢
    exact UInt64.toNat_ofNat_of_lt' hlt

end Partition

/-! ## What a sweep computes -/

namespace Sweep

variable {p : Partition} {visited : List Block} {s : Sweep}

/-- Once the rest of the chain is skipped, a bucket's recorded blocks that are not late are its
blocks that did not come. -/
theorem Tracks.filter_recordedAt (h : Tracks p visited s) {index : Nat} (hindex : index < p.size) :
    ((s.skipTo s.stop).recordedAt index).filter (!s.late.contains ·) =
      (p.span index).blocks.filter (!visited.contains ·) := by
  have hstop : s.stop ≤ p.items := Nat.le_of_eq h.stop_eq
  apply ((h.ascending_skipTo hstop hindex).filter _).eq_of_mem_iff
    ((p.span index).pairwise_blocks.filter _)
  intro block
  rw [List.mem_filter, List.mem_filter, h.mem_recordedAt_skipTo hstop hindex, Span.mem_blocks,
    p.mem_span hindex]
  simp only [Bool.not_eq_true', ← Bool.not_eq_true, Std.TreeSet.contains_iff_mem,
    List.contains_iff_mem, h.mem_late block]
  constructor
  · rintro ⟨⟨hbucket, ⟨hlt, hleads⟩ | ⟨hle, hlt⟩⟩, hlate⟩
    · exact ⟨hbucket, fun hmem => hlate ⟨hmem, p.le_total_of_bucketOf? hbucket, hleads⟩⟩
    · exact ⟨hbucket, fun hmem => Nat.not_lt.2 hle (toNat_lt_reach hmem)⟩
  · rintro ⟨hbucket, hmem⟩
    refine ⟨⟨hbucket, ?_⟩, fun hlate => hmem hlate.1⟩
    by_cases hpassed : block.toNat < reach visited
    · exact Or.inl ⟨hpassed, fun hleads => hmem hleads.mem⟩
    · have hle := UInt64.le_iff_toNat_le.1 (p.le_total_of_bucketOf? hbucket)
      refine Or.inr ⟨Nat.le_of_not_lt hpassed, ?_⟩
      rw [h.stop_eq]
      exact Nat.lt_succ_of_le hle

/-- The coverage read off at the end is the coverage of the blocks taken. -/
theorem Tracks.conclude (h : Tracks p visited s) :
    s.conclude = p.coverageOf (visited.contains ·) := by
  have hpartition := (s.partition_skipTo (Nat.le_refl _)).trans h.partition_eq
  have hsize := (s.size_recorded_skipTo (Nat.le_refl _)).trans h.size_eq
  have hlate : (s.skipTo s.stop).late = s.late := s.late_skipTo (Nat.le_refl _)
  have hranges : List.zipWith
      (fun span blocks => RangeCoverage.mk span (blocks.toList.filter (!s.late.contains ·)))
      p.spans (s.skipTo s.stop).recorded.toList =
      p.spans.map fun span => ⟨span, span.blocks.filter (!visited.contains ·)⟩ := by
    apply List.ext_getElem
    · simp [hsize]
    · intro index hzip hmap
      have hindex : index < p.size := by simpa using hmap
      have hspan : ∀ hspans : index < p.spans.length, p.spans[index] = p.span index := by
        intro hspans
        simp [Partition.spans, Partition.spansFrom]
      have hlist : ∀ hrecorded : index < (s.skipTo s.stop).recorded.size,
          (s.skipTo s.stop).recorded[index].toList = (s.skipTo s.stop).recordedAt index := by
        intro hrecorded
        rw [recordedAt, Array.getD_eq_getD_getElem?, Array.getElem?_eq_getElem hrecorded]
        rfl
      rw [List.getElem_zipWith, List.getElem_map, hspan, ← h.filter_recordedAt hindex, ← hlist]
      rfl
  rw [Sweep.conclude, coverage, hpartition, hlate]
  simp only [hranges, Partition.coverageOf]

/-- A sweep computes the coverage of the blocks it took. -/
theorem conclude_visitAll_start (p : Partition) (blocks : List Block) :
    ((start p).visitAll blocks).conclude = p.coverageOf (blocks.contains ·) :=
  (tracks_visitAll p blocks).conclude

end Sweep

namespace Coverage

/-- Coverage from blocks in memory is the coverage of their set. -/
theorem ofBlocks_eq_coverageOf (p : Partition) (blocks : List Block) :
    ofBlocks p.total blocks p.requested = .ok (p.coverageOf (blocks.contains ·)) := by
  rw [ofBlocks, Partition.ofCount, dif_pos p.requested_pos, ← Sweep.conclude_visitAll_start]
  rfl

/-- Coverage from blocks in any order, with any repetitions, is exact, and it depends only on
which blocks up to the latest one are among them. -/
theorem ofBlocks_exact {count : UInt32} (hcount : 0 < count) (latest : Block)
    (blocks : List Block) :
    (∃ c, ofBlocks latest blocks count = .ok c ∧ c.Exact latest count (blocks.contains ·)) ∧
      (unindexedCount latest (blocks.contains ·) < UInt64.size ↔
        ¬ (latest.toNat + 1 = UInt64.size ∧ blocks = [])) ∧
      ∀ others : List Block, (∀ block ≤ latest, block ∈ others ↔ block ∈ blocks) →
        ofBlocks latest others count = ofBlocks latest blocks count := by
  let p : Partition := ⟨latest, count, hcount⟩
  refine ⟨⟨_, ofBlocks_eq_coverageOf p blocks, p.exact_coverageOf _⟩, ?_, ?_⟩
  · rw [unindexedCount_lt_size_iff]
    simp [List.eq_nil_iff_forall_not_mem]
  · intro others hsame
    rw [ofBlocks_eq_coverageOf p others, ofBlocks_eq_coverageOf p blocks]
    congr 1
    apply p.coverageOf_congr
    intro block hle
    rw [Bool.eq_iff_iff, List.contains_iff_mem, List.contains_iff_mem]
    exact hsame block hle

/-- Late, repeated and surplus blocks in one sequence. -/
theorem ofBlocks_exact_late_block :
    (0 : UInt32) < 2 ∧
      (∃ c, ofBlocks 9 [0, 6, 3, 9, 3, 12] 2 = .ok c ∧
        c.Exact 9 2 ([0, 6, 3, 9, 3, 12].contains ·)) ∧
      ofBlocks 9 [9, 0, 3, 6] 2 = ofBlocks 9 [0, 6, 3, 9, 3, 12] 2 := by
  have hcount : (0 : UInt32) < 2 := by decide
  obtain ⟨hexact, _, hset⟩ := ofBlocks_exact hcount 9 [0, 6, 3, 9, 3, 12]
  refine ⟨hcount, hexact, hset _ ?_⟩
  intro block hle
  have hne : block ≠ 12 := by
    rintro rfl
    exact absurd hle (by decide)
  simp only [List.mem_cons, List.not_mem_nil, or_false]
  grind

end Coverage
end ChainCoverage
