import ChainCoverage.Proofs.Coverage.Counts
import Mathlib.Algebra.BigOperators.Group.List.Basic
import Mathlib.Algebra.GroupWithZero.Nat
import Mathlib.Data.Finset.Card

/-!
# The counts of a coverage add up

The counts are found in different ways: those of a range from its ends and from the blocks that
are missing in it, those of the chain from its latest block and from a total.  They agree as long
as the number of blocks fits a word, and no subtraction of words goes below zero even when it does
not.

Main definitions:

- `Coverage.NoUnderflow`: no count subtracts more than there is.
- `Coverage.AddsUp`: the counts agree with one another and with the number of indexed blocks.

Main results:

- `Partition.noUnderflow_coverageOf` and `Partition.addsUp_coverageOf`.
- `Partition.indexedCount_coverageOf_top`: a chain that uses all blocks.
- `Coverage.ofBlocks_addsUp` and `Coverage.ofBlocks_top`: the same after a sweep.
-/

namespace ChainCoverage

namespace Coverage

/-- No count of a coverage subtracts more than there is, and the missing blocks fit a word. -/
structure NoUnderflow (c : Coverage) : Prop where
  first_le_last : ∀ range ∈ c.ranges, range.span.first ≤ range.span.last
  length_missing_le : ∀ range ∈ c.ranges, range.missing.length ≤ range.length.toNat
  missingCount_eq : c.missingCount.toNat = c.missing.length
  missingCount_le : c.missingCount ≤ c.chainLength

/-- The counts of a coverage agree with one another, and `present` blocks are indexed. -/
structure AddsUp (present : Nat) (c : Coverage) : Prop where
  chainLength_eq : c.chainLength.toNat = c.latest.toNat + 1
  sum_length : (c.ranges.map (·.length.toNat)).sum = c.chainLength.toNat
  sum_indexedCount : (c.ranges.map (·.indexedCount.toNat)).sum = c.indexedCount.toNat
  indexedCount_eq : c.indexedCount.toNat = present
  isComplete_iff : c.isComplete = true ↔ present = c.latest.toNat + 1

end Coverage

/-! ## One range -/

namespace RangeCoverage

variable {r : RangeCoverage}

theorem toNat_length (hle : r.span.first ≤ r.span.last) :
    r.length.toNat = min r.span.size (UInt64.size - 1) := by
  have hnat := UInt64.le_iff_toNat_le.1 hle
  rw [length, toNat_saturatingSucc, UInt64.toNat_sub_of_le _ _ hle, Span.size,
    Nat.succ_sub hnat]

/-- What is not missing in a range is counted as indexed. -/
theorem toNat_indexedCount (hle : r.missing.length ≤ r.length.toNat) :
    r.indexedCount.toNat + r.missing.length = r.length.toNat := by
  have hword : (UInt64.ofNat r.missing.length).toNat = r.missing.length :=
    Block.toNat_ofNat_of_le hle
  rw [indexedCount, UInt64.toNat_sub_of_le _ _ (UInt64.le_iff_toNat_le.2 (by rwa [hword])), hword]
  exact Nat.sub_add_cancel hle

end RangeCoverage

namespace Coverage

variable {c : Coverage}

theorem sum_length_missing (c : Coverage) :
    (c.ranges.map (·.missing.length)).sum = c.missing.length := by
  rw [missing, List.length_flatMap]

/-- The ranges have what is missing and what is counted as indexed in them, and nothing else. -/
theorem NoUnderflow.sum_indexedCount_add (h : c.NoUnderflow) :
    (c.ranges.map (·.indexedCount.toNat)).sum + c.missing.length =
      (c.ranges.map (·.length.toNat)).sum := by
  rw [← sum_length_missing, ← List.sum_map_add]
  congr 1
  apply List.map_congr_left
  intro range hrange
  exact RangeCoverage.toNat_indexedCount (h.length_missing_le range hrange)

end Coverage

/-! ## All ranges of a chain -/

namespace Partition

variable (p : Partition) (indexed : Block → Bool)

/-- The buckets together have as many blocks as the chain. -/
theorem sum_size_spans : (p.spans.map Span.size).sum = p.items := by
  have hlength := congrArg List.length p.flatMap_blocks_spans
  simp only [List.length_flatMap, Span.length_blocks] at hlength
  exact hlength

theorem mem_ranges_coverageOf {range : RangeCoverage}
    (hrange : range ∈ (p.coverageOf indexed).ranges) :
    range.span ∈ p.spans ∧ range.missing = range.span.blocks.filter (!indexed ·) := by
  obtain ⟨span, hspan, rfl⟩ := List.mem_map.1 hrange
  exact ⟨hspan, rfl⟩

/-- No count goes below zero as long as the missing blocks fit a word. -/
theorem noUnderflow_coverageOf
    (hlength : (p.coverageOf indexed).missing.length < UInt64.size) :
    (p.coverageOf indexed).NoUnderflow where
  first_le_last range hrange :=
    (p.bounds_of_mem_spans (p.mem_ranges_coverageOf indexed hrange).1).1
  length_missing_le range hrange := by
    obtain ⟨hspan, hmissing⟩ := p.mem_ranges_coverageOf indexed hrange
    have hrangeAll : range.missing.length ≤ (p.coverageOf indexed).missing.length :=
      (List.sublist_flatten_of_mem (List.mem_map_of_mem hrange)).length_le
    have hspanAll : range.missing.length ≤ range.span.size := by
      rw [hmissing, ← Span.length_blocks]
      exact List.length_filter_le _ _
    rw [RangeCoverage.toNat_length (p.bounds_of_mem_spans hspan).1]
    exact Nat.le_min.2 ⟨hspanAll, Nat.le_pred_of_lt (hrangeAll.trans_lt hlength)⟩
  missingCount_eq := p.toNat_missingCount_coverageOf indexed hlength
  missingCount_le := p.missingCount_le_chainLength_coverageOf indexed hlength

/-- The blocks of the chain that are indexed and those that are missing are all of its blocks. -/
theorem card_add_length_missing {present : Finset Block}
    (hpresent : ∀ block, block ∈ present ↔ block ≤ p.total ∧ indexed block = true) :
    present.card + (p.coverageOf indexed).missing.length = p.items := by
  have hlist : present = ((Span.mk 0 p.total).blocks.filter indexed).toFinset := by
    ext block
    rw [List.mem_toFinset, List.mem_filter, Span.mem_blocks, Span.mem_zero_iff, hpresent]
  have hnodup : ((Span.mk 0 p.total).blocks.filter indexed).Nodup :=
    ((Span.pairwise_blocks _).imp UInt64.ne_of_lt).filter _
  have hsplit := List.length_eq_length_filter_add (l := (Span.mk 0 p.total).blocks) indexed
  rw [Span.length_blocks] at hsplit
  rw [hlist, List.toFinset_card_of_nodup hnodup, missing_coverageOf, ← hsplit]
  rfl

/-- The ranges of a chain whose length fits a word have as many blocks as the chain. -/
theorem sum_length_coverageOf (hitems : p.items < UInt64.size) :
    ((p.coverageOf indexed).ranges.map (·.length.toNat)).sum = p.items := by
  rw [← sum_size_spans, coverageOf, List.map_map]
  congr 1
  apply List.map_congr_left
  intro span hspan
  obtain ⟨hle, htotal⟩ := p.bounds_of_mem_spans hspan
  have hsize : span.size ≤ p.items :=
    (Nat.sub_le _ _).trans (Nat.succ_le_succ (UInt64.le_iff_toNat_le.1 htotal))
  exact (RangeCoverage.toNat_length hle).trans
    (Nat.min_eq_left (Nat.le_pred_of_lt (hsize.trans_lt hitems)))

/-- All counts agree when the length of the chain fits a word. -/
theorem addsUp_coverageOf (hitems : p.items < UInt64.size) {present : Finset Block}
    (hpresent : ∀ block, block ∈ present ↔ block ≤ p.total ∧ indexed block = true) :
    (p.coverageOf indexed).NoUnderflow ∧ (p.coverageOf indexed).AddsUp present.card := by
  have hlength : (p.coverageOf indexed).missing.length < UInt64.size :=
    (p.length_missing_coverageOf_le indexed).trans_lt hitems
  have hunderflow := p.noUnderflow_coverageOf indexed hlength
  have hchain : (p.coverageOf indexed).chainLength.toNat = p.items := by
    rw [toNat_chainLength_coverageOf, Nat.min_eq_left (Nat.le_sub_one_of_lt hitems)]
  have hsum := p.sum_length_coverageOf indexed hitems
  have hcard := p.card_add_length_missing indexed hpresent
  have hindexed := p.indexedCount_coverageOf indexed hlength
  rw [Nat.min_eq_left (Nat.le_sub_one_of_lt hitems)] at hindexed
  refine ⟨hunderflow, ?_⟩
  constructor
  case chainLength_eq => exact hchain
  case sum_length => exact hsum.trans hchain.symm
  case sum_indexedCount =>
    have hranges := hunderflow.sum_indexedCount_add
    omega
  case indexedCount_eq => omega
  case isComplete_iff =>
    rw [Coverage.isComplete, beq_iff_eq, ← UInt64.toNat_inj, hunderflow.missingCount_eq]
    change _ = 0 ↔ _ = p.items
    omega

/-- A chain that uses all blocks and has an indexed one counts one indexed block too few. -/
theorem indexedCount_coverageOf_top (hitems : p.items = UInt64.size) {present : Finset Block}
    (hpresent : ∀ block, block ∈ present ↔ block ≤ p.total ∧ indexed block = true)
    (hnonempty : present.Nonempty) :
    (p.coverageOf indexed).NoUnderflow ∧
      (p.coverageOf indexed).indexedCount.toNat + 1 = present.card := by
  have hcard := p.card_add_length_missing indexed hpresent
  have hpos := hnonempty.card_pos
  have hlength : (p.coverageOf indexed).missing.length < UInt64.size := by omega
  have hindexed := p.indexedCount_coverageOf indexed hlength
  rw [hitems, Nat.min_eq_right (Nat.sub_le _ _)] at hindexed
  exact ⟨p.noUnderflow_coverageOf indexed hlength, by omega⟩

end Partition

/-! ## After a sweep -/

namespace Coverage

variable {latest : Block} {count : UInt32}

/-- Which blocks of the chain were taken, as a set and as a test. -/
theorem mem_taken_iff (blocks : List Block) (block : Block) :
    block ∈ blocks.toFinset.filter (· ≤ latest) ↔
      block ≤ latest ∧ blocks.contains block = true := by
  rw [Finset.mem_filter, List.mem_toFinset, List.contains_iff_mem, and_comm]

/-- After a sweep over any blocks all counts agree when the length of the chain fits a word. -/
theorem ofBlocks_addsUp (hlatest : latest.toNat + 1 < UInt64.size) (hcount : 0 < count)
    (blocks : List Block) :
    ∃ c, ofBlocks latest blocks count = .ok c ∧ c.latest = latest ∧ c.NoUnderflow ∧
      c.AddsUp (blocks.toFinset.filter (· ≤ latest)).card := by
  let p : Partition := ⟨latest, count, hcount⟩
  exact ⟨_, ofBlocks_eq_coverageOf p blocks, rfl,
    p.addsUp_coverageOf _ hlatest (mem_taken_iff blocks)⟩

/-- After a sweep of a chain that uses all blocks one block too few is counted as indexed. -/
theorem ofBlocks_top (hlatest : latest.toNat + 1 = UInt64.size) (hcount : 0 < count)
    {blocks : List Block} (hblocks : blocks ≠ []) :
    ∃ c, ofBlocks latest blocks count = .ok c ∧ c.latest = latest ∧ c.NoUnderflow ∧
      c.indexedCount.toNat + 1 = blocks.toFinset.card := by
  let p : Partition := ⟨latest, count, hcount⟩
  -- No block stands above the last one there is.
  have hall : blocks.toFinset.filter (· ≤ latest) = blocks.toFinset := by
    apply Finset.filter_true_of_mem
    intro block _
    have hblock := block.toNat_lt_size
    rw [UInt64.le_iff_toNat_le]
    omega
  have hnonempty : (blocks.toFinset.filter (· ≤ latest)).Nonempty := by
    rwa [hall, List.toFinset_nonempty_iff]
  have htop := p.indexedCount_coverageOf_top _ hlatest (mem_taken_iff blocks) hnonempty
  rw [hall] at htop
  exact ⟨_, ofBlocks_eq_coverageOf p blocks, rfl, htop⟩

end Coverage
end ChainCoverage
