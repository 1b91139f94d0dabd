import ChainCoverage.Proofs.Coverage.Exact

/-!
# The counts of a coverage

The counts of a coverage are words.  The number of its blocks is written as the largest word
when it is one more than that; every other count is the number that it stands for.

Main results:

- `Partition.length_ranges_coverageOf`: a coverage has a range for each bucket.
- `Partition.indexedCount_coverageOf`: what is not missing is counted as indexed.
-/

namespace ChainCoverage

theorem toNat_saturatingSucc (n : UInt64) :
    (saturatingSucc n).toNat = min (n.toNat + 1) (UInt64.size - 1) := by
  have hlt := n.toNat_lt_size
  unfold saturatingSucc
  split
  · rename_i hmax
    subst hmax
    rfl
  · rename_i hne
    have hmax : n.toNat ≠ UInt64.size - 1 := fun heq => hne (UInt64.toNat_inj.1 heq)
    have hfits : n.toNat + 1 < UInt64.size := by omega
    rw [Nat.min_eq_left (by omega)]
    exact Block.toNat_add_of_lt hfits

namespace Partition

variable (p : Partition) (indexed : Block → Bool)

@[simp]
theorem latest_coverageOf : (p.coverageOf indexed).latest = p.total :=
  rfl

/-- A coverage has a range for each bucket. -/
@[simp]
theorem length_ranges_coverageOf : (p.coverageOf indexed).ranges.length = p.size := by
  rw [coverageOf, List.length_map, length_spans]

theorem length_missing_coverageOf_le : (p.coverageOf indexed).missing.length ≤ p.items := by
  rw [missing_coverageOf]
  exact (List.length_filter_le _ _).trans (Nat.le_of_eq (Span.length_blocks _))

theorem toNat_chainLength_coverageOf :
    (p.coverageOf indexed).chainLength.toNat = min p.items (UInt64.size - 1) :=
  toNat_saturatingSucc p.total

theorem toNat_missingCount_coverageOf
    (hlength : (p.coverageOf indexed).missing.length < UInt64.size) :
    (p.coverageOf indexed).missingCount.toNat = (p.coverageOf indexed).missing.length :=
  UInt64.toNat_ofNat_of_lt' hlength

/-- No more blocks are missing than the chain has, also when its length does not fit a word. -/
theorem missingCount_le_chainLength_coverageOf
    (hlength : (p.coverageOf indexed).missing.length < UInt64.size) :
    (p.coverageOf indexed).missingCount ≤ (p.coverageOf indexed).chainLength := by
  rw [UInt64.le_iff_toNat_le, p.toNat_missingCount_coverageOf indexed hlength,
    toNat_chainLength_coverageOf]
  exact Nat.le_min.2 ⟨p.length_missing_coverageOf_le indexed, Nat.le_pred_of_lt hlength⟩

/-- What is not missing is counted as indexed.  A chain that uses all blocks counts as one block
shorter than it is. -/
theorem indexedCount_coverageOf
    (hlength : (p.coverageOf indexed).missing.length < UInt64.size) :
    (p.coverageOf indexed).indexedCount.toNat + (p.coverageOf indexed).missing.length =
      min p.items (UInt64.size - 1) := by
  have hle := p.missingCount_le_chainLength_coverageOf indexed hlength
  rw [Coverage.indexedCount, UInt64.toNat_sub_of_le _ _ hle, toNat_chainLength_coverageOf,
    p.toNat_missingCount_coverageOf indexed hlength]
  refine Nat.sub_add_cancel ?_
  rwa [UInt64.le_iff_toNat_le, toNat_chainLength_coverageOf,
    p.toNat_missingCount_coverageOf indexed hlength] at hle

end Partition
end ChainCoverage
