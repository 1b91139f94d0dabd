import ChainCoverage.Proofs.Partition.Words

/-!
# The bucket of a block

The index that arithmetic gives for a block and the bounds of the buckets undo each other: every
block of the chain lies in one bucket, and that is the one whose index is computed.

Main results:

- `Partition.exists_bucketOf?_of_le_total`: every block of the chain lies in one bucket.
- `Partition.exists_bucketOf?_le`: a block behind another lies in no bucket in front of it.
- `Partition.bucketOf?_iff_mem_span`: all of it, for every chain and every number of buckets.
-/

namespace ChainCoverage
namespace Partition

variable (p : Partition)

/-- Every block of the chain has a bucket, and lies in no other. -/
theorem exists_bucketOf?_of_le_total {block : Block} (hle : block ≤ p.total) :
    ∃ index < p.size, p.bucketOf? block = some index ∧ block ∈ p.span index ∧
      ∀ other < p.size, block ∈ p.span other → other = index := by
  have hsome : p.bucketOf? block ≠ none :=
    fun hnone => UInt64.not_lt.2 hle (p.bucketOf?_eq_none_iff.1 hnone)
  obtain ⟨index, hindex⟩ := Option.ne_none_iff_exists'.1 hsome
  have hsize : index < p.size := (p.bounds_of_bucketOf? hindex).1
  refine ⟨index, hsize, hindex, (p.mem_span hsize).2 hindex, ?_⟩
  intro other hother hmem
  have hfound := (p.mem_span hother).1 hmem
  exact Option.some.inj (hfound.symm.trans hindex)

/-- The buckets of two blocks stand in the order of the blocks. -/
theorem exists_bucketOf?_le {block later : Block} (hle : block ≤ later) {index : Nat}
    (hlater : p.bucketOf? later = some index) :
    ∃ earlier ≤ index, p.bucketOf? block = some earlier := by
  obtain ⟨_, _, hstop⟩ := p.bounds_of_bucketOf? hlater
  have htotal : block ≤ p.total := UInt64.le_trans hle (p.le_total_of_bucketOf? hlater)
  obtain ⟨earlier, _, hearlier, _⟩ := p.exists_bucketOf?_of_le_total htotal
  obtain ⟨_, hstart, _⟩ := p.bounds_of_bucketOf? hearlier
  refine ⟨earlier, ?_, hearlier⟩
  -- A bucket behind that of the later block would start behind both blocks.
  apply Nat.le_of_not_lt
  intro hlt
  have hnext : p.startAt (index + 1) ≤ p.startAt earlier := p.startAt_mono hlt
  rw [UInt64.le_iff_toNat_le] at hle
  omega

end Partition

/-- A block has a bucket exactly when it is not past the total.  Then its index is that of the one
bucket whose span holds the block, and it does not fall from one block to a later one.  All of it
is computed in machine words without a failure, and so without a division by zero. -/
theorem Partition.bucketOf?_iff_mem_span (total : Block) {count : UInt32} (hcount : 0 < count) :
    ∃ p words, Partition.ofCount total count = .ok p ∧
      BucketWords.new? total count = some words ∧
      (∀ block, words.bucketOf? block = some (p.bucketOf? block)) ∧
      (∀ block, p.bucketOf? block = none ↔ total < block) ∧
      (∀ block ≤ total, ∃ index < p.size, p.bucketOf? block = some index ∧
        block ∈ p.span index ∧ ∀ other < p.size, block ∈ p.span other → other = index) ∧
      (∀ index < p.size, ∀ block ∈ p.span index, p.bucketOf? block = some index) ∧
      ∀ block later index, block ≤ later → p.bucketOf? later = some index →
        ∃ earlier ≤ index, p.bucketOf? block = some earlier := by
  let p : Partition := ⟨total, count, hcount⟩
  refine ⟨p, p.words, p.ofCount_eq, p.new?_eq, p.bucketOf?_words, fun _ => p.bucketOf?_eq_none_iff,
    fun _ => p.exists_bucketOf?_of_le_total, fun _ hindex _ => (p.mem_span hindex).1, ?_⟩
  intro block later index hle
  exact p.exists_bucketOf?_le hle

/-- More buckets are asked for than there are blocks, so no bucket is narrow. -/
theorem Partition.bucketOf?_iff_mem_span_short_chain :
    (0 : UInt32) < 5 ∧ ∃ p, Partition.ofCount 2 5 = .ok p ∧ p.base = 0 ∧
      p.bucketOf? 3 = none ∧ ∃ index < p.size, p.bucketOf? 2 = some index ∧ 2 ∈ p.span index := by
  have hcount : (0 : UInt32) < 5 := by decide
  obtain ⟨p, _, hp, _, _, hnone, hsome, _⟩ := Partition.bucketOf?_iff_mem_span 2 hcount
  obtain ⟨index, hindex, hbucket, hmem, _⟩ := hsome 2 (by decide)
  refine ⟨hcount, p, hp, ?_, (hnone 3).2 (by decide), index, hindex, hbucket, hmem⟩
  cases hp
  decide

end ChainCoverage
