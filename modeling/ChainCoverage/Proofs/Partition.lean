import ChainCoverage.Partition
import ChainCoverage.Proofs.Block

/-!
# Buckets tile the chain

The starts of the buckets rise from zero to the number of blocks, each bucket ends where
the next one starts, and the arithmetic that finds the bucket of a block agrees with
those bounds.

Main results:

- `Partition.size_eq_min`: how many buckets there are.
- `Partition.startAt_size`: behind the last bucket stands the end of the chain.
- `Partition.bucketOf?_eq_some_iff` and `Partition.bucketOf?_eq_none_iff`: the bucket of
  a block is the only one whose bounds hold it.
- `Partition.mem_span`: the blocks of a bucket.
- `Partition.flatMap_blocks_spans`: the buckets one after another are the chain.
-/

namespace ChainCoverage
namespace Partition

variable (p : Partition)

/-! ## Sizes -/

theorem requested_toNat_pos : 0 < p.requested.toNat :=
  UInt32.lt_iff_toNat_lt.1 p.requested_pos

theorem requested_ne_zero : p.requested ≠ 0 := by
  intro hzero
  have hpos := p.requested_pos
  rw [hzero] at hpos
  exact UInt32.lt_irrefl _ hpos

theorem items_pos : 0 < p.items :=
  Nat.succ_pos _

theorem items_le : p.items ≤ UInt64.size :=
  p.total.toNat_lt_size

/-- The narrow width times the buckets, and one more for each wide bucket, is the chain. -/
theorem base_mul_add_wide : p.requested.toNat * p.base + p.wide = p.items :=
  Nat.div_add_mod p.items p.requested.toNat

theorem wide_lt : p.wide < p.requested.toNat :=
  Nat.mod_lt _ p.requested_toNat_pos

theorem wide_le_size : p.wide ≤ p.size := by
  unfold size
  split
  · exact Nat.le_refl _
  · exact Nat.le_of_lt p.wide_lt

/-- There is at least one bucket. -/
theorem size_pos : 0 < p.size := by
  have htotal := p.base_mul_add_wide
  have hitems := p.items_pos
  unfold size
  split
  · rename_i hbase
    rw [hbase, Nat.mul_zero] at htotal
    omega
  · exact p.requested_toNat_pos

/-- There are as many buckets as asked for, or one for each block when there are fewer of these. -/
theorem size_eq_min : p.size = min p.requested.toNat p.items := by
  unfold size
  split
  · rename_i hbase
    have hlt : p.items < p.requested.toNat :=
      (Nat.div_eq_zero_iff_lt p.requested_toNat_pos).1 hbase
    rw [wide, Nat.mod_eq_of_lt hlt, Nat.min_eq_right (Nat.le_of_lt hlt)]
  · rename_i hbase
    have hle : p.requested.toNat ≤ p.items :=
      Nat.le_of_not_lt fun hlt => hbase (Nat.div_eq_of_lt hlt)
    rw [Nat.min_eq_left hle]

/-- Every bucket holds a block. -/
theorem widthAt_pos {index : Nat} (hindex : index < p.size) : 0 < p.widthAt index := by
  unfold widthAt
  split
  · exact Nat.succ_pos _
  · rename_i hnarrow
    unfold size at hindex
    split at hindex
    · exact absurd hindex hnarrow
    · rename_i hbase
      exact Nat.pos_of_ne_zero hbase

/-! ## Starts -/

@[simp]
theorem startAt_zero : p.startAt 0 = 0 := by
  simp [startAt]

/-- A bucket ends where the next one starts. -/
theorem startAt_succ (index : Nat) : p.startAt (index + 1) = p.startAt index + p.widthAt index := by
  simp only [startAt, widthAt, Nat.succ_mul]
  split <;> omega

/-- Behind the last bucket stands the end of the chain. -/
theorem startAt_size : p.startAt p.size = p.items := by
  have htotal := p.base_mul_add_wide
  have hwide := p.wide_lt
  rw [startAt, Nat.min_eq_right p.wide_le_size, size]
  split
  · rename_i hbase
    rw [hbase, Nat.mul_zero] at htotal ⊢
    exact htotal
  · exact htotal

theorem startAt_mono {low high : Nat} (hle : low ≤ high) : p.startAt low ≤ p.startAt high := by
  induction hle with
  | refl => exact Nat.le_refl _
  | step _ ih =>
    rw [startAt_succ]
    omega

/-- Starts are strictly ascending up to the end of the chain. -/
theorem startAt_lt_startAt {low high : Nat} (hlt : low < high) (hhigh : high ≤ p.size) :
    p.startAt low < p.startAt high := by
  have hpos := p.widthAt_pos (Nat.lt_of_lt_of_le hlt hhigh)
  have hnext : p.startAt (low + 1) ≤ p.startAt high := p.startAt_mono hlt
  rw [startAt_succ] at hnext
  omega

theorem startAt_le_items {index : Nat} (hindex : index ≤ p.size) : p.startAt index ≤ p.items :=
  Nat.le_trans (p.startAt_mono hindex) (Nat.le_of_eq p.startAt_size)

/-- At most one bucket has a block between its start and the next one's. -/
theorem eq_of_startAt_le_lt {low high n : Nat} (hlow : p.startAt low ≤ n)
    (hlow' : n < p.startAt (low + 1)) (hhigh : p.startAt high ≤ n)
    (hhigh' : n < p.startAt (high + 1)) : low = high := by
  rcases Nat.lt_trichotomy low high with hlt | heq | hgt
  · have hnext : p.startAt (low + 1) ≤ p.startAt high := p.startAt_mono hlt
    omega
  · exact heq
  · have hnext : p.startAt (high + 1) ≤ p.startAt low := p.startAt_mono hgt
    omega

/-! ## The bucket of a block -/

theorem bucketOf?_eq_none_iff {block : Block} : p.bucketOf? block = none ↔ p.total < block := by
  unfold bucketOf?
  split
  · rename_i hpast
    exact ⟨fun _ => hpast, fun _ => rfl⟩
  · rename_i hwithin
    split <;> simp [hwithin]

/-- The wide buckets hold the blocks below `wideEnd`, and the division finds them there. -/
theorem startAt_div_of_lt_wideEnd {n : Nat} (hn : n < p.wideEnd) :
    n / (p.base + 1) < p.size ∧ p.startAt (n / (p.base + 1)) ≤ n ∧
      n < p.startAt (n / (p.base + 1) + 1) := by
  have hindex : n / (p.base + 1) < p.wide := Nat.div_lt_of_lt_mul (by rwa [Nat.mul_comm])
  have hdiv := Nat.div_add_mod n (p.base + 1)
  have hmod := Nat.mod_lt n (Nat.add_one_pos p.base)
  rw [Nat.mul_comm, Nat.mul_succ] at hdiv
  refine ⟨Nat.lt_of_lt_of_le hindex p.wide_le_size, ?_, ?_⟩
  · rw [startAt, Nat.min_eq_left (Nat.le_of_lt hindex)]
    omega
  · rw [startAt_succ, startAt, widthAt, if_pos hindex, Nat.min_eq_left (Nat.le_of_lt hindex)]
    omega

/-- The wide buckets end where the bucket behind them starts. -/
theorem wideEnd_eq_startAt : p.wideEnd = p.startAt p.wide := by
  rw [wideEnd, startAt, Nat.min_self, Nat.mul_succ]

/-- A chain that goes on behind `wideEnd` has narrow buckets, and these are not empty. -/
theorem base_pos_of_wideEnd_le {n : Nat} (hn : p.wideEnd ≤ n) (hitems : n < p.items) :
    0 < p.base := by
  have htotal := p.base_mul_add_wide
  apply Nat.pos_of_ne_zero
  intro hzero
  rw [wideEnd, hzero] at hn
  rw [hzero, Nat.mul_zero] at htotal
  omega

/-- Behind `wideEnd` the buckets are narrow; a chain that short of blocks that narrow buckets
are empty ends there. -/
theorem startAt_div_of_wideEnd_le {n : Nat} (hn : p.wideEnd ≤ n) (hitems : n < p.items) :
    p.wide + (n - p.wideEnd) / p.base < p.size ∧
      p.startAt (p.wide + (n - p.wideEnd) / p.base) ≤ n ∧
      n < p.startAt (p.wide + (n - p.wideEnd) / p.base + 1) := by
  have hwideEnd : p.wideEnd = p.wide * p.base + p.wide := by
    rw [wideEnd, Nat.mul_succ]
  have hbase : 0 < p.base := p.base_pos_of_wideEnd_le hn hitems
  have hdiv := Nat.div_add_mod (n - p.wideEnd) p.base
  have hmod := Nat.mod_lt (n - p.wideEnd) hbase
  rw [Nat.mul_comm] at hdiv
  have hstart : p.startAt (p.wide + (n - p.wideEnd) / p.base) =
      p.wideEnd + (n - p.wideEnd) / p.base * p.base := by
    rw [startAt, Nat.min_eq_right (Nat.le_add_right _ _), Nat.add_mul, hwideEnd]
    omega
  have hnarrow : ¬ p.wide + (n - p.wideEnd) / p.base < p.wide :=
    Nat.not_lt.2 (Nat.le_add_right _ _)
  refine ⟨?_, ?_, ?_⟩
  · apply Nat.lt_of_not_le
    intro hle
    have hmono := p.startAt_mono hle
    rw [startAt_size, hstart] at hmono
    omega
  · rw [hstart]
    omega
  · rw [startAt_succ, hstart, widthAt, if_neg hnarrow]
    omega

/-- The bucket found for a block is a bucket whose bounds hold the block. -/
theorem bounds_of_bucketOf? {block : Block} {index : Nat} (h : p.bucketOf? block = some index) :
    index < p.size ∧ p.startAt index ≤ block.toNat ∧ block.toNat < p.startAt (index + 1) := by
  unfold bucketOf? at h
  split at h
  · contradiction
  · rename_i hwithin
    have hitems : block.toNat < p.items :=
      Nat.lt_succ_of_le (UInt64.le_iff_toNat_le.1 (UInt64.not_lt.1 hwithin))
    split at h
    · rename_i hwide
      cases h
      exact p.startAt_div_of_lt_wideEnd hwide
    · rename_i hnarrow
      cases h
      exact p.startAt_div_of_wideEnd_le (Nat.le_of_not_lt hnarrow) hitems

/-- The bucket of a block is the only one whose bounds hold it. -/
theorem bucketOf?_eq_some_iff {block : Block} {index : Nat} :
    p.bucketOf? block = some index ↔
      index < p.size ∧ p.startAt index ≤ block.toNat ∧ block.toNat < p.startAt (index + 1) := by
  constructor
  · exact p.bounds_of_bucketOf?
  · rintro ⟨hsize, hlow, hhigh⟩
    cases hfound : p.bucketOf? block with
    | none =>
      have hpast := UInt64.lt_iff_toNat_lt.1 (p.bucketOf?_eq_none_iff.1 hfound)
      have hend : p.startAt (index + 1) ≤ p.items := p.startAt_le_items hsize
      rw [items] at hend
      omega
    | some found =>
      obtain ⟨_, hlow', hhigh'⟩ := p.bounds_of_bucketOf? hfound
      rw [p.eq_of_startAt_le_lt hlow' hhigh' hlow hhigh]

/-- A block with a bucket does not stand past the total. -/
theorem le_total_of_bucketOf? {block : Block} {index : Nat}
    (hbucket : p.bucketOf? block = some index) : block ≤ p.total := by
  apply UInt64.not_lt.1
  intro hpast
  rw [p.bucketOf?_eq_none_iff.2 hpast] at hbucket
  contradiction

/-! ## Spans -/

/-- The first block of a bucket is its start. -/
theorem toNat_first_span {index : Nat} (hindex : index < p.size) :
    (p.span index).first.toNat = p.startAt index := by
  have hlt := p.startAt_lt_startAt hindex (Nat.le_refl _)
  rw [startAt_size, items] at hlt
  exact Block.toNat_ofNat_of_le (Nat.le_of_lt_succ hlt)

/-- The last block of a bucket stands before the start of the next one. -/
theorem toNat_last_span {index : Nat} (hindex : index < p.size) :
    (p.span index).last.toNat + 1 = p.startAt (index + 1) := by
  have hpos := p.widthAt_pos hindex
  have hend : p.startAt (index + 1) ≤ p.items := p.startAt_le_items hindex
  rw [startAt_succ, items] at hend
  have hle : p.startAt index + p.widthAt index - 1 ≤ p.total.toNat := by omega
  rw [span, Block.toNat_ofNat_of_le hle, startAt_succ]
  omega

theorem size_span {index : Nat} (hindex : index < p.size) :
    (p.span index).size = p.widthAt index := by
  rw [Span.size, p.toNat_first_span hindex, p.toNat_last_span hindex, startAt_succ]
  omega

/-- A block lies in a bucket's span exactly when that is the bucket found for it. -/
theorem mem_span {index : Nat} (hindex : index < p.size) {block : Block} :
    block ∈ p.span index ↔ p.bucketOf? block = some index := by
  have hlast := p.toNat_last_span hindex
  rw [bucketOf?_eq_some_iff, Span.mem_iff, UInt64.le_iff_toNat_le, UInt64.le_iff_toNat_le,
    p.toNat_first_span hindex]
  omega

/-- The spans are those of the buckets. -/
theorem mem_spans_iff {span : Span} : span ∈ p.spans ↔ ∃ index < p.size, p.span index = span := by
  simp [spans, spansFrom]

/-- No bucket is empty, and none ends past the total. -/
theorem bounds_of_mem_spans {span : Span} (hspan : span ∈ p.spans) :
    span.first ≤ span.last ∧ span.last ≤ p.total := by
  obtain ⟨index, hindex, rfl⟩ := p.mem_spans_iff.1 hspan
  have hpos := p.widthAt_pos hindex
  have hend : p.startAt (index + 1) ≤ p.items := p.startAt_le_items hindex
  have hlast := p.toNat_last_span hindex
  rw [startAt_succ] at hend hlast
  rw [items] at hend
  rw [UInt64.le_iff_toNat_le, UInt64.le_iff_toNat_le, p.toNat_first_span hindex]
  omega

/-- The blocks of the first buckets are the blocks below the next start. -/
theorem flatMap_blocks_spansFrom {count : Nat} (hcount : count ≤ p.size) :
    (p.spansFrom 0 count).flatMap Span.blocks =
      (List.range' 0 (p.startAt count)).map UInt64.ofNat := by
  induction count with
  | zero => simp [spansFrom]
  | succ count ih =>
    have hindex : count < p.size := Nat.lt_of_succ_le hcount
    have hlast : p.spansFrom 0 (count + 1) = p.spansFrom 0 count ++ [p.span count] := by
      rw [spansFrom, List.range'_1_concat, List.map_append, spansFrom]
      simp
    rw [hlast, List.flatMap_append, ih (Nat.le_of_lt hindex), List.flatMap_singleton,
      Span.blocks, p.size_span hindex, p.toNat_first_span hindex, ← List.map_append, startAt_succ]
    congr 1
    rw [← List.range'_append_1, Nat.zero_add]

/-- The buckets one after another are the chain. -/
theorem flatMap_blocks_spans : p.spans.flatMap Span.blocks = (Span.mk 0 p.total).blocks := by
  rw [spans, p.flatMap_blocks_spansFrom (Nat.le_refl _), startAt_size]
  rfl

/-- A bucket is no wider than one in front of it. -/
theorem widthAt_anti {low high : Nat} (hle : low ≤ high) : p.widthAt high ≤ p.widthAt low := by
  simp only [widthAt]
  split <;> split <;> omega

/-- The width of a partition is the size of its first bucket, as far as a word reaches. -/
theorem toNat_width : p.width.toNat = min (p.span 0).size (UInt64.size - 1) := by
  rw [p.size_span p.size_pos, width]
  apply UInt64.toNat_ofNat_of_lt'
  exact Nat.lt_of_le_of_lt (Nat.min_le_right _ _) (by decide)

/-- The width of the first bucket is the width of the widest. -/
theorem exists_widest_span : ∃ widest ∈ p.spans, (∀ span ∈ p.spans, span.size ≤ widest.size) ∧
    p.width.toNat = min widest.size (UInt64.size - 1) := by
  refine ⟨p.span 0, p.mem_spans_iff.2 ⟨0, p.size_pos, rfl⟩, ?_, p.toNat_width⟩
  intro span hspan
  obtain ⟨index, hindex, rfl⟩ := p.mem_spans_iff.1 hspan
  rw [p.size_span hindex, p.size_span p.size_pos]
  exact p.widthAt_anti (Nat.zero_le index)

theorem ofCount_eq : ofCount p.total p.requested = .ok p :=
  dif_pos p.requested_pos

theorem balancedSpans_eq : balancedSpans p.total p.requested = .ok p.spans := by
  rw [balancedSpans, ofCount_eq]
  rfl

end Partition
end ChainCoverage
