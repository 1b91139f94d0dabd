import ChainCoverage.Proofs.Partition.Words
import Mathlib.Data.List.Chain

/-!
# Buckets are even

The buckets of a chain start with its first block, each starts behind the one before it, and they
end with its last block.  The wide buckets come first and are one block wider than the others.

Main definitions:

- `Span.TileEvenly`: spans that cut up a range of blocks as evenly as possible.

Main results:

- `Partition.tileEvenly_spans`: the buckets cut up the chain evenly.
- `balancedSpans_tileEvenly`: they do so for every chain and every number of buckets, and no
  machine word is too small to compute them.
-/

namespace ChainCoverage

/-- Spans that cut up the blocks from `first` to `last` as evenly as possible, the wider ones
first. -/
structure Span.TileEvenly (first last : Block) (spans : List Span) : Prop where
  starts : spans.head?.map Span.first = some first
  ends : spans.getLast?.map Span.last = some last
  nonempty : ∀ span ∈ spans, span.first ≤ span.last
  contiguous : spans.IsChain fun span next => next.first.toNat = span.last.toNat + 1
  narrowing : spans.Pairwise fun span later => later.size ≤ span.size
  even : ∀ span ∈ spans, ∀ other ∈ spans, span.size ≤ other.size + 1

namespace Partition

variable (p : Partition)

@[simp]
theorem getElem_spans {index : Nat} (hindex : index < p.spans.length) :
    p.spans[index] = p.span index := by
  simp [spans, spansFrom]

/-- The first bucket is the one at index zero. -/
theorem head?_spans : p.spans.head? = some (p.span 0) := by
  rw [spans, spansFrom, List.head?_map, List.head?_range', if_neg (Nat.ne_of_gt p.size_pos),
    Option.map_some]

/-- The last bucket is the one at the last index. -/
theorem getLast?_spans : p.spans.getLast? = some (p.span (p.size - 1)) := by
  rw [spans, spansFrom, List.getLast?_map, List.getLast?_range',
    if_neg (Nat.ne_of_gt p.size_pos), Option.map_some, Nat.zero_add]

/-- A bucket is wider than another by one block at most. -/
theorem widthAt_le_succ (index other : Nat) : p.widthAt index ≤ p.widthAt other + 1 := by
  simp only [widthAt]
  split <;> split <;> omega

/-- The buckets cut up the chain evenly. -/
theorem tileEvenly_spans : Span.TileEvenly 0 p.total p.spans := by
  constructor
  case starts =>
    have hfirst := p.toNat_first_span p.size_pos
    rw [startAt_zero] at hfirst
    rw [p.head?_spans, Option.map_some]
    exact congrArg some (UInt64.toNat_inj.1 hfirst)
  case ends =>
    have hindex : p.size - 1 < p.size := Nat.sub_one_lt_of_lt p.size_pos
    have hlast := p.toNat_last_span hindex
    rw [Nat.sub_add_cancel p.size_pos, startAt_size, items] at hlast
    rw [p.getLast?_spans, Option.map_some]
    exact congrArg some (UInt64.toNat_inj.1 (Nat.succ.inj hlast))
  case nonempty =>
    intro span hspan
    exact (p.bounds_of_mem_spans hspan).1
  case contiguous =>
    rw [List.isChain_iff_getElem]
    intro index hnext
    rw [length_spans] at hnext
    rw [getElem_spans, getElem_spans, p.toNat_first_span hnext,
      p.toNat_last_span (Nat.lt_of_succ_lt hnext)]
  case narrowing =>
    rw [List.pairwise_iff_getElem]
    intro low high hlow hhigh hlt
    rw [length_spans] at hlow hhigh
    rw [getElem_spans, getElem_spans, p.size_span hlow, p.size_span hhigh]
    exact p.widthAt_anti (Nat.le_of_lt hlt)
  case even =>
    intro span hspan other hother
    obtain ⟨index, hindex, rfl⟩ := p.mem_spans_iff.1 hspan
    obtain ⟨index', hindex', rfl⟩ := p.mem_spans_iff.1 hother
    rw [p.size_span hindex, p.size_span hindex']
    exact p.widthAt_le_succ index index'

end Partition

/-- Every chain is cut up evenly into as many buckets as asked for, or one for each block when
there are fewer of these.  The width is that of the first bucket, as far as a word reaches, and
all of it is computed in machine words without a failure. -/
theorem balancedSpans_tileEvenly (total : Block) {count : UInt32} (hcount : 0 < count) :
    ∃ p words spans, Partition.ofCount total count = .ok p ∧
      balancedSpans total count = .ok spans ∧
      spans.length = min count.toNat (total.toNat + 1) ∧
      Span.TileEvenly 0 total spans ∧
      (∃ widest, spans.head? = some widest ∧
        p.width.toNat = min widest.size (UInt64.size - 1)) ∧
      BucketWords.new? total count = some words ∧
      words.size = spans.length ∧ words.width? = some p.width ∧
      ∀ index (hindex : index < spans.length), words.span? index = some spans[index] := by
  let p : Partition := ⟨total, count, hcount⟩
  refine ⟨p, p.words, p.spans, p.ofCount_eq, p.balancedSpans_eq, ?_, p.tileEvenly_spans,
    ⟨p.span 0, p.head?_spans, p.toNat_width⟩, p.new?_eq, ?_, p.width?_words, ?_⟩
  · rw [p.length_spans, p.size_eq_min, Partition.items]
  · rw [p.length_spans, Partition.words]
  · intro index hindex
    rw [p.getElem_spans]
    rw [p.length_spans] at hindex
    exact p.span?_words hindex

/-- The longest chain in a single bucket, which is wider than the largest word. -/
theorem balancedSpans_tileEvenly_longest :
    (0 : UInt32) < 1 ∧ ∃ spans, balancedSpans (-1) 1 = .ok spans ∧ spans.length = 1 ∧
      Span.TileEvenly 0 (-1) spans := by
  have hcount : (0 : UInt32) < 1 := by decide
  obtain ⟨_, _, spans, _, hspans, hlength, htile, _⟩ := balancedSpans_tileEvenly (-1) hcount
  exact ⟨hcount, spans, hspans, hlength, htile⟩

end ChainCoverage
