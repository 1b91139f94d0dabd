import ChainCoverage.Failure

/-!
# Balanced buckets

The blocks `0 … total` are cut into contiguous buckets whose sizes differ by at
most one block, the wider buckets first.  With `items = total + 1` blocks over
`requested` buckets, the first `items % requested` buckets hold one block more
than `items / requested`.  When there are fewer blocks than requested buckets,
only the single-block buckets remain.

Counting is done in `Nat`, because `total + 1` need not fit a word.

Main definitions:

- `Partition`: a total and a positive number of buckets.
- `Partition.span`: the blocks of the bucket at an index.
- `Partition.bucketOf?`: the index of the bucket that holds a block, by arithmetic.
- `balancedSpans`: all spans in order.
-/

namespace ChainCoverage

/-- A balanced partition of the blocks `0 … total`. -/
structure Partition where
  total : Block
  requested : UInt32
  requested_pos : 0 < requested
deriving DecidableEq

namespace Partition

/-- The partition into `count` buckets, of which there must be at least one. -/
def ofCount (total : Block) (count : UInt32) : Except ParameterError Partition :=
  if h : 0 < count then .ok ⟨total, count, h⟩ else .error .noBuckets

/-- Number of blocks that are partitioned. -/
def items (p : Partition) : Nat :=
  p.total.toNat + 1

/-- Size of the narrower buckets; zero when every bucket is a wide one. -/
def base (p : Partition) : Nat :=
  p.items / p.requested.toNat

/-- Number of leading buckets that hold one block more than `base`. -/
def wide (p : Partition) : Nat :=
  p.items % p.requested.toNat

/-- Number of buckets. -/
def size (p : Partition) : Nat :=
  if p.base = 0 then p.wide else p.requested.toNat

/-- Whether there is no bucket at all. -/
def isEmpty (p : Partition) : Bool :=
  p.size == 0

/-- Number of blocks in the bucket at `index`. -/
def widthAt (p : Partition) (index : Nat) : Nat :=
  if index < p.wide then p.base + 1 else p.base

/-- First block of the bucket at `index`. -/
def startAt (p : Partition) (index : Nat) : Nat :=
  index * p.base + min index p.wide

/-- The blocks of the bucket at `index`, for an index below `size`. -/
def span (p : Partition) (index : Nat) : Span :=
  ⟨.ofNat (p.startAt index), .ofNat (p.startAt index + p.widthAt index - 1)⟩

/-- Size of the widest bucket, at most the largest word. -/
def width (p : Partition) : UInt64 :=
  .ofNat (min (p.widthAt 0) (UInt64.size - 1))

/-- Exclusive end of the wide buckets. -/
def wideEnd (p : Partition) : Nat :=
  p.wide * (p.base + 1)

/-- Index of the bucket that holds a block, none for a block past the total. -/
def bucketOf? (p : Partition) (block : Block) : Option Nat :=
  if p.total < block then
    none
  else if block.toNat < p.wideEnd then
    some (block.toNat / (p.base + 1))
  else
    some (p.wide + (block.toNat - p.wideEnd) / p.base)

/-- The `count` spans from the bucket at `start` on. -/
def spansFrom (p : Partition) (start count : Nat) : List Span :=
  (List.range' start count).map p.span

/-- All spans in order. -/
def spans (p : Partition) : List Span :=
  p.spansFrom 0 p.size

/-- The last `count` spans in order, or all when there are fewer. -/
def lastSpans (p : Partition) (count : Nat) : List Span :=
  p.spansFrom (p.size - count) (min count p.size)

@[simp]
theorem length_spansFrom (p : Partition) (start count : Nat) :
    (p.spansFrom start count).length = count := by
  simp [spansFrom]

@[simp]
theorem length_spans (p : Partition) : p.spans.length = p.size := by
  simp [spans]

end Partition

/-- The spans of the balanced partition of `0 … total` into at most `count` buckets. -/
def balancedSpans (total : Block) (count : UInt32) : Except ParameterError (List Span) :=
  (Partition.ofCount total count).map Partition.spans

end ChainCoverage
