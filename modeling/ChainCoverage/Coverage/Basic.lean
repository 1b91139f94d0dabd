import ChainCoverage.Run

/-!
# Coverage

The indexing coverage of a chain at one point in time: per bucket the blocks that
are not indexed yet.  Counts are words.  A count of blocks that is one past the
largest word is written as the largest word.

Main definitions:

- `RangeCoverage`: one bucket with its missing blocks.
- `Coverage`: the buckets of the blocks `0 … latest`.
- `Coverage.runs`: the missing blocks as runs, not split where buckets end.
-/

namespace ChainCoverage

/-- One more, but never past the largest word. -/
def saturatingSucc (n : UInt64) : UInt64 :=
  if n = -1 then n else n + 1

/-- The share of `part` in `whole` in percent; an empty whole is complete. -/
def percentOf (part whole : UInt64) : Float :=
  if whole = 0 then 100.0 else part.toFloat * 100.0 / whole.toFloat

/-- A span together with the blocks in it that are not indexed yet. -/
structure RangeCoverage where
  span : Span
  missing : List Block
deriving DecidableEq

namespace RangeCoverage

/-- Number of blocks in the range. -/
def length (r : RangeCoverage) : UInt64 :=
  saturatingSucc (r.span.last - r.span.first)

/-- Number of blocks in the range that are not missing. -/
def indexedCount (r : RangeCoverage) : UInt64 :=
  r.length - .ofNat r.missing.length

/-- Share of the range that is indexed. -/
def percentIndexed (r : RangeCoverage) : Float :=
  percentOf r.indexedCount r.length

/-- The missing blocks as runs. -/
def runs (r : RangeCoverage) : List Span :=
  Run.ofBlocks r.missing

end RangeCoverage

/-- The coverage of the blocks `0 … latest`. -/
structure Coverage where
  latest : Block
  ranges : List RangeCoverage
  bucketWidth : UInt64
  missingCount : UInt64
deriving DecidableEq

namespace Coverage

/-- Number of blocks the chain has. -/
def chainLength (c : Coverage) : UInt64 :=
  saturatingSucc c.latest

/-- Number of blocks that are not missing. -/
def indexedCount (c : Coverage) : UInt64 :=
  c.chainLength - c.missingCount

/-- Share of the chain that is indexed. -/
def percentIndexed (c : Coverage) : Float :=
  percentOf c.indexedCount c.chainLength

/-- Whether no block is missing. -/
def isComplete (c : Coverage) : Bool :=
  c.missingCount == 0

/-- The missing blocks of all ranges in order. -/
def missing (c : Coverage) : List Block :=
  c.ranges.flatMap RangeCoverage.missing

/-- The missing blocks of all ranges as runs, not split where ranges end. -/
def runs (c : Coverage) : List Span :=
  Run.ofBlocks c.missing

end Coverage
end ChainCoverage
