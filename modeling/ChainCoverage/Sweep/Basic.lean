import ChainCoverage.Coverage.Basic
import ChainCoverage.Sweep.Ascending
import ChainCoverage.Sweep.Gap
import Std.Data.TreeSet

/-!
# One forward sweep over a chain

A sweep takes the indexed blocks one at a time and records what it skips over as
missing, in the bucket that holds it.  Its cursor only moves forward.  A block
below the cursor has been passed already: either it was recorded as missing and
is now late, or it is a repeat.  Late blocks are set aside and leave the missing
blocks once, at the end.

The cursor is a `Nat`, because it may stand one past the largest block.

Main definitions:

- `Sweep`: buckets, recorded blocks, cursor, repeats and late blocks.
- `Sweep.visit`: takes one indexed block.
- `Sweep.conclude`: the coverage of the chain.
-/

namespace ChainCoverage

/-- The state of a forward sweep. -/
structure Sweep where
  /-- The buckets of the chain; their total is the chain's latest block. -/
  partition : Partition
  /-- Per bucket the blocks recorded as missing, late ones included. -/
  recorded : Array (Array Block)
  /-- The block expected next. -/
  cursor : Nat
  /-- How many blocks came again, as a word. -/
  repeats : UInt64
  /-- Blocks that were recorded as missing and came afterwards. -/
  late : Std.TreeSet Block

namespace Sweep

/-- The sweep before its first block. -/
def start (partition : Partition) : Sweep where
  partition := partition
  recorded := Array.replicate partition.size #[]
  cursor := 0
  repeats := 0
  late := ∅

/-- Exclusive end of the chain. -/
def stop (s : Sweep) : Nat :=
  s.partition.items

/-- Records a piece of a gap and moves the cursor behind it. -/
def recordPiece (s : Sweep) (piece : GapPiece) : Sweep :=
  { s with
    recorded := s.recorded.modify piece.bucket (· ++ piece.blocks)
    cursor := piece.stop }

/-- Records the blocks from the cursor up to but not including `stop` as missing. -/
def skipTo (s : Sweep) (stop : Nat) : Sweep :=
  (s.partition.cutGap s.cursor stop).foldl recordPiece s

/-- Records one block as missing in a bucket and moves the cursor behind it. -/
def recordBlock (s : Sweep) (entry : Nat × Block) : Sweep :=
  { s with
    recorded := s.recorded.modify entry.1 (·.push entry.2)
    cursor := entry.2.toNat + 1 }

/-- The same as `skipTo`, block by block. -/
def skipEachTo (s : Sweep) (stop : Nat) : Sweep :=
  (s.partition.gapBlocks s.cursor stop).foldl recordBlock s

/-- Whether a block is recorded as missing in the bucket at `index`. -/
def isRecorded (s : Sweep) (index : Nat) (block : Block) : Bool :=
  match s.recorded[index]? with
  | none => false
  | some blocks => Ascending.contains blocks block

/-- Moves the cursor behind a block that it has not passed yet. -/
def advance (s : Sweep) (block : Block) : Sweep :=
  { s.skipTo (min block.toNat s.stop) with cursor := block.toNat + 1 }

/-- Takes a block that the cursor has passed. -/
def lookBack (s : Sweep) (block : Block) : Sweep :=
  match s.partition.bucketOf? block with
  | none => s
  | some index =>
    if s.isRecorded index block && !s.late.contains block then
      { s with late := s.late.insert block }
    else
      { s with repeats := s.repeats + 1 }

/-- Takes one indexed block. -/
def visit (s : Sweep) (block : Block) : Sweep :=
  if s.cursor ≤ block.toNat then s.advance block else s.lookBack block

/-- Takes a page of indexed blocks, in its order. -/
def visitAll (s : Sweep) (page : List Block) : Sweep :=
  page.foldl visit s

@[simp]
theorem visitAll_nil (s : Sweep) : s.visitAll [] = s :=
  rfl

@[simp]
theorem visitAll_append (s : Sweep) (page next : List Block) :
    s.visitAll (page ++ next) = (s.visitAll page).visitAll next := by
  simp [visitAll]

/-- The recorded blocks that did not come late, as the coverage of the chain. -/
def coverage (s : Sweep) : Coverage :=
  let ranges := List.zipWith
    (fun span blocks => ⟨span, blocks.toList.filter (!s.late.contains ·)⟩)
    s.partition.spans s.recorded.toList
  { latest := s.partition.total
    ranges := ranges
    bucketWidth := s.partition.width
    missingCount := .ofNat (ranges.flatMap RangeCoverage.missing).length }

/-- Records the rest of the chain as missing and reads off its coverage. -/
def conclude (s : Sweep) : Coverage :=
  (s.skipTo s.stop).coverage

end Sweep
end ChainCoverage
