import ChainCoverage.Partition

/-!
# Gaps cut at bucket ends

The blocks between the cursor of a sweep and the next block seen form a gap.  A
gap is cut into pieces that each lie within one bucket, by one step per bucket
and not per block.

Main definitions:

- `GapPiece`: consecutive blocks of one bucket.
- `Partition.cutGap`: the pieces of a gap.
- `Partition.gapBlocks`: the same gap block by block, each with its bucket.
-/

namespace ChainCoverage

/-- The blocks from `start` up to but not including `stop`, all in one bucket. -/
structure GapPiece where
  bucket : Nat
  start : Nat
  stop : Nat
deriving DecidableEq

namespace GapPiece

/-- The blocks of the piece in ascending order. -/
def blocks (piece : GapPiece) : List Block :=
  (List.range' piece.start (piece.stop - piece.start)).map UInt64.ofNat

end GapPiece

namespace Partition

/-- Cuts the blocks from `cursor` up to but not including `stop` at bucket ends.  It stops at a
block that no bucket holds. -/
def cutGap (p : Partition) (cursor stop : Nat) : List GapPiece :=
  if cursor < stop then
    match p.bucketOf? (.ofNat cursor) with
    | none => []
    | some index =>
      let pieceStop := min stop ((p.span index).last.toNat + 1)
      if cursor < pieceStop then
        ⟨index, cursor, pieceStop⟩ :: p.cutGap pieceStop stop
      else
        []
  else
    []
termination_by stop - cursor
decreasing_by omega

/-- The blocks from `cursor` up to but not including `stop`, each with the index of its bucket. -/
def gapBlocks (p : Partition) (cursor stop : Nat) : List (Nat × Block) :=
  (List.range' cursor (stop - cursor)).filterMap fun n =>
    (p.bucketOf? (.ofNat n)).map (·, .ofNat n)

end Partition
end ChainCoverage
