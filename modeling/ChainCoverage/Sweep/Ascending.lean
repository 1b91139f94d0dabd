import ChainCoverage.Block

/-!
# Search in ascending blocks

Membership in an ascending array of blocks, found by halving the part that is
left to search.

Main definitions:

- `Ascending.contains`: whether a block stands in the array.
-/

namespace ChainCoverage
namespace Ascending

/-- Searches the positions from `low` up to but not including `high`. -/
def containsWithin (blocks : Array Block) (block : Block) (low high : Nat) : Bool :=
  if low < high then
    let middle := low + (high - low) / 2
    match blocks[middle]? with
    | none => false
    | some found =>
      if found = block then
        true
      else if found < block then
        containsWithin blocks block (middle + 1) high
      else
        containsWithin blocks block low middle
  else
    false
termination_by high - low
decreasing_by all_goals omega

/-- Whether a block stands in an ascending array. -/
def contains (blocks : Array Block) (block : Block) : Bool :=
  containsWithin blocks block 0 blocks.size

end Ascending
end ChainCoverage
