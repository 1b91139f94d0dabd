import ChainCoverage.Sweep.Basic

/-!
# Coverage from reported blocks

The coverage of a chain is found by one sweep over the blocks reported as indexed,
which may come at once or page by page.  A page that cannot be read ends the
reading, and there is no partial coverage.

Main definitions:

- `Coverage.ofBlocks`: coverage from blocks in memory.
- `Coverage.ofPages`: coverage from a stream of pages, with the pages left unread.
-/

namespace ChainCoverage

/-- Number of buckets when none is asked for. -/
def defaultBuckets : UInt32 := 120

/-- Coverage of the blocks `0 … latest` when exactly `blocks` are reported as indexed. -/
def Coverage.ofBlocks (latest : Block) (blocks : List Block) (count : UInt32) :
    Except ParameterError Coverage :=
  (Partition.ofCount latest count).map fun partition =>
    ((Sweep.start partition).visitAll blocks).conclude

variable {ε : Type}

/-- One item of a stream: a page of blocks, or the failure that stands in its place. -/
abbrev PageItem (ε : Type) := Except ε (List Block)

namespace Sweep

/-- Takes pages until the first failure, and returns what is left of the stream. -/
def visitItems (s : Sweep) : List (PageItem ε) → Except ε Sweep × List (PageItem ε)
  | [] => (.ok s, [])
  | .ok page :: rest => (s.visitAll page).visitItems rest
  | .error failure :: rest => (.error failure, rest)

end Sweep

/-- Coverage of the blocks `0 … latest` from a stream of pages, with the part of the stream that
was not taken.  Nothing is taken when no bucket is asked for. -/
def Coverage.ofPages (latest : Block) (items : List (PageItem (Unavailable ε)))
    (count : UInt32) :
    Except (CoverageFailure ε) Coverage × List (PageItem (Unavailable ε)) :=
  match Partition.ofCount latest count with
  | .error reason => (.error (.invalid reason), items)
  | .ok partition =>
    match (Sweep.start partition).visitItems items with
    | (.error reason, rest) => (.error (.unavailable reason), rest)
    | (.ok sweep, rest) => (.ok sweep.conclude, rest)

end ChainCoverage
