import ChainCoverage.Paging
import ChainCoverage.Coverage.Measure

/-!
# Coverage of a network

The head of a network's chain comes from an oracle and its indexed blocks from a
paginated source.  The oracle is asked once, before the source, and neither is asked
when no bucket is wanted.  A failure of either ends the request; there is no partial
coverage.

Main definitions:

- `Oracle`: answers for the heads of chains.
- `NetworkCoverage`: the outcome with everything that was asked on the way.
- `measureNetwork`: the coverage of a network.
-/

namespace ChainCoverage

/-- Number of blocks in a page when none is asked for. -/
def defaultPageLimit : Nat := 1000

/-- Answers for the head of a network's chain, from a state that each answer may change. -/
abbrev Oracle (σ ε : Type) := String → σ → Except ε Block × σ

/-- The outcome of a coverage request, with what was asked of the oracle and the source. -/
structure NetworkCoverage (σ ε : Type) where
  asked : List String
  requests : List PageQuery
  outcome : Except (CoverageFailure ε) Coverage
  state : σ

/-- Asks for the head of a network's chain and sweeps over the blocks the source holds. -/
def measureNetwork {σ ε : Type} (oracle : Oracle σ ε) (source : Source σ ε)
    (network : String) (count : UInt32) (pageSize : Nat) (state : σ) :
    NetworkCoverage σ ε :=
  if count = 0 then
    ⟨[], [], .error (.invalid .noBuckets), state⟩
  else
    match oracle network state with
    | (.error failure, next) =>
      ⟨[network], [], .error (.unavailable (.reported failure)), next⟩
    | (.ok latest, next) =>
      let reading := readPages source network latest pageSize next
      ⟨[network], reading.requests, (Coverage.ofPages latest reading.items count).1,
        reading.source⟩

end ChainCoverage
