/-!
# Service counters

The service counts what it measured and what it started.  Counters are words, so they start
again at zero past the largest word.

Main definitions:

- `Counters`: the four counts.
- `Counters.display`: the counts as lines of text.
-/

namespace ChainCoverage

/-- The counts of a service. -/
structure Counters where
  /-- Coverages that were measured. -/
  measured : UInt64
  /-- Coverages that were not, because the progress of the chain could not be read. -/
  unmeasured : UInt64
  /-- Worker tasks that were started. -/
  started : UInt64
  /-- Worker tasks that were not started. -/
  failed : UInt64
deriving DecidableEq

namespace Counters

/-- The counts of a fresh service. -/
def zero : Counters := ⟨0, 0, 0, 0⟩

/-- Counts a coverage that was measured. -/
def addMeasured (c : Counters) : Counters :=
  { c with measured := c.measured + 1 }

/-- Counts a coverage that was not measured. -/
def addUnmeasured (c : Counters) : Counters :=
  { c with unmeasured := c.unmeasured + 1 }

/-- Counts the tasks of one report. -/
def addTasks (c : Counters) (started failed : UInt64) : Counters :=
  { c with
    started := c.started + started
    failed := c.failed + failed }

/-- The counts as lines of text, each line ended. -/
def display (c : Counters) : String :=
  "Coverage Service Metrics Snapshot:\n" ++
    s!"  Reconciliations: {c.measured}\n" ++
    s!"  Failed reconciliations: {c.unmeasured}\n" ++
    s!"  Tasks dispatched: {c.started}\n" ++
    s!"  Tasks failed: {c.failed}\n"

end Counters
end ChainCoverage
