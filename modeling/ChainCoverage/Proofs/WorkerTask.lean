import ChainCoverage.WorkerTask
import ChainCoverage.Proofs.Partition
import Mathlib.Data.List.Basic

/-!
# The range of a worker plan

A plan moves the buckets of a chain as long as its range up to the start of the range.  No
block number wraps around on the way, so the tasks tile the range like the buckets tile the
chain.

Main definitions:

- `WorkerTask.Tile`: tasks one after another that hold the blocks of a range.

Main results:

- `Span.blocks_shift`: the blocks of a span that is moved up.
- `workerPlan_eq_ok_iff`: when there is a plan, and which.
- `tile_of_workerPlan`: the tasks of a plan tile its range.
-/

namespace ChainCoverage

/-! ## Moved spans -/

namespace Span

variable {s : Span} {offset : Block} (hfits : offset.toNat + s.last.toNat < UInt64.size)
include hfits

theorem toNat_last_shift : (s.shift offset).last.toNat = offset.toNat + s.last.toNat :=
  Block.toNat_add_of_lt hfits

variable (hle : s.first ≤ s.last)
include hle

theorem toNat_first_shift : (s.shift offset).first.toNat = offset.toNat + s.first.toNat := by
  have hlt : offset.toNat + s.first.toNat < UInt64.size :=
    Nat.lt_of_le_of_lt (Nat.add_le_add_left (UInt64.le_iff_toNat_le.1 hle) _) hfits
  exact Block.toNat_add_of_lt hlt

/-- A span that is moved up to the last word at most is not empty. -/
theorem first_le_last_shift : (s.shift offset).first ≤ (s.shift offset).last := by
  rw [UInt64.le_iff_toNat_le, toNat_first_shift hfits hle, toNat_last_shift hfits]
  exact Nat.add_le_add_left (UInt64.le_iff_toNat_le.1 hle) _

/-- A span holds as many blocks wherever it is moved. -/
theorem size_shift : (s.shift offset).size = s.size := by
  rw [size, size, toNat_first_shift hfits hle, toNat_last_shift hfits]
  omega

/-- The blocks of a span move up with it. -/
theorem blocks_shift : (s.shift offset).blocks = s.blocks.map (offset + ·) := by
  rw [blocks, blocks, size_shift hfits hle, toNat_first_shift hfits hle, ← List.map_add_range',
    List.map_map, List.map_map]
  apply List.map_congr_left
  intro n _
  rw [Function.comp_apply, UInt64.ofNat_add, UInt64.ofNat_toNat, Function.comp_apply]

end Span

/-! ## Plans -/

/-- Tasks that tile the blocks from `first` to `last`: each has blocks, and one after another they
have all blocks of the range, each of them once. -/
structure WorkerTask.Tile (first last : Block) (tasks : List WorkerTask) : Prop where
  nonempty : ∀ task ∈ tasks, task.span.first ≤ task.span.last
  blocks : tasks.flatMap (·.span.blocks) = (Span.mk first last).blocks

namespace Partition

/-- The tasks for the blocks of a chain as long as a partition, moved up. -/
def tasks (p : Partition) (first : Block) (options : TaskOptions) : List WorkerTask :=
  p.spans.map fun span => ⟨span.shift first, options⟩

variable (p : Partition)

@[simp]
theorem length_tasks (first : Block) (options : TaskOptions) :
    (p.tasks first options).length = p.size := by
  rw [tasks, List.length_map, length_spans]

/-- All tasks carry the same options. -/
theorem options_of_mem_tasks {first : Block} {options : TaskOptions} {task : WorkerTask}
    (htask : task ∈ p.tasks first options) : task.options = options := by
  obtain ⟨span, _, rfl⟩ := List.mem_map.1 htask
  rfl

/-- The tasks tile the moved chain. -/
theorem tile_tasks {first : Block} (hfits : first.toNat + p.total.toNat < UInt64.size)
    (options : TaskOptions) :
    WorkerTask.Tile first (first + p.total) (p.tasks first options) := by
  have hspans : ∀ span ∈ p.spans, first.toNat + span.last.toNat < UInt64.size := by
    intro span hspan
    have hlast := UInt64.le_iff_toNat_le.1 (p.bounds_of_mem_spans hspan).2
    omega
  constructor
  case nonempty =>
    intro task htask
    obtain ⟨span, hspan, rfl⟩ := List.mem_map.1 htask
    exact Span.first_le_last_shift (hspans span hspan) (p.bounds_of_mem_spans hspan).1
  case blocks =>
    have hchain : (Span.mk first (first + p.total)).blocks =
        (Span.mk 0 p.total).blocks.map (first + ·) := by
      have hmoved : (Span.mk 0 p.total).shift first = ⟨first, first + p.total⟩ := by
        rw [Span.shift, UInt64.add_zero]
      rw [← hmoved]
      exact Span.blocks_shift hfits (Nat.zero_le _)
    rw [hchain, ← p.flatMap_blocks_spans, List.map_flatMap, tasks, List.flatMap_map]
    apply List.flatMap_congr
    intro span hspan
    exact Span.blocks_shift (hspans span hspan) (p.bounds_of_mem_spans hspan).1

end Partition

variable {first last : Block} {workers : UInt32} {options : TaskOptions} {tasks : List WorkerTask}

/-- There is a plan exactly for some workers on a range that is not inverted. -/
theorem workerPlan_eq_ok_iff :
    workerPlan first last workers options = .ok tasks ↔
      first ≤ last ∧ ∃ hworkers : 0 < workers,
        tasks = (Partition.mk (last - first) workers hworkers).tasks first options := by
  rw [workerPlan]
  split
  · rename_i hinverted
    exact iff_of_false nofun fun h => absurd hinverted (UInt64.not_lt.2 h.1)
  · rename_i hle
    split
    · rename_i hnone
      refine iff_of_false nofun ?_
      rintro ⟨_, hworkers, _⟩
      exact UInt32.pos_iff_ne_zero.1 hworkers hnone
    · rename_i hsome
      have hworkers : 0 < workers := UInt32.pos_iff_ne_zero.2 hsome
      rw [(Partition.mk (last - first) workers hworkers).balancedSpans_eq]
      constructor
      · intro h
        exact ⟨UInt64.not_lt.1 hle, hworkers, (Except.ok.inj h).symm⟩
      · rintro ⟨_, _, rfl⟩
        rfl

/-- The tasks of a plan tile its range, and there are as many as workers and blocks allow. -/
theorem tile_of_workerPlan (hplan : workerPlan first last workers options = .ok tasks) :
    WorkerTask.Tile first last tasks ∧
      tasks.length = min workers.toNat (Span.mk first last).size := by
  obtain ⟨hle, hworkers, rfl⟩ := workerPlan_eq_ok_iff.1 hplan
  let p : Partition := ⟨last - first, workers, hworkers⟩
  have hdistance : p.total.toNat = last.toNat - first.toNat := UInt64.toNat_sub_of_le _ _ hle
  have hend : first + p.total = last := by
    rw [UInt64.add_comm]
    exact UInt64.sub_add_cancel last first
  have hbelow := UInt64.le_iff_toNat_le.1 hle
  have hfits : first.toNat + p.total.toNat < UInt64.size := by
    rw [hdistance, Nat.add_sub_cancel' hbelow]
    exact last.toNat_lt_size
  have htile := p.tile_tasks hfits options
  rw [hend] at htile
  refine ⟨htile, ?_⟩
  rw [p.length_tasks, p.size_eq_min, Partition.items, hdistance, Span.size]
  congr 1
  dsimp only
  omega

end ChainCoverage
