import ChainCoverage.Block

/-!
# Runs of blocks

A list of blocks is folded into runs: a block that directly follows the block
before it belongs to the same run.  Nothing is lost, so any list, ascending or
not, is the concatenation of its runs.

Main definitions:

- `Run.ofBlocks`: the runs of a list, in its order.
- `Run.blocks`: the list that some runs stand for.

Main results:

- `Run.blocks_ofBlocks`: the blocks of the runs of a list are that list.
-/

namespace ChainCoverage
namespace Run

/-- Puts a block in front of a list of runs: it joins the first run when that starts at the
next block, and is a run of its own otherwise. -/
def join (block : Block) : List Span → List Span
  | [] => [⟨block, block⟩]
  | run :: rest =>
    if block.toNat + 1 = run.first.toNat then
      ⟨block, run.last⟩ :: rest
    else
      ⟨block, block⟩ :: run :: rest

/-- The runs of a list of blocks, in its order. -/
def ofBlocks (blocks : List Block) : List Span :=
  blocks.foldr join []

@[simp]
theorem ofBlocks_nil : ofBlocks [] = [] :=
  rfl

@[simp]
theorem ofBlocks_cons (block : Block) (blocks : List Block) :
    ofBlocks (block :: blocks) = join block (ofBlocks blocks) :=
  rfl

/-- The blocks of some runs, one run after another. -/
def blocks (runs : List Span) : List Block :=
  runs.flatMap Span.blocks

@[simp]
theorem blocks_nil : blocks [] = [] :=
  rfl

@[simp]
theorem blocks_cons (run : Span) (rest : List Span) :
    blocks (run :: rest) = run.blocks ++ blocks rest :=
  rfl

/-! ## No block is lost -/

/-- Joining a block keeps every run from ending below its start. -/
theorem first_le_last_of_mem_join {block : Block} {runs : List Span}
    (hruns : ∀ run ∈ runs, run.first ≤ run.last) :
    ∀ run ∈ join block runs, run.first ≤ run.last := by
  cases runs with
  | nil => simp [join]
  | cons head rest =>
    have hhead : head.first ≤ head.last := hruns head (by simp)
    have hrest : ∀ run ∈ rest, run.first ≤ run.last :=
      fun run hmem => hruns run (by simp [hmem])
    intro run hmem
    rw [join] at hmem
    split at hmem
    · rename_i hnext
      rcases List.mem_cons.1 hmem with rfl | htail
      · rw [UInt64.le_iff_toNat_le] at hhead ⊢
        have hstart : block.toNat ≤ head.first.toNat := by omega
        exact Nat.le_trans hstart hhead
      · exact hrest run htail
    · rcases List.mem_cons.1 hmem with rfl | htail
      · exact UInt64.le_refl block
      · exact hruns run htail

/-- No run of a list ends below its start. -/
theorem first_le_last_of_mem_ofBlocks {blocks : List Block} :
    ∀ run ∈ ofBlocks blocks, run.first ≤ run.last := by
  induction blocks with
  | nil => simp
  | cons block rest ih =>
    rw [ofBlocks_cons]
    exact first_le_last_of_mem_join ih

/-- Joining a block puts it in front of the blocks. -/
theorem blocks_join {block : Block} {runs : List Span}
    (hruns : ∀ run ∈ runs, run.first ≤ run.last) :
    blocks (join block runs) = block :: blocks runs := by
  cases runs with
  | nil => simp [join]
  | cons head rest =>
    have hhead : head.first ≤ head.last := hruns head (by simp)
    rw [join]
    split
    · rename_i hnext
      rw [blocks_cons, Span.blocks_of_succ hnext hhead, blocks_cons, List.cons_append]
    · rw [blocks_cons, Span.blocks_singleton, List.singleton_append]

/-- The blocks of the runs of a list are that list. -/
theorem blocks_ofBlocks (list : List Block) : blocks (ofBlocks list) = list := by
  induction list with
  | nil => rfl
  | cons block rest ih =>
    rw [ofBlocks_cons, blocks_join first_le_last_of_mem_ofBlocks, ih]

end Run
end ChainCoverage
