import ChainCoverage.CommandLine.Command
import ChainCoverage.Proofs.CommandLine.BlockLanguage
import ChainCoverage.Run
import Mathlib.Data.Finset.Union

/-!
# What block arguments name

Block arguments are read one after another, and the first that names no blocks decides.
When all of them name blocks, the blocks of all arguments together are those that some
argument names, and their number counts a block as often as it is named.

Main definitions:

- `BlockArgument.span?`: the span that an argument stands for, if it stands for one.
- `BlockArgument.allBlocks` and `BlockArgument.totalSize`: the blocks that some arguments
  name, and how many they are with repetitions.

Main results:

- `Command.spansOf_of_exists_error`: one bad argument is enough for a failure.
- `Command.spansOf_of_not_exists_error`: the blocks of good arguments, and their number.
-/

namespace ChainCoverage
namespace BlockArgument

/-- The span that an argument stands for, if it stands for one. -/
def span? (argument : String) : Option Span :=
  (parse argument).toOption

/-- The blocks that an argument names. -/
def blocks (argument : String) : Finset Block :=
  (span? argument).elim ∅ fun span => span.blocks.toFinset

/-- The number of blocks from the first to the last block that an argument names. -/
def size (argument : String) : Nat :=
  (span? argument).elim 0 fun span => span.last.toNat - span.first.toNat + 1

/-- The blocks that some arguments name. -/
def allBlocks (arguments : List String) : Finset Block :=
  arguments.toFinset.biUnion blocks

/-- The number of blocks that some arguments name, with all repetitions. -/
def totalSize : List String → Nat
  | [] => 0
  | argument :: arguments => size argument + totalSize arguments

/-- An argument names the blocks of its span. -/
theorem blocks_of_parse {argument : String} {span : Span} (h : parse argument = .ok span) :
    blocks argument = span.blocks.toFinset := by
  rw [blocks, span?, h]
  rfl

/-- The size of an argument is that of its span. -/
theorem size_of_parse {argument : String} {span : Span} (h : parse argument = .ok span) :
    size argument = span.size := by
  have hle := UInt64.le_iff_toNat_le.1 (first_le_last_of_parse h)
  rw [size, span?, h, Span.size]
  change span.last.toNat - span.first.toNat + 1 = _
  omega

/-! ## Several arguments -/

@[simp]
theorem allBlocks_cons (argument : String) (arguments : List String) :
    allBlocks (argument :: arguments) = blocks argument ∪ allBlocks arguments := by
  rw [allBlocks, List.toFinset_cons, Finset.biUnion_insert, allBlocks]

@[simp]
theorem totalSize_cons (argument : String) (arguments : List String) :
    totalSize (argument :: arguments) = size argument + totalSize arguments :=
  rfl

/-- Printed spans name the blocks of the spans. -/
theorem allBlocks_map_format {spans : List Span} (hle : ∀ span ∈ spans, span.first ≤ span.last) :
    allBlocks (spans.map format) = (Run.blocks spans).toFinset := by
  induction spans with
  | nil => rfl
  | cons span spans ih =>
    have hparse := parse_format (hle span List.mem_cons_self)
    rw [List.map_cons, allBlocks_cons, blocks_of_parse hparse,
      ih fun other hmem => hle other (List.mem_cons_of_mem _ hmem), Run.blocks_cons,
      List.toFinset_append]

/-- Printed spans name as many blocks as the spans have. -/
theorem totalSize_map_format {spans : List Span} (hle : ∀ span ∈ spans, span.first ≤ span.last) :
    totalSize (spans.map format) = (Run.blocks spans).length := by
  induction spans with
  | nil => rfl
  | cons span spans ih =>
    have hparse := parse_format (hle span List.mem_cons_self)
    rw [List.map_cons, totalSize_cons, size_of_parse hparse,
      ih fun other hmem => hle other (List.mem_cons_of_mem _ hmem), Run.blocks_cons,
      List.length_append, Span.length_blocks]

/-- Printed spans are not refused. -/
theorem not_exists_error_map_format {spans : List Span}
    (hle : ∀ span ∈ spans, span.first ≤ span.last) :
    ¬ ∃ argument ∈ spans.map format, ∃ reason, parse argument = .error reason := by
  rintro ⟨argument, hmem, reason, hbad⟩
  obtain ⟨span, hspan, rfl⟩ := List.mem_map.1 hmem
  cases (parse_format (hle span hspan)).symm.trans hbad

end BlockArgument

namespace Command

open BlockArgument

theorem spansOf_cons (argument : String) (arguments : List String) :
    spansOf (argument :: arguments) =
      match BlockArgument.parse argument with
      | .error reason => .error (.blocks reason)
      | .ok span => (spansOf arguments).map (span :: ·) := by
  unfold spansOf
  rw [List.mapM_cons]
  cases BlockArgument.parse argument with
  | error reason => rfl
  | ok span =>
    change ((arguments.mapM BlockArgument.parse).bind _).mapError _ = _
    cases arguments.mapM BlockArgument.parse <;> rfl

/-- An argument that names no blocks, at any place, is a failure. -/
theorem spansOf_of_exists_error {arguments : List String}
    (h : ∃ argument ∈ arguments, ∃ reason, BlockArgument.parse argument = .error reason) :
    ∃ reason, spansOf arguments = .error (.blocks reason) := by
  induction arguments with
  | nil => simp at h
  | cons argument arguments ih =>
    rw [spansOf_cons]
    cases hargument : BlockArgument.parse argument with
    | error reason => exact ⟨reason, rfl⟩
    | ok span =>
      obtain ⟨reason, hrest⟩ := ih (by simpa [hargument] using h)
      exact ⟨reason, by rw [hrest]; rfl⟩

/-- Arguments that all name blocks name the blocks of their spans. -/
theorem spansOf_of_not_exists_error {arguments : List String}
    (h : ¬ ∃ argument ∈ arguments, ∃ reason, BlockArgument.parse argument = .error reason) :
    ∃ spans, spansOf arguments = .ok spans ∧ (blocksOf spans).toFinset = allBlocks arguments ∧
      (blocksOf spans).length = totalSize arguments := by
  induction arguments with
  | nil => exact ⟨[], rfl, rfl, rfl⟩
  | cons argument arguments ih =>
    cases hargument : BlockArgument.parse argument with
    | error reason => exact absurd ⟨argument, List.mem_cons_self, reason, hargument⟩ h
    | ok span =>
      have hrest : ¬ ∃ other ∈ arguments, ∃ reason, BlockArgument.parse other = .error reason :=
        fun ⟨other, hmem, hbad⟩ => h ⟨other, List.mem_cons_of_mem _ hmem, hbad⟩
      obtain ⟨spans, hspans, hblocks, hlength⟩ := ih hrest
      refine ⟨span :: spans, ?_, ?_, ?_⟩
      · rw [spansOf_cons, hargument, hspans]
        rfl
      · rw [blocksOf, List.flatMap_cons, List.toFinset_append, ← blocksOf, hblocks,
          allBlocks_cons, blocks_of_parse hargument]
      · rw [blocksOf, List.flatMap_cons, List.length_append, ← blocksOf, hlength, totalSize_cons,
          size_of_parse hargument, Span.length_blocks]

end Command
end ChainCoverage
