/-!
# Blocks and spans

A chain numbers its blocks from zero with 64-bit words.  A span is an inclusive
interval of block numbers, so the last representable block has a place in one.

Main definitions:

- `Block`: a block number.
- `Span`: the blocks from `first` to `last`, both included.
- `Span.size` and `Span.blocks`: how many blocks a span holds, and which.
-/

namespace ChainCoverage

/-- A block number. -/
abbrev Block := UInt64

/-- The inclusive interval of blocks from `first` to `last`. -/
structure Span where
  first : Block
  last : Block
deriving DecidableEq, Inhabited

namespace Span

/-- A block lies in a span when it is neither below its first nor above its last block. -/
instance : Membership Block Span where
  mem s b := s.first ≤ b ∧ b ≤ s.last

theorem mem_iff {s : Span} {b : Block} : b ∈ s ↔ s.first ≤ b ∧ b ≤ s.last :=
  Iff.rfl

instance (s : Span) (b : Block) : Decidable (b ∈ s) :=
  inferInstanceAs (Decidable (s.first ≤ b ∧ b ≤ s.last))

/-- Number of blocks in the span; none when its ends are inverted. -/
def size (s : Span) : Nat :=
  s.last.toNat + 1 - s.first.toNat

/-- The blocks of the span in ascending order. -/
def blocks (s : Span) : List Block :=
  (List.range' s.first.toNat s.size).map UInt64.ofNat

@[simp]
theorem length_blocks (s : Span) : s.blocks.length = s.size := by
  simp [blocks]

/-- A span of one block. -/
@[simp]
theorem blocks_singleton (block : Block) : (Span.mk block block).blocks = [block] := by
  simp [blocks, size]

/-- A span that starts one block earlier has that block in front. -/
theorem blocks_of_succ {s : Span} {block : Block} (hnext : block.toNat + 1 = s.first.toNat)
    (hle : s.first ≤ s.last) :
    (Span.mk block s.last).blocks = block :: s.blocks := by
  rw [UInt64.le_iff_toNat_le] at hle
  have hsize : (Span.mk block s.last).size = s.size + 1 := by
    simp only [size]
    omega
  rw [blocks, hsize, List.range'_succ, List.map_cons, hnext, UInt64.ofNat_toNat]
  rfl

/-- The span moved up by `offset` blocks. -/
def shift (s : Span) (offset : Block) : Span :=
  ⟨offset + s.first, offset + s.last⟩

end Span
end ChainCoverage
