import ChainCoverage.Block

/-!
# Blocks of a span

A span stands for the list of its blocks.  The list is ascending and holds a block
exactly when the block lies in the span, so it is the only ascending list with these
members.

Main results:

- `Span.mem_blocks`: the members of the list of blocks.
- `Span.pairwise_blocks`: the list is strictly ascending.
-/

namespace ChainCoverage

/-- Every number up to some block is a block number. -/
theorem Block.toNat_ofNat_of_le {n : Nat} {bound : Block} (h : n ≤ bound.toNat) :
    (UInt64.ofNat n).toNat = n :=
  UInt64.toNat_ofNat_of_lt' (Nat.lt_of_le_of_lt h bound.toNat_lt_size)

/-- Words whose sum is a word are added like numbers. -/
theorem Block.toNat_add_of_lt {a b : Block} (hfits : a.toNat + b.toNat < UInt64.size) :
    (a + b).toNat = a.toNat + b.toNat :=
  (UInt64.toNat_add ..).trans (Nat.mod_eq_of_lt hfits)

/-- A block below another one has a next block. -/
theorem Block.toNat_add_one_of_lt {block bound : Block} (h : block < bound) :
    (block + 1).toNat = block.toNat + 1 := by
  have hlt := UInt64.lt_iff_toNat_lt.1 h
  have hbound := bound.toNat_lt_size
  exact toNat_add_of_lt (show block.toNat + 1 < UInt64.size by omega)

namespace Span

/-- The list of a span's blocks holds exactly the blocks in the span. -/
@[simp]
theorem mem_blocks {s : Span} {b : Block} : b ∈ s.blocks ↔ b ∈ s := by
  rw [mem_iff, UInt64.le_iff_toNat_le, UInt64.le_iff_toNat_le]
  constructor
  · intro hmem
    obtain ⟨n, hn, rfl⟩ := List.mem_map.1 hmem
    obtain ⟨hlow, hhigh⟩ := List.mem_range'_1.1 hn
    rw [size] at hhigh
    have hle : n ≤ s.last.toNat := by omega
    rw [Block.toNat_ofNat_of_le hle]
    exact ⟨hlow, hle⟩
  · rintro ⟨hlow, hhigh⟩
    refine List.mem_map.2 ⟨b.toNat, List.mem_range'_1.2 ⟨hlow, ?_⟩, UInt64.ofNat_toNat⟩
    rw [size]
    omega

/-- A chain has all blocks up to its latest one. -/
theorem mem_zero_iff {latest b : Block} : b ∈ Span.mk 0 latest ↔ b ≤ latest :=
  ⟨And.right, fun hle => ⟨Nat.zero_le _, hle⟩⟩

/-- The blocks of a span are strictly ascending. -/
theorem pairwise_blocks (s : Span) : s.blocks.Pairwise (· < ·) := by
  rw [blocks, List.pairwise_map]
  refine List.Pairwise.imp_of_mem ?_ List.pairwise_lt_range'
  intro m n hm hn hlt
  have hmle : m ≤ s.last.toNat := by
    have := List.mem_range'_1.1 hm
    rw [size] at this
    omega
  have hnle : n ≤ s.last.toNat := by
    have := List.mem_range'_1.1 hn
    rw [size] at this
    omega
  rwa [UInt64.lt_iff_toNat_lt, Block.toNat_ofNat_of_le hmle,
    Block.toNat_ofNat_of_le hnle]

end Span
end ChainCoverage
