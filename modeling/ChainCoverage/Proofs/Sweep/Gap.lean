import ChainCoverage.Proofs.Partition
import ChainCoverage.Sweep.Gap
import Mathlib.Data.List.Basic

/-!
# The pieces of a gap are the gap

Cutting a gap at bucket ends takes one step for each bucket.  The blocks of the pieces,
each with its bucket, are the blocks of the gap in their order, as long as the gap lies
within the chain.

Main results:

- `Partition.cutGap_of_lt`: the first piece of a gap that is not empty.
- `Partition.flatMap_entries_cutGap`: the pieces of a gap are the gap.
- `Partition.mem_gapBlocks`: the blocks of a gap with their buckets.
- `Partition.mem_gapIn`: one bucket's share of a gap.
-/

namespace ChainCoverage

namespace GapPiece

/-- The blocks of a piece, each with the piece's bucket. -/
def entries (piece : GapPiece) : List (Nat × Block) :=
  piece.blocks.map (piece.bucket, ·)

/-- A piece that stops one block later has that block at its end. -/
theorem blocks_succ {bucket start stop : Nat} (hle : start ≤ stop) :
    (GapPiece.mk bucket start (stop + 1)).blocks =
      (GapPiece.mk bucket start stop).blocks ++ [.ofNat stop] := by
  have hcount : stop + 1 - start = stop - start + 1 := by omega
  have hlast : start + (stop - start) = stop := by omega
  rw [blocks, hcount, List.range'_1_concat, hlast, List.map_append]
  rfl

end GapPiece

namespace Partition

variable (p : Partition)

/-! ## The gap block by block -/

/-- A gap cut in two. -/
theorem gapBlocks_append {cursor middle stop : Nat} (hlow : cursor ≤ middle)
    (hhigh : middle ≤ stop) :
    p.gapBlocks cursor middle ++ p.gapBlocks middle stop = p.gapBlocks cursor stop := by
  have hsize : stop - cursor = (middle - cursor) + (stop - middle) := by omega
  have hmiddle : middle = cursor + (middle - cursor) := by omega
  rw [gapBlocks, gapBlocks, gapBlocks, ← List.filterMap_append, hsize]
  congr 1
  rw [← List.range'_append_1, ← hmiddle]

/-- The gap holds the blocks from the cursor to its stop, each with the bucket that holds it. -/
theorem mem_gapBlocks {cursor stop : Nat} (hstop : stop ≤ UInt64.size) {index : Nat}
    {block : Block} :
    (index, block) ∈ p.gapBlocks cursor stop ↔
      p.bucketOf? block = some index ∧ cursor ≤ block.toNat ∧ block.toNat < stop := by
  constructor
  · intro hmem
    obtain ⟨n, hn, hentry⟩ := List.mem_filterMap.1 hmem
    obtain ⟨found, hfound, heq⟩ := Option.map_eq_some_iff.1 hentry
    obtain ⟨hlow, hhigh⟩ := List.mem_range'_1.1 hn
    cases heq
    have hlt : n < stop := by omega
    rw [UInt64.toNat_ofNat_of_lt' (Nat.lt_of_lt_of_le hlt hstop)]
    exact ⟨hfound, hlow, hlt⟩
  · rintro ⟨hbucket, hlow, hhigh⟩
    refine List.mem_filterMap.2 ⟨block.toNat, List.mem_range'_1.2 ⟨hlow, by omega⟩, ?_⟩
    rw [UInt64.ofNat_toNat, hbucket]
    rfl

/-- The blocks of a gap are strictly ascending. -/
theorem pairwise_gapBlocks {cursor stop : Nat} (hstop : stop ≤ UInt64.size) :
    (p.gapBlocks cursor stop).Pairwise (·.2 < ·.2) := by
  rw [gapBlocks, List.pairwise_filterMap]
  refine List.Pairwise.imp_of_mem ?_ List.pairwise_lt_range'
  intro m n hm hn hlt entry hentry entry' hentry'
  obtain ⟨_, _, rfl⟩ := Option.map_eq_some_iff.1 hentry
  obtain ⟨_, _, rfl⟩ := Option.map_eq_some_iff.1 hentry'
  have hn' := List.mem_range'_1.1 hn
  have hnlt : n < UInt64.size := by omega
  rw [UInt64.lt_iff_toNat_lt, UInt64.toNat_ofNat_of_lt' (Nat.lt_trans hlt hnlt),
    UInt64.toNat_ofNat_of_lt' hnlt]
  exact hlt

/-- Within one bucket the gap is a single piece. -/
theorem gapBlocks_eq_entries {index start stop : Nat} (hindex : index < p.size)
    (hstart : p.startAt index ≤ start) (hstop : stop ≤ p.startAt (index + 1)) :
    p.gapBlocks start stop = (GapPiece.mk index start stop).entries := by
  have hsize : p.startAt (index + 1) ≤ UInt64.size :=
    Nat.le_trans (p.startAt_le_items hindex) p.items_le
  rw [gapBlocks, GapPiece.entries, GapPiece.blocks, List.map_map, ← List.filterMap_eq_map]
  apply List.filterMap_congr
  intro n hn
  obtain ⟨hlow, hhigh⟩ := List.mem_range'_1.1 hn
  have hlt : n < p.startAt (index + 1) := by omega
  have hbucket : p.bucketOf? (.ofNat n) = some index := by
    rw [bucketOf?_eq_some_iff, UInt64.toNat_ofNat_of_lt' (Nat.lt_of_lt_of_le hlt hsize)]
    exact ⟨hindex, Nat.le_trans hstart hlow, hlt⟩
  rw [hbucket]
  rfl

/-- The blocks of a gap that one bucket holds, in their order. -/
def gapIn (p : Partition) (index cursor stop : Nat) : List Block :=
  ((p.gapBlocks cursor stop).filter (·.1 == index)).map Prod.snd

theorem mem_gapIn {index cursor stop : Nat} (hstop : stop ≤ UInt64.size) {block : Block} :
    block ∈ p.gapIn index cursor stop ↔
      p.bucketOf? block = some index ∧ cursor ≤ block.toNat ∧ block.toNat < stop := by
  rw [← p.mem_gapBlocks hstop, gapIn]
  simp

theorem pairwise_gapIn {index cursor stop : Nat} (hstop : stop ≤ UInt64.size) :
    (p.gapIn index cursor stop).Pairwise (· < ·) := by
  rw [gapIn, List.pairwise_map]
  exact (p.pairwise_gapBlocks hstop).filter _

/-! ## The gap piece by piece -/

theorem cutGap_of_le {cursor stop : Nat} (hle : stop ≤ cursor) : p.cutGap cursor stop = [] := by
  rw [cutGap, if_neg (Nat.not_lt.2 hle)]

/-- The first piece of a gap ends with its bucket or with the gap, whichever comes first. -/
theorem cutGap_of_lt {cursor stop : Nat} (hlt : cursor < stop) (hstop : stop ≤ p.items) :
    ∃ index < p.size, p.startAt index ≤ cursor ∧ cursor < p.startAt (index + 1) ∧
      p.cutGap cursor stop =
        ⟨index, cursor, min stop (p.startAt (index + 1))⟩ ::
          p.cutGap (min stop (p.startAt (index + 1))) stop := by
  have hle : cursor ≤ p.total.toNat := Nat.le_of_lt_succ (Nat.lt_of_lt_of_le hlt hstop)
  have hcursor : (UInt64.ofNat cursor).toNat = cursor := Block.toNat_ofNat_of_le hle
  cases hbucket : p.bucketOf? (.ofNat cursor) with
  | none =>
    have hpast := UInt64.lt_iff_toNat_lt.1 (p.bucketOf?_eq_none_iff.1 hbucket)
    omega
  | some index =>
    obtain ⟨hindex, hlow, hhigh⟩ := p.bucketOf?_eq_some_iff.1 hbucket
    rw [hcursor] at hlow hhigh
    refine ⟨index, hindex, hlow, hhigh, ?_⟩
    rw [cutGap, if_pos hlt, hbucket]
    simp only [p.toNat_last_span hindex]
    rw [if_pos (Nat.lt_min.2 ⟨hlt, hhigh⟩)]

/-- The pieces of a gap within the chain are the gap. -/
theorem flatMap_entries_cutGap {cursor stop : Nat} (hstop : stop ≤ p.items) :
    (p.cutGap cursor stop).flatMap GapPiece.entries = p.gapBlocks cursor stop := by
  by_cases hlt : cursor < stop
  · obtain ⟨index, hindex, hlow, hhigh, hcut⟩ := p.cutGap_of_lt hlt hstop
    have hpiece := p.gapBlocks_eq_entries hindex hlow (Nat.min_le_right stop _)
    have hrest : (p.cutGap (min stop (p.startAt (index + 1))) stop).flatMap GapPiece.entries =
        p.gapBlocks (min stop (p.startAt (index + 1))) stop :=
      flatMap_entries_cutGap hstop
    rw [hcut, List.flatMap_cons, hrest, ← hpiece]
    exact p.gapBlocks_append (by omega) (Nat.min_le_left stop _)
  · have hle : stop ≤ cursor := Nat.le_of_not_lt hlt
    rw [p.cutGap_of_le hle, gapBlocks, Nat.sub_eq_zero_of_le hle]
    rfl
termination_by stop - cursor
decreasing_by omega

/-- No piece is empty, and no piece ends behind the gap. -/
theorem start_lt_stop_of_mem_cutGap {cursor stop : Nat} {piece : GapPiece}
    (hmem : piece ∈ p.cutGap cursor stop) : piece.start < piece.stop ∧ piece.stop ≤ stop := by
  fun_induction p.cutGap cursor stop with
  | case1 => contradiction
  | case2 cursor hlt index hbucket pieceStop hpiece ih =>
    rcases List.mem_cons.1 hmem with rfl | hrest
    · exact ⟨hpiece, Nat.min_le_left _ _⟩
    · exact ih hrest
  | case3 => contradiction
  | case4 => contradiction

end Partition
end ChainCoverage
