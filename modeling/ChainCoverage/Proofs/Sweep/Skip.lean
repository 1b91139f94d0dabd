import ChainCoverage.Proofs.Sweep.Gap
import ChainCoverage.Sweep.Basic

/-!
# Skipping a gap

A sweep that skips a gap piece by piece leaves the state that skipping it block by block
leaves.  Each bucket's list gets the blocks of the gap that the bucket holds, behind what
stood there before, and nothing else changes but the cursor.

Main results:

- `Sweep.skipTo_eq_skipEachTo`: the bulk pass and the pass block by block agree.
- `Sweep.recordedAt_skipTo`: what a bucket's list holds after the gap.
-/

namespace ChainCoverage

/-- Modifying the same position twice is modifying it once. -/
theorem modify_modify {α : Type} (entries : Array α) (index : Nat) (f g : α → α) :
    (entries.modify index f).modify index g = entries.modify index (g ∘ f) := by
  apply Array.ext_getElem?
  intro position
  simp only [Array.getElem?_modify]
  split <;> simp

namespace Sweep

/-- The blocks recorded as missing in the bucket at `index`, in their order. -/
def recordedAt (s : Sweep) (index : Nat) : List Block :=
  (s.recorded.getD index #[]).toList

/-! ## Piece by piece and block by block -/

/-- A piece recorded at once is the piece recorded block by block. -/
theorem foldl_recordBlock_entries (s : Sweep) {bucket start stop : Nat} (hlt : start < stop)
    (hstop : stop ≤ UInt64.size) :
    (GapPiece.mk bucket start stop).entries.foldl recordBlock s =
      s.recordPiece ⟨bucket, start, stop⟩ := by
  induction stop with
  | zero => contradiction
  | succ stop ih =>
    have hle : start ≤ stop := Nat.le_of_lt_succ hlt
    have hnat : (UInt64.ofNat stop).toNat = stop := UInt64.toNat_ofNat_of_lt' hstop
    rw [GapPiece.entries, GapPiece.blocks_succ hle, List.map_append, List.foldl_append]
    rcases Nat.eq_or_lt_of_le hle with heq | hlt'
    · subst heq
      simp [GapPiece.blocks, recordBlock, recordPiece, hnat]
    · have hrest := ih hlt' (Nat.le_of_succ_le hstop)
      rw [GapPiece.entries] at hrest
      rw [hrest]
      simp only [List.map_singleton, List.foldl_cons, List.foldl_nil, recordBlock, recordPiece,
        GapPiece.blocks_succ hle, hnat, modify_modify]
      congr 2
      funext blocks
      apply Array.toList_inj.1
      simp

/-- The bulk pass over a gap within the chain and the pass block by block agree. -/
theorem skipTo_eq_skipEachTo (s : Sweep) {stop : Nat} (hstop : stop ≤ s.stop) :
    s.skipTo stop = s.skipEachTo stop := by
  rw [skipTo, skipEachTo, ← s.partition.flatMap_entries_cutGap hstop, List.foldl_flatMap]
  apply List.foldl_ext
  intro state piece hmem
  obtain ⟨hlt, hle⟩ := s.partition.start_lt_stop_of_mem_cutGap hmem
  have hsize : piece.stop ≤ UInt64.size :=
    Nat.le_trans hle (Nat.le_trans hstop s.partition.items_le)
  exact (state.foldl_recordBlock_entries hlt hsize).symm

/-! ## What stays -/

/-- Recording blocks changes neither the buckets nor the repeats nor the late blocks. -/
theorem foldl_recordBlock_frame (s : Sweep) (entries : List (Nat × Block)) :
    (entries.foldl recordBlock s).partition = s.partition ∧
      (entries.foldl recordBlock s).repeats = s.repeats ∧
      (entries.foldl recordBlock s).late = s.late ∧
      (entries.foldl recordBlock s).recorded.size = s.recorded.size := by
  induction entries generalizing s with
  | nil => exact ⟨rfl, rfl, rfl, rfl⟩
  | cons entry entries ih =>
    obtain ⟨hpartition, hrepeats, hlate, hsize⟩ := ih (s.recordBlock entry)
    refine ⟨hpartition, hrepeats, hlate, ?_⟩
    rw [List.foldl_cons, hsize, recordBlock, Array.size_modify]

section Frame

variable (s : Sweep) {stop : Nat} (hstop : stop ≤ s.stop)
include hstop

theorem partition_skipTo : (s.skipTo stop).partition = s.partition := by
  rw [s.skipTo_eq_skipEachTo hstop]
  exact (s.foldl_recordBlock_frame _).1

theorem repeats_skipTo : (s.skipTo stop).repeats = s.repeats := by
  rw [s.skipTo_eq_skipEachTo hstop]
  exact (s.foldl_recordBlock_frame _).2.1

theorem late_skipTo : (s.skipTo stop).late = s.late := by
  rw [s.skipTo_eq_skipEachTo hstop]
  exact (s.foldl_recordBlock_frame _).2.2.1

theorem size_recorded_skipTo : (s.skipTo stop).recorded.size = s.recorded.size := by
  rw [s.skipTo_eq_skipEachTo hstop]
  exact (s.foldl_recordBlock_frame _).2.2.2

end Frame

/-! ## What a bucket's list holds -/

/-- A recorded block stands behind the earlier ones in its own bucket's list. -/
theorem recordedAt_recordBlock (s : Sweep) (entry : Nat × Block) {index : Nat}
    (hindex : index < s.recorded.size) :
    (s.recordBlock entry).recordedAt index =
      s.recordedAt index ++ if entry.1 = index then [entry.2] else [] := by
  simp only [recordedAt, recordBlock, Array.getD_eq_getD_getElem?, Array.getElem?_modify,
    Array.getElem?_eq_getElem hindex]
  split <;> simp

theorem recordedAt_foldl_recordBlock (s : Sweep) (entries : List (Nat × Block)) {index : Nat}
    (hindex : index < s.recorded.size) :
    (entries.foldl recordBlock s).recordedAt index =
      s.recordedAt index ++ (entries.filter (·.1 == index)).map Prod.snd := by
  induction entries generalizing s with
  | nil => simp
  | cons entry entries ih =>
    have hsize : index < (s.recordBlock entry).recorded.size := by
      rwa [recordBlock, Array.size_modify]
    rw [List.foldl_cons, ih _ hsize, s.recordedAt_recordBlock entry hindex, List.append_assoc]
    congr 1
    by_cases hentry : entry.1 = index <;> simp [hentry]

/-- After a gap a bucket's list holds its share of the gap behind what it held before. -/
theorem recordedAt_skipTo (s : Sweep) {stop index : Nat} (hstop : stop ≤ s.stop)
    (hindex : index < s.recorded.size) :
    (s.skipTo stop).recordedAt index =
      s.recordedAt index ++ s.partition.gapIn index s.cursor stop := by
  rw [s.skipTo_eq_skipEachTo hstop]
  exact s.recordedAt_foldl_recordBlock _ hindex

end Sweep
end ChainCoverage
