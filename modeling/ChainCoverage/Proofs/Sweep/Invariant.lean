import ChainCoverage.Proofs.Sweep.Ascending
import ChainCoverage.Proofs.Sweep.Skip
import Mathlib.Data.List.Induction

/-!
# What a sweep knows about the blocks it took

The cursor stands one past the largest block taken.  Every block below it that was not
ahead of the cursor when it came is recorded, and the recorded blocks that came
nevertheless are the late ones.  Each step of the sweep keeps this, for blocks in any
order, repeated or past the end of the chain.

Main results:

- `Sweep.Tracks`: the invariant.
- `Sweep.tracks_start` and `Sweep.Tracks.visit`: it holds at the start, and a step keeps it.
- `Sweep.tracks_visitAll`: it holds after any page.
-/

namespace ChainCoverage

/-! ## Blocks that lead a sequence -/

/-- One past the largest block of a sequence; zero when there is none. -/
def reach (visited : List Block) : Nat :=
  visited.foldl (fun bound block => max bound (block.toNat + 1)) 0

@[simp]
theorem reach_nil : reach [] = 0 :=
  rfl

theorem reach_concat (visited : List Block) (block : Block) :
    reach (visited ++ [block]) = max (reach visited) (block.toNat + 1) := by
  rw [reach, List.foldl_append]
  rfl

/-- The reach of a sequence is its least strict upper bound. -/
theorem reach_le_iff {visited : List Block} {n : Nat} :
    reach visited ≤ n ↔ ∀ block ∈ visited, block.toNat < n := by
  induction visited using List.reverseRecOn with
  | nil => simp
  | append_singleton visited last ih =>
    rw [reach_concat, Nat.max_le, ih]
    constructor
    · rintro ⟨hvisited, hlast⟩ block hmem
      rcases List.mem_append.1 hmem with hold | hnew
      · exact hvisited block hold
      · rw [List.mem_singleton.1 hnew]
        exact hlast
    · intro hall
      exact ⟨fun block hmem => hall block (List.mem_append_left _ hmem),
        hall last (List.mem_append_right _ (List.mem_singleton.2 rfl))⟩

theorem toNat_lt_reach {visited : List Block} {block : Block} (hmem : block ∈ visited) :
    block.toNat < reach visited :=
  reach_le_iff.1 (Nat.le_refl _) block hmem

/-- A block leads a sequence when at some place it is larger than all blocks before it. -/
def Leads (visited : List Block) (block : Block) : Prop :=
  ∃ before after, visited = before ++ block :: after ∧ ∀ earlier ∈ before, earlier < block

theorem Leads.mem {visited : List Block} {block : Block} (h : Leads visited block) :
    block ∈ visited := by
  obtain ⟨before, after, rfl, _⟩ := h
  simp

/-- A new last block leads when it is ahead of the sequence, and others lead as before. -/
theorem leads_concat_iff {visited : List Block} {last block : Block} :
    Leads (visited ++ [last]) block ↔
      Leads visited block ∨ block = last ∧ reach visited ≤ last.toNat := by
  constructor
  · rintro ⟨before, after, heq, hlead⟩
    rcases List.eq_nil_or_concat' after with rfl | ⟨after, last', rfl⟩
    · obtain ⟨rfl, hlast⟩ := List.append_inj' heq rfl
      cases hlast
      exact Or.inr ⟨rfl, reach_le_iff.2 fun earlier hmem =>
        UInt64.lt_iff_toNat_lt.1 (hlead earlier hmem)⟩
    · rw [← List.cons_append, ← List.append_assoc] at heq
      exact Or.inl ⟨before, after, (List.append_inj' heq rfl).1, hlead⟩
  · rintro (⟨before, after, rfl, hlead⟩ | ⟨rfl, hreach⟩)
    · exact ⟨before, after ++ [last], by simp, hlead⟩
    · exact ⟨visited, [], rfl, fun earlier hmem =>
        UInt64.lt_iff_toNat_lt.2 (reach_le_iff.1 hreach earlier hmem)⟩

namespace Sweep

/-! ## The invariant -/

/-- What the state of a sweep says about the blocks it took. -/
structure Tracks (p : Partition) (visited : List Block) (s : Sweep) : Prop where
  partition_eq : s.partition = p
  size_eq : s.recorded.size = p.size
  cursor_eq : s.cursor = reach visited
  ascending : ∀ index < p.size, (s.recordedAt index).Pairwise (· < ·)
  mem_recordedAt : ∀ index < p.size, ∀ block, block ∈ s.recordedAt index ↔
    p.bucketOf? block = some index ∧ block.toNat < reach visited ∧ ¬ Leads visited block
  mem_late : ∀ block, block ∈ s.late ↔
    block ∈ visited ∧ block ≤ p.total ∧ ¬ Leads visited block

/-- The search in a bucket's ascending list answers membership. -/
theorem isRecorded_eq_true_iff {s : Sweep} {index : Nat} {block : Block}
    (hasc : (s.recordedAt index).Pairwise (· < ·)) :
    s.isRecorded index block = true ↔ block ∈ s.recordedAt index := by
  rw [recordedAt, Array.getD_eq_getD_getElem?] at hasc ⊢
  unfold isRecorded
  cases hblocks : s.recorded[index]? with
  | none => simp
  | some blocks =>
    rw [hblocks] at hasc
    simpa using Ascending.contains_eq_true_iff hasc

theorem tracks_start (p : Partition) : Tracks p [] (start p) where
  partition_eq := rfl
  size_eq := Array.size_replicate
  cursor_eq := rfl
  ascending index hindex := by
    simp [recordedAt, start, hindex]
  mem_recordedAt index hindex block := by
    simp [recordedAt, start, hindex]
  mem_late block := by
    simp [start]

variable {p : Partition} {visited : List Block} {s : Sweep}

/-! ## A block ahead of the cursor -/

theorem Tracks.stop_eq (h : Tracks p visited s) : s.stop = p.items := by
  rw [stop, h.partition_eq]

/-- What a gap adds to a bucket's list stands behind what the list held. -/
theorem Tracks.recordedAt_skipTo (h : Tracks p visited s) {stop index : Nat}
    (hstop : stop ≤ p.items) (hindex : index < p.size) :
    (s.skipTo stop).recordedAt index =
      s.recordedAt index ++ p.gapIn index (reach visited) stop := by
  rw [← h.cursor_eq, ← h.partition_eq]
  exact s.recordedAt_skipTo (h.stop_eq ▸ hstop)
    (by rw [h.size_eq]; exact hindex)

theorem Tracks.ascending_skipTo (h : Tracks p visited s) {stop index : Nat}
    (hstop : stop ≤ p.items) (hindex : index < p.size) :
    ((s.skipTo stop).recordedAt index).Pairwise (· < ·) := by
  have hsize : stop ≤ UInt64.size := Nat.le_trans hstop p.items_le
  rw [h.recordedAt_skipTo hstop hindex, List.pairwise_append]
  refine ⟨h.ascending index hindex, p.pairwise_gapIn hsize, ?_⟩
  intro old hold new hnew
  have holdLt := ((h.mem_recordedAt index hindex old).1 hold).2.1
  have hnewLe := ((p.mem_gapIn hsize).1 hnew).2.1
  exact UInt64.lt_iff_toNat_lt.2 (Nat.lt_of_lt_of_le holdLt hnewLe)

/-- After a gap the list of a bucket holds its blocks that were recorded or skipped. -/
theorem Tracks.mem_recordedAt_skipTo (h : Tracks p visited s) {stop index : Nat}
    (hstop : stop ≤ p.items) (hindex : index < p.size) (block : Block) :
    block ∈ (s.skipTo stop).recordedAt index ↔ p.bucketOf? block = some index ∧
      (block.toNat < reach visited ∧ ¬ Leads visited block ∨
        reach visited ≤ block.toNat ∧ block.toNat < stop) := by
  rw [h.recordedAt_skipTo hstop hindex, List.mem_append, h.mem_recordedAt index hindex block,
    p.mem_gapIn (Nat.le_trans hstop p.items_le), and_or_left]

section Ahead

variable (h : Tracks p visited s) {block : Block} (hahead : s.cursor ≤ block.toNat)
include h hahead

theorem Tracks.reach_advance : reach (visited ++ [block]) = block.toNat + 1 := by
  have hcursor := h.cursor_eq
  rw [reach_concat]
  omega

/-- The blocks that are skipped are recorded, the block itself is not. -/
theorem Tracks.mem_recordedAt_advance {index : Nat} (hindex : index < p.size) (other : Block) :
    other ∈ (s.advance block).recordedAt index ↔
      p.bucketOf? other = some index ∧ other.toNat < block.toNat + 1 ∧
        ¬ Leads (visited ++ [block]) other := by
  have hcursor := h.cursor_eq
  have hstop := h.stop_eq
  have hle : min block.toNat s.stop ≤ p.items := hstop ▸ Nat.min_le_right _ _
  rw [leads_concat_iff]
  refine Iff.trans (h.mem_recordedAt_skipTo hle hindex other) ?_
  constructor
  · rintro ⟨hbucket, ⟨hlt, hleads⟩ | ⟨hle, hlt⟩⟩
    · refine ⟨hbucket, by omega, ?_⟩
      rintro (hlead | ⟨rfl, _⟩)
      · exact hleads hlead
      · omega
    · refine ⟨hbucket, by omega, ?_⟩
      rintro (hlead | ⟨rfl, _⟩)
      · exact Nat.not_lt.2 hle (toNat_lt_reach hlead.mem)
      · omega
  · rintro ⟨hbucket, hlt, hleads⟩
    refine ⟨hbucket, ?_⟩
    by_cases hpassed : other.toNat < reach visited
    · exact Or.inl ⟨hpassed, fun hlead => hleads (Or.inl hlead)⟩
    · have hne : other.toNat ≠ block.toNat := by
        intro heq
        exact hleads (Or.inr ⟨UInt64.toNat_inj.1 heq, by omega⟩)
      have hitems : other.toNat < p.items :=
        Nat.lt_succ_of_le (UInt64.le_iff_toNat_le.1 (p.le_total_of_bucketOf? hbucket))
      exact Or.inr ⟨by omega, by omega⟩

/-- A block ahead of the cursor is not late, and makes no other block late. -/
theorem Tracks.mem_late_advance (other : Block) :
    other ∈ (s.advance block).late ↔
      other ∈ visited ++ [block] ∧ other ≤ p.total ∧ ¬ Leads (visited ++ [block]) other := by
  have hcursor := h.cursor_eq
  have hlate : (s.advance block).late = s.late := s.late_skipTo (Nat.min_le_right _ _)
  rw [hlate, h.mem_late other, leads_concat_iff]
  constructor
  · rintro ⟨hmem, hle, hleads⟩
    refine ⟨List.mem_append_left _ hmem, hle, ?_⟩
    rintro (hlead | ⟨rfl, hreach⟩)
    · exact hleads hlead
    · exact Nat.not_lt.2 hreach (toNat_lt_reach hmem)
  · rintro ⟨hmem, hle, hleads⟩
    rcases List.mem_append.1 hmem with hold | hnew
    · exact ⟨hold, hle, fun hlead => hleads (Or.inl hlead)⟩
    · exact absurd (Or.inr ⟨List.mem_singleton.1 hnew, by omega⟩) hleads

/-- The step for a block ahead of the cursor. -/
theorem Tracks.advance : Tracks p (visited ++ [block]) (s.advance block) where
  partition_eq := (s.partition_skipTo (Nat.min_le_right _ _)).trans h.partition_eq
  size_eq := (s.size_recorded_skipTo (Nat.min_le_right _ _)).trans h.size_eq
  cursor_eq := (h.reach_advance hahead).symm
  ascending _ hindex := h.ascending_skipTo (h.stop_eq ▸ Nat.min_le_right _ _) hindex
  mem_recordedAt _ hindex other := by
    rw [h.reach_advance hahead]
    exact h.mem_recordedAt_advance hahead hindex other
  mem_late := h.mem_late_advance hahead

end Ahead

/-! ## A block that the cursor has passed -/

section Passed

variable (h : Tracks p visited s) {block : Block} (hpassed : block.toNat < s.cursor)
include h hpassed

/-- A passed block moves nothing; what is left to show is that it is late when it was recorded
and not late already. -/
theorem Tracks.of_late {s' : Sweep} (hpartition : s'.partition = s.partition)
    (hrecorded : s'.recorded = s.recorded) (hcursor : s'.cursor = s.cursor)
    (hlate : ∀ other, other ∈ s'.late ↔
      other ∈ s.late ∨ other = block ∧ block ≤ p.total ∧ ¬ Leads visited block) :
    Tracks p (visited ++ [block]) s' := by
  have hbehind : block.toNat < reach visited := h.cursor_eq ▸ hpassed
  have hreach : reach (visited ++ [block]) = reach visited := by
    rw [reach_concat]
    omega
  have hleads : ∀ other, Leads (visited ++ [block]) other ↔ Leads visited other := by
    intro other
    rw [leads_concat_iff]
    exact ⟨fun hor => hor.resolve_right fun hnew => Nat.not_lt.2 hnew.2 hbehind, Or.inl⟩
  refine ⟨hpartition.trans h.partition_eq, hrecorded ▸ h.size_eq, ?_, ?_, ?_, ?_⟩
  · rw [hcursor, hreach, h.cursor_eq]
  · simp only [recordedAt, hrecorded]
    exact h.ascending
  · simp only [recordedAt, hrecorded, hreach, hleads]
    exact h.mem_recordedAt
  · intro other
    rw [hlate other, h.mem_late other, hleads other, List.mem_append, List.mem_singleton]
    constructor
    · rintro (⟨hmem, hrest⟩ | ⟨rfl, hrest⟩)
      · exact ⟨Or.inl hmem, hrest⟩
      · exact ⟨Or.inr rfl, hrest⟩
    · rintro ⟨hmem | rfl, hrest⟩
      · exact Or.inl ⟨hmem, hrest⟩
      · exact Or.inr ⟨rfl, hrest⟩

/-- A passed block of a bucket is recorded there when it did not lead. -/
theorem Tracks.isRecorded_iff_not_leads {index : Nat} (hbucket : p.bucketOf? block = some index) :
    s.isRecorded index block = true ↔ ¬ Leads visited block := by
  have hbehind : block.toNat < reach visited := h.cursor_eq ▸ hpassed
  have hindex : index < p.size := (p.bucketOf?_eq_some_iff.1 hbucket).1
  rw [isRecorded_eq_true_iff (h.ascending index hindex), h.mem_recordedAt index hindex]
  exact ⟨fun hmem => hmem.2.2, fun hleads => ⟨hbucket, hbehind, hleads⟩⟩

/-- The step for a block that the cursor has passed. -/
theorem Tracks.lookBack : Tracks p (visited ++ [block]) (s.lookBack block) := by
  rw [Sweep.lookBack, h.partition_eq]
  cases hbucket : p.bucketOf? block with
  | none =>
    have hpast : p.total < block := p.bucketOf?_eq_none_iff.1 hbucket
    refine h.of_late hpassed rfl rfl rfl ?_
    intro other
    refine ⟨Or.inl, ?_⟩
    rintro (hold | ⟨_, hle, _⟩)
    · exact hold
    · exact absurd hpast (UInt64.not_lt.2 hle)
  | some index =>
    have hle : block ≤ p.total := p.le_total_of_bucketOf? hbucket
    have hfound := h.isRecorded_iff_not_leads hpassed hbucket
    dsimp only
    split
    · rename_i hnew
      obtain ⟨hrecorded, _⟩ := (Bool.and_eq_true _ _).mp hnew
      refine h.of_late hpassed h.partition_eq.symm rfl rfl ?_
      intro other
      rw [Std.TreeSet.mem_insert, Std.LawfulEqCmp.compare_eq_iff_eq, eq_comm, or_comm]
      have hleads := hfound.1 hrecorded
      simp only [hle, hleads, not_false_eq_true, and_self, and_true]
    · rename_i hold
      refine h.of_late hpassed h.partition_eq.symm rfl rfl ?_
      intro other
      refine ⟨Or.inl, ?_⟩
      rintro (hlate | ⟨rfl, _, hleads⟩)
      · exact hlate
      · have hrecorded := hfound.2 hleads
        simpa [hrecorded] using hold

end Passed

/-! ## Steps and pages -/

/-- A step of the sweep keeps the invariant. -/
theorem Tracks.visit (h : Tracks p visited s) (block : Block) :
    Tracks p (visited ++ [block]) (s.visit block) := by
  unfold Sweep.visit
  split
  · rename_i hahead
    exact h.advance hahead
  · rename_i hpassed
    exact h.lookBack (Nat.lt_of_not_le hpassed)

/-- A page of blocks keeps the invariant. -/
theorem Tracks.visitAll (h : Tracks p visited s) (page : List Block) :
    Tracks p (visited ++ page) (s.visitAll page) := by
  induction page generalizing visited s with
  | nil => simpa using h
  | cons block page ih =>
    have hrest := ih (h.visit block)
    rwa [List.append_assoc] at hrest

/-- After any blocks in any order the sweep from the start tracks them. -/
theorem tracks_visitAll (p : Partition) (blocks : List Block) :
    Tracks p blocks ((start p).visitAll blocks) :=
  (tracks_start p).visitAll blocks

end Sweep
end ChainCoverage
