import ChainCoverage.Proofs.Sweep.Invariant
import Mathlib.Data.Finset.Max

/-!
# The state of a sweep

Every part of the state after some blocks can be read off the blocks alone: the cursor
from the largest one, the recorded blocks from those that were not ahead of the cursor
when they came, the late ones from those that were recorded before they came, and the
repeats from how often each block of the chain came.

Main definitions:

- `Sweep.Recorded`: a block is in one of the lists of missing blocks.
- `Sweep.CameAhead`: a block came when it was at the cursor or ahead of it.
- `Sweep.ReadOff`: the state after some blocks, part by part.

Main results:

- `Sweep.Tracks.repeats_visit`: which blocks a step counts as repeats.
- `Sweep.repeats_visitAll`: how many repeats there are after any blocks.
- `Sweep.readOff_visitAll`: the state after any blocks.
-/

namespace ChainCoverage

/-! ## Blocks behind the reach of a sequence -/

/-- A longer sequence reaches as far at least. -/
theorem reach_le_reach_append (visited after : List Block) :
    reach visited ≤ reach (visited ++ after) := by
  apply reach_le_iff.2
  intro block hmem
  exact toNat_lt_reach (List.mem_append_left _ hmem)

/-- The reach of a sequence is one past its largest block. -/
theorem reach_eq_toNat_add_one {visited : List Block} {top : Block} (hmem : top ∈ visited)
    (hmax : ∀ block ∈ visited, block ≤ top) : reach visited = top.toNat + 1 := by
  apply Nat.le_antisymm
  · exact reach_le_iff.2 fun block hblock =>
      Nat.lt_succ_of_le (UInt64.le_iff_toNat_le.1 (hmax block hblock))
  · exact toNat_lt_reach hmem

theorem reach_le_size (visited : List Block) : reach visited ≤ UInt64.size :=
  reach_le_iff.2 fun block _ => block.toNat_lt_size

/-- A block behind the reach of a sequence leads no longer one, unless it leads it already. -/
theorem leads_append_iff_of_lt_reach {visited : List Block} {block : Block}
    (hbehind : block.toNat < reach visited) (after : List Block) :
    Leads (visited ++ after) block ↔ Leads visited block := by
  induction after using List.reverseRecOn with
  | nil => rw [List.append_nil]
  | append_singleton after last ih =>
    rw [← List.append_assoc, leads_concat_iff, ih, or_iff_left]
    rintro ⟨rfl, hreach⟩
    have hle := reach_le_reach_append visited after
    omega

namespace Sweep

/-! ## What became of the blocks that came -/

/-- A block is recorded as missing, in whichever bucket. -/
def Recorded (s : Sweep) (block : Block) : Prop :=
  ∃ index < s.recorded.size, block ∈ s.recordedAt index

/-- A block came, once at least, when it was at the cursor or ahead of it. -/
def CameAhead (p : Partition) (visited : List Block) (block : Block) : Prop :=
  ∃ before after, visited = before ++ block :: after ∧
    ((start p).visitAll before).cursor ≤ block.toNat

/-- The blocks that came ahead of the cursor lead the sequence. -/
theorem cameAhead_iff {p : Partition} {visited : List Block} {block : Block} :
    CameAhead p visited block ↔ Leads visited block := by
  have hcursor (before : List Block) : ((start p).visitAll before).cursor ≤ block.toNat ↔
      ∀ earlier ∈ before, earlier < block := by
    rw [(tracks_visitAll p before).cursor_eq, reach_le_iff]
    rfl
  simp only [CameAhead, Leads, hcursor]

variable {p : Partition} {visited : List Block} {s : Sweep}

/-- The recorded blocks are those of the chain behind the cursor that did not lead. -/
theorem Tracks.recorded_iff (h : Tracks p visited s) (block : Block) :
    s.Recorded block ↔
      block ≤ p.total ∧ block.toNat < reach visited ∧ ¬ Leads visited block := by
  unfold Recorded
  rw [h.size_eq]
  constructor
  · rintro ⟨index, hindex, hmem⟩
    obtain ⟨hbucket, hrest⟩ := (h.mem_recordedAt index hindex block).1 hmem
    exact ⟨p.le_total_of_bucketOf? hbucket, hrest⟩
  · rintro ⟨hle, hrest⟩
    cases hbucket : p.bucketOf? block with
    | none => exact absurd (p.bucketOf?_eq_none_iff.1 hbucket) (UInt64.not_lt.2 hle)
    | some index =>
      have hindex := (p.bucketOf?_eq_some_iff.1 hbucket).1
      exact ⟨index, hindex, (h.mem_recordedAt index hindex block).2 ⟨hbucket, hrest⟩⟩

/-- A late block is one that came when it was recorded already. -/
theorem Tracks.mem_late_iff (h : Tracks p visited s) (block : Block) :
    block ∈ s.late ↔ ∃ before after, visited = before ++ block :: after ∧
      ((start p).visitAll before).Recorded block := by
  simp only [h.mem_late, (tracks_visitAll p _).recorded_iff]
  constructor
  · rintro ⟨hmem, hle, hleads⟩
    obtain ⟨before, after, rfl⟩ := List.append_of_mem hmem
    -- The block did not lead where it stands, so the blocks before it reach past it.
    have hbehind : block.toNat < reach before := by
      apply Nat.lt_of_not_le
      intro hreach
      exact hleads ⟨before, after, rfl, fun earlier hearlier =>
        UInt64.lt_iff_toNat_lt.2 (reach_le_iff.1 hreach earlier hearlier)⟩
    rw [leads_append_iff_of_lt_reach hbehind] at hleads
    exact ⟨before, after, rfl, hle, hbehind, hleads⟩
  · rintro ⟨before, after, rfl, hle, hbehind, hleads⟩
    rw [leads_append_iff_of_lt_reach hbehind]
    exact ⟨List.mem_append_right _ List.mem_cons_self, hle, hleads⟩

/-! ## Repeats -/

/-- A block that the cursor has passed repeats when it came before and is one of the chain. -/
theorem Tracks.repeats_lookBack (h : Tracks p visited s) {block : Block}
    (hpassed : block.toNat < s.cursor) :
    (s.lookBack block).repeats =
      s.repeats + if block ≤ p.total ∧ block ∈ visited then 1 else 0 := by
  rw [Sweep.lookBack, h.partition_eq]
  cases hbucket : p.bucketOf? block with
  | none =>
    have hpast : ¬ block ≤ p.total := UInt64.not_le.2 (p.bucketOf?_eq_none_iff.1 hbucket)
    simp [hpast]
  | some index =>
    have hle : block ≤ p.total := p.le_total_of_bucketOf? hbucket
    have hfound := h.isRecorded_iff_not_leads hpassed hbucket
    have hlate : s.late.contains block = true ↔ block ∈ visited ∧ ¬ Leads visited block := by
      rw [Std.TreeSet.contains_iff_mem, h.mem_late]
      exact ⟨fun hmem => ⟨hmem.1, hmem.2.2⟩, fun hmem => ⟨hmem.1, hle, hmem.2⟩⟩
    -- A block that came and led is not recorded; one that came and did not lead is late already.
    have hnew : (s.isRecorded index block && !s.late.contains block) = true ↔
        block ∉ visited := by
      rw [Bool.and_eq_true, hfound, Bool.not_eq_true', ← Bool.not_eq_true, hlate]
      constructor
      · rintro ⟨hleads, hnot⟩ hmem
        exact hnot ⟨hmem, hleads⟩
      · intro hmem
        exact ⟨fun hleads => hmem hleads.mem, fun hboth => hmem hboth.1⟩
    dsimp only
    by_cases hmem : block ∈ visited
    · rw [if_neg (fun htrue => hnew.1 htrue hmem), if_pos ⟨hle, hmem⟩]
    · rw [if_pos (hnew.2 hmem), if_neg (fun hboth => hmem hboth.2)]
      exact (UInt64.add_zero _).symm

/-- A step counts a block of the chain that came before. -/
theorem Tracks.repeats_visit (h : Tracks p visited s) (block : Block) :
    (s.visit block).repeats =
      s.repeats + if block ≤ p.total ∧ block ∈ visited then 1 else 0 := by
  unfold Sweep.visit
  by_cases hahead : s.cursor ≤ block.toNat
  · have hmem : block ∉ visited := by
      intro hmem
      have hlt := toNat_lt_reach hmem
      rw [← h.cursor_eq] at hlt
      omega
    rw [if_pos hahead, if_neg (fun hboth => hmem hboth.2), UInt64.add_zero]
    exact s.repeats_skipTo (Nat.min_le_right _ _)
  · rw [if_neg hahead]
    exact h.repeats_lookBack (Nat.lt_of_not_le hahead)

/-- The different blocks of the chain among those that came. -/
def different (p : Partition) (visited : List Block) : Finset Block :=
  visited.toFinset.filter (· ≤ p.total)

/-- One more block is one more different one when it is one of the chain and did not come before. -/
theorem card_different_concat (p : Partition) (visited : List Block) (block : Block) :
    (different p (visited ++ [block])).card =
      (different p visited).card + if block ≤ p.total ∧ block ∉ visited then 1 else 0 := by
  have hinsert : (visited ++ [block]).toFinset = insert block visited.toFinset := by
    ext other
    simp
  unfold different
  rw [hinsert, Finset.filter_insert]
  by_cases hle : block ≤ p.total
  · by_cases hmem : block ∈ visited
    · simp [hle, hmem, Finset.insert_eq_of_mem]
    · simp [hle, hmem]
  · simp [hle]

/-- The repeats and the different blocks together are the blocks of the chain that came, as long as
a word can count them. -/
theorem repeats_visitAll (p : Partition) {blocks : List Block}
    (hlength : blocks.length < UInt64.size) :
    ((start p).visitAll blocks).repeats.toNat + (different p blocks).card =
      blocks.countP (· ≤ p.total) := by
  induction blocks using List.reverseRecOn with
  | nil => rfl
  | append_singleton blocks block ih =>
    rw [List.length_append, List.length_singleton] at hlength
    have hcount : blocks.countP (· ≤ p.total) ≤ blocks.length := List.countP_le_length
    have hbefore := ih (Nat.lt_of_succ_lt hlength)
    have hstep : ((start p).visitAll (blocks ++ [block])).repeats =
        ((start p).visitAll blocks).repeats +
          if block ≤ p.total ∧ block ∈ blocks then 1 else 0 := by
      rw [visitAll_append]
      exact (tracks_visitAll p blocks).repeats_visit block
    rw [hstep, card_different_concat, List.countP_append, List.countP_singleton, ← hbefore]
    by_cases hle : block ≤ p.total
    · rw [if_pos (decide_eq_true hle)]
      by_cases hmem : block ∈ blocks
      · have hfits : ((start p).visitAll blocks).repeats.toNat + 1 < UInt64.size := by omega
        have hadd : (((start p).visitAll blocks).repeats + 1).toNat =
            ((start p).visitAll blocks).repeats.toNat + 1 :=
          Block.toNat_add_of_lt hfits
        rw [if_pos ⟨hle, hmem⟩, if_neg (fun hnew => hnew.2 hmem), hadd]
        omega
      · rw [if_neg (fun hold => hmem hold.2), if_pos ⟨hle, hmem⟩, UInt64.add_zero]
        omega
    · rw [if_neg (fun hold => hle hold.1), if_neg (fun hnew => hle hnew.1), UInt64.add_zero,
        if_neg (by simpa using hle), Nat.add_zero, Nat.add_zero]

/-! ## The whole state -/

/-- The state `s` of a sweep over the buckets of `p` after some blocks, part by part. -/
structure ReadOff (p : Partition) (blocks : List Block) (s : Sweep) : Prop where
  partition_eq : s.partition = p
  /-- The cursor stands one past the largest block. -/
  cursor_eq : blocks = [] ∧ s.cursor = 0 ∨
    ∃ top ∈ blocks, (∀ block ∈ blocks, block ≤ top) ∧ s.cursor = top.toNat + 1
  /-- The cursor never went back. -/
  cursor_mono : ∀ before after, blocks = before ++ after →
    ((start p).visitAll before).cursor ≤ s.cursor
  cursor_le : s.cursor ≤ UInt64.size
  /-- There is one list of missing blocks for each bucket. -/
  size_eq : s.recorded.size = p.size
  ascending : ∀ index < p.size, (s.recordedAt index).Pairwise (· < ·)
  mem_span : ∀ index < p.size, ∀ block ∈ s.recordedAt index, block ∈ p.span index
  /-- The lists hold the blocks of the chain that the cursor has passed and that were behind it
  whenever they came. -/
  recorded_iff : ∀ block, s.Recorded block ↔
    block.toNat < min s.cursor (p.total.toNat + 1) ∧ ¬ CameAhead p blocks block
  /-- The late blocks were recorded before they came. -/
  mem_late_iff : ∀ block, block ∈ s.late ↔ ∃ before after, blocks = before ++ block :: after ∧
    ((start p).visitAll before).Recorded block
  /-- The blocks of the chain that came are the different ones and the repeats. -/
  repeats_add : s.repeats.toNat + (different p blocks).card = blocks.countP (· ≤ p.total)

/-- The state of a sweep is read off the blocks it took, in whatever order they came and however
often, as long as a word can count them. -/
theorem readOff_visitAll (p : Partition) {blocks : List Block}
    (hlength : blocks.length < UInt64.size) :
    ReadOff p blocks ((start p).visitAll blocks) := by
  have h := tracks_visitAll p blocks
  refine ⟨h.partition_eq, ?_, ?_, ?_, h.size_eq, h.ascending, ?_, ?_, h.mem_late_iff,
    repeats_visitAll p hlength⟩
  · rw [h.cursor_eq]
    by_cases hblocks : blocks = []
    · subst hblocks
      exact .inl ⟨rfl, rfl⟩
    · obtain ⟨top, htop, hmax⟩ :=
        blocks.toFinset.exists_max_image UInt64.toNat (blocks.toFinset_nonempty_iff.2 hblocks)
      simp only [List.mem_toFinset, ← UInt64.le_iff_toNat_le] at htop hmax
      exact .inr ⟨top, htop, hmax, reach_eq_toNat_add_one htop hmax⟩
  · rintro before after rfl
    rw [h.cursor_eq, (tracks_visitAll p before).cursor_eq]
    exact reach_le_reach_append before after
  · rw [h.cursor_eq]
    exact reach_le_size blocks
  · intro index hindex block hmem
    exact (p.mem_span hindex).2 ((h.mem_recordedAt index hindex block).1 hmem).1
  · intro block
    rw [h.recorded_iff, h.cursor_eq, cameAhead_iff, Nat.lt_min, Nat.lt_succ_iff,
      ← UInt64.le_iff_toNat_le, and_left_comm, and_assoc]

/-- Of the blocks of the chain that come here, one comes late and two come again. -/
theorem readOff_visitAll_late :
    let p : Partition := ⟨9, 3, by decide⟩
    let blocks : List Block := [4, 2, 2, 12, 4, 11]
    blocks.length < UInt64.size ∧ ReadOff p blocks ((start p).visitAll blocks) ∧
      ((start p).visitAll blocks).repeats.toNat = 2 := by
  intro p blocks
  have hlength : blocks.length < UInt64.size := by decide
  have hstate := readOff_visitAll p hlength
  have hrepeats := hstate.repeats_add
  have hdifferent : (different p blocks).card = 2 := by decide
  have hcount : blocks.countP (· ≤ p.total) = 4 := by decide
  exact ⟨hlength, hstate, by omega⟩

end Sweep
end ChainCoverage
