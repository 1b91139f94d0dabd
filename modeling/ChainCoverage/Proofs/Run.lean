import ChainCoverage.Proofs.Block
import ChainCoverage.Run
import Mathlib.Data.List.Chain

/-!
# The runs of a list of blocks

Many lists of spans stand for the same blocks.  Only one of them has no inverted span and no span
that the next one goes on from, and these are the runs.  The runs of ascending blocks are the
intervals of these blocks that cannot be made longer.

Main definitions:

- `Run.Canonical`: spans that stand for blocks in the only way that runs do.
- `Span.Maximal`: an interval of blocks with a property that cannot be made longer.
- `Run.Enumerates`: all such intervals in ascending order.

Main results:

- `Run.eq_ofBlocks_iff`: the runs of a list are the only canonical spans that stand for it.
- `Run.enumerates_ofBlocks`: the runs of ascending blocks are their maximal intervals.
-/

namespace ChainCoverage

/-! ## Neighbours in a span -/

namespace Span

variable {s : Span} {block : Block}

/-- Every block of a span but the last one has a next block in the span. -/
theorem exists_next (hle : s.first ≤ block) (hlt : block < s.last) :
    ∃ next ∈ s, next.toNat = block.toNat + 1 := by
  rw [UInt64.le_iff_toNat_le] at hle
  rw [UInt64.lt_iff_toNat_lt] at hlt
  have hnext : (UInt64.ofNat (block.toNat + 1)).toNat = block.toNat + 1 :=
    Block.toNat_ofNat_of_le hlt
  refine ⟨.ofNat (block.toNat + 1), ?_, hnext⟩
  rw [mem_iff, UInt64.le_iff_toNat_le, UInt64.le_iff_toNat_le, hnext]
  omega

/-- Every block of a span but the first one has a previous block in the span. -/
theorem exists_previous (hlt : s.first < block) (hle : block ≤ s.last) :
    ∃ previous ∈ s, previous.toNat + 1 = block.toNat := by
  rw [UInt64.lt_iff_toNat_lt] at hlt
  rw [UInt64.le_iff_toNat_le] at hle
  have hprevious : (UInt64.ofNat (block.toNat - 1)).toNat = block.toNat - 1 :=
    Block.toNat_ofNat_of_le (Nat.sub_le _ _)
  refine ⟨.ofNat (block.toNat - 1), ?_, by omega⟩
  rw [mem_iff, UInt64.le_iff_toNat_le, UInt64.le_iff_toNat_le, hprevious]
  omega

end Span

/-! ## Canonical runs -/

namespace Run

/-- Runs of which none is inverted and none goes on in the next.  Behind the last block there is
no next one, so a run that ends there never goes on. -/
structure Canonical (runs : List Span) : Prop where
  first_le_last : ∀ run ∈ runs, run.first ≤ run.last
  apart : runs.IsChain fun run next => next.first.toNat ≠ run.last.toNat + 1

/-- Joining a block keeps runs apart. -/
theorem Canonical.join {runs : List Span} (h : Canonical runs) (block : Block) :
    Canonical (join block runs) := by
  refine ⟨first_le_last_of_mem_join h.first_le_last, ?_⟩
  cases runs with
  | nil => exact List.isChain_singleton _
  | cons head rest =>
    have hchain := h.apart
    rw [Run.join]
    split
    · -- The joined run ends where the first one ended, so it stands apart from the same runs.
      rw [List.isChain_cons] at hchain ⊢
      exact hchain
    · rename_i hgap
      exact List.isChain_cons_cons.2 ⟨Ne.symm hgap, hchain⟩

/-- The runs of a list are canonical. -/
theorem canonical_ofBlocks (list : List Block) : Canonical (ofBlocks list) := by
  induction list with
  | nil => exact ⟨nofun, List.isChain_nil⟩
  | cons block rest ih => exact ih.join block

/-- The blocks of a run, joined one after another in front of runs that it does not go on in, make
up that run. -/
theorem foldr_join_blocks {run : Span} {rest : List Span} (hle : run.first ≤ run.last)
    (hapart : ∀ next ∈ rest.head?, next.first.toNat ≠ run.last.toNat + 1) :
    run.blocks.foldr join rest = run :: rest := by
  rcases UInt64.lt_or_eq_of_le hle with hlt | heq
  · obtain ⟨next, hnext, hsucc⟩ := Span.exists_next (UInt64.le_refl run.first) hlt
    have hshorter : (Span.mk next run.last).blocks.foldr join rest = ⟨next, run.last⟩ :: rest :=
      foldr_join_blocks hnext.2 hapart
    have hblocks : run.blocks = run.first :: (Span.mk next run.last).blocks :=
      Span.blocks_of_succ (s := ⟨next, run.last⟩) hsucc.symm hnext.2
    rw [hblocks, List.foldr_cons, hshorter, join, if_pos hsucc.symm]
  · obtain ⟨first, last⟩ := run
    obtain rfl : first = last := heq
    rw [Span.blocks_singleton, List.foldr_cons, List.foldr_nil]
    cases rest with
    | nil => rfl
    | cons next rest => exact if_neg (Ne.symm (hapart next rfl))
termination_by run.last.toNat - run.first.toNat
decreasing_by
  rw [UInt64.lt_iff_toNat_lt] at hlt
  omega

/-- Canonical runs are the runs of their blocks. -/
theorem Canonical.ofBlocks_blocks {runs : List Span} (h : Canonical runs) :
    ofBlocks (blocks runs) = runs := by
  induction runs with
  | nil => rfl
  | cons run rest ih =>
    have hapart := List.isChain_cons.1 h.apart
    have hrest : ofBlocks (blocks rest) = rest :=
      ih ⟨fun other hmem => h.first_le_last other (List.mem_cons_of_mem _ hmem), hapart.2⟩
    rw [blocks_cons, ofBlocks, List.foldr_append]
    change run.blocks.foldr Run.join (ofBlocks (blocks rest)) = run :: rest
    rw [hrest]
    exact foldr_join_blocks (h.first_le_last run (List.mem_cons_self ..)) hapart.1

/-- The runs of a list are the only canonical runs that stand for it. -/
theorem eq_ofBlocks_iff {runs : List Span} {list : List Block} :
    runs = ofBlocks list ↔ blocks runs = list ∧ Canonical runs := by
  constructor
  · rintro rfl
    exact ⟨blocks_ofBlocks list, canonical_ofBlocks list⟩
  · rintro ⟨rfl, hcanonical⟩
    exact hcanonical.ofBlocks_blocks.symm

-- Blocks may stand in any order; zero does not follow the last block.
example : ofBlocks [4, 5, 5, 6, 3, -2, -1, 0] = [⟨4, 5⟩, ⟨5, 6⟩, ⟨3, 3⟩, ⟨-2, -1⟩, ⟨0, 0⟩] := by
  decide

end Run

/-! ## Maximal intervals -/

/-- An interval of blocks with a property that cannot be made longer: the blocks next to it, where
there are any, do not have the property. -/
structure Span.Maximal (p : Block → Prop) (s : Span) : Prop where
  first_le_last : s.first ≤ s.last
  holds : ∀ block ∈ s, p block
  before : ∀ block : Block, block.toNat + 1 = s.first.toNat → ¬ p block
  behind : ∀ block : Block, block.toNat = s.last.toNat + 1 → ¬ p block

namespace Span.Maximal

variable {p : Block → Prop} {s t : Span}

/-- A maximal interval holds all intervals of such blocks that it meets. -/
theorem bounds_of_mem (hs : s.Maximal p) (ht : ∀ block ∈ t, p block) {block : Block}
    (hmem : block ∈ s) (hmem' : block ∈ t) : s.first ≤ t.first ∧ t.last ≤ s.last := by
  constructor
  · by_contra hbelow
    have hlt : t.first < s.first := UInt64.not_le.1 hbelow
    obtain ⟨previous, hprevious, hnext⟩ :=
      exists_previous hlt (UInt64.le_trans hmem.1 hmem'.2)
    exact hs.before previous hnext (ht previous hprevious)
  · by_contra habove
    have hlt : s.last < t.last := UInt64.not_le.1 habove
    obtain ⟨next, hnext, hsucc⟩ := exists_next (UInt64.le_trans hmem'.1 hmem.2) hlt
    exact hs.behind next hsucc (ht next hnext)

/-- Maximal intervals that share a block are the same. -/
theorem eq_of_mem (hs : s.Maximal p) (ht : t.Maximal p) {block : Block} (hmem : block ∈ s)
    (hmem' : block ∈ t) : s = t := by
  obtain ⟨hfirst, hlast⟩ := hs.bounds_of_mem ht.holds hmem hmem'
  obtain ⟨hfirst', hlast'⟩ := ht.bounds_of_mem hs.holds hmem' hmem
  obtain ⟨first, last⟩ := s
  rw [Span.mk.injEq]
  exact ⟨UInt64.le_antisymm hfirst hfirst', UInt64.le_antisymm hlast' hlast⟩

end Span.Maximal

/-! ## Runs of ascending blocks -/

namespace Run

/-- All maximal intervals of blocks with a property in ascending order, with other blocks between
them. -/
structure Enumerates (p : Block → Prop) (runs : List Span) : Prop where
  ascending : runs.Pairwise fun run later => run.last.toNat + 1 < later.first.toNat
  mem_iff : ∀ run, run ∈ runs ↔ run.Maximal p

/-- Runs in ascending order have other blocks between them. -/
theorem Canonical.pairwise {runs : List Span} (h : Canonical runs)
    (hasc : runs.Pairwise fun run later => run.last < later.first) :
    runs.Pairwise fun run later => run.last.toNat + 1 < later.first.toNat := by
  simp only [UInt64.lt_iff_toNat_lt] at hasc
  induction runs with
  | nil => exact .nil
  | cons run rest ih =>
    obtain ⟨hbehind, hrest⟩ := List.pairwise_cons.1 hasc
    obtain ⟨hapart, hchain⟩ := List.isChain_cons.1 h.apart
    have hnonempty : ∀ other ∈ rest, other.first ≤ other.last :=
      fun other hmem => h.first_le_last other (List.mem_cons_of_mem _ hmem)
    refine List.pairwise_cons.2 ⟨fun later hlater => ?_, ih ⟨hnonempty, hchain⟩ hrest⟩
    cases rest with
    | nil => contradiction
    | cons next rest =>
      have hnext := hbehind next (List.mem_cons_self ..)
      have hne := hapart next rfl
      rcases List.mem_cons.1 hlater with rfl | hmem
      · omega
      · -- Between the first run and a later one stands the next one, which is not empty.
        have hle := UInt64.le_iff_toNat_le.1 (hnonempty next (List.mem_cons_self ..))
        have hlt := (List.pairwise_cons.1 hrest).1 later hmem
        omega

variable {list : List Block} (hasc : list.Pairwise (· < ·))
include hasc

/-- The runs of ascending blocks are in ascending order, with other blocks between them. -/
theorem pairwise_ofBlocks :
    (ofBlocks list).Pairwise fun run later => run.last.toNat + 1 < later.first.toNat := by
  have hcanonical := canonical_ofBlocks list
  apply hcanonical.pairwise
  rw [← blocks_ofBlocks list, blocks, List.pairwise_flatMap] at hasc
  refine hasc.2.imp_of_mem fun {run later} hrun hlater hlt => ?_
  have hle := hcanonical.first_le_last
  exact hlt _ (Span.mem_blocks.2 ⟨hle run hrun, UInt64.le_refl _⟩)
    _ (Span.mem_blocks.2 ⟨UInt64.le_refl _, hle later hlater⟩)

/-- Of two runs of ascending blocks one stands apart behind the other. -/
theorem eq_or_apart {run other : Span} (hrun : run ∈ ofBlocks list)
    (hother : other ∈ ofBlocks list) :
    other = run ∨ other.last.toNat + 1 < run.first.toNat ∨
      run.last.toNat + 1 < other.first.toNat := by
  obtain ⟨i, hi, rfl⟩ := List.getElem_of_mem hrun
  obtain ⟨j, hj, rfl⟩ := List.getElem_of_mem hother
  have hpairwise := List.pairwise_iff_getElem.1 (pairwise_ofBlocks hasc)
  rcases Nat.lt_trichotomy i j with hlt | rfl | hgt
  · exact Or.inr (Or.inr (hpairwise i j hi hj hlt))
  · exact Or.inl rfl
  · exact Or.inr (Or.inl (hpairwise j i hj hi hgt))

omit hasc in
/-- The blocks of a list are those that lie in its runs. -/
theorem mem_iff_exists_run {block : Block} :
    block ∈ list ↔ ∃ run ∈ ofBlocks list, block ∈ run := by
  have hblocks : block ∈ blocks (ofBlocks list) ↔ ∃ run ∈ ofBlocks list, block ∈ run := by
    rw [blocks, List.mem_flatMap]
    simp only [Span.mem_blocks]
  rwa [blocks_ofBlocks] at hblocks

/-- A run of ascending blocks cannot be made longer. -/
theorem maximal_of_mem_ofBlocks {run : Span} (hrun : run ∈ ofBlocks list) :
    run.Maximal (· ∈ list) := by
  have hle := UInt64.le_iff_toNat_le.1 (first_le_last_of_mem_ofBlocks run hrun)
  -- A block next to the run would lie in a run that does not stand apart from it.
  have hneighbour : ∀ block ∈ list, run.first.toNat ≤ block.toNat + 1 →
      block.toNat ≤ run.last.toNat + 1 → block ∈ run := by
    intro block hmem hlow hhigh
    obtain ⟨other, hother, hblock⟩ := mem_iff_exists_run.1 hmem
    have hbounds := hblock
    rw [Span.mem_iff, UInt64.le_iff_toNat_le, UInt64.le_iff_toNat_le] at hbounds
    rcases eq_or_apart hasc hrun hother with rfl | hbelow | habove
    · exact hblock
    · omega
    · omega
  constructor
  case first_le_last => exact UInt64.le_iff_toNat_le.2 hle
  case holds => exact fun block hblock => mem_iff_exists_run.2 ⟨run, hrun, hblock⟩
  case before =>
    intro block hbefore hmem
    have hfirst := UInt64.le_iff_toNat_le.1 (hneighbour block hmem (by omega) (by omega)).1
    omega
  case behind =>
    intro block hbehind hmem
    have hlast := UInt64.le_iff_toNat_le.1 (hneighbour block hmem (by omega) (by omega)).2
    omega

/-- The runs of ascending blocks are their maximal intervals in ascending order. -/
theorem enumerates_ofBlocks : Enumerates (· ∈ list) (ofBlocks list) := by
  refine ⟨pairwise_ofBlocks hasc, fun run => ⟨maximal_of_mem_ofBlocks hasc, fun hrun => ?_⟩⟩
  have hfirst : run.first ∈ run := ⟨UInt64.le_refl _, hrun.first_le_last⟩
  obtain ⟨other, hother, hmem⟩ := mem_iff_exists_run.1 (hrun.holds run.first hfirst)
  rwa [hrun.eq_of_mem (maximal_of_mem_ofBlocks hasc hother) hfirst hmem]

end Run
end ChainCoverage
