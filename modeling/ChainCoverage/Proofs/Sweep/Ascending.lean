import ChainCoverage.Sweep.Ascending

/-!
# The search in ascending blocks is membership

Halving the part that is left to search loses no position where the block may stand,
because the blocks on one side of the middle are all too small or all too large.

Main results:

- `Ascending.contains_eq_true_iff`: in an ascending array the search answers membership.
-/

namespace ChainCoverage
namespace Ascending

variable {blocks : Array Block} {block : Block}

/-- Positions of an ascending array are in the order of their blocks. -/
theorem getElem_lt_getElem (hasc : blocks.toList.Pairwise (· < ·)) {low high : Nat}
    (hlt : low < high) (hhigh : high < blocks.size) : blocks[low] < blocks[high] := by
  have := List.pairwise_iff_getElem.1 hasc low high (by simpa using Nat.lt_trans hlt hhigh)
    (by simpa using hhigh) hlt
  simpa using this

/-- A search that answers yes has seen the block. -/
theorem mem_of_containsWithin {low high : Nat}
    (h : containsWithin blocks block low high = true) : block ∈ blocks := by
  fun_induction containsWithin blocks block low high with
  | case1 => contradiction
  | case2 low high hlt middle hfound => exact Array.mem_of_getElem? hfound
  | case3 low high hlt middle found hfound hne hless ih => exact ih h
  | case4 low high hlt middle found hfound hne hless ih => exact ih h
  | case5 => contradiction

/-- A search over positions that include the block's own answers yes. -/
theorem containsWithin_of_getElem (hasc : blocks.toList.Pairwise (· < ·)) {low high position : Nat}
    (hlow : low ≤ position) (hhigh : position < high) (hsize : high ≤ blocks.size)
    (hblock : blocks[position] = block) : containsWithin blocks block low high = true := by
  fun_induction containsWithin blocks block low high with
  | case1 low high hlt middle hnone =>
    have hout : blocks.size ≤ middle := Array.getElem?_eq_none_iff.1 hnone
    simp only [middle] at hout
    omega
  | case2 => rfl
  | case3 low high hlt middle found hfound hne hless ih =>
    obtain ⟨hmiddle, rfl⟩ := Array.getElem?_eq_some_iff.1 hfound
    -- The middle and all before it are too small.
    have hright : middle < position := by
      apply Nat.lt_of_not_le
      intro hle
      rcases Nat.lt_or_eq_of_le hle with hbefore | heq
      · have hless' := getElem_lt_getElem hasc hbefore hmiddle
        rw [hblock] at hless'
        exact UInt64.lt_asymm hless' hless
      · subst heq
        exact hne hblock
    exact ih hright hhigh hsize hblock
  | case4 low high hlt middle found hfound hne hless ih =>
    obtain ⟨hmiddle, rfl⟩ := Array.getElem?_eq_some_iff.1 hfound
    -- The middle and all behind it are too large.
    have hleft : position < middle := by
      apply Nat.lt_of_not_le
      intro hle
      rcases Nat.lt_or_eq_of_le hle with hbehind | heq
      · have hless' := getElem_lt_getElem hasc hbehind (Nat.lt_of_lt_of_le hhigh hsize)
        rw [hblock] at hless'
        exact hless hless'
      · subst heq
        exact hne hblock
    exact ih hlow hleft (Nat.le_of_lt hmiddle) hblock
  | case5 low high hlt => omega

/-- In an ascending array the search answers membership. -/
theorem contains_eq_true_iff (hasc : blocks.toList.Pairwise (· < ·)) :
    contains blocks block = true ↔ block ∈ blocks := by
  constructor
  · exact mem_of_containsWithin
  · intro hmem
    obtain ⟨position, hbound, hblock⟩ := Array.getElem_of_mem hmem
    exact containsWithin_of_getElem hasc (Nat.zero_le _) hbound (Nat.le_refl _) hblock

end Ascending
end ChainCoverage
