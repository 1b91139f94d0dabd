import ChainCoverage.Proofs.Block
import ChainCoverage.Proofs.Ledger.Key
import ChainCoverage.Proofs.Paging.Page
import Mathlib.Data.Finset.Preimage

/-!
# Blocks and pages of a ledger with any keys

Nobody vouches for the keys of a ledger.  Among them stand, in the order of their blocks,
the keys of the blocks that a network has marked; between those may stand keys that start
like them and are none.  A page takes such keys as they come, and fails at the first one,
so a page that does not fail holds what it would hold without them.

Main definitions:

- `Ledger.markedBlocks`: the blocks of a network whose keys a ledger has.

Main results:

- `Ledger.filter_toList`: the keys of a network among all keys.
- `Ledger.page_name_cases`: a page fails at a malformed key or is a page of the marked blocks.
-/

namespace ChainCoverage
namespace Ledger

variable (s : Ledger) (n : Network)

@[simp]
theorem named_name : named n.name = .ok n := by
  rw [named, Network.ofName_name]
  rfl

theorem isMarked_name (block : Block) :
    s.isMarked n.name block = .ok (s.blocks.contains (n.blockKey block)) := by
  rw [isMarked, named_name]
  rfl

/-! ## Marked blocks -/

/-- The blocks of a network whose keys the ledger has. -/
noncomputable def markedBlocks : Finset Block :=
  s.blocks.toList.toFinset.preimage n.blockKey n.blockKey_injective.injOn

variable {s n}

@[simp]
theorem mem_markedBlocks {block : Block} :
    block ∈ s.markedBlocks n ↔ n.blockKey block ∈ s.blocks := by
  rw [markedBlocks, Finset.mem_preimage, List.mem_toFinset, Std.TreeSet.mem_toList]

/-- The keys that a network has of its own are those of its marked blocks, in the order of the
blocks. -/
theorem filter_toList {own : Bytes → Bool} {asked : Block → Bool}
    (hown : ∀ block, own (n.blockKey block) = asked block)
    (hother : ∀ key ∈ s.blocks, own key = true → ∃ block, key = n.blockKey block) :
    s.blocks.toList.filter own =
      ((ascendingBlocks (s.markedBlocks n)).filter asked).map n.blockKey := by
  apply Bytes.eq_of_ordered
  · exact Std.TreeSet.ordered_toList.filter _
  · rw [List.pairwise_map]
    refine ((pairwise_ascendingBlocks _).filter _).imp fun {a b} hlt => ?_
    rw [n.compare_blockKey, Nat.compare_eq_lt]
    exact UInt64.lt_iff_toNat_lt.1 hlt
  · intro key
    simp only [List.mem_filter, Std.TreeSet.mem_toList, List.mem_map, mem_ascendingBlocks,
      mem_markedBlocks]
    constructor
    · rintro ⟨hmem, hkey⟩
      obtain ⟨block, rfl⟩ := hother key hmem hkey
      exact ⟨block, ⟨hmem, (hown block).symm.trans hkey⟩, rfl⟩
    · rintro ⟨block, ⟨hblock, hasked⟩, rfl⟩
      exact ⟨hblock, (hown block).trans hasked⟩

/-! ## Pages -/

/-- What is first in a list is first in what a filter leaves of it, when the filter leaves that. -/
theorem take_filter_of_forall_mem_take {α : Type} {p : α → Bool} {l : List α} {count : Nat}
    (h : ∀ a ∈ l.take count, p a = true) : (l.filter p).take count = l.take count := by
  induction l generalizing count with
  | nil => rfl
  | cons a l ih =>
    cases count with
    | zero => rfl
    | succ count =>
      rw [List.take_succ_cons] at h ⊢
      rw [List.filter_cons_of_pos (h a List.mem_cons_self), List.take_succ_cons,
        ih fun b hb => h b (List.mem_cons_of_mem _ hb)]

/-- Keys that start like those of a network are read up to the first that stands for no block;
when there is none of these, they are the keys of the blocks read. -/
theorem mapM_readKey_cases {keys : List Bytes} (hstem : ∀ key ∈ keys, n.keyStem <+: key) :
    (∃ key ∈ keys, n.blockOfKey? key = none ∧
        keys.mapM (readKey n) = .error (.malformedKey key.length)) ∨
      ∃ blocks, keys = blocks.map n.blockKey ∧ keys.mapM (readKey n) = .ok blocks := by
  induction keys with
  | nil => exact Or.inr ⟨[], rfl, rfl⟩
  | cons key keys ih =>
    rw [List.mapM_cons]
    cases hkey : n.blockOfKey? key with
    | none =>
      refine Or.inl ⟨key, List.mem_cons_self, hkey, ?_⟩
      rw [readKey, hkey]
      rfl
    | some block =>
      obtain rfl := Network.eq_blockKey_of_blockOfKey? (hstem key List.mem_cons_self) hkey
      rw [readKey, hkey]
      rcases ih fun other hmem => hstem other (List.mem_cons_of_mem _ hmem) with
        ⟨other, hmem, hnone, hread⟩ | ⟨blocks, rfl, hread⟩
      · refine Or.inl ⟨other, List.mem_cons_of_mem _ hmem, hnone, ?_⟩
        rw [hread]
        rfl
      · refine Or.inr ⟨block :: blocks, rfl, ?_⟩
        rw [hread]
        rfl

/-- The first keys between two blocks of a network, when all of them are keys of blocks, are those
of the marked blocks between the two. -/
theorem keysWithin_eq_map_blockKey {low high : Block} {limit : Nat} {blocks : List Block}
    (h : s.keysWithin (n.blockKey low) (n.blockKey high) limit = blocks.map n.blockKey) :
    blocks = ((ascendingBlocks (s.markedBlocks n)).filter fun block =>
      low.toNat ≤ block.toNat && block ≤ high).take limit := by
  apply List.map_injective_iff.2 n.blockKey_injective
  rw [keysWithin_eq] at h
  -- Dropping the malformed keys first leaves the same first keys, as none of them is malformed.
  have hwell : ∀ key ∈ blocks.map n.blockKey, (n.blockOfKey? key).isSome = true := by
    intro key hmem
    obtain ⟨block, _, rfl⟩ := List.mem_map.1 hmem
    rw [Network.blockOfKey?_blockKey]
    rfl
  rw [← h] at hwell ⊢
  rw [List.map_take, ← take_filter_of_forall_mem_take hwell, List.filter_filter]
  congr 1
  apply filter_toList
  · intro block
    rw [Bool.eq_iff_iff, Network.blockOfKey?_blockKey, Option.isSome_some, Bool.true_and,
      Bool.and_eq_true, decide_eq_true_iff, decide_eq_true_iff, decide_eq_true_iff,
      n.compare_blockKey, n.compare_blockKey, Std.isGE_compare, Std.isLE_compare,
      UInt64.le_iff_toNat_le]
  · intro key _ hkey
    obtain ⟨hsome, hbetween⟩ := (Bool.and_eq_true _ _).mp hkey
    obtain ⟨block, hblock⟩ := Option.isSome_iff_exists.1 hsome
    obtain ⟨hge, hle⟩ := of_decide_eq_true hbetween
    exact ⟨block, Network.eq_blockKey_of_blockOfKey? (Bytes.isPrefix_of_between hge hle) hblock⟩

/-- A page takes keys of the ledger between its bounds. -/
theorem of_mem_keysWithin {low high key : Bytes} {limit : Nat}
    (hmem : key ∈ s.keysWithin low high limit) :
    key ∈ s.blocks ∧ (compare key low).isGE ∧ (compare key high).isLE := by
  rw [keysWithin_eq] at hmem
  obtain ⟨hblocks, hbetween⟩ := List.mem_filter.1 (List.mem_of_mem_take hmem)
  exact ⟨Std.TreeSet.mem_toList.1 hblocks, of_decide_eq_true hbetween⟩

/-- The keys between two keys of a network start as the keys of that network. -/
theorem isPrefix_of_mem_keysWithin {low high : Block} {limit : Nat} {key : Bytes}
    (hmem : key ∈ s.keysWithin (n.blockKey low) (n.blockKey high) limit) : n.keyStem <+: key :=
  have ⟨_, hge, hle⟩ := of_mem_keysWithin hmem
  Bytes.isPrefix_of_between hge hle

/-- A page whose bounds are not crossed fails at a malformed key that it takes, or the keys that it
takes are those of the page that the marked blocks give. -/
theorem page_name_of_bounds (s : Ledger) (n : Network) {after : Option Block} {upTo : Block}
    (hbounds : firstAbove after ≤ upTo.toNat) (limit : Nat) :
    (∃ key ∈ s.keysWithin (n.blockKey (.ofNat (firstAbove after))) (n.blockKey upTo) limit,
        n.blockOfKey? key = none ∧
        s.page ⟨n.name, after, upTo, limit⟩ = .error (.malformedKey key.length)) ∨
      s.keysWithin (n.blockKey (.ofNat (firstAbove after))) (n.blockKey upTo) limit =
          (pageOf (ascendingBlocks (s.markedBlocks n)) ⟨n.name, after, upTo, limit⟩).map
            n.blockKey ∧
        s.page ⟨n.name, after, upTo, limit⟩ =
          .ok (pageOf (ascendingBlocks (s.markedBlocks n)) ⟨n.name, after, upTo, limit⟩) := by
  have hlow : (UInt64.ofNat (firstAbove after)).toNat = firstAbove after :=
    Block.toNat_ofNat_of_le hbounds
  have hpage : s.page ⟨n.name, after, upTo, limit⟩ =
      (s.keysWithin (n.blockKey (.ofNat (firstAbove after))) (n.blockKey upTo) limit).mapM
        (readKey n) := by
    unfold page
    rw [if_neg (Nat.not_lt.2 hbounds), named_name]
  rcases mapM_readKey_cases fun _ => isPrefix_of_mem_keysWithin (s := s) with
    ⟨key, hmem, hnone, hread⟩ | ⟨blocks, heq, hread⟩
  · exact Or.inl ⟨key, hmem, hnone, hpage.trans hread⟩
  · have hblocks := keysWithin_eq_map_blockKey heq
    rw [hlow] at hblocks
    have hmarked : blocks =
        pageOf (ascendingBlocks (s.markedBlocks n)) ⟨n.name, after, upTo, limit⟩ := hblocks
    rw [← hmarked]
    exact Or.inr ⟨heq, hpage.trans hread⟩

/-- A page of a network fails at a malformed key below its bound, or it is the page that the marked
blocks give. -/
theorem page_name_cases (s : Ledger) (n : Network) (after : Option Block) (upTo : Block)
    (limit : Nat) :
    (∃ key ∈ s.blocks, n.keyStem <+: key ∧ (compare key (n.blockKey upTo)).isLE ∧
        n.blockOfKey? key = none ∧
        s.page ⟨n.name, after, upTo, limit⟩ = .error (.malformedKey key.length)) ∨
      s.page ⟨n.name, after, upTo, limit⟩ =
        .ok (pageOf (ascendingBlocks (s.markedBlocks n)) ⟨n.name, after, upTo, limit⟩) := by
  by_cases hbounds : firstAbove after ≤ upTo.toNat
  · rcases s.page_name_of_bounds n hbounds limit with ⟨key, hmem, hnone, hpage⟩ | ⟨_, hpage⟩
    · obtain ⟨hblocks, _, hle⟩ := of_mem_keysWithin hmem
      exact Or.inl ⟨key, hblocks, isPrefix_of_mem_keysWithin hmem, hle, hnone, hpage⟩
    · exact Or.inr hpage
  · have hcrossed := Nat.lt_of_not_le hbounds
    rw [page, if_pos hcrossed]
    exact Or.inr (congrArg _ (pageOf_eq_nil_of_lt hcrossed).symm)

end Ledger
end ChainCoverage
