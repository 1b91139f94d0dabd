import ChainCoverage.Proofs.Ledger.Marked

/-!
# The contract of a page

Whatever keys a ledger holds, a page is made of the first keys between the keys of its
bounds.  Everything between two keys of a network starts like them, so a page is never
made of another network's keys.  It is refused when one of its keys has the wrong length;
otherwise its keys are those of the blocks on it, and the page fulfils the request.

Main definitions:

- `Ledger.FirstKeys`: the first keys of a ledger between two bounds.

Main results:

- `Ledger.firstKeys_keysWithin`: the keys that a page takes are the first ones.
- `Ledger.page_of_any_keys`: what a page is, from any keys.
-/

namespace ChainCoverage
namespace Ledger

/-- The first keys of a ledger from `low` to `high` bytewise, no more than `limit` of them. -/
structure FirstKeys (s : Ledger) (low high : Bytes) (limit : Nat) (keys : List Bytes) : Prop where
  ordered : keys.Pairwise fun key other => compare key other = .lt
  mem_blocks : ∀ key ∈ keys, key ∈ s.blocks
  between : ∀ key ∈ keys, (compare key low).isGE ∧ (compare key high).isLE
  length_le : keys.length ≤ limit
  /-- What is left out stands behind as many keys as are allowed. -/
  left_out : ∀ key ∈ s.blocks, (compare key low).isGE → (compare key high).isLE → key ∉ keys →
    keys.length = limit ∧ ∀ other ∈ keys, compare other key = .lt

variable {s : Ledger} {n : Network}

/-- The keys that a page takes are the first ones between its bounds. -/
theorem firstKeys_keysWithin (s : Ledger) (low high : Bytes) (limit : Nat) :
    s.FirstKeys low high limit (s.keysWithin low high limit) := by
  have hordered := Std.TreeSet.ordered_toList (t := s.blocks).filter fun key =>
    (compare key low).isGE ∧ (compare key high).isLE
  have hkeys := s.keysWithin_eq low high limit
  constructor
  case ordered =>
    rw [hkeys]
    exact hordered.sublist (List.take_sublist _ _)
  case mem_blocks => exact fun key hmem => (of_mem_keysWithin hmem).1
  case between => exact fun key hmem => (of_mem_keysWithin hmem).2
  case length_le =>
    rw [hkeys]
    exact List.length_take_le _ _
  case left_out =>
    intro key hmem hge hle hout
    have hall : key ∈ s.blocks.toList.filter fun key =>
        (compare key low).isGE ∧ (compare key high).isLE := by
      rw [List.mem_filter, Std.TreeSet.mem_toList, decide_eq_true_iff]
      exact ⟨hmem, hge, hle⟩
    -- What is not among the first keys comes behind all of them.
    rw [← List.take_append_drop limit (List.filter _ _), ← hkeys] at hall hordered
    have hdrop := (List.mem_append.1 hall).resolve_left hout
    have hlonger := List.length_pos_of_mem hdrop
    rw [List.length_drop] at hlonger
    constructor
    · rw [hkeys, List.length_take]
      omega
    · intro other hother
      exact (List.pairwise_append.1 hordered).2.2 other hother key hdrop

/-- The keys between two keys of a network start as those of no other network. -/
theorem isPrefix_iff_of_mem_keysWithin {low high : Block} {limit : Nat} {key : Bytes}
    (hmem : key ∈ s.keysWithin (n.blockKey low) (n.blockKey high) limit) (m : Network) :
    m.keyStem <+: key ↔ m = n := by
  obtain ⟨rest, rfl⟩ := isPrefix_of_mem_keysWithin hmem
  constructor
  · exact Network.eq_of_keyStem_isPrefix
  · rintro rfl
    exact List.prefix_append _ _

theorem isMarked_name_eq_true_iff {block : Block} :
    s.isMarked n.name block = .ok true ↔ block ∈ ascendingBlocks (s.markedBlocks n) := by
  rw [isMarked_name, Except.ok.injEq, Std.TreeSet.contains_iff_mem, mem_ascendingBlocks,
    mem_markedBlocks]

/-- What comes behind a block, as a block. -/
theorem ofNat_firstAbove (after : Option Block) :
    UInt64.ofNat (firstAbove after) = after.elim 0 (· + 1) := by
  cases after with
  | none => rfl
  | some block =>
    rw [firstAbove, UInt64.ofNat_add, UInt64.ofNat_toNat]
    rfl

/-- From any keys, a page takes the first ones between the keys of its bounds, and they are all of
its own network.  It fails exactly when one of them has the wrong length, and says how long that
one is.  A page that does not fail has the blocks of the keys taken and fulfils the request. -/
theorem page_of_any_keys (s : Ledger) (n : Network) {after : Option Block} {upTo : Block}
    (hbounds : ∀ block ∈ after, block < upTo) (limit : Nat) :
    ∃ keys : List Bytes,
      s.FirstKeys (n.blockKey (after.elim 0 (· + 1))) (n.blockKey upTo) limit keys ∧
      (∀ key ∈ keys, ∀ m : Network, m.keyStem <+: key ↔ m = n) ∧
      ((∃ reason, s.page ⟨n.name, after, upTo, limit⟩ = .error reason) ↔
        ∃ key ∈ keys, key.length ≠ n.keyStem.length + blockWidth) ∧
      (∀ reason, s.page ⟨n.name, after, upTo, limit⟩ = .error reason →
        ∃ key ∈ keys, key.length ≠ n.keyStem.length + blockWidth ∧
          reason = .malformedKey key.length) ∧
      ∀ blocks, s.page ⟨n.name, after, upTo, limit⟩ = .ok blocks →
        keys = blocks.map n.blockKey ∧
          PageQuery.FulfilledBy ⟨n.name, after, upTo, limit⟩
            (fun block => s.isMarked n.name block = .ok true) blocks := by
  have hle : firstAbove after ≤ upTo.toNat := by
    cases after with
    | none => exact Nat.zero_le _
    | some block => exact firstAbove_some_le_iff.2 (hbounds block rfl)
  rw [← ofNat_firstAbove]
  refine ⟨_, s.firstKeys_keysWithin _ _ limit, fun key => isPrefix_iff_of_mem_keysWithin, ?_⟩
  rcases s.page_name_of_bounds n hle limit with ⟨key, hmem, hnone, hpage⟩ | ⟨hkeys, hpage⟩
  · have hlength := Network.blockOfKey?_eq_none_iff.1 hnone
    rw [hpage]
    refine ⟨iff_of_true ⟨_, rfl⟩ ⟨key, hmem, hlength⟩, ?_, fun blocks h => by contradiction⟩
    rintro reason ⟨⟩
    exact ⟨key, hmem, hlength, rfl⟩
  · rw [hpage, hkeys]
    refine ⟨iff_of_false (fun ⟨_, h⟩ => by contradiction) ?_, fun reason h => by contradiction, ?_⟩
    · rintro ⟨key, hmem, hlength⟩
      obtain ⟨block, _, rfl⟩ := List.mem_map.1 hmem
      exact hlength (n.length_blockKey block)
    · rintro blocks ⟨⟩
      refine ⟨rfl, ?_⟩
      simp only [isMarked_name_eq_true_iff]
      exact fulfilledBy_pageOf (pairwise_ascendingBlocks _) _

/-- A key with a byte too many is refused below the bound of a page; the key of a network with a
longer name is not even looked at. -/
theorem page_of_any_keys_long_key :
    let main : Network := ⟨"main", by decide⟩
    let mainnet : Network := ⟨"mainnet", by decide⟩
    let s := (empty.insertKey (mainnet.blockKey 6)).insertKey (main.blockKey 6 ++ [0])
    (∀ block ∈ some (5 : Block), block < 7) ∧
      s.page ⟨"main", some 5, 7, 1⟩ = .error (.malformedKey 14) := by
  intro main mainnet s
  have hbounds : ∀ block ∈ some (5 : Block), block < 7 := by
    rintro block ⟨⟩
    decide
  refine ⟨hbounds, ?_⟩
  obtain ⟨keys, hfirst, hown, hfails, hreason, _⟩ := s.page_of_any_keys main hbounds 1
  -- Of the two keys only the long one starts like those of the network.
  have hlong : ∀ key ∈ keys, key = main.blockKey 6 ++ [0] := by
    intro key hmem
    rcases mem_insertKey.1 (hfirst.mem_blocks key hmem) with rfl | hmem'
    · rfl
    · rcases mem_insertKey.1 hmem' with rfl | hempty
      · exact absurd ((hown _ hmem mainnet).1 (List.prefix_append _ _)) (by decide)
      · exact absurd hempty Std.TreeSet.not_mem_emptyc
  have hmem : main.blockKey 6 ++ [0] ∈ keys := by
    by_contra hout
    have hblocks : main.blockKey 6 ++ [0] ∈ s.blocks := mem_insertKey.2 (Or.inl rfl)
    obtain ⟨hlength, _⟩ := hfirst.left_out _ hblocks (by decide) (by decide) hout
    obtain ⟨key, rfl⟩ := List.length_eq_one_iff.1 hlength
    rw [hlong key List.mem_cons_self] at hout
    exact hout List.mem_cons_self
  obtain ⟨reason, hpage⟩ := hfails.2 ⟨_, hmem, by decide⟩
  obtain ⟨key, hkey, _, rfl⟩ := hreason reason hpage
  have hlength : (main.blockKey 6 ++ [0]).length = 14 := by decide
  rw [hlong key hkey, hlength] at hpage
  exact hpage

end Ledger
end ChainCoverage
