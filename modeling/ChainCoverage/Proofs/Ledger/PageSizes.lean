import ChainCoverage.Proofs.Ledger.Damaged
import ChainCoverage.Proofs.Ledger.Page

/-!
# Malformed keys and the size of pages

A request names the last block of the page before it, and not its key.  So what stands
behind the key of that block and in front of the key of the next one is on no page: a
malformed key there is passed over.  All other malformed keys up to the head are noticed.
Where pages end depends on their size, and so does whether the coverage of a network is
available.  A coverage that is available does not depend on it.

Main definitions:

- `Network.FollowsKey`: the keys between the keys of a block and of the next block.
- `Ledger.Malformed` and `Ledger.PassedOver`: malformed keys, and those that no page takes.
- `Ledger.Noticed`: whether a reading takes a malformed key.

Main results:

- `Ledger.failure_readPagesAfter_iff`: a reading fails exactly when it takes a malformed key.
- `Ledger.coverage_page_sizes`: when the coverage of a network is the same in two page sizes.
-/

namespace ChainCoverage

/-- A key that stands behind the key of a block and in front of the key of the next block. -/
structure Network.FollowsKey (n : Network) (block : Block) (key : Bytes) : Prop where
  behind : compare (n.blockKey block) key = .lt
  before_next : compare key (n.blockKey (block + 1)) = .lt

namespace Ledger

/-- The blocks that a network has marked above `after` and up to `upTo`. -/
noncomputable def markedWithin (s : Ledger) (n : Network) (after : Option Block) (upTo : Block) :
    Finset Block :=
  (s.markedBlocks n).filter fun block => firstAbove after ≤ block.toNat ∧ block ≤ upTo

/-- A key from the first key above `after` to that of `upTo` which is too long or too short. -/
structure Malformed (s : Ledger) (n : Network) (after : Option Block) (upTo : Block)
    (key : Bytes) : Prop where
  mem_blocks : key ∈ s.blocks
  above : (compare key (n.blockKey (.ofNat (firstAbove after)))).isGE
  below : (compare key (n.blockKey upTo)).isLE
  length_ne : key.length ≠ n.keyStem.length + blockWidth

/-- Whether pages of `limit` blocks above `after` pass over a key: it follows the key of a marked
block below the bound, and with that block a page is full. -/
def PassedOver (s : Ledger) (n : Network) (limit : Nat) (after : Option Block) (upTo : Block)
    (key : Bytes) : Prop :=
  ∃ block ∈ s.markedWithin n after upTo, block < upTo ∧ n.FollowsKey block key ∧
    limit ∣ (s.markedWithin n after block).card

/-- Whether a reading in pages of `limit` blocks takes a malformed key above `after`. -/
def Noticed (s : Ledger) (n : Network) (limit : Nat) (after : Option Block) (upTo : Block) :
    Prop :=
  ∃ key, s.Malformed n after upTo key ∧ ¬ s.PassedOver n limit after upTo key

variable {s : Ledger} {n : Network}

/-! ## Marked blocks between two bounds -/

theorem mem_markedWithin {after : Option Block} {upTo block : Block} :
    block ∈ s.markedWithin n after upTo ↔
      n.blockKey block ∈ s.blocks ∧ firstAbove after ≤ block.toNat ∧ block ≤ upTo := by
  rw [markedWithin, Finset.mem_filter, mem_markedBlocks]

/-- A page has the marked blocks up to its last one. -/
theorem card_markedWithin_of_getLast? {request : PageQuery} {last : Block}
    (hlast : (pageOf (ascendingBlocks (s.markedBlocks n)) request).getLast? = some last) :
    (s.markedWithin n request.after last).card =
      (pageOf (ascendingBlocks (s.markedBlocks n)) request).length := by
  have hasc := pairwise_ascendingBlocks (s.markedBlocks n)
  have hnodup : (pageOf (ascendingBlocks (s.markedBlocks n)) request).Nodup :=
    (pairwise_pageOf hasc).imp fun hlt => UInt64.ne_of_lt hlt
  have hwithin := (mem_of_mem_pageOf (List.mem_of_getLast? hlast)).2.2
  rw [← List.toFinset_card_of_nodup hnodup]
  congr 1
  ext block
  rw [mem_markedWithin, List.mem_toFinset]
  constructor
  · rintro ⟨hmem, habove, hle⟩
    exact mem_pageOf_of_le_last hasc hlast (mem_ascendingBlocks.2 (mem_markedBlocks.2 hmem))
      ⟨habove, UInt64.le_trans hle hwithin⟩ hle
  · intro hpage
    obtain ⟨hmem, habove, _⟩ := mem_of_mem_pageOf hpage
    exact ⟨mem_markedBlocks.1 (mem_ascendingBlocks.1 hmem), habove,
      le_of_getLast?_pageOf hasc hlast hpage⟩

/-- Marked blocks are counted up to a block and from it on. -/
theorem card_markedWithin_add {after : Option Block} {middle block : Block}
    (hmiddle : firstAbove after ≤ middle.toNat) (hlt : middle < block) :
    (s.markedWithin n after middle).card + (s.markedWithin n (some middle) block).card =
      (s.markedWithin n after block).card := by
  have hdisjoint : Disjoint (s.markedWithin n after middle)
      (s.markedWithin n (some middle) block) := by
    rw [Finset.disjoint_left]
    intro other hfirst hsecond
    have hbehind := firstAbove_some_le_iff.1 (mem_markedWithin.1 hsecond).2.1
    exact UInt64.not_le.2 hbehind (mem_markedWithin.1 hfirst).2.2
  rw [← Finset.card_union_of_disjoint hdisjoint]
  congr 1
  ext other
  rw [Finset.mem_union, mem_markedWithin, mem_markedWithin, mem_markedWithin]
  have hnext : firstAbove (some middle) = middle.toNat + 1 := rfl
  rw [UInt64.lt_iff_toNat_lt] at hlt
  simp only [UInt64.le_iff_toNat_le, hnext]
  constructor
  · rintro (⟨hmem, habove, hle⟩ | ⟨hmem, habove, hle⟩)
    · exact ⟨hmem, habove, by omega⟩
    · exact ⟨hmem, by omega, hle⟩
  · rintro ⟨hmem, habove, hle⟩
    by_cases hother : other.toNat ≤ middle.toNat
    · exact Or.inl ⟨hmem, habove, hother⟩
    · exact Or.inr ⟨hmem, by omega, hle⟩

/-! ## One page -/

section Page

variable {after : Option Block} {upTo : Block} {limit : Nat} {key : Bytes}

section Taken

variable (hbounds : firstAbove after ≤ upTo.toNat)
  (hmem : key ∈ s.keysWithin (n.blockKey (.ofNat (firstAbove after))) (n.blockKey upTo) limit)
include hbounds hmem

/-- In front of a key on a page stand the keys of all marked blocks up to the one that it
follows. -/
theorem blockKey_mem_keysWithin_of_followsKey {block other : Block} (hle : block ≤ upTo)
    (hfollows : n.FollowsKey block key) (hother : other ∈ s.markedWithin n after block) :
    n.blockKey other ∈
      s.keysWithin (n.blockKey (.ofNat (firstAbove after))) (n.blockKey upTo) limit := by
  have hfirst := s.firstKeys_keysWithin (n.blockKey (.ofNat (firstAbove after)))
    (n.blockKey upTo) limit
  have hlow : (UInt64.ofNat (firstAbove after)).toNat = firstAbove after :=
    Block.toNat_ofNat_of_le hbounds
  obtain ⟨hmarked, habove, hotherLe⟩ := mem_markedWithin.1 hother
  have hge : (compare (n.blockKey other) (n.blockKey (.ofNat (firstAbove after)))).isGE := by
    rw [Std.OrientedCmp.isGE_iff_isLE, n.isLE_compare_blockKey_iff, UInt64.le_iff_toNat_le, hlow]
    exact habove
  have hupTo := n.isLE_compare_blockKey_iff.2 (UInt64.le_trans hotherLe hle)
  by_contra hout
  have hbehind := (hfirst.left_out _ hmarked hge hupTo hout).2 key hmem
  have hfront := Std.TransCmp.lt_of_isLE_of_lt (n.isLE_compare_blockKey_iff.2 hotherLe)
    hfollows.behind
  exact Std.OrientedCmp.not_lt_of_lt hbehind hfront

variable (hlength : key.length ≠ n.keyStem.length + blockWidth)
include hlength

/-- The marked blocks in front of a malformed key on a page do not fill the page. -/
theorem card_markedWithin_lt_of_followsKey {block : Block} (hle : block ≤ upTo)
    (hfollows : n.FollowsKey block key) : (s.markedWithin n after block).card < limit := by
  have hnew : key ∉ (s.markedWithin n after block).image n.blockKey := by
    intro himage
    obtain ⟨other, _, rfl⟩ := Finset.mem_image.1 himage
    exact hlength (n.length_blockKey other)
  have hsubset : insert key ((s.markedWithin n after block).image n.blockKey) ⊆
      (s.keysWithin (n.blockKey (.ofNat (firstAbove after))) (n.blockKey upTo) limit).toFinset := by
    rw [Finset.insert_subset_iff, List.mem_toFinset]
    refine ⟨hmem, fun other hother => ?_⟩
    obtain ⟨taken, htaken, rfl⟩ := Finset.mem_image.1 hother
    exact List.mem_toFinset.2
      (blockKey_mem_keysWithin_of_followsKey hbounds hmem hle hfollows htaken)
  have hcard := (Finset.card_le_card hsubset).trans (List.toFinset_card_le _)
  rw [Finset.card_insert_of_notMem hnew, Finset.card_image_of_injective _ n.blockKey_injective]
    at hcard
  exact hcard.trans (s.firstKeys_keysWithin _ _ limit).length_le

/-- A page takes no key that is passed over. -/
theorem not_passedOver_of_mem_keysWithin : ¬ s.PassedOver n limit after upTo key := by
  rintro ⟨block, hblock, _, hfollows, hdvd⟩
  obtain ⟨hblocks, habove, hle⟩ := mem_markedWithin.1 hblock
  have hnonempty : (s.markedWithin n after block).Nonempty :=
    ⟨block, mem_markedWithin.2 ⟨hblocks, habove, UInt64.le_refl _⟩⟩
  have hfull : limit ≤ (s.markedWithin n after block).card :=
    Nat.le_of_dvd (Finset.card_pos.2 hnonempty) hdvd
  have hlt := card_markedWithin_lt_of_followsKey hbounds hmem hlength hle hfollows
  exact absurd hfull (Nat.not_le.2 hlt)

end Taken

section Keys

variable {blocks : List Block}
  (hkeys : s.keysWithin (n.blockKey (.ofNat (firstAbove after))) (n.blockKey upTo) limit =
    blocks.map n.blockKey)
include hkeys

/-- A malformed key that is not on a page stands behind all keys of the page, and the page is
full. -/
theorem Malformed.behind_page (h : s.Malformed n after upTo key) :
    blocks.length = limit ∧ ∀ block ∈ blocks, compare (n.blockKey block) key = .lt := by
  have hfirst := s.firstKeys_keysWithin (n.blockKey (.ofNat (firstAbove after)))
    (n.blockKey upTo) limit
  rw [hkeys] at hfirst
  have hout : key ∉ blocks.map n.blockKey := by
    intro hmem
    obtain ⟨block, _, rfl⟩ := List.mem_map.1 hmem
    exact h.length_ne (n.length_blockKey block)
  obtain ⟨hfull, hbehind⟩ := hfirst.left_out key h.mem_blocks h.above h.below hout
  rw [List.length_map] at hfull
  exact ⟨hfull, fun block hmem => hbehind _ (List.mem_map_of_mem hmem)⟩

/-- Behind a page that is short or ends with the bound stands no malformed key. -/
theorem not_noticed_of_last_page
    (hend : blocks.length < limit ∨ blocks.getLast? = some upTo) :
    ¬ s.Noticed n limit after upTo := by
  rintro ⟨key, hmalformed, _⟩
  obtain ⟨hfull, hbehind⟩ := hmalformed.behind_page hkeys
  rcases hend with hshort | hlast
  · exact Nat.ne_of_lt hshort hfull
  · exact Std.OrientedCmp.not_isLE_of_lt (hbehind upTo (List.mem_of_getLast? hlast))
      hmalformed.below

/-! ## From one page to the next -/

section Next

variable {last : Block} (hlast : blocks.getLast? = some last) (hbelow : last < upTo)
include hlast hbelow

/-- A malformed key that is not passed over with the last block of a page is left to the pages
behind it. -/
theorem Malformed.of_not_passedOver (h : s.Malformed n after upTo key)
    (hcard : (s.markedWithin n after last).card = blocks.length)
    (hmem : last ∈ s.markedWithin n after upTo) (hpassed : ¬ s.PassedOver n limit after upTo key) :
    s.Malformed n (some last) upTo key := by
  obtain ⟨hfull, hbehind⟩ := h.behind_page hkeys
  refine ⟨h.mem_blocks, ?_, h.below, h.length_ne⟩
  rw [ofNat_firstAbove, Ordering.isGE_iff_ne_lt]
  intro hbefore
  refine hpassed ⟨last, hmem, hbelow, ⟨hbehind last (List.mem_of_getLast? hlast), hbefore⟩, ?_⟩
  rw [hcard, hfull]

end Next

omit hkeys

section Next

variable {last : Block} (hmem : last ∈ s.markedWithin n after upTo) (hbelow : last < upTo)
include hmem hbelow

/-- A malformed key behind a page is one of those that the page was to be taken from. -/
theorem Malformed.of_continued (h : s.Malformed n (some last) upTo key) :
    s.Malformed n after upTo key := by
  obtain ⟨_, habove, hle⟩ := mem_markedWithin.1 hmem
  have hlow : (UInt64.ofNat (firstAbove after)).toNat = firstAbove after :=
    Block.toNat_ofNat_of_le (habove.trans (UInt64.le_iff_toNat_le.1 hle))
  have hnext : (UInt64.ofNat (firstAbove (some last))).toNat = last.toNat + 1 :=
    Block.toNat_ofNat_of_le (firstAbove_some_le_iff.2 hbelow)
  refine ⟨h.mem_blocks, Std.TransCmp.isGE_trans h.above ?_, h.below, h.length_ne⟩
  rw [Std.OrientedCmp.isGE_iff_isLE, n.isLE_compare_blockKey_iff, UInt64.le_iff_toNat_le, hlow,
    hnext]
  exact Nat.le_succ_of_le habove

/-- Behind a full page the same keys are passed over, because the pages end with the same
blocks. -/
theorem passedOver_continued_iff (hcard : (s.markedWithin n after last).card = limit)
    (h : s.Malformed n (some last) upTo key) :
    s.PassedOver n limit after upTo key ↔ s.PassedOver n limit (some last) upTo key := by
  obtain ⟨_, habove, _⟩ := mem_markedWithin.1 hmem
  have hdvd : ∀ block, last < block →
      (limit ∣ (s.markedWithin n after block).card ↔
        limit ∣ (s.markedWithin n (some last) block).card) := by
    intro block hlt
    rw [← card_markedWithin_add habove hlt, hcard]
    exact Nat.dvd_add_right (Nat.dvd_refl limit)
  constructor
  · rintro ⟨block, hblock, hblockBelow, hfollows, hfull⟩
    obtain ⟨hmarked, _, hle⟩ := mem_markedWithin.1 hblock
    -- The key stands behind the last block of the page, and so does the block that it follows.
    have hlt : last < block := by
      have hkey := Std.TransCmp.lt_of_isLE_of_lt (Std.OrientedCmp.isGE_iff_isLE.1 h.above)
        hfollows.before_next
      have hlast : (last + 1).toNat = last.toNat + 1 := Block.toNat_add_one_of_lt hbelow
      have hblock : (block + 1).toNat = block.toNat + 1 := Block.toNat_add_one_of_lt hblockBelow
      rw [ofNat_firstAbove, n.compare_blockKey_eq_lt_iff, UInt64.lt_iff_toNat_lt] at hkey
      rw [UInt64.lt_iff_toNat_lt]
      change (last + 1).toNat < (block + 1).toNat at hkey
      omega
    exact ⟨block, mem_markedWithin.2 ⟨hmarked, firstAbove_some_le_iff.2 hlt, hle⟩, hblockBelow,
      hfollows, (hdvd block hlt).1 hfull⟩
  · rintro ⟨block, hblock, hblockBelow, hfollows, hfull⟩
    obtain ⟨hmarked, hbehind, hle⟩ := mem_markedWithin.1 hblock
    have hlt := firstAbove_some_le_iff.1 hbehind
    have hblockAbove : firstAbove after ≤ block.toNat :=
      habove.trans (Nat.le_of_lt (UInt64.lt_iff_toNat_lt.1 hlt))
    exact ⟨block, mem_markedWithin.2 ⟨hmarked, hblockAbove, hle⟩, hblockBelow, hfollows,
      (hdvd block hlt).2 hfull⟩

/-- Behind a full page the reading goes on with the same keys to notice. -/
theorem noticed_continued_iff
    (hkeys : s.keysWithin (n.blockKey (.ofNat (firstAbove after))) (n.blockKey upTo) limit =
      blocks.map n.blockKey)
    (hlast : blocks.getLast? = some last)
    (hcard : (s.markedWithin n after last).card = blocks.length) (hfull : blocks.length = limit) :
    s.Noticed n limit after upTo ↔ s.Noticed n limit (some last) upTo := by
  constructor
  · rintro ⟨key, hmalformed, hpassed⟩
    have hnext := hmalformed.of_not_passedOver hkeys hlast hbelow hcard hmem hpassed
    exact ⟨key, hnext,
      fun h => hpassed ((passedOver_continued_iff hmem hbelow (hcard.trans hfull) hnext).2 h)⟩
  · rintro ⟨key, hmalformed, hpassed⟩
    refine ⟨key, hmalformed.of_continued hmem hbelow, fun h => hpassed ?_⟩
    exact (passedOver_continued_iff hmem hbelow (hcard.trans hfull) hmalformed).1 h

end Next

end Keys
end Page

/-! ## Readings -/

/-- An answer of a ledger that is no failure is the page of its marked blocks, made of the keys
between the bounds. -/
theorem of_source_eq_ok {after : Option Block} {upTo : Block} {limit : Nat}
    (hbounds : firstAbove after ≤ upTo.toNat) {page : List Block} {next : Ledger}
    (hask : source ⟨n.name, after, upTo, limit⟩ s = (.ok page, next)) :
    next = s ∧ page = pageOf (ascendingBlocks (s.markedBlocks n)) ⟨n.name, after, upTo, limit⟩ ∧
      s.keysWithin (n.blockKey (.ofNat (firstAbove after))) (n.blockKey upTo) limit =
        page.map n.blockKey := by
  obtain ⟨hanswer, hnext⟩ := Prod.mk.inj hask
  rcases s.page_name_of_bounds n hbounds limit with ⟨key, _, _, hpage⟩ | ⟨hkeys, hpage⟩
  · rw [hpage] at hanswer
    cases hanswer
  · rw [hpage] at hanswer
    obtain rfl := Except.ok.inj hanswer
    exact ⟨hnext.symm, rfl, hkeys⟩

/-- A reading fails exactly when it takes a malformed key. -/
theorem failure_readPagesAfter_iff {upTo : Block} {limit : Nat} (hlimit : 0 < limit)
    {after : Option Block} (hbounds : firstAbove after ≤ upTo.toNat) (s : Ledger) (n : Network) :
    (∃ reason, (readPagesAfter source n.name upTo limit after s).failure = some reason) ↔
      s.Noticed n limit after upTo := by
  have hasc := pairwise_ascendingBlocks (s.markedBlocks n)
  fun_induction readPagesAfter source n.name upTo limit after s with
  | case1 after s request failure next hask =>
    rcases s.page_name_of_bounds n hbounds limit with ⟨key, hmem, hnone, hpage⟩ | ⟨_, hpage⟩
    · have hlength := Network.blockOfKey?_eq_none_iff.1 hnone
      obtain ⟨hblocks, habove, hbelow⟩ := of_mem_keysWithin hmem
      refine iff_of_true ⟨_, rfl⟩ ⟨key, ⟨hblocks, habove, hbelow, hlength⟩, ?_⟩
      exact not_passedOver_of_mem_keysWithin hbounds hmem hlength
    · have hanswer : s.page request = .error failure := congrArg Prod.fst hask
      rw [hpage] at hanswer
      cases hanswer
  | case2 after s request page next hask hnone =>
    obtain ⟨_, _, hkeys⟩ := of_source_eq_ok hbounds hask
    refine iff_of_false (fun ⟨_, h⟩ => by contradiction) (not_noticed_of_last_page hkeys ?_)
    rw [List.getLast?_eq_none_iff.1 hnone]
    exact Or.inl hlimit
  | case3 after s request page next hask last hlast hstalled =>
    obtain ⟨_, rfl, _⟩ := of_source_eq_ok hbounds hask
    exact absurd hstalled (Nat.not_lt.2 (mem_of_mem_pageOf (List.mem_of_getLast? hlast)).2.1)
  | case4 after s request page next hask last hlast hprogress hmore ih =>
    obtain ⟨rfl, rfl, hkeys⟩ := of_source_eq_ok hbounds hask
    obtain ⟨hmarked, habove, hle⟩ := mem_of_mem_pageOf (List.mem_of_getLast? hlast)
    have hmem : last ∈ next.markedWithin n after upTo :=
      mem_markedWithin.2 ⟨mem_markedBlocks.1 (mem_ascendingBlocks.1 hmarked), habove, hle⟩
    have hlength : (pageOf (ascendingBlocks (next.markedBlocks n)) request).length ≤ limit :=
      length_pageOf_le
    rw [noticed_continued_iff hmem hmore.2 hkeys hlast (card_markedWithin_of_getLast? hlast)
      (Nat.le_antisymm hlength hmore.1)]
    exact ih (firstAbove_some_le_iff.2 hmore.2) hasc
  | case5 after s request page next hask last hlast hprogress hend =>
    obtain ⟨_, rfl, hkeys⟩ := of_source_eq_ok hbounds hask
    refine iff_of_false (fun ⟨_, h⟩ => by contradiction) (not_noticed_of_last_page hkeys ?_)
    rcases Nat.lt_or_ge (pageOf (ascendingBlocks (s.markedBlocks n)) request).length limit with
      hshort | hfull
    · exact Or.inl hshort
    · have hle := (mem_of_mem_pageOf (List.mem_of_getLast? hlast)).2.2
      have hge := UInt64.not_lt.1 fun hlt => hend ⟨hfull, hlt⟩
      rw [hlast, UInt64.le_antisymm hle hge]
      exact Or.inr rfl

/-- Coverage in pages of any size is unavailable exactly when the reading takes a malformed key;
otherwise it is that of the marked blocks. -/
theorem coverage_name_noticed (p : Partition) (hhead : s.head n.name = .ok p.total)
    (pageSize : Nat) :
    ((∃ reason, s.coverage n.name p.requested pageSize = .error (.unavailable reason)) ↔
        s.Noticed n (max pageSize 1) none p.total) ∧
      (¬ s.Noticed n (max pageSize 1) none p.total →
        s.coverage n.name p.requested pageSize =
          .ok (p.coverageOf fun block => s.blocks.contains (n.blockKey block))) := by
  have horacle : oracle n.name s = (.ok p.total, s) := by
    rw [oracle, hhead]
  have hlimit : 0 < max pageSize 1 := Nat.lt_of_lt_of_le Nat.zero_lt_one (Nat.le_max_right _ _)
  have hfails : (∃ reason, s.coverage n.name p.requested pageSize =
      .error (.unavailable reason)) ↔ s.Noticed n (max pageSize 1) none p.total := by
    rw [← failure_readPagesAfter_iff hlimit (Nat.zero_le _)]
    exact exists_congr fun reason =>
      outcome_measureNetwork_eq_unavailable_iff source n.name pageSize p horacle reason
  refine ⟨hfails, fun hnot => ?_⟩
  rcases coverage_name_cases p hhead pageSize with ⟨reason, _, hfailure⟩ | hcoverage
  · exact absurd (hfails.1 ⟨_, hfailure⟩) hnot
  · exact hcoverage

/-- Two requests for coverage that end alike: both are unavailable, or both have the same
coverage. -/
def EndAlike (first second : Except (CoverageFailure LedgerError) Coverage) : Prop :=
  (∃ reason other, first = .error (.unavailable reason) ∧ second = .error (.unavailable other)) ∨
    ∃ c, first = .ok c ∧ second = .ok c

/-- Requests that have the same coverage when they have one end alike when both have one or
neither has. -/
theorem endAlike_iff {first second : Except (CoverageFailure LedgerError) Coverage} {c : Coverage}
    {fails fails' : Prop} (hfirst : (∃ reason, first = .error (.unavailable reason)) ↔ fails)
    (hsecond : (∃ reason, second = .error (.unavailable reason)) ↔ fails')
    (hok : ¬ fails → first = .ok c) (hok' : ¬ fails' → second = .ok c) :
    EndAlike first second ↔ (fails ↔ fails') := by
  rw [← hfirst] at hok ⊢
  rw [← hsecond] at hok' ⊢
  constructor
  · rintro (⟨reason, other, rfl, rfl⟩ | ⟨c, rfl, rfl⟩)
    · exact iff_of_true ⟨reason, rfl⟩ ⟨other, rfl⟩
    · exact Iff.rfl
  · intro hiff
    by_cases hfails : ∃ reason, first = .error (.unavailable reason)
    · obtain ⟨reason, hreason⟩ := hfails
      obtain ⟨other, hother⟩ := hiff.1 ⟨reason, hreason⟩
      exact Or.inl ⟨reason, other, hreason, hother⟩
    · exact Or.inr ⟨c, hok hfails, hok' fun h => hfails (hiff.2 h)⟩

/-- Where no malformed key follows a marked block, readings in all page sizes notice the same. -/
theorem noticed_iff_of_not_followsKey {upTo : Block} {after : Option Block}
    (hnone : ∀ key block, s.Malformed n after upTo key → block ∈ s.markedWithin n after upTo →
      block < upTo → ¬ n.FollowsKey block key) (limit : Nat) :
    s.Noticed n limit after upTo ↔ ∃ key, s.Malformed n after upTo key := by
  refine exists_congr fun key => and_iff_left_of_imp ?_
  rintro hmalformed ⟨block, hblock, hbelow, hfollows, _⟩
  exact hnone key block hmalformed hblock hbelow hfollows

/-! ## A key that one page size passes over -/

/-- A network for an example. -/
def exampleNetwork : Network :=
  ⟨"main", by decide⟩

/-- A chain of eleven blocks with one of them marked, and behind its key another one that has a byte
too many. -/
def oneLongKey : Ledger :=
  ((empty.insertHead exampleNetwork.headKey (headValue 10)).insertKey
    (exampleNetwork.blockKey 2)).insertKey (exampleNetwork.blockKey 2 ++ [0])

theorem head_oneLongKey : oneLongKey.head exampleNetwork.name = .ok 10 := by
  have hvalue : oneLongKey.heads[exampleNetwork.headKey]? = some (headValue 10) :=
    heads_insertHead.trans (if_pos rfl)
  simp only [head, head?, named_name, hvalue, headOfValue?_headValue]

theorem mem_oneLongKey_iff {key : Bytes} :
    key ∈ oneLongKey.blocks ↔
      key = exampleNetwork.blockKey 2 ++ [0] ∨ key = exampleNetwork.blockKey 2 := by
  have hempty : key ∉ empty.blocks := Std.TreeSet.not_mem_emptyc
  have hheads : key ∉ (empty.insertHead exampleNetwork.headKey (headValue 10)).blocks := hempty
  rw [oneLongKey, mem_insertKey, mem_insertKey, or_iff_left hheads, eq_comm,
    eq_comm (a := exampleNetwork.blockKey 2)]

theorem blockKey_mem_oneLongKey_iff {block : Block} :
    exampleNetwork.blockKey block ∈ oneLongKey.blocks ↔ block = 2 := by
  have hne : exampleNetwork.blockKey block ≠ exampleNetwork.blockKey 2 ++ [0] := by
    intro heq
    have hlength := congrArg List.length heq
    rw [List.length_append, Network.length_blockKey, Network.length_blockKey] at hlength
    exact absurd hlength.symm (Nat.succ_ne_self _)
  rw [mem_oneLongKey_iff, or_iff_right hne, Network.blockKey_inj]
  exact and_iff_right rfl

/-- The one malformed key is the long one. -/
theorem malformed_oneLongKey_iff {key : Bytes} :
    oneLongKey.Malformed exampleNetwork none 10 key ↔ key = exampleNetwork.blockKey 2 ++ [0] := by
  constructor
  · rintro ⟨hmem, _, _, hlength⟩
    refine (mem_oneLongKey_iff.1 hmem).resolve_right ?_
    rintro rfl
    exact hlength (exampleNetwork.length_blockKey 2)
  · rintro rfl
    exact ⟨mem_oneLongKey_iff.2 (Or.inl rfl), by decide, by decide, by decide⟩

/-- Only pages of one block end with the marked block and pass over the key behind it. -/
theorem noticed_oneLongKey_iff (limit : Nat) :
    oneLongKey.Noticed exampleNetwork limit none 10 ↔ limit ≠ 1 := by
  have hwithin : ∀ {upTo block : Block}, 2 ≤ upTo →
      (block ∈ oneLongKey.markedWithin exampleNetwork none upTo ↔ block = 2) := by
    intro upTo block hle
    rw [mem_markedWithin, blockKey_mem_oneLongKey_iff]
    refine ⟨And.left, ?_⟩
    rintro rfl
    exact ⟨rfl, Nat.zero_le _, hle⟩
  have hcard : (oneLongKey.markedWithin exampleNetwork none 2).card = 1 := by
    rw [Finset.card_eq_one]
    refine ⟨2, Finset.ext fun block => ?_⟩
    rw [hwithin (UInt64.le_refl _), Finset.mem_singleton]
  constructor
  · rintro ⟨key, hmalformed, hpassed⟩ rfl
    obtain rfl := malformed_oneLongKey_iff.1 hmalformed
    exact hpassed ⟨2, (hwithin (by decide)).2 rfl, by decide, ⟨by decide, by decide⟩,
      Nat.one_dvd _⟩
  · intro hne
    refine ⟨_, malformed_oneLongKey_iff.2 rfl, ?_⟩
    rintro ⟨block, hblock, _, _, hdvd⟩
    obtain rfl := (hwithin (by decide)).1 hblock
    rw [hcard] at hdvd
    exact hne (Nat.dvd_one.1 hdvd)

/-- In pages of one block the coverage is there, in pages of two it is not. -/
theorem not_endAlike_oneLongKey :
    oneLongKey.head "main" = .ok 10 ∧
      ¬ EndAlike (oneLongKey.coverage "main" 1 1) (oneLongKey.coverage "main" 1 2) := by
  let p : Partition := ⟨10, 1, by decide⟩
  have hsingle := coverage_name_noticed p head_oneLongKey 1
  have hdouble := coverage_name_noticed p head_oneLongKey 2
  refine ⟨head_oneLongKey, fun halike => ?_⟩
  have hsame := (endAlike_iff hsingle.1 hdouble.1 hsingle.2 hdouble.2).1 halike
  exact absurd (hsame.2 ((noticed_oneLongKey_iff 2).2 (by decide)))
    fun h => (noticed_oneLongKey_iff 1).1 h rfl

/-! ## Coverage in two page sizes -/

/-- Of the malformed keys up to the head, one page size may pass over some that another takes, but
only those that stand directly behind the key of a marked block.  So coverage in two page sizes is
the same, or unavailable in both, exactly when both notice a malformed key or neither does. -/
theorem coverage_page_sizes {s : Ledger} {n : Network} {latest : Block}
    (hhead : s.head n.name = .ok latest) {count : UInt32} (hcount : 0 < count)
    (pageSize other : Nat) :
    (∀ size, (∃ reason, s.coverage n.name count size = .error (.unavailable reason)) ↔
        s.Noticed n (max size 1) none latest) ∧
      (∃ c, c.Exact latest count (fun block => s.blocks.contains (n.blockKey block)) ∧
        ∀ size, ¬ s.Noticed n (max size 1) none latest → s.coverage n.name count size = .ok c) ∧
      (EndAlike (s.coverage n.name count pageSize) (s.coverage n.name count other) ↔
        (s.Noticed n (max pageSize 1) none latest ↔ s.Noticed n (max other 1) none latest)) ∧
      ((∀ key block, s.Malformed n none latest key → block ∈ s.markedWithin n none latest →
          block < latest → ¬ n.FollowsKey block key) →
        EndAlike (s.coverage n.name count pageSize) (s.coverage n.name count other)) := by
  let p : Partition := ⟨latest, count, hcount⟩
  have hsize := fun size => coverage_name_noticed (n := n) p hhead size
  have halike := endAlike_iff (hsize pageSize).1 (hsize other).1 (hsize pageSize).2 (hsize other).2
  refine ⟨fun size => (hsize size).1, ⟨_, p.exact_coverageOf _, fun size => (hsize size).2⟩,
    halike, fun hnone => halike.2 ?_⟩
  rw [noticed_iff_of_not_followsKey hnone, noticed_iff_of_not_followsKey hnone]

/-- Pages of two and of five blocks both take the key that pages of one block pass over. -/
theorem coverage_page_sizes_long_key :
    oneLongKey.head "main" = .ok 10 ∧ (0 : UInt32) < 3 ∧
      (∃ c, oneLongKey.coverage "main" 3 1 = .ok c) ∧
      EndAlike (oneLongKey.coverage "main" 3 2) (oneLongKey.coverage "main" 3 5) := by
  have hcount : (0 : UInt32) < 3 := by decide
  obtain ⟨_, ⟨c, _, hcoverage⟩, halike, _⟩ := coverage_page_sizes head_oneLongKey hcount 2 5
  refine ⟨head_oneLongKey, hcount, ⟨c, hcoverage 1 ?_⟩, halike.2 ?_⟩
  · exact fun h => (noticed_oneLongKey_iff 1).1 h rfl
  · rw [noticed_oneLongKey_iff, noticed_oneLongKey_iff]
    decide

end Ledger
end ChainCoverage
