import ChainCoverage.Paging
import Mathlib.Data.Finset.Sort

/-!
# What a page decides

A page that a set of blocks answers a request with settles an interval of blocks: up to
its last block when it is full, and up to the bound of the request when it is short.
Within that interval the page holds exactly the blocks of the set.

Main results:

- `PageQuery.FulfilledBy`: what a page has to hold.
- `PageQuery.Decides`: the blocks that an answer settles.
- `mem_pageOf_iff_of_decides`: a settled block is on the page exactly when it is in the set.
-/

namespace ChainCoverage

/-- A set of blocks in ascending order. -/
def ascendingBlocks (blocks : Finset Block) : List Block :=
  blocks.sort (· ≤ ·)

@[simp]
theorem mem_ascendingBlocks {blocks : Finset Block} {block : Block} :
    block ∈ ascendingBlocks blocks ↔ block ∈ blocks :=
  Finset.mem_sort _

theorem pairwise_ascendingBlocks (blocks : Finset Block) :
    (ascendingBlocks blocks).Pairwise (· < ·) := by
  have hle : (ascendingBlocks blocks).Pairwise (· ≤ ·) := blocks.pairwise_sort (· ≤ ·)
  have hne : (ascendingBlocks blocks).Pairwise (· ≠ ·) := blocks.sort_nodup (· ≤ ·)
  exact (hle.and hne).imp fun h => UInt64.lt_of_le_of_ne h.1 h.2

/-- What lies above a block is what comes behind it. -/
theorem firstAbove_some_le_iff {after block : Block} :
    firstAbove (some after) ≤ block.toNat ↔ after < block :=
  UInt64.lt_iff_toNat_lt.symm

/-- A page that ends above its cursor and below the bound leaves less to read. -/
theorem sub_firstAbove_lt {after : Option Block} {last upTo : Block}
    (habove : firstAbove after ≤ last.toNat) (hbelow : last < upTo) :
    upTo.toNat + 1 - firstAbove (some last) < upTo.toNat + 1 - firstAbove after := by
  rw [UInt64.lt_iff_toNat_lt] at hbelow
  have hnext : firstAbove (some last) = last.toNat + 1 := rfl
  omega

namespace PageQuery

/-- The blocks that a request asks for. -/
def Covers (request : PageQuery) (block : Block) : Prop :=
  firstAbove request.after ≤ block.toNat ∧ block ≤ request.upTo

/-- What a source owes a request when these blocks are indexed. -/
structure FulfilledBy (request : PageQuery) (indexed : Block → Prop) (page : List Block) :
    Prop where
  ascending : page.Pairwise (· < ·)
  covers : ∀ block ∈ page, request.Covers block
  length_le : page.length ≤ request.limit
  indexed_of_mem : ∀ block ∈ page, indexed block
  /-- Up to its last block the page misses nothing. -/
  mem_of_le_last : ∀ last, page.getLast? = some last →
    ∀ block, indexed block → request.Covers block → block ≤ last → block ∈ page
  /-- A page that is not full misses nothing at all. -/
  mem_of_length_lt : page.length < request.limit →
    ∀ block, indexed block → request.Covers block → block ∈ page

/-- The last block that a page settles: its own last block when the page is full, the bound of
the request when it is short. -/
def settledTo (request : PageQuery) (page : List Block) : Block :=
  if request.limit ≤ page.length then page.getLast?.getD request.upTo else request.upTo

/-- A page decides the blocks above the request's cursor up to the last block it settles. -/
def Decides (request : PageQuery) (page : List Block) (block : Block) : Prop :=
  firstAbove request.after ≤ block.toNat ∧ block ≤ request.settledTo page

end PageQuery

section Ascending

variable {blocks : List Block} {request : PageQuery} {block : Block}

theorem mem_filter_covers :
    block ∈ blocks.filter (fun block =>
      firstAbove request.after ≤ block.toNat && block ≤ request.upTo) ↔
      block ∈ blocks ∧ request.Covers block := by
  rw [List.mem_filter, Bool.and_eq_true, decide_eq_true_iff, decide_eq_true_iff]
  rfl

/-- A page holds blocks of the set that the request asks for. -/
theorem mem_of_mem_pageOf (hmem : block ∈ pageOf blocks request) :
    block ∈ blocks ∧ request.Covers block :=
  mem_filter_covers.1 (List.mem_of_mem_take hmem)

/-- A page is no longer than the request allows. -/
theorem length_pageOf_le : (pageOf blocks request).length ≤ request.limit :=
  List.length_take_le _ _

/-- Nothing is on a page whose bounds are crossed. -/
theorem pageOf_eq_nil_of_lt (hbelow : request.upTo.toNat < firstAbove request.after) :
    pageOf blocks request = [] := by
  rw [List.eq_nil_iff_forall_not_mem]
  intro block hmem
  obtain ⟨_, habove, hle⟩ := mem_of_mem_pageOf hmem
  rw [UInt64.le_iff_toNat_le] at hle
  omega

variable (hasc : blocks.Pairwise (· < ·))
include hasc

theorem pairwise_pageOf : (pageOf blocks request).Pairwise (· < ·) :=
  (hasc.filter _).sublist (List.take_sublist _ _)

theorem le_of_getLast?_pageOf {last : Block} (hlast : (pageOf blocks request).getLast? = some last)
    (hmem : block ∈ pageOf blocks request) : block ≤ last := by
  obtain ⟨front, hpage⟩ := List.getLast?_eq_some_iff.1 hlast
  have hpairwise : (pageOf blocks request).Pairwise (· < ·) := pairwise_pageOf hasc
  rw [hpage] at hmem hpairwise
  rcases List.mem_append.1 hmem with hfront | htail
  · exact UInt64.le_of_lt ((List.pairwise_append.1 hpairwise).2.2 block hfront last (by simp))
  · rw [List.mem_singleton.1 htail]
    exact UInt64.le_refl _

/-- Up to its last block a page misses nothing. -/
theorem mem_pageOf_of_le_last {last : Block} (hlast : (pageOf blocks request).getLast? = some last)
    (hmem : block ∈ blocks) (hcovers : request.Covers block) (hle : block ≤ last) :
    block ∈ pageOf blocks request := by
  have hall := mem_filter_covers.2 ⟨hmem, hcovers⟩
  rw [← List.take_append_drop request.limit (List.filter _ _)] at hall
  rcases List.mem_append.1 hall with htake | hdrop
  · exact htake
  · have hpairwise := hasc.filter fun block =>
      firstAbove request.after ≤ block.toNat && block ≤ request.upTo
    rw [← List.take_append_drop request.limit (List.filter _ _), List.pairwise_append] at hpairwise
    have hlt := hpairwise.2.2 last (List.mem_of_getLast? hlast) block hdrop
    exact absurd hlt (UInt64.not_lt.2 hle)

omit hasc in
/-- A short page misses nothing at all. -/
theorem mem_pageOf_of_length_lt (hlength : (pageOf blocks request).length < request.limit)
    (hmem : block ∈ blocks) (hcovers : request.Covers block) : block ∈ pageOf blocks request := by
  have hall := mem_filter_covers.2 ⟨hmem, hcovers⟩
  rw [pageOf, List.length_take] at hlength
  rw [pageOf, List.take_of_length_le (by omega)]
  exact hall

/-- A fixed list of blocks fulfils every request. -/
theorem fulfilledBy_pageOf (request : PageQuery) :
    request.FulfilledBy (· ∈ blocks) (pageOf blocks request) where
  ascending := pairwise_pageOf hasc
  covers _ hmem := (mem_of_mem_pageOf hmem).2
  length_le := length_pageOf_le
  indexed_of_mem _ hmem := (mem_of_mem_pageOf hmem).1
  mem_of_le_last _ hlast _ := mem_pageOf_of_le_last hasc hlast
  mem_of_length_lt hlength _ := mem_pageOf_of_length_lt hlength

/-- A block that a page settles is on the page exactly when it is in the set. -/
theorem mem_pageOf_iff_of_decides (hlimit : 0 < request.limit)
    (hdecides : request.Decides (pageOf blocks request) block) :
    block ∈ pageOf blocks request ↔ block ∈ blocks := by
  refine ⟨fun hmem => (mem_of_mem_pageOf hmem).1, fun hmem => ?_⟩
  obtain ⟨habove, hsettled⟩ := hdecides
  unfold PageQuery.settledTo at hsettled
  split at hsettled
  · rename_i hfull
    cases hlast : (pageOf blocks request).getLast? with
    | none =>
      rw [List.getLast?_eq_none_iff.1 hlast] at hfull
      exact absurd hlimit (Nat.not_lt.2 hfull)
    | some last =>
      rw [hlast] at hsettled
      have hwithin : last ≤ request.upTo :=
        (mem_of_mem_pageOf (List.mem_of_getLast? hlast)).2.2
      exact mem_pageOf_of_le_last hasc hlast hmem
        ⟨habove, UInt64.le_trans hsettled hwithin⟩ hsettled
  · rename_i hshort
    exact mem_pageOf_of_length_lt (Nat.lt_of_not_le hshort) hmem ⟨habove, hsettled⟩

end Ascending
end ChainCoverage
