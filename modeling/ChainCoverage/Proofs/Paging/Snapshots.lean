import ChainCoverage.Proofs.Paging.Page

/-!
# Reading while the source changes

Each page is read from the set of blocks that the source holds at that moment, so the
pages of one reading come from different sets.  The intervals that the pages settle
follow one another without a gap and without an overlap, so each block is settled by one
fetch, and the reading holds it exactly when the set of that fetch does.

Main results:

- `snapshotSource`: a source that answers each fetch from a set of its own.
- `DecidedBy`: the fetch whose answer settles a block.
- `settles_readPages`: the fetches of a reading settle every block once.
-/

namespace ChainCoverage

/-- A source that answers its fetches from a sequence of sets, each fetch from the set of its own
number. -/
def snapshotSource {ε : Type} (snapshots : Nat → Finset Block) : Source Nat ε :=
  fun request fetched => (.ok (pageOf (ascendingBlocks (snapshots fetched)) request), fetched + 1)

/-- Whether the fetch number `k` of some requests, answered from the set of that number, decides a
block. -/
def DecidedBy (snapshots : Nat → Finset Block) (requests : List PageQuery) (k : Nat)
    (block : Block) : Prop :=
  ∃ request, requests[k]? = some request ∧
    request.Decides (pageOf (ascendingBlocks (snapshots k)) request) block

variable {ε : Type} {snapshots : Nat → Finset Block}

@[simp]
theorem decidedBy_nil {k : Nat} {block : Block} : ¬ DecidedBy snapshots [] k block := by
  rintro ⟨request, hrequest, _⟩
  simp at hrequest

@[simp]
theorem decidedBy_cons_zero {request : PageQuery} {requests : List PageQuery} {block : Block} :
    DecidedBy snapshots (request :: requests) 0 block ↔
      request.Decides (pageOf (ascendingBlocks (snapshots 0)) request) block := by
  simp [DecidedBy]

@[simp]
theorem decidedBy_cons_succ {request : PageQuery} {requests : List PageQuery} {k : Nat}
    {block : Block} :
    DecidedBy snapshots (request :: requests) (k + 1) block ↔
      DecidedBy (fun k => snapshots (k + 1)) requests k block := by
  simp [DecidedBy]

/-! ## The fetches tile what is read -/

/-- A reading of the blocks above `after` up to `upTo` that settles each of them once. -/
structure Settles (snapshots : Nat → Finset Block) (after : Option Block) (upTo : Block)
    (reading : Paging Nat ε) : Prop where
  failure_eq : reading.failure = none
  exists_decidedBy : ∀ block : Block, firstAbove after ≤ block.toNat → block ≤ upTo →
    ∃ k, DecidedBy snapshots reading.requests k block
  covers_of_decidedBy : ∀ k block, DecidedBy snapshots reading.requests k block →
    firstAbove after ≤ block.toNat ∧ block ≤ upTo
  decidedBy_unique : ∀ j k block, DecidedBy snapshots reading.requests j block →
    DecidedBy snapshots reading.requests k block → j = k
  mem_pages_iff : ∀ k block, DecidedBy snapshots reading.requests k block →
    (block ∈ reading.pages.flatten ↔ block ∈ snapshots k)
  covers_of_mem_pages : ∀ block ∈ reading.pages.flatten,
    firstAbove after ≤ block.toNat ∧ block ≤ upTo

section Step

variable (snapshots : Nat → Finset Block) (request : PageQuery) (hlimit : 0 < request.limit)
include hlimit

/-- A page that settles all that its request asks for ends the reading. -/
theorem settles_single {pages : List (List Block)} {fetched : Nat}
    (hsettled : request.settledTo (pageOf (ascendingBlocks (snapshots 0)) request) = request.upTo)
    (hpages : pages.flatten = pageOf (ascendingBlocks (snapshots 0)) request) :
    Settles (ε := ε) snapshots request.after request.upTo
      (.single request pages none fetched) where
  failure_eq := rfl
  exists_decidedBy block habove hle := by
    refine ⟨0, ?_⟩
    rw [Paging.single, decidedBy_cons_zero, PageQuery.Decides, hsettled]
    exact ⟨habove, hle⟩
  covers_of_decidedBy k block hdecided := by
    cases k with
    | zero =>
      rw [Paging.single, decidedBy_cons_zero, PageQuery.Decides, hsettled] at hdecided
      exact hdecided
    | succ k => simp [Paging.single] at hdecided
  decidedBy_unique j k block hj hk := by
    cases j <;> cases k <;> simp_all [Paging.single]
  mem_pages_iff k block hdecided := by
    cases k with
    | zero =>
      rw [Paging.single, decidedBy_cons_zero] at hdecided
      rw [Paging.single, hpages,
        mem_pageOf_iff_of_decides (pairwise_ascendingBlocks _) hlimit hdecided,
        mem_ascendingBlocks]
    | succ k => simp [Paging.single] at hdecided
  covers_of_mem_pages block hmem := by
    rw [Paging.single, hpages] at hmem
    exact (mem_of_mem_pageOf hmem).2

/-- A full page below the bound settles the blocks up to its last one, and the rest of the reading
settles those behind it. -/
theorem settles_cons {last : Block} {rest : Paging Nat ε}
    (hlast : (pageOf (ascendingBlocks (snapshots 0)) request).getLast? = some last)
    (hsettled : request.settledTo (pageOf (ascendingBlocks (snapshots 0)) request) = last)
    (hrest : Settles (fun k => snapshots (k + 1)) (some last) request.upTo rest) :
    Settles snapshots request.after request.upTo
      (.cons request (pageOf (ascendingBlocks (snapshots 0)) request) rest) := by
  have hcovers := (mem_of_mem_pageOf (List.mem_of_getLast? hlast)).2
  have hasc := pairwise_ascendingBlocks (snapshots 0)
  have hfirst : ∀ block, DecidedBy snapshots (request :: rest.requests) 0 block ↔
      firstAbove request.after ≤ block.toNat ∧ block ≤ last := by
    intro block
    rw [decidedBy_cons_zero, PageQuery.Decides, hsettled]
  have hlater : ∀ k block, DecidedBy snapshots (request :: rest.requests) (k + 1) block →
      last < block ∧ block ≤ request.upTo := by
    intro k block hdecided
    obtain ⟨habove, hle⟩ := hrest.covers_of_decidedBy k block (decidedBy_cons_succ.1 hdecided)
    exact ⟨firstAbove_some_le_iff.1 habove, hle⟩
  have hbehind : ∀ block, last < block → firstAbove request.after ≤ block.toNat :=
    fun block hlt => Nat.le_trans hcovers.1 (Nat.le_of_lt (UInt64.lt_iff_toNat_lt.1 hlt))
  refine ⟨hrest.failure_eq, ?_, ?_, ?_, ?_, ?_⟩
  · intro block habove hle
    by_cases hblock : block ≤ last
    · exact ⟨0, (hfirst block).2 ⟨habove, hblock⟩⟩
    · have hlt := firstAbove_some_le_iff.2 (UInt64.not_le.1 hblock)
      obtain ⟨k, hk⟩ := hrest.exists_decidedBy block hlt hle
      exact ⟨k + 1, decidedBy_cons_succ.2 hk⟩
  · intro k block hdecided
    cases k with
    | zero =>
      obtain ⟨habove, hle⟩ := (hfirst block).1 hdecided
      exact ⟨habove, UInt64.le_trans hle hcovers.2⟩
    | succ k =>
      obtain ⟨hlt, hle⟩ := hlater k block hdecided
      exact ⟨hbehind block hlt, hle⟩
  · intro j k block hj hk
    -- The first page settles no block behind its last one, the rest settles only such blocks.
    cases j with
    | zero =>
      cases k with
      | zero => rfl
      | succ k => exact absurd ((hfirst block).1 hj).2 (UInt64.not_le.2 (hlater k block hk).1)
    | succ j =>
      cases k with
      | zero => exact absurd ((hfirst block).1 hk).2 (UInt64.not_le.2 (hlater j block hj).1)
      | succ k =>
        rw [hrest.decidedBy_unique j k block (decidedBy_cons_succ.1 hj) (decidedBy_cons_succ.1 hk)]
  · intro k block hdecided
    rw [Paging.cons, List.flatten_cons, List.mem_append]
    cases k with
    | zero =>
      have hle := ((hfirst block).1 hdecided).2
      rw [mem_pageOf_iff_of_decides hasc hlimit (decidedBy_cons_zero.1 hdecided),
        mem_ascendingBlocks, or_iff_left]
      intro hmem
      have hlt := firstAbove_some_le_iff.1 (hrest.covers_of_mem_pages block hmem).1
      exact UInt64.not_le.2 hlt hle
    | succ k =>
      have hlt := (hlater k block hdecided).1
      rw [hrest.mem_pages_iff k block (decidedBy_cons_succ.1 hdecided), or_iff_right]
      intro hmem
      exact UInt64.not_le.2 hlt (le_of_getLast?_pageOf hasc hlast hmem)
  · intro block hmem
    rw [Paging.cons, List.flatten_cons, List.mem_append] at hmem
    rcases hmem with hpage | hpages
    · exact (mem_of_mem_pageOf hpage).2
    · obtain ⟨habove, hle⟩ := hrest.covers_of_mem_pages block hpages
      exact ⟨hbehind block (firstAbove_some_le_iff.1 habove), hle⟩

end Step

/-! ## Readings -/

/-- The fetches of a reading settle every block above its cursor once. -/
theorem settles_readPagesAfter (snapshots : Nat → Finset Block) (network : String) (upTo : Block)
    {limit : Nat} (hlimit : 0 < limit) (after : Option Block) (fetched : Nat) :
    Settles (ε := ε) (fun k => snapshots (fetched + k)) after upTo
      (readPagesAfter (snapshotSource snapshots) network upTo limit after fetched) := by
  let request : PageQuery := ⟨network, after, upTo, limit⟩
  unfold readPagesAfter
  simp only [snapshotSource]
  split
  · rename_i hnone
    have hempty := List.getLast?_eq_none_iff.1 hnone
    refine settles_single (fun k => snapshots (fetched + k)) request hlimit ?_ hempty.symm
    change request.settledTo (pageOf (ascendingBlocks (snapshots fetched)) request) = upTo
    rw [hempty, PageQuery.settledTo]
    exact if_neg (Nat.not_le.2 hlimit)
  · rename_i last hlast
    have hcovers := (mem_of_mem_pageOf (List.mem_of_getLast? hlast)).2
    rw [if_neg (Nat.not_lt.2 hcovers.1)]
    split
    · rename_i hmore
      have hrest := settles_readPagesAfter snapshots network upTo hlimit (some last) (fetched + 1)
      refine settles_cons (fun k => snapshots (fetched + k)) request hlimit hlast ?_ ?_
      · change request.settledTo (pageOf (ascendingBlocks (snapshots fetched)) request) = last
        rw [PageQuery.settledTo, if_pos hmore.1, hlast]
        rfl
      · simpa only [Nat.add_assoc, Nat.add_comm 1] using hrest
    · rename_i hend
      refine settles_single (fun k => snapshots (fetched + k)) request hlimit ?_
        List.flatten_singleton
      change request.settledTo (pageOf (ascendingBlocks (snapshots fetched)) request) = upTo
      unfold PageQuery.settledTo
      split
      · rename_i hfull
        rw [hlast]
        exact UInt64.le_antisymm hcovers.2 (UInt64.not_lt.1 fun hlt => hend ⟨hfull, hlt⟩)
      · rfl
termination_by upTo.toNat + 1 - firstAbove after
decreasing_by
  rename_i hmore
  exact sub_firstAbove_lt hcovers.1 hmore.2

/-- The fetches of a reading settle every block up to its bound once. -/
theorem settles_readPages (snapshots : Nat → Finset Block) (network : String) (upTo : Block)
    (pageSize : Nat) :
    Settles (ε := ε) snapshots none upTo
      (readPages (snapshotSource snapshots) network upTo pageSize 0) := by
  have hsettles := settles_readPagesAfter (ε := ε) snapshots network upTo
    (Nat.lt_of_lt_of_le Nat.zero_lt_one (Nat.le_max_right pageSize 1)) none 0
  simpa only [Nat.zero_add, readPages] using hsettles

end ChainCoverage
