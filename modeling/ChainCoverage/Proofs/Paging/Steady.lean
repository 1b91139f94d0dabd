import ChainCoverage.Proofs.Paging.Requests
import ChainCoverage.Proofs.Paging.Snapshots

/-!
# Reading from a source that does not change

A source that answers every request from one set of blocks, as it should, is read without
failure.  The pages one behind the other are the blocks of the set up to the bound.  All of them
but the last are full.  After a full last page one more request is needed to see that there is
nothing behind it, unless that page ends with the bound.

Main definitions:

- `AnswersFrom`: a source that answers from one set of blocks.
- `PageQuery.listed`: the blocks that a request asks for, without its limit.
- `Paging.Lists`: a reading that lists some blocks.

Main results:

- `lists_readPagesAfter`: a reading from any block on lists what is behind that block.
- `readPages_of_answersFrom`: the pages of a reading, and the number of its requests.
-/

namespace ChainCoverage

variable {σ ε : Type}

/-! ## Sources that do not change -/

/-- Whether all requests for a network, whatever was asked for it before, are answered from one
set of blocks. -/
def AnswersFrom (ask : Source σ ε) (network : String) (blocks : Finset Block) (state : σ) : Prop :=
  ∀ requests : List PageQuery, (∀ request ∈ requests, request.network = network) →
    (answersTo ask requests state).1 =
      requests.map fun request => .ok (pageOf (ascendingBlocks blocks) request)

section AnswersFrom

variable {ask : Source σ ε} {network : String} {blocks : Finset Block} {state : σ}
  {request : PageQuery}

/-- The next request is answered from the set, and so are those after it. -/
theorem AnswersFrom.answer (h : AnswersFrom ask network blocks state)
    (hnetwork : request.network = network) {answer : Except ε (List Block)} {next : σ}
    (hask : ask request state = (answer, next)) :
    answer = .ok (pageOf (ascendingBlocks blocks) request) ∧
      AnswersFrom ask network blocks next := by
  obtain ⟨rfl, rfl⟩ := Prod.mk.inj hask
  constructor
  · exact List.head_eq_of_cons_eq (h [request] (List.forall_mem_singleton.2 hnetwork))
  · intro requests hrequests
    have hanswers := h (request :: requests) (List.forall_mem_cons.2 ⟨hnetwork, hrequests⟩)
    exact List.tail_eq_of_cons_eq hanswers

/-- A source that answers each fetch from the same set. -/
theorem answersFrom_snapshotSource (network : String) (blocks : Finset Block) (fetched : Nat) :
    AnswersFrom (ε := ε) (snapshotSource fun _ => blocks) network blocks fetched := by
  intro requests
  induction requests generalizing fetched with
  | nil => exact fun _ => rfl
  | cons request requests ih =>
    intro hrequests
    exact congrArg (List.cons _) (ih (fetched + 1) (List.forall_mem_cons.1 hrequests).2)

end AnswersFrom

/-! ## What a page leaves -/

/-- The blocks of a list that a request asks for, without its limit. -/
def PageQuery.listed (request : PageQuery) (blocks : List Block) : List Block :=
  blocks.filter fun block =>
    firstAbove request.after ≤ block.toNat && block ≤ request.upTo

section Ascending

variable {blocks : List Block} {request : PageQuery} {last : Block}

theorem mem_listed {block : Block} :
    block ∈ request.listed blocks ↔ block ∈ blocks ∧ request.Covers block :=
  mem_filter_covers

/-- A page that is not full is all that was asked for. -/
theorem listed_eq_pageOf (hshort : (pageOf blocks request).length < request.limit) :
    request.listed blocks = pageOf blocks request := by
  rw [pageOf, List.length_take] at hshort
  rw [pageOf, List.take_of_length_le (by omega)]
  rfl

variable (hasc : blocks.Pairwise (· < ·))
include hasc

theorem pairwise_listed : (request.listed blocks).Pairwise (· < ·) :=
  hasc.filter _

/-- What is asked for is the page and what is behind its last block. -/
theorem listed_eq_append (hlast : (pageOf blocks request).getLast? = some last) :
    request.listed blocks =
      pageOf blocks request ++ (request.continuedAt last).listed blocks := by
  have hcovers := (mem_of_mem_pageOf (List.mem_of_getLast? hlast)).2
  apply (pairwise_listed hasc).eq_of_mem_iff
  · refine List.pairwise_append.2 ⟨pairwise_pageOf hasc, pairwise_listed hasc, ?_⟩
    intro block hpage later hlater
    exact UInt64.lt_of_le_of_lt (le_of_getLast?_pageOf hasc hlast hpage)
      (firstAbove_some_le_iff.1 (mem_listed.1 hlater).2.1)
  · intro block
    rw [List.mem_append, mem_listed, mem_listed]
    -- Up to its last block the page misses nothing.
    constructor
    · rintro ⟨hmem, hblock⟩
      by_cases hle : block ≤ last
      · exact Or.inl (mem_pageOf_of_le_last hasc hlast hmem hblock hle)
      · exact Or.inr ⟨hmem, firstAbove_some_le_iff.2 (UInt64.not_le.1 hle), hblock.2⟩
    · rintro (hpage | ⟨hmem, habove, hle⟩)
      · exact mem_of_mem_pageOf hpage
      · have hlt := UInt64.lt_iff_toNat_lt.1 (firstAbove_some_le_iff.1 habove)
        exact ⟨hmem, hcovers.1.trans (Nat.le_of_lt hlt), hle⟩

/-- A page that ends with the bound is all that was asked for. -/
theorem listed_eq_pageOf_of_getLast?
    (hlast : (pageOf blocks request).getLast? = some request.upTo) :
    request.listed blocks = pageOf blocks request := by
  have hnothing : (request.continuedAt request.upTo).listed blocks = [] := by
    rw [List.eq_nil_iff_forall_not_mem]
    intro block hlisted
    obtain ⟨_, habove, hle⟩ := mem_listed.1 hlisted
    exact UInt64.not_le.2 (firstAbove_some_le_iff.1 habove) hle
  rw [listed_eq_append hasc hlast, hnothing, List.append_nil]

end Ascending

/-! ## Readings that list some blocks -/

/-- A reading that lists some blocks up to a bound in full pages, of which the last may be short.
It asks once for each page, and once more when the last page is full and does not end with the
bound. -/
structure Paging.Lists (limit : Nat) (upTo : Block) (listed : List Block)
    (reading : Paging σ ε) : Prop where
  failure_eq : reading.failure = none
  ne_nil_of_mem : ∀ page ∈ reading.pages, page ≠ []
  flatten_pages : reading.pages.flatten = listed
  length_le_of_mem : ∀ page ∈ reading.pages, page.length ≤ limit
  length_eq_of_mem_dropLast : ∀ page ∈ reading.pages.dropLast, page.length = limit
  length_requests : reading.requests.length =
    if limit ∣ listed.length ∧ upTo ∈ listed then listed.length / limit
    else listed.length / limit + 1

section Steps

variable {limit : Nat} {upTo : Block} {request : PageQuery} {state : σ}

/-- A reading of nothing takes one request. -/
theorem lists_nil : (Paging.single (ε := ε) request [] none state).Lists limit upTo [] where
  failure_eq := rfl
  ne_nil_of_mem := nofun
  flatten_pages := rfl
  length_le_of_mem := nofun
  length_eq_of_mem_dropLast := nofun
  length_requests := by simp [Paging.single]

/-- A reading ends with a page that is short, or that ends with the bound. -/
theorem lists_single {page : List Block} (hpage : page ≠ []) (hle : page.length ≤ limit)
    (hend : page.length = limit → upTo ∈ page) :
    (Paging.single (ε := ε) request [page] none state).Lists limit upTo page where
  failure_eq := rfl
  ne_nil_of_mem := List.forall_mem_singleton.2 hpage
  flatten_pages := List.flatten_singleton
  length_le_of_mem := List.forall_mem_singleton.2 hle
  length_eq_of_mem_dropLast := nofun
  length_requests := by
    have hpos := List.length_pos_iff.2 hpage
    -- A full page ends with the bound; the length of a short one is no multiple of the limit.
    rcases Nat.eq_or_lt_of_le hle with hfull | hshort
    · rw [if_pos ⟨hfull ▸ Nat.dvd_refl _, hend hfull⟩, hfull, Nat.div_self (hfull ▸ hpos)]
      rfl
    · rw [if_neg fun h => Nat.not_dvd_of_pos_of_lt hpos hshort h.1, Nat.div_eq_of_lt hshort]
      rfl

/-- A full page in front of a reading is listed in front, with one more request. -/
theorem lists_cons {page listed : List Block} {rest : Paging σ ε} (hlimit : 0 < limit)
    (hfull : page.length = limit) (hbound : upTo ∉ page) (hrest : rest.Lists limit upTo listed) :
    (Paging.cons request page rest).Lists limit upTo (page ++ listed) where
  failure_eq := hrest.failure_eq
  ne_nil_of_mem := by
    have hpage : page ≠ [] := List.length_pos_iff.1 (hfull.symm ▸ hlimit)
    exact List.forall_mem_cons.2 ⟨hpage, hrest.ne_nil_of_mem⟩
  flatten_pages := congrArg (page ++ ·) hrest.flatten_pages
  length_le_of_mem := List.forall_mem_cons.2 ⟨Nat.le_of_eq hfull, hrest.length_le_of_mem⟩
  length_eq_of_mem_dropLast := by
    intro other hother
    rw [Paging.cons] at hother
    by_cases hnil : rest.pages = []
    · rw [hnil] at hother
      contradiction
    · rw [List.dropLast_cons_of_ne_nil hnil] at hother
      rcases List.mem_cons.1 hother with rfl | hother
      · exact hfull
      · exact hrest.length_eq_of_mem_dropLast other hother
  length_requests := by
    have hdvd : limit ∣ limit + listed.length ↔ limit ∣ listed.length :=
      Nat.dvd_add_right (Nat.dvd_refl limit)
    rw [Paging.requests_cons, List.length_cons, hrest.length_requests]
    simp only [List.length_append, List.mem_append, hfull, hbound, false_or, hdvd,
      Nat.add_div_left _ hlimit]
    split <;> rfl

section Ascending

variable (request) {blocks : List Block} {last : Block} (hasc : blocks.Pairwise (· < ·))
include hasc

/-- A page that is not followed by another request is all that was asked for. -/
theorem lists_last_page (hlast : (pageOf blocks request).getLast? = some last)
    (hend : ¬ (request.limit ≤ (pageOf blocks request).length ∧ last < request.upTo)) :
    (Paging.single (ε := ε) request [pageOf blocks request] none state).Lists
      request.limit request.upTo (request.listed blocks) := by
  have hmem := List.mem_of_getLast? hlast
  have hle : (pageOf blocks request).length ≤ request.limit := length_pageOf_le
  have hreached : (pageOf blocks request).length = request.limit → last = request.upTo := by
    intro hfull
    refine UInt64.le_antisymm (mem_of_mem_pageOf hmem).2.2 (UInt64.not_lt.1 fun hlt => ?_)
    exact hend ⟨Nat.le_of_eq hfull.symm, hlt⟩
  have hall : request.listed blocks = pageOf blocks request := by
    rcases Nat.eq_or_lt_of_le hle with hfull | hshort
    · exact listed_eq_pageOf_of_getLast? hasc (hreached hfull ▸ hlast)
    · exact listed_eq_pageOf hshort
  rw [hall]
  exact lists_single (List.ne_nil_of_mem hmem) hle fun hfull => hreached hfull ▸ hmem

/-- A page that is followed by another request leaves it to the rest of the reading to list what
is behind its last block. -/
theorem lists_first_page {rest : Paging σ ε} (hlimit : 0 < request.limit)
    (hleads : request.LeadsOn (pageOf blocks request) last)
    (hrest : rest.Lists request.limit request.upTo ((request.continuedAt last).listed blocks)) :
    (Paging.cons request (pageOf blocks request) rest).Lists
      request.limit request.upTo (request.listed blocks) := by
  have hlast := hleads.getLast?_eq
  have hlength := Nat.le_antisymm length_pageOf_le hleads.full
  have hbound : request.upTo ∉ pageOf blocks request := fun hmem =>
    UInt64.not_le.2 hleads.below (le_of_getLast?_pageOf hasc hlast hmem)
  rw [listed_eq_append hasc hlast]
  exact lists_cons hlimit hlength hbound hrest

end Ascending
end Steps

/-- A reading from any block on lists the blocks of the set behind that block. -/
theorem lists_readPagesAfter {ask : Source σ ε} {network : String} {blocks : Finset Block}
    (upTo : Block) {limit : Nat} (hlimit : 0 < limit) (after : Option Block) {state : σ}
    (h : AnswersFrom ask network blocks state) :
    (readPagesAfter ask network upTo limit after state).Lists limit upTo
      (PageQuery.listed ⟨network, after, upTo, limit⟩ (ascendingBlocks blocks)) := by
  have hasc := pairwise_ascendingBlocks blocks
  fun_induction readPagesAfter ask network upTo limit after state with
  | case1 after state request failure next hask =>
    cases (h.answer rfl hask).1
  | case2 after state request page next hask hnone =>
    obtain rfl := Except.ok.inj (h.answer rfl hask).1
    have hempty := List.getLast?_eq_none_iff.1 hnone
    have hlisted : request.listed (ascendingBlocks blocks) = [] := by
      rw [listed_eq_pageOf (hempty ▸ hlimit), hempty]
    exact hlisted ▸ lists_nil
  | case3 after state request page next hask last hlast hstalled =>
    obtain rfl := Except.ok.inj (h.answer rfl hask).1
    exact absurd hstalled (Nat.not_lt.2 (mem_of_mem_pageOf (List.mem_of_getLast? hlast)).2.1)
  | case4 after state request page next hask last hlast hprogress hmore ih =>
    obtain ⟨hanswer, hnext⟩ := h.answer rfl hask
    obtain rfl := Except.ok.inj hanswer
    have hleads : request.LeadsOn (pageOf (ascendingBlocks blocks) request) last :=
      ⟨hlast, Nat.le_of_not_lt hprogress, hmore.1, hmore.2⟩
    exact lists_first_page request hasc hlimit hleads (ih hnext)
  | case5 after state request page next hask last hlast hprogress hend =>
    obtain rfl := Except.ok.inj (h.answer rfl hask).1
    exact lists_last_page request hasc hlast hend

/-- The blocks of a set up to a bound, in order. -/
theorem listed_ascendingBlocks (blocks : Finset Block) (network : String) (upTo : Block)
    (limit : Nat) :
    PageQuery.listed ⟨network, none, upTo, limit⟩ (ascendingBlocks blocks) =
      ascendingBlocks (blocks.filter (· ≤ upTo)) := by
  apply (pairwise_listed (pairwise_ascendingBlocks blocks)).eq_of_mem_iff
    (pairwise_ascendingBlocks _)
  intro block
  rw [mem_listed, mem_ascendingBlocks, mem_ascendingBlocks, Finset.mem_filter]
  exact and_congr_right fun _ => and_iff_right (Nat.zero_le _)

/-- A source that answers from one set of blocks is read without failure.  No page is empty, all
but the last are full, and one behind the other they are the blocks of the set up to the bound in
order.  The number of requests is that of the full pages and one more, except that none follows a
full page that ends with the bound. -/
theorem readPages_of_answersFrom {ask : Source σ ε} {network : String} {blocks : Finset Block}
    {state : σ} (h : AnswersFrom ask network blocks state) (upTo : Block) (pageSize : Nat) :
    let limit := max pageSize 1
    let count := (blocks.filter (· ≤ upTo)).card
    let reading := readPages ask network upTo pageSize state
    reading.failure = none ∧
      (∀ page ∈ reading.pages, page ≠ []) ∧
      reading.pages.flatten = ascendingBlocks (blocks.filter (· ≤ upTo)) ∧
      (∀ page ∈ reading.pages, page.length ≤ limit) ∧
      (∀ page ∈ reading.pages.dropLast, page.length = limit) ∧
      reading.requests.length =
        if 0 < count ∧ limit ∣ count ∧ upTo ∈ blocks then count / limit
        else count / limit + 1 := by
  intro limit count reading
  have hlimit : 0 < limit := Nat.lt_of_lt_of_le Nat.zero_lt_one (Nat.le_max_right pageSize 1)
  have hlists := lists_readPagesAfter upTo hlimit none h
  rw [listed_ascendingBlocks] at hlists
  have hcount : (ascendingBlocks (blocks.filter (· ≤ upTo))).length = count :=
    Finset.length_sort _
  have hbound : upTo ∈ ascendingBlocks (blocks.filter (· ≤ upTo)) ↔ upTo ∈ blocks := by
    rw [mem_ascendingBlocks, Finset.mem_filter]
    exact and_iff_left (UInt64.le_refl _)
  have hpos : upTo ∈ blocks → 0 < count := fun hmem =>
    Finset.card_pos.2 ⟨upTo, Finset.mem_filter.2 ⟨hmem, UInt64.le_refl _⟩⟩
  have hcondition : (0 < count ∧ limit ∣ count ∧ upTo ∈ blocks) ↔
      (limit ∣ count ∧ upTo ∈ blocks) :=
    and_iff_right_of_imp fun h => hpos h.2
  have hrequests := hlists.length_requests
  simp only [hcount, hbound] at hrequests
  simp only [hcondition]
  exact ⟨hlists.failure_eq, hlists.ne_nil_of_mem, hlists.flatten_pages, hlists.length_le_of_mem,
    hlists.length_eq_of_mem_dropLast, hrequests⟩

/-- Four blocks in pages of two take two requests up to the last of them, and three beyond it. -/
theorem readPages_of_answersFrom_full_pages :
    let blocks : Finset Block := {1, 3, 5, 7}
    let source : Source Nat Empty := snapshotSource fun _ => blocks
    AnswersFrom source "main" blocks 0 ∧
      (readPages source "main" 7 2 0).requests.length = 2 ∧
      (readPages source "main" 8 2 0).requests.length = 3 := by
  intro blocks source
  have hsource : AnswersFrom source "main" blocks 0 := answersFrom_snapshotSource _ _ _
  obtain ⟨_, _, _, _, _, hlast⟩ := readPages_of_answersFrom hsource 7 2
  obtain ⟨_, _, _, _, _, hbehind⟩ := readPages_of_answersFrom hsource 8 2
  exact ⟨hsource, hlast.trans (by decide), hbehind.trans (by decide)⟩

end ChainCoverage
