import ChainCoverage.Proofs.Paging.Answers

/-!
# What a reading asks for

Only the source's answers decide how a reading goes on, and a source may answer anything.
A request is followed by another one exactly when its answer is a full page that ends
above its cursor and below its bound; so the cursors rise from request to request and
stay below the bound, and there are no more requests than blocks.

Main definitions:

- `PageQuery.LeadsOn`: the pages that are followed by another request.
- `Paging.Chained`: a reading whose requests and pages follow from its answers.
- `Ends`: the answers that no request follows, whatever was asked.
- `Paging.Orderly`: what holds of a reading's requests.

Main results:

- `chained_readPages`: the requests and pages of every reading follow from its answers.
- `orderly_readPages`: every reading is orderly.
-/

namespace ChainCoverage

variable {σ ε : Type}

namespace PageQuery

/-- Whether a page that answers a request ends above its cursor. -/
def Advances (request : PageQuery) (page : List Block) : Prop :=
  ∃ last, page.getLast? = some last ∧ firstAbove request.after ≤ last.toNat

/-- A page that is followed by another request: it is full, and its last block stands above the
cursor of its request and below the bound. -/
structure LeadsOn (request : PageQuery) (page : List Block) (last : Block) : Prop where
  getLast?_eq : page.getLast? = some last
  above : firstAbove request.after ≤ last.toNat
  full : request.limit ≤ page.length
  below : last < request.upTo

/-- The request that asks for the same above another block. -/
def continuedAt (request : PageQuery) (last : Block) : PageQuery :=
  { request with after := some last }

end PageQuery

/-! ## Requests and pages follow from the answers -/

/-- A reading from the request `first` on whose requests and pages follow from its answers. -/
structure Paging.Chained (ask : Source σ ε) (first : PageQuery) (state : σ)
    (reading : Paging σ ε) : Prop where
  head?_requests : reading.requests.head? = some first
  /-- A request is followed by another one exactly when its answer leads on. -/
  next_iff : ∀ (k : Nat) (request : PageQuery), reading.requests[k]? = some request → ∀ next,
    (reading.requests[k + 1]? = some next ↔
      ∃ page last, (answersTo ask reading.requests state).1[k]? = some (.ok page) ∧
        request.LeadsOn page last ∧ next = request.continuedAt last)
  /-- A reading holds the pages that end above their cursors. -/
  page_iff : ∀ (k : Nat) (request : PageQuery), reading.requests[k]? = some request → ∀ page,
    (reading.pages[k]? = some page ↔
      (answersTo ask reading.requests state).1[k]? = some (.ok page) ∧ request.Advances page)

section Steps

variable {ask : Source σ ε} {request : PageQuery} {state next : σ}

/-- A reading ends with an answer that does not lead on. -/
theorem chained_single {answer : Except ε (List Block)} {pages : List (List Block)}
    {failure : Option (Unavailable ε)} (hask : ask request state = (answer, next))
    (hend : ∀ page last, answer = .ok page → ¬ request.LeadsOn page last)
    (hpages : ∀ page, pages[0]? = some page ↔ answer = .ok page ∧ request.Advances page) :
    (Paging.single request pages failure next).Chained ask request state := by
  have hanswers : answersTo ask [request] state = ([answer], next) := by
    simp only [answersTo, hask]
  have hrequest : ∀ k r, [request][k]? = some r → k = 0 ∧ r = request := by
    intro k r h
    cases k with
    | zero => exact ⟨rfl, (Option.some.inj h).symm⟩
    | succ k => cases h
  constructor
  · rfl
  · intro k r hk following
    obtain ⟨rfl, rfl⟩ := hrequest k r hk
    simp only [Paging.single, hanswers]
    constructor
    · intro h
      cases h
    · rintro ⟨page, last, hanswer, hleads, _⟩
      exact absurd hleads (hend page last (Option.some.inj hanswer))
  · intro k r hk page
    obtain ⟨rfl, rfl⟩ := hrequest k r hk
    simp only [Paging.single, hanswers, List.getElem?_cons_zero, Option.some.injEq]
    exact hpages page

/-- A page that leads on is followed by the rest of the reading. -/
theorem chained_cons {page : List Block} {last : Block} {rest : Paging σ ε}
    (hask : ask request state = (.ok page, next)) (hleads : request.LeadsOn page last)
    (hrest : rest.Chained ask (request.continuedAt last) next) :
    (Paging.cons request page rest).Chained ask request state := by
  have hanswers : (answersTo ask (request :: rest.requests) state).1 =
      .ok page :: (answersTo ask rest.requests next).1 := by
    simp only [answersTo, hask]
  constructor
  · rfl
  · intro k r hk following
    rw [Paging.requests_cons, hanswers] at *
    cases k with
    | zero =>
      obtain rfl : request = r := Option.some.inj hk
      have hfirst := hrest.head?_requests
      rw [List.head?_eq_getElem?] at hfirst
      rw [List.getElem?_cons_succ, hfirst]
      constructor
      · intro h
        exact ⟨page, last, rfl, hleads, (Option.some.inj h).symm⟩
      · rintro ⟨other, final, hother, hfinal, rfl⟩
        cases hother
        obtain rfl := Option.some.inj (hleads.getLast?_eq.symm.trans hfinal.getLast?_eq)
        rfl
    | succ k => exact hrest.next_iff k r hk following
  · intro k r hk other
    rw [Paging.requests_cons, hanswers] at *
    cases k with
    | zero =>
      obtain rfl : request = r := Option.some.inj hk
      have hadvances : request.Advances page := ⟨last, hleads.getLast?_eq, hleads.above⟩
      constructor
      · intro h
        obtain rfl : page = other := Option.some.inj h
        exact ⟨rfl, hadvances⟩
      · rintro ⟨h, _⟩
        cases h
        rfl
    | succ k => exact hrest.page_iff k r hk other

end Steps

/-- The requests and pages of a reading from any block on follow from its answers. -/
theorem chained_readPagesAfter (ask : Source σ ε) (network : String) (upTo : Block) (limit : Nat)
    (after : Option Block) (state : σ) :
    (readPagesAfter ask network upTo limit after state).Chained ask
      ⟨network, after, upTo, limit⟩ state := by
  rw [readPagesAfter]
  rcases hask : ask ⟨network, after, upTo, limit⟩ state with ⟨answer, next⟩
  cases answer with
  | error failure => exact chained_single hask (by simp) (by simp)
  | ok page =>
    dsimp only
    cases hlast : page.getLast? with
    | none =>
      refine chained_single hask ?_ ?_
      · rintro _ last ⟨⟩ hleads
        rw [hleads.getLast?_eq] at hlast
        cases hlast
      · intro other
        simp only [List.getElem?_nil, reduceCtorEq, false_iff, not_and]
        rintro ⟨⟩ ⟨last, hsome, _⟩
        rw [hsome] at hlast
        cases hlast
    | some last =>
      dsimp only
      split
      · rename_i hstalled
        refine chained_single hask ?_ ?_
        · rintro _ final ⟨⟩ hleads
          obtain rfl := Option.some.inj (hlast.symm.trans hleads.getLast?_eq)
          exact absurd hleads.above (Nat.not_le.2 hstalled)
        · intro other
          simp only [List.getElem?_nil, reduceCtorEq, false_iff, not_and]
          rintro ⟨⟩ ⟨final, hfinal, habove⟩
          obtain rfl := Option.some.inj (hlast.symm.trans hfinal)
          exact absurd habove (Nat.not_le.2 hstalled)
      · rename_i hprogress
        have habove := Nat.le_of_not_lt hprogress
        split
        · rename_i hmore
          exact chained_cons hask ⟨hlast, habove, hmore.1, hmore.2⟩
            (chained_readPagesAfter ask network upTo limit (some last) next)
        · rename_i hend
          refine chained_single hask ?_ ?_
          · rintro _ final ⟨⟩ hleads
            obtain rfl := Option.some.inj (hlast.symm.trans hleads.getLast?_eq)
            exact hend ⟨hleads.full, hleads.below⟩
          · intro other
            rw [List.getElem?_cons_zero, Option.some_inj, Except.ok.injEq]
            constructor
            · rintro rfl
              exact ⟨rfl, last, hlast, habove⟩
            · exact And.left
termination_by upTo.toNat + 1 - firstAbove after
decreasing_by
  rename_i hmore
  exact sub_firstAbove_lt habove hmore.2

/-- The requests and pages of every reading follow from its answers. -/
theorem chained_readPages (ask : Source σ ε) (network : String) (upTo : Block) (pageSize : Nat)
    (state : σ) : (readPages ask network upTo pageSize state).Chained ask
      ⟨network, none, upTo, max pageSize 1⟩ state :=
  chained_readPagesAfter ask network upTo _ none state

/-! ## The cursors -/

namespace Paging.Chained

variable {ask : Source σ ε} {first : PageQuery} {state : σ} {reading : Paging σ ε}
  (h : reading.Chained ask first state)
include h

theorem getElem?_zero : reading.requests[0]? = some first := by
  rw [← List.head?_eq_getElem?, h.head?_requests]

/-- In front of a later request stands a page that leads to it, and the reading holds that page. -/
theorem exists_page_of_next {k : Nat} {next : PageQuery}
    (hnext : reading.requests[k + 1]? = some next) :
    ∃ request page last, reading.requests[k]? = some request ∧ reading.pages[k]? = some page ∧
      (answersTo ask reading.requests state).1[k]? = some (.ok page) ∧
      request.LeadsOn page last ∧ next = request.continuedAt last := by
  have hlt : k < reading.requests.length :=
    Nat.lt_of_succ_lt (List.getElem?_eq_some_iff.1 hnext).1
  have hrequest := List.getElem?_eq_getElem hlt
  obtain ⟨page, last, hanswer, hleads, heq⟩ := (h.next_iff k _ hrequest next).1 hnext
  have hpage := (h.page_iff k _ hrequest page).2
    ⟨hanswer, last, hleads.getLast?_eq, hleads.above⟩
  exact ⟨_, page, last, hrequest, hpage, hanswer, hleads, heq⟩

/-- All requests ask for the same, above different blocks. -/
theorem exists_eq_with_after {k : Nat} {request : PageQuery}
    (hrequest : reading.requests[k]? = some request) :
    request = { first with after := request.after } := by
  induction k generalizing request with
  | zero =>
    rw [h.getElem?_zero] at hrequest
    cases hrequest
    rfl
  | succ k ih =>
    obtain ⟨previous, _, last, hprevious, _, _, _, rfl⟩ := h.exists_page_of_next hrequest
    rw [PageQuery.continuedAt, ih hprevious]

/-- The request number `k` asks for no block below `k`. -/
theorem le_firstAbove {k : Nat} {request : PageQuery}
    (hrequest : reading.requests[k]? = some request) : k ≤ firstAbove request.after := by
  induction k generalizing request with
  | zero => exact Nat.zero_le _
  | succ k ih =>
    obtain ⟨previous, _, last, hprevious, _, _, hleads, rfl⟩ := h.exists_page_of_next hrequest
    exact Nat.succ_le_succ (Nat.le_trans (ih hprevious) hleads.above)

/-- A cursor stands below the bound of the first request when that has none. -/
theorem after_lt_upTo (hfirst : first.after = none) {k : Nat} {request : PageQuery} {last : Block}
    (hrequest : reading.requests[k]? = some request) (hafter : request.after = some last) :
    last < first.upTo := by
  cases k with
  | zero =>
    rw [h.getElem?_zero] at hrequest
    cases hrequest
    rw [hfirst] at hafter
    cases hafter
  | succ k =>
    obtain ⟨previous, _, block, hprevious, _, _, hleads, rfl⟩ := h.exists_page_of_next hrequest
    obtain rfl := Option.some.inj hafter
    have hbelow := hleads.below
    rw [h.exists_eq_with_after hprevious] at hbelow
    exact hbelow

/-- There are no more requests than blocks up to the bound. -/
theorem length_requests_le (hfirst : first.after = none) :
    reading.requests.length ≤ first.upTo.toNat + 1 := by
  apply Nat.le_of_not_lt
  intro hlt
  have hrequest := List.getElem?_eq_getElem hlt
  have hle := h.le_firstAbove hrequest
  cases hafter : (reading.requests[first.upTo.toNat + 1]).after with
  | none =>
    rw [hafter] at hle
    exact Nat.not_succ_le_zero _ hle
  | some last =>
    have hbelow := UInt64.lt_iff_toNat_lt.1 (h.after_lt_upTo hfirst hrequest hafter)
    rw [hafter, firstAbove] at hle
    omega

/-- Each request asks for blocks above those of all requests before it. -/
theorem pairwise_firstAbove :
    (reading.requests.map fun request => firstAbove request.after).Pairwise (· < ·) := by
  rw [← List.isChain_iff_pairwise, List.isChain_iff_getElem]
  intro k hk
  rw [List.length_map] at hk
  rw [List.getElem_map, List.getElem_map]
  obtain ⟨previous, _, last, hprevious, _, _, hleads, hnext⟩ :=
    h.exists_page_of_next (List.getElem?_eq_getElem hk)
  obtain rfl := Option.some.inj
    ((List.getElem?_eq_getElem (Nat.lt_of_succ_lt hk)).symm.trans hprevious)
  rw [hnext]
  exact Nat.lt_succ_of_le hleads.above

/-- The cursor of a request is the last block of the page before it. -/
theorem lastBefore_eq_after (hfirst : first.after = none) {k : Nat} {request : PageQuery}
    (hrequest : reading.requests[k]? = some request) :
    lastBefore none (answersTo ask reading.requests state).1 k = request.after := by
  cases k with
  | zero =>
    rw [h.getElem?_zero] at hrequest
    cases hrequest
    exact hfirst.symm
  | succ k =>
    obtain ⟨_, page, last, _, _, hanswer, hleads, rfl⟩ := h.exists_page_of_next hrequest
    rw [lastBefore, hanswer]
    exact hleads.getLast?_eq

/-- A request whose answer does not lead on is the last one. -/
theorem length_requests_eq {k : Nat} {request : PageQuery}
    (hrequest : reading.requests[k]? = some request)
    (hend : ∀ page last, (answersTo ask reading.requests state).1[k]? = some (.ok page) →
      ¬ request.LeadsOn page last) :
    reading.requests.length = k + 1 := by
  apply Nat.le_antisymm
  · apply Nat.le_of_not_lt
    intro hlt
    obtain ⟨page, last, hanswer, hleads, _⟩ :=
      (h.next_iff k request hrequest _).1 (List.getElem?_eq_getElem hlt)
    exact hend page last hanswer hleads
  · exact (List.getElem?_eq_some_iff.1 hrequest).1

/-- A page that does not end above its cursor is not held; those before it are. -/
theorem length_pages_eq {k : Nat} {request : PageQuery} {page : List Block}
    (hrequest : reading.requests[k]? = some request)
    (hanswer : (answersTo ask reading.requests state).1[k]? = some (.ok page))
    (hstalled : ¬ request.Advances page) : reading.pages.length = k := by
  apply Nat.le_antisymm
  · apply List.getElem?_eq_none_iff.1
    rw [Option.eq_none_iff_forall_ne_some]
    intro other hother
    obtain ⟨hok, hadvances⟩ := (h.page_iff k request hrequest other).1 hother
    obtain rfl := Except.ok.inj (Option.some.inj (hanswer.symm.trans hok))
    exact hstalled hadvances
  · cases k with
    | zero => exact Nat.zero_le _
    | succ k =>
      obtain ⟨_, _, _, _, hpage, _⟩ := h.exists_page_of_next hrequest
      exact (List.getElem?_eq_some_iff.1 hpage).1

end Paging.Chained

/-! ## Orderly readings -/

/-- An answer that no request follows, wherever its cursor was: a failure, an empty page, a short
page, or a page that reaches the bound. -/
inductive Ends (upTo : Block) (limit : Nat) : Except ε (List Block) → Prop where
  | failed (failure : ε) : Ends upTo limit (.error failure)
  | empty : Ends upTo limit (.ok [])
  | short {page : List Block} (hlength : page.length < limit) : Ends upTo limit (.ok page)
  | reached {page : List Block} {last : Block} (hlast : page.getLast? = some last)
      (hle : upTo ≤ last) : Ends upTo limit (.ok page)

/-- A page that leads on does not end a reading. -/
theorem Ends.not_leadsOn {request : PageQuery} {page : List Block}
    (h : Ends (ε := ε) request.upTo request.limit (.ok page)) (last : Block) :
    ¬ request.LeadsOn page last := by
  intro hleads
  cases h with
  | empty => cases hleads.getLast?_eq
  | short hlength => exact Nat.not_lt.2 hleads.full hlength
  | reached hlast hle =>
    obtain rfl := Option.some.inj (hlast.symm.trans hleads.getLast?_eq)
    exact UInt64.not_lt.2 hle hleads.below

/-- What holds of the requests of a reading, whatever the source answers to them. -/
structure Paging.Orderly (ask : Source σ ε) (network : String) (upTo : Block) (limit : Nat)
    (state : σ) (reading : Paging σ ε) : Prop where
  /-- The source was asked the requests, and nothing else. -/
  source_eq : reading.source = (answersTo ask reading.requests state).2
  asks_alike : ∀ request ∈ reading.requests,
    request.network = network ∧ request.upTo = upTo ∧ request.limit = limit
  after_first : ∃ request, reading.requests[0]? = some request ∧ request.after = none
  /-- The cursor of each later request is the last block of the page held just before it. -/
  after_next : ∀ (k : Nat) (request : PageQuery), reading.requests[k + 1]? = some request →
    ∃ page last, reading.pages[k]? = some page ∧ page.getLast? = some last ∧
      request.after = some last
  pairwise_after : (reading.requests.filterMap PageQuery.after).Pairwise (· < ·)
  after_lt : ∀ request ∈ reading.requests, ∀ last, request.after = some last → last < upTo
  length_requests_le : reading.requests.length ≤ upTo.toNat + 1
  /-- No request follows an answer that ends the reading. -/
  length_of_ends : ∀ (k : Nat) (answer : Except ε (List Block)),
    (answersTo ask reading.requests state).1[k]? = some answer → Ends upTo limit answer →
      reading.requests.length = k + 1
  /-- No request follows a page that does not get past its cursor, and the page is not held. -/
  stalled : ∀ (k : Nat) (request : PageQuery) (previous : Block) (page : List Block) (last : Block),
    reading.requests[k]? = some request → request.after = some previous →
      (answersTo ask reading.requests state).1[k]? = some (.ok page) →
      page.getLast? = some last → last ≤ previous →
      reading.requests.length = k + 1 ∧ reading.failure = some (.stalled last) ∧
        reading.pages.length = k
  /-- After any other answer the reading goes on. -/
  goes_on : ∀ (k : Nat) (request : PageQuery) (page : List Block) (last : Block),
    reading.requests[k]? = some request →
      (answersTo ask reading.requests state).1[k]? = some (.ok page) →
      request.LeadsOn page last →
      reading.requests[k + 1]? = some (request.continuedAt last)

theorem length_answersTo (ask : Source σ ε) (requests : List PageQuery) (state : σ) :
    (answersTo ask requests state).1.length = requests.length := by
  induction requests generalizing state with
  | nil => rfl
  | cons request requests ih => exact congrArg Nat.succ (ih _)

/-- Whatever a source answers, a reading is orderly; so it ends after no more requests than there
are blocks up to its bound. -/
theorem orderly_readPages (ask : Source σ ε) (network : String) (upTo : Block) (pageSize : Nat)
    (state : σ) :
    (readPages ask network upTo pageSize state).Orderly ask network upTo (max pageSize 1)
      state := by
  have hchained := chained_readPages ask network upTo pageSize state
  have hanswered := answered_readPages ask network upTo pageSize state
  generalize readPages ask network upTo pageSize state = reading at hchained hanswered ⊢
  have hsame : ∀ request ∈ reading.requests,
      request.network = network ∧ request.upTo = upTo ∧ request.limit = max pageSize 1 := by
    intro request hmem
    obtain ⟨k, hk⟩ := List.getElem?_of_mem hmem
    rw [hchained.exists_eq_with_after hk]
    exact ⟨rfl, rfl, rfl⟩
  constructor
  case source_eq => exact hanswered.source_eq
  case asks_alike => exact hsame
  case after_first => exact ⟨_, hchained.getElem?_zero, rfl⟩
  case after_next =>
    intro k request hrequest
    obtain ⟨_, page, last, _, hpage, _, hleads, rfl⟩ := hchained.exists_page_of_next hrequest
    exact ⟨page, last, hpage, hleads.getLast?_eq, rfl⟩
  case pairwise_after =>
    have hrises := hchained.pairwise_firstAbove
    rw [List.pairwise_map] at hrises
    rw [List.pairwise_filterMap]
    refine hrises.imp fun {request other} hlt last hlast block hblock => ?_
    rw [hlast, hblock, firstAbove, firstAbove] at hlt
    exact UInt64.lt_iff_toNat_lt.2 (Nat.lt_of_succ_lt_succ hlt)
  case after_lt =>
    intro request hmem last hafter
    obtain ⟨k, hk⟩ := List.getElem?_of_mem hmem
    exact hchained.after_lt_upTo rfl hk hafter
  case length_requests_le => exact hchained.length_requests_le rfl
  case length_of_ends =>
    intro k answer hanswer hends
    have hlt : k < reading.requests.length := by
      rw [← length_answersTo ask reading.requests state]
      exact (List.getElem?_eq_some_iff.1 hanswer).1
    obtain ⟨_, hupTo, hlimit⟩ := hsame _ (List.getElem_mem hlt)
    refine hchained.length_requests_eq (List.getElem?_eq_getElem hlt) fun page last hpage => ?_
    obtain rfl := Option.some.inj (hanswer.symm.trans hpage)
    rw [← hupTo, ← hlimit] at hends
    exact hends.not_leadsOn last
  case stalled =>
    intro k request previous page last hrequest hafter hanswer hlast hle
    have hfault : FaultAt none (answersTo ask reading.requests state).1 k (.stalled last) :=
      .stalled hanswer hlast ((hchained.lastBefore_eq_after rfl hrequest).trans hafter) hle
    have hstalled : ¬ request.Advances page := by
      rintro ⟨final, hfinal, habove⟩
      obtain rfl := Option.some.inj (hlast.symm.trans hfinal)
      exact absurd (lt_firstAbove_iff.2 ⟨previous, hafter, hle⟩) (Nat.not_lt.2 habove)
    exact ⟨(hanswered.last_of_faultAt k _ hfault).symm, (hanswered.failure_iff _).2 ⟨k, hfault⟩,
      hchained.length_pages_eq hrequest hanswer hstalled⟩
  case goes_on =>
    intro k request page last hrequest hanswer hleads
    exact (hchained.next_iff k request hrequest _).2 ⟨page, last, hanswer, hleads, rfl⟩

end ChainCoverage
