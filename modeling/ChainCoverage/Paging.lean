import ChainCoverage.Failure

/-!
# Reading page by page

The indexed blocks of a network are asked for in pages.  Each request names the last
block of the page before it; the reading ends with the first page that is empty or
short, or that reaches the upper bound, or with the first failure.  A page that does
not reach past the one before it is a failure, so every reading ends, whatever the
source answers.

A source is a function on a state of its own, so that it may answer the same request
differently at different times.

Main definitions:

- `PageQuery` and `Source`.
- `Paging`: the requests made, the pages read, and the failure that ended the reading.
- `readPages`: the reading from the first block on.
-/

namespace ChainCoverage

/-- Asks for blocks of a network in ascending order, above `after` and at most `upTo`, no more
than `limit` of them. -/
structure PageQuery where
  network : String
  after : Option Block
  upTo : Block
  limit : Nat
deriving DecidableEq

/-- Answers page requests, from a state that each answer may change. -/
abbrev Source (σ ε : Type) := PageQuery → σ → Except ε (List Block) × σ

/-- A reading page by page, with the state it leaves the source in. -/
structure Paging (σ ε : Type) where
  requests : List PageQuery
  pages : List (List Block)
  failure : Option (Unavailable ε)
  source : σ

namespace Paging

variable {σ ε : Type}

/-- A reading of one request, which ends with it. -/
def single (request : PageQuery) (pages : List (List Block))
    (failure : Option (Unavailable ε)) (source : σ) : Paging σ ε :=
  ⟨[request], pages, failure, source⟩

/-- A reading with one more request and page in front. -/
def cons (request : PageQuery) (page : List Block) (rest : Paging σ ε) : Paging σ ε :=
  { rest with requests := request :: rest.requests, pages := page :: rest.pages }

/-- The stream of a reading: its pages, then its failure if it has one. -/
def items (p : Paging σ ε) : List (Except (Unavailable ε) (List Block)) :=
  p.pages.map .ok ++ p.failure.toList.map .error

@[simp]
theorem items_cons (request : PageQuery) (page : List Block) (rest : Paging σ ε) :
    (cons request page rest).items = .ok page :: rest.items :=
  rfl

@[simp]
theorem requests_cons (request : PageQuery) (page : List Block) (rest : Paging σ ε) :
    (cons request page rest).requests = request :: rest.requests :=
  rfl

end Paging

/-- The least block above `after`; the first block of all when there is no such bound. -/
def firstAbove : Option Block → Nat
  | none => 0
  | some after => after.toNat + 1

/-- Reads the pages above `after`. -/
def readPagesAfter {σ ε : Type} (ask : Source σ ε) (network : String) (upTo : Block)
    (limit : Nat) (after : Option Block) (state : σ) : Paging σ ε :=
  let request := ⟨network, after, upTo, limit⟩
  match ask request state with
  | (.error failure, next) => .single request [] (some (.reported failure)) next
  | (.ok page, next) =>
    match page.getLast? with
    | none => .single request [] none next
    | some last =>
      if last.toNat < firstAbove after then
        .single request [] (some (.stalled last)) next
      else if limit ≤ page.length ∧ last < upTo then
        .cons request page (readPagesAfter ask network upTo limit (some last) next)
      else
        .single request [page] none next
termination_by upTo.toNat + 1 - firstAbove after
decreasing_by
  rename_i progress hmore
  have below : last.toNat < upTo.toNat := UInt64.lt_iff_toNat_lt.1 hmore.2
  simp only [firstAbove] at *
  omega

/-- Reads the blocks of a network up to and including `upTo`, with pages of at least one block. -/
def readPages {σ ε : Type} (ask : Source σ ε) (network : String) (upTo : Block)
    (pageSize : Nat) (state : σ) : Paging σ ε :=
  readPagesAfter ask network upTo (max pageSize 1) none state

/-- The page that a fixed ascending list of blocks answers a request with. -/
def pageOf (blocks : List Block) (request : PageQuery) : List Block :=
  (blocks.filter fun block =>
    firstAbove request.after ≤ block.toNat && block ≤ request.upTo).take request.limit

end ChainCoverage
