import ChainCoverage.Proofs.Paging.Page

/-!
# A reading and the answers it gets

A source may answer a request with any page or with a failure, and need not keep to what
was asked.  The answers that a reading got can be asked for again, one request after
another from the same state.  Among them the first fault ends the reading: a failure, or a
page whose last block is not above the last block of the page before it.

Main definitions:

- `answersTo`: the answers to a sequence of requests.
- `FaultAt`: the fault of an answer, if it has one.
- `Paging.Answered`: a reading that its answers account for.

Main results:

- `answered_readPages`: every reading is accounted for by its answers.
-/

namespace ChainCoverage

variable {σ ε : Type}

/-- The answers to some requests made one after another, and the state they leave the source in. -/
def answersTo (ask : Source σ ε) : List PageQuery → σ → List (Except ε (List Block)) × σ
  | [], state => ([], state)
  | request :: requests, state =>
    ((ask request state).1 :: (answersTo ask requests (ask request state).2).1,
      (answersTo ask requests (ask request state).2).2)

/-- The pages among some answers, in their order. -/
def receivedPages (answers : List (Except ε (List Block))) : List (List Block) :=
  answers.filterMap Except.toOption

/-- The last block of the page right before the answer number `k`, with `before` in the place of
that block for the first answer. -/
def lastBefore (before : Option Block) (answers : List (Except ε (List Block))) :
    Nat → Option Block
  | 0 => before
  | k + 1 => (answers[k]?.bind Except.toOption).bind List.getLast?

/-- The fault of the answer number `k`: a failure, or a page whose last block is not above the last
block of the page before it. -/
inductive FaultAt (before : Option Block) (answers : List (Except ε (List Block))) (k : Nat) :
    Unavailable ε → Prop where
  | reported {failure : ε} (hanswer : answers[k]? = some (.error failure)) :
      FaultAt before answers k (.reported failure)
  | stalled {page : List Block} {previous last : Block}
      (hanswer : answers[k]? = some (.ok page)) (hlast : page.getLast? = some last)
      (hprevious : lastBefore before answers k = some previous) (hle : last ≤ previous) :
      FaultAt before answers k (.stalled last)

/-! ## Faults along a sequence of answers -/

section Faults

variable {before : Option Block} {answer : Except ε (List Block)}
  {answers : List (Except ε (List Block))} {reason : Unavailable ε}

theorem FaultAt.lt_length {k : Nat} (h : FaultAt before answers k reason) :
    k < answers.length := by
  cases h with
  | reported hanswer => exact (List.getElem?_eq_some_iff.1 hanswer).1
  | stalled hanswer => exact (List.getElem?_eq_some_iff.1 hanswer).1

/-- Nothing lies below the first block; above another block lies what is larger. -/
theorem lt_firstAbove_iff {block : Block} :
    block.toNat < firstAbove before ↔ ∃ previous, before = some previous ∧ block ≤ previous := by
  cases before with
  | none => simp [firstAbove]
  | some previous =>
    simp only [firstAbove, Option.some.injEq, exists_eq_left', UInt64.le_iff_toNat_le]
    exact Nat.lt_succ_iff

/-- A failure is its own fault. -/
theorem faultAt_error_zero {failure : ε} :
    FaultAt before (.error failure :: answers) 0 reason ↔ reason = .reported failure := by
  constructor
  · intro h
    cases h with
    | reported hanswer =>
      cases hanswer
      rfl
    | stalled hanswer => cases hanswer
  · rintro rfl
    exact .reported rfl

/-- A page that does not reach past the block before it is a fault. -/
theorem faultAt_ok_zero {page : List Block} :
    FaultAt before (.ok page :: answers) 0 reason ↔
      ∃ last, page.getLast? = some last ∧ last.toNat < firstAbove before ∧
        reason = .stalled last := by
  constructor
  · intro h
    cases h with
    | reported hanswer => cases hanswer
    | stalled hanswer hlast hprevious hle =>
      cases hanswer
      exact ⟨_, hlast, lt_firstAbove_iff.2 ⟨_, hprevious, hle⟩, rfl⟩
  · rintro ⟨last, hlast, hlt, rfl⟩
    obtain ⟨previous, hprevious, hle⟩ := lt_firstAbove_iff.1 hlt
    exact .stalled rfl hlast hprevious hle

theorem lastBefore_cons_succ {k : Nat} :
    lastBefore before (answer :: answers) (k + 1) =
      lastBefore (answer.toOption.bind List.getLast?) answers k := by
  cases k <;> rfl

/-- Behind the first answer the faults are those of the rest, which comes after its last block. -/
theorem faultAt_cons_succ {k : Nat} :
    FaultAt before (answer :: answers) (k + 1) reason ↔
      FaultAt (answer.toOption.bind List.getLast?) answers k reason := by
  constructor
  · intro h
    cases h with
    | reported hanswer => exact .reported hanswer
    | stalled hanswer hlast hprevious hle =>
      exact .stalled hanswer hlast (lastBefore_cons_succ.symm.trans hprevious) hle
  · intro h
    cases h with
    | reported hanswer => exact .reported hanswer
    | stalled hanswer hlast hprevious hle =>
      exact .stalled hanswer hlast (lastBefore_cons_succ.trans hprevious) hle

end Faults

/-! ## Readings -/

/-- A reading that its answers account for: it fails exactly with the fault of an answer, that
answer is the last one, and without a fault it holds what was received. -/
structure Paging.Answered (ask : Source σ ε) (before : Option Block) (state : σ)
    (reading : Paging σ ε) : Prop where
  requests_ne_nil : reading.requests ≠ []
  source_eq : reading.source = (answersTo ask reading.requests state).2
  failure_iff : ∀ reason, reading.failure = some reason ↔
    ∃ k, FaultAt before (answersTo ask reading.requests state).1 k reason
  last_of_faultAt : ∀ k reason, FaultAt before (answersTo ask reading.requests state).1 k reason →
    k + 1 = reading.requests.length
  flatten_pages : reading.failure = none →
    reading.pages.flatten = (receivedPages (answersTo ask reading.requests state).1).flatten

section Steps

variable {ask : Source σ ε} {request : PageQuery} {state next : σ}

/-- A reading ends with an answer that is its fault, or with a page that has none. -/
theorem answered_single {before : Option Block} {answer : Except ε (List Block)}
    {pages : List (List Block)} {failure : Option (Unavailable ε)}
    (hask : ask request state = (answer, next))
    (hfailure : ∀ reason, failure = some reason ↔ FaultAt before [answer] 0 reason)
    (hpages : failure = none → pages.flatten = answer.toOption.getD []) :
    (Paging.single request pages failure next).Answered ask before state := by
  have hanswers : answersTo ask [request] state = ([answer], next) := by
    simp only [answersTo, hask]
  have hzero : ∀ k reason, FaultAt before [answer] k reason → k = 0 :=
    fun k reason h => Nat.lt_one_iff.1 h.lt_length
  constructor
  · exact List.cons_ne_nil _ _
  · exact (congrArg Prod.snd hanswers).symm
  · intro reason
    simp only [Paging.single, hanswers]
    rw [hfailure]
    constructor
    · exact fun h => ⟨0, h⟩
    · rintro ⟨k, h⟩
      rwa [hzero k reason h] at h
  · intro k reason h
    simp only [Paging.single, hanswers] at h ⊢
    rw [hzero k reason h]
    rfl
  · intro hnone
    simp only [Paging.single, hanswers] at hnone ⊢
    rw [hpages hnone]
    cases answer <;> simp [receivedPages, Except.toOption]

/-- A page without a fault leaves it to the rest of the reading to have one. -/
theorem answered_cons {before : Option Block} {page : List Block} {last : Block}
    {rest : Paging σ ε} (hask : ask request state = (.ok page, next))
    (hlast : page.getLast? = some last) (hprogress : ¬ last.toNat < firstAbove before)
    (hrest : rest.Answered ask (some last) next) :
    (Paging.cons request page rest).Answered ask before state := by
  have hanswers : answersTo ask (request :: rest.requests) state =
      (.ok page :: (answersTo ask rest.requests next).1, (answersTo ask rest.requests next).2) := by
    simp only [answersTo, hask]
  have hfirst : ∀ reason,
      ¬ FaultAt before (.ok page :: (answersTo ask rest.requests next).1) 0 reason := by
    intro reason h
    obtain ⟨other, hother, hlt, _⟩ := faultAt_ok_zero.1 h
    rw [hlast] at hother
    cases hother
    exact hprogress hlt
  have hlater : ∀ k reason,
      FaultAt before (.ok page :: (answersTo ask rest.requests next).1) (k + 1) reason ↔
        FaultAt (some last) (answersTo ask rest.requests next).1 k reason := by
    intro k reason
    rw [faultAt_cons_succ, Except.toOption, Option.bind_some, hlast]
  constructor
  · exact List.cons_ne_nil _ _
  · rw [Paging.requests_cons, hanswers]
    exact hrest.source_eq
  · intro reason
    rw [Paging.requests_cons, hanswers]
    refine (hrest.failure_iff reason).trans ⟨?_, ?_⟩
    · rintro ⟨k, h⟩
      exact ⟨k + 1, (hlater k reason).2 h⟩
    · rintro ⟨k, h⟩
      cases k with
      | zero => exact absurd h (hfirst reason)
      | succ k => exact ⟨k, (hlater k reason).1 h⟩
  · intro k reason h
    rw [Paging.requests_cons, hanswers] at h
    cases k with
    | zero => exact absurd h (hfirst reason)
    | succ k => exact congrArg Nat.succ (hrest.last_of_faultAt k reason ((hlater k reason).1 h))
  · intro hnone
    rw [Paging.requests_cons, hanswers]
    exact congrArg (page ++ ·) (hrest.flatten_pages hnone)

end Steps

/-- A reading from any block on is accounted for by its answers. -/
theorem answered_readPagesAfter (ask : Source σ ε) (network : String) (upTo : Block) (limit : Nat)
    (after : Option Block) (state : σ) :
    (readPagesAfter ask network upTo limit after state).Answered ask after state := by
  rw [readPagesAfter]
  rcases hask : ask ⟨network, after, upTo, limit⟩ state with ⟨answer, next⟩
  cases answer with
  | error failure =>
    refine answered_single hask (fun reason => ?_) (fun hnone => by cases hnone)
    rw [faultAt_error_zero, Option.some_inj, eq_comm]
  | ok page =>
    dsimp only
    cases hlast : page.getLast? with
    | none =>
      refine answered_single hask (fun reason => ?_) (fun _ => ?_)
      · simp [faultAt_ok_zero, hlast]
      · exact (List.getLast?_eq_none_iff.1 hlast).symm
    | some last =>
      dsimp only
      split
      · rename_i hstalled
        refine answered_single hask (fun reason => ?_) (fun hnone => by cases hnone)
        simp [faultAt_ok_zero, hlast, hstalled, eq_comm]
      · rename_i hprogress
        split
        · rename_i hmore
          exact answered_cons hask hlast hprogress
            (answered_readPagesAfter ask network upTo limit (some last) next)
        · refine answered_single hask (fun reason => ?_) (fun _ => List.flatten_singleton)
          simp [faultAt_ok_zero, hlast, hprogress]
termination_by upTo.toNat + 1 - firstAbove after
decreasing_by
  rename_i hprogress hmore
  exact sub_firstAbove_lt (Nat.le_of_not_lt hprogress) hmore.2

/-- A reading is accounted for by its answers. -/
theorem answered_readPages (ask : Source σ ε) (network : String) (upTo : Block) (pageSize : Nat)
    (state : σ) : (readPages ask network upTo pageSize state).Answered ask none state :=
  answered_readPagesAfter ask network upTo _ none state

end ChainCoverage
