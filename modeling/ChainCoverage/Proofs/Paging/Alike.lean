import ChainCoverage.Proofs.Paging.Snapshots

/-!
# Sources that answer alike

Two sources whose states are related, and stay related when both are asked the same, are
read alike: the same requests get the same pages.  A source that fails now and then, and
otherwise answers like another one, is read like it or not to the end.  A source that
always answers from one set is so read like the sequence that repeats the set.

Main results:

- `Paging.Alike`: readings that differ in the states of their sources only.
- `fails_or_alike_readPages`: a source that fails or answers alike fails or is read alike.
- `Settles.mem_pages_of_constant`: the pages of a source that answers from one set.
-/

namespace ChainCoverage

/-- Two readings that made the same requests, read the same pages and ended alike. -/
structure Paging.Alike {σ τ ε : Type} (p : Paging σ ε) (q : Paging τ ε) : Prop where
  requests_eq : p.requests = q.requests
  pages_eq : p.pages = q.pages
  failure_eq : p.failure = q.failure

section Alike

variable {σ τ ε : Type} {ask : Source σ ε} {askAlike : Source τ ε} {related : σ → τ → Prop}
  {network : String} {upTo : Block}

section Fallible

variable {cause : ε → Prop}
  (hask : ∀ request : PageQuery, request.network = network → request.upTo = upTo →
    ∀ s t, related s t →
      (∃ failure, cause failure ∧ (ask request s).1 = .error failure) ∨
        (ask request s).1 = (askAlike request t).1 ∧
          related (ask request s).2 (askAlike request t).2)
include hask

/-- A source that fails or answers like another one fails or is read like it, from any block on. -/
theorem fails_or_alike_readPagesAfter (limit : Nat) (after : Option Block) {s : σ} {t : τ}
    (hrelated : related s t) :
    (∃ failure, cause failure ∧
        (readPagesAfter ask network upTo limit after s).failure = some (.reported failure)) ∨
      (readPagesAfter ask network upTo limit after s).Alike
        (readPagesAfter askAlike network upTo limit after t) := by
  have hanswers := hask ⟨network, after, upTo, limit⟩ rfl rfl s t hrelated
  rw [readPagesAfter.eq_def ask, readPagesAfter.eq_def askAlike]
  rcases hs : ask ⟨network, after, upTo, limit⟩ s with ⟨answer, s'⟩
  rcases ht : askAlike ⟨network, after, upTo, limit⟩ t with ⟨answer', t'⟩
  rw [hs, ht] at hanswers
  simp only [hs, ht]
  rcases hanswers with ⟨failure, hcause, herror⟩ | ⟨hanswer, hnext⟩
  · obtain rfl : answer = .error failure := herror
    exact Or.inl ⟨failure, hcause, rfl⟩
  · obtain rfl : answer = answer' := hanswer
    cases answer with
    | error failure => exact Or.inr ⟨rfl, rfl, rfl⟩
    | ok page =>
      dsimp only
      cases page.getLast? with
      | none => exact Or.inr ⟨rfl, rfl, rfl⟩
      | some last =>
        dsimp only
        split
        · exact Or.inr ⟨rfl, rfl, rfl⟩
        · split
          · rename_i hprogress hmore
            rcases fails_or_alike_readPagesAfter limit (some last) hnext with hfails | hrest
            · exact Or.inl hfails
            · exact Or.inr ⟨congrArg _ hrest.requests_eq, congrArg _ hrest.pages_eq,
                hrest.failure_eq⟩
          · exact Or.inr ⟨rfl, rfl, rfl⟩
termination_by upTo.toNat + 1 - firstAbove after
decreasing_by
  rename_i hprogress hmore
  exact sub_firstAbove_lt (Nat.le_of_not_lt hprogress) hmore.2

/-- A source that fails or answers like another one fails or is read like it. -/
theorem fails_or_alike_readPages (pageSize : Nat) {s : σ} {t : τ} (hrelated : related s t) :
    (∃ failure, cause failure ∧
        (readPages ask network upTo pageSize s).failure = some (.reported failure)) ∨
      (readPages ask network upTo pageSize s).Alike
        (readPages askAlike network upTo pageSize t) :=
  fails_or_alike_readPagesAfter hask _ none hrelated

end Fallible

end Alike

/-- When every fetch is answered from one set, the pages hold the blocks of that set. -/
theorem Settles.mem_pages_of_constant {ε : Type} {blocks : Finset Block} {after : Option Block}
    {upTo : Block} {reading : Paging Nat ε} (h : Settles (fun _ => blocks) after upTo reading)
    {block : Block} (habove : firstAbove after ≤ block.toNat) (hle : block ≤ upTo) :
    block ∈ reading.pages.flatten ↔ block ∈ blocks := by
  obtain ⟨k, hk⟩ := h.exists_decidedBy block habove hle
  exact h.mem_pages_iff k block hk

end ChainCoverage
