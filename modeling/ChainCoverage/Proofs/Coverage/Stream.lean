import ChainCoverage.Proofs.Coverage.Exact

/-!
# Coverage from a stream of pages

A stream is taken page by page up to its end or up to its first failure.  Without a failure
its coverage is that of its blocks in memory, however they are cut into pages.  With one the
failure is the outcome, and what stands behind it is not taken.

Main results:

- `Sweep.visitItems_map_ok` and `Sweep.visitItems_append_error`: how far a stream is taken.
- `Coverage.ofPages_map_ok`: the coverage of some pages is the coverage of their blocks.
- `Coverage.ofPages_of_any_items`: the outcome for any stream, and what is left of it.
-/

namespace ChainCoverage

variable {ε : Type}

/-! ## Taking a stream -/

/-- Every stream consists of pages only, or of some pages, a failure and a rest. -/
theorem PageItem.only_pages_or_failure (items : List (PageItem ε)) :
    (∃ pages : List (List Block), items = pages.map .ok) ∨
      ∃ (pages : List (List Block)) (failure : ε) (rest : List (PageItem ε)),
        items = pages.map .ok ++ .error failure :: rest := by
  induction items with
  | nil => exact Or.inl ⟨[], rfl⟩
  | cons item items ih =>
    cases item with
    | error failure => exact Or.inr ⟨[], failure, items, rfl⟩
    | ok page =>
      rcases ih with ⟨pages, rfl⟩ | ⟨pages, failure, rest, rfl⟩
      · exact Or.inl ⟨page :: pages, rfl⟩
      · exact Or.inr ⟨page :: pages, failure, rest, rfl⟩

namespace Sweep

variable (s : Sweep) (pages : List (List Block))

/-- Pages without a failure are taken as their blocks. -/
theorem visitItems_map_ok :
    s.visitItems (ε := ε) (pages.map .ok) = (.ok (s.visitAll pages.flatten), []) := by
  induction pages generalizing s with
  | nil => rfl
  | cons page pages ih =>
    rw [List.map_cons, visitItems, ih, List.flatten_cons, visitAll_append]

/-- A failure ends the taking of pages, whatever came before it and whatever stands behind it. -/
theorem visitItems_append_error (failure : ε) (rest : List (PageItem ε)) :
    s.visitItems (pages.map .ok ++ .error failure :: rest) = (.error failure, rest) := by
  induction pages generalizing s with
  | nil => rfl
  | cons page pages ih => exact ih (s.visitAll page)

end Sweep

/-! ## Coverage -/

namespace Coverage

/-- Without a bucket nothing is taken. -/
theorem ofPages_zero (latest : Block) (items : List (PageItem (Unavailable ε))) :
    ofPages latest items 0 = (.error (.invalid .noBuckets), items) :=
  rfl

variable (p : Partition) (pages : List (List Block))

/-- The coverage of pages without a failure is the coverage of their blocks. -/
theorem ofPages_map_ok :
    ofPages (ε := ε) p.total (pages.map .ok) p.requested =
      (.ok (p.coverageOf (pages.flatten.contains ·)), []) := by
  unfold ofPages
  rw [p.ofCount_eq]
  simp only [Sweep.visitItems_map_ok, Sweep.conclude_visitAll_start]

/-- Blocks have the same coverage however they are cut into pages. -/
theorem ofPages_map_ok_congr {pages others : List (List Block)}
    (hsame : pages.flatten = others.flatten) :
    ofPages (ε := ε) p.total (pages.map .ok) p.requested =
      ofPages p.total (others.map .ok) p.requested := by
  rw [ofPages_map_ok, ofPages_map_ok, hsame]

/-- A failure is the outcome, and what stands behind it is left. -/
theorem ofPages_append_error (reason : Unavailable ε) (rest : List (PageItem (Unavailable ε))) :
    ofPages p.total (pages.map .ok ++ .error reason :: rest) p.requested =
      (.error (.unavailable reason), rest) := by
  unfold ofPages
  rw [p.ofCount_eq]
  simp only [Sweep.visitItems_append_error]

/-- A stream is taken as a whole, or up to its first failure. -/
theorem ofPages_cases (items : List (PageItem (Unavailable ε))) :
    (∃ pages : List (List Block), items = pages.map .ok ∧
        ofPages p.total items p.requested =
          (.ok (p.coverageOf (pages.flatten.contains ·)), [])) ∨
      ∃ (pages : List (List Block)) (first : Unavailable ε) (rest : List (PageItem _)),
        items = pages.map .ok ++ .error first :: rest ∧
          ofPages p.total items p.requested = (.error (.unavailable first), rest) := by
  rcases PageItem.only_pages_or_failure items with ⟨pages, rfl⟩ | ⟨pages, first, rest, rfl⟩
  · exact Or.inl ⟨pages, rfl, ofPages_map_ok p pages⟩
  · exact Or.inr ⟨pages, first, rest, rfl, ofPages_append_error p pages first rest⟩

/-- For any stream a request is refused exactly when no bucket is wanted, and then nothing is
taken.  Otherwise a stream with a failure is taken up to its first failure, which is the outcome;
and a stream without one is taken as a whole and has the coverage that its blocks have in memory.
So it does not matter how blocks are cut into pages. -/
theorem ofPages_of_any_items (latest : Block) (items : List (PageItem (Unavailable ε)))
    (count : UInt32) :
    let answer := ofPages latest items count
    ((∃ reason, answer.1 = .error (.invalid reason)) ↔ count = 0) ∧
      (count = 0 → answer.2 = items) ∧
      (∀ failure, count ≠ 0 → .error failure ∈ items →
        ∃ (pages : List (List Block)) (first : Unavailable ε) (rest : List (PageItem _)),
          items = pages.map .ok ++ .error first :: rest ∧
            answer = (.error (.unavailable first), rest)) ∧
      (count ≠ 0 → (∀ failure, .error failure ∉ items) →
        ∃ (pages : List (List Block)) (c : Coverage), items = pages.map .ok ∧
          ofBlocks latest pages.flatten count = .ok c ∧ answer = (.ok c, [])) ∧
      ∀ pages others : List (List Block), pages.flatten = others.flatten →
        (ofPages (ε := ε) latest (pages.map .ok) count).1 =
          (ofPages latest (others.map .ok) count).1 := by
  intro answer
  by_cases hcount : count = 0
  · have hanswer : answer = (.error (.invalid .noBuckets), items) := by
      rw [← ofPages_zero, ← hcount]
    simp [hanswer, hcount, ofPages_zero]
  let p : Partition := ⟨latest, count, UInt32.pos_iff_ne_zero.2 hcount⟩
  have hgrouping : ∀ pages others : List (List Block), pages.flatten = others.flatten →
      (ofPages (ε := ε) latest (pages.map .ok) count).1 =
        (ofPages latest (others.map .ok) count).1 :=
    fun _ _ hsame => congrArg Prod.fst (ofPages_map_ok_congr p hsame)
  rcases ofPages_cases p items with ⟨pages, rfl, hwhole⟩ | ⟨pages, first, rest, rfl, hfirst⟩
  · have hanswer : answer = _ := hwhole
    refine ⟨by simp [hanswer, hcount], fun hzero => absurd hzero hcount, ?_, ?_, hgrouping⟩
    · intro failure _ hmem
      simp at hmem
    · exact fun _ _ => ⟨pages, _, rfl, ofBlocks_eq_coverageOf p pages.flatten, hwhole⟩
  · have hanswer : answer = _ := hfirst
    refine ⟨by simp [hanswer, hcount], fun hzero => absurd hzero hcount, ?_, ?_, hgrouping⟩
    · exact fun _ _ _ => ⟨pages, first, rest, rfl, hfirst⟩
    · intro _ hnone
      exact absurd (List.mem_append_right _ List.mem_cons_self) (hnone first)

/-- What stands behind a failure in the middle is not taken. -/
theorem ofPages_of_any_items_failure :
    let items : List (PageItem (Unavailable String)) :=
      [.ok [0, 1, 2], .ok [], .error (.reported "timeout"), .ok [3, 4], .error (.stalled 3)]
    (1 : UInt32) ≠ 0 ∧ .error (.reported "timeout") ∈ items ∧
      ofPages 4 items 1 =
        (.error (.unavailable (.reported "timeout")), [.ok [3, 4], .error (.stalled 3)]) := by
  intro items
  have hcount : (1 : UInt32) ≠ 0 := by decide
  have hmem : .error (.reported "timeout") ∈ items := by simp [items]
  obtain ⟨_, _, hfailure, _⟩ := ofPages_of_any_items 4 items 1
  rcases hfailure _ hcount hmem with ⟨pages, first, rest, hitems, hanswer⟩
  refine ⟨hcount, hmem, ?_⟩
  rcases pages with _ | ⟨page, _ | ⟨next, _ | ⟨third, pages⟩⟩⟩ <;> simp [items] at hitems
  rcases hitems with ⟨_, _, rfl, rfl⟩
  exact hanswer

end Coverage
end ChainCoverage
