import ChainCoverage.Proofs.Coverage.Untrusted
import ChainCoverage.Proofs.Ledger.Marked
import ChainCoverage.Proofs.Paging.Alike

/-!
# Coverage from a damaged ledger

A ledger may hold any keys and any values.  Its coverage of a network is then still never
wrong and never partial: it is the coverage of the blocks whose keys are there, for the
head that is there, or the ledger says what cannot be read.

Main definitions:

- `Ledger.Unreadable`: what in a ledger cannot be read.

Main results:

- `Ledger.coverage_name_cases`: with a head, the coverage of a network is that of its marked
  blocks unless a malformed key is in the way.
- `Ledger.coverage_exact_or_unreadable`: the coverage of a network from any contents.
-/

namespace ChainCoverage
namespace Ledger

/-- What in a ledger keeps the coverage of a network from being read, with the failure that says
so. -/
inductive Unreadable (s : Ledger) (n : Network) : LedgerError → Prop where
  | noHead (hhead : s.heads[n.headKey]? = none) : Unreadable s n (.noHead n.name)
  | malformedHead {value : Bytes} (hvalue : s.heads[n.headKey]? = some value)
      (hlength : value.length ≠ blockWidth) : Unreadable s n .malformedHead
  /-- A key that starts like those of the network, stands no later than the key of the head, and
  is too long or too short. -/
  | malformedKey {latest : Block} {key : Bytes} (hhead : s.head n.name = .ok latest)
      (hmem : key ∈ s.blocks) (hstem : n.keyStem <+: key)
      (hle : (compare key (n.blockKey latest)).isLE)
      (hlength : key.length ≠ n.keyStem.length + blockWidth) :
      Unreadable s n (.malformedKey key.length)

variable (s : Ledger) (n : Network)

/-- The head of a network is what its value stands for, when that has the right length. -/
theorem head_name_cases :
    (∃ reason, s.Unreadable n reason ∧ s.head n.name = .error reason) ∨
      ∃ value, s.heads[n.headKey]? = some value ∧ value.length = blockWidth ∧
        s.head n.name = .ok (.ofNat (Bytes.ofLittleEndian value)) := by
  rw [head, head?, named_name]
  dsimp only
  cases hvalue : s.heads[n.headKey]? with
  | none => exact Or.inl ⟨_, .noHead hvalue, rfl⟩
  | some value =>
    dsimp only
    by_cases hlength : value.length = blockWidth
    · refine Or.inr ⟨value, rfl, hlength, ?_⟩
      rw [headOfValue?, if_pos hlength]
    · refine Or.inl ⟨_, .malformedHead hvalue hlength, ?_⟩
      rw [headOfValue?, if_neg hlength]

variable {s n}

/-- With a head, the coverage of a network is that of its marked blocks, unless a malformed key is
in the way. -/
theorem coverage_name_cases (p : Partition) (hhead : s.head n.name = .ok p.total)
    (pageSize : Nat) :
    (∃ reason, s.Unreadable n reason ∧ s.coverage n.name p.requested pageSize =
        .error (.unavailable (.reported reason))) ∨
      s.coverage n.name p.requested pageSize =
        .ok (p.coverageOf fun block => s.blocks.contains (n.blockKey block)) := by
  have horacle : oracle n.name s = (.ok p.total, s) := by
    rw [oracle, hhead]
  -- The ledger never changes, so each fetch fails or is answered from the same set.
  have hask : ∀ request : PageQuery, request.network = n.name → request.upTo = p.total →
      ∀ (t : Ledger) (k : Nat), t = s →
        (∃ reason, s.Unreadable n reason ∧ (source request t).1 = .error reason) ∨
          (source request t).1 = (snapshotSource (fun _ => s.markedBlocks n) request k).1 ∧
            (source request t).2 = s := by
    rintro ⟨network, after, upTo, limit⟩ rfl rfl t k rfl
    rcases t.page_name_cases n after p.total limit with
      ⟨key, hmem, hstem, hle, hnone, hpage⟩ | hpage
    · have hlength := Network.blockOfKey?_eq_none_iff.1 hnone
      exact Or.inl ⟨_, .malformedKey hhead hmem hstem hle hlength, hpage⟩
    · exact Or.inr ⟨hpage, rfl⟩
  have hsettles : Settles (fun _ => s.markedBlocks n) none p.total
      (readPages (ε := LedgerError) (snapshotSource fun _ => s.markedBlocks n) n.name p.total
        pageSize 0) := settles_readPages _ n.name p.total pageSize
  rcases fails_or_alike_readPages hask pageSize (t := 0) (rfl : s = s) with
    ⟨reason, hcause, hfailure⟩ | halike
  · exact Or.inl ⟨reason, hcause, outcome_measureNetwork_of_failure p horacle hfailure⟩
  · refine Or.inr ?_
    rw [coverage, outcome_measureNetwork p horacle (halike.failure_eq.trans hsettles.failure_eq),
      halike.pages_eq]
    congr 1
    apply p.coverageOf_congr
    intro block hle
    rw [Bool.eq_iff_iff, List.contains_iff_mem, Std.TreeSet.contains_iff_mem, ← mem_markedBlocks]
    exact hsettles.mem_pages_of_constant (Nat.zero_le _) hle

/-- Whatever keys and values a ledger holds, the coverage of a network is exact for the head that
its value stands for and for the blocks whose keys are there, or it is unavailable because of
something in the ledger that cannot be read. -/
theorem coverage_exact_or_unreadable (s : Ledger) (n : Network) {count : UInt32}
    (hcount : 0 < count) (pageSize : Nat) :
    (∃ value c, s.heads[n.headKey]? = some value ∧ value.length = blockWidth ∧
        s.coverage n.name count pageSize = .ok c ∧
        c.Exact (.ofNat (Bytes.ofLittleEndian value)) count
          (fun block => s.blocks.contains (n.blockKey block))) ∨
      ∃ reason, s.Unreadable n reason ∧
        s.coverage n.name count pageSize = .error (.unavailable (.reported reason)) := by
  rcases s.head_name_cases n with ⟨reason, hcause, hhead⟩ | ⟨value, hvalue, hlength, hhead⟩
  · refine Or.inr ⟨reason, hcause, ?_⟩
    have horacle : oracle n.name s = (.error reason, s) := by
      rw [oracle, hhead]
    rw [coverage, measureNetwork_of_oracle_error source n.name pageSize
      (UInt32.pos_iff_ne_zero.1 hcount) horacle]
  · let p : Partition := ⟨.ofNat (Bytes.ofLittleEndian value), count, hcount⟩
    rcases coverage_name_cases p hhead pageSize with ⟨reason, hcause, hfailure⟩ | hcoverage
    · exact Or.inr ⟨reason, hcause, hfailure⟩
    · exact Or.inl ⟨value, _, hvalue, hlength, hcoverage, p.exact_coverageOf _⟩

/-- A key with a byte too many does no harm past the head. -/
theorem coverage_exact_or_unreadable_long_key :
    let main : Network := ⟨"main", by decide⟩
    let damaged := ((empty.insertHead main.headKey (headValue 4)).insertKey
      (main.blockKey 2)).insertKey (main.blockKey 6 ++ [0])
    (0 : UInt32) < 2 ∧ ∃ c, damaged.coverage "main" 2 1 = .ok c ∧
      c.Exact 4 2 (fun block => damaged.blocks.contains (main.blockKey block)) := by
  intro main damaged
  have hcount : (0 : UInt32) < 2 := by decide
  have hhead : damaged.heads[main.headKey]? = some (headValue 4) :=
    heads_insertHead.trans (if_pos rfl)
  refine ⟨hcount, ?_⟩
  rcases damaged.coverage_exact_or_unreadable main hcount 1 with
    ⟨value, c, hvalue, _, hcoverage, hexact⟩ | ⟨reason, hunreadable, _⟩
  · obtain rfl := Option.some.inj (hhead.symm.trans hvalue)
    exact ⟨c, hcoverage, hexact⟩
  · cases hunreadable with
    | noHead hnone =>
      rw [hhead] at hnone
      contradiction
    | malformedHead hvalue hlength =>
      obtain rfl := Option.some.inj (hhead.symm.trans hvalue)
      exact absurd rfl hlength
    | malformedKey hlatest hmem _ hle hlength =>
      rcases mem_insertKey.1 hmem with rfl | hmem
      · simp only [head, head?, named_name, hhead, headOfValue?_headValue] at hlatest
        cases hlatest
        exact absurd hle (by decide)
      · rcases mem_insertKey.1 hmem with rfl | hmem
        · exact absurd (main.length_blockKey 2) hlength
        · exact absurd hmem Std.TreeSet.not_mem_emptyc

end Ledger
end ChainCoverage
