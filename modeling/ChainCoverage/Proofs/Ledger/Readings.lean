import ChainCoverage.Proofs.Ledger.Coverage

/-!
# When the coverage of a network can be read

A ledger is read in pages, and not all of its keys are looked at in all page sizes.  So
whether the coverage of a network is available is said of one reading: there must be a head
that can be read, and then each page that is asked for up to that head.

Main definitions:

- `Ledger.ReadFails`: what keeps one reading of a network from its end.

Main results:

- `Ledger.coverage_eq_unavailable_iff`: a coverage is unavailable exactly when its reading fails.
- `Ledger.coverage_of_not_readFails`: otherwise it is the coverage of the marked blocks.
- `Ledger.coverage_eq_of_wellFormed`: without malformed keys the page size does not count.
-/

namespace ChainCoverage
namespace Ledger

/-- What keeps a reading of a network from its end: no head that can be read, or a page that cannot
be read, among those that are asked for up to the head. -/
inductive ReadFails (s : Ledger) (n : Network) (pageSize : Nat) : Prop where
  | head (hhead : ∀ value, s.heads[n.headKey]? = some value → value.length ≠ blockWidth)
  | page {latest : Block} {request : PageQuery} {reason : LedgerError}
      (hhead : s.head n.name = .ok latest)
      (hrequest : request ∈ (readPages source n.name latest pageSize s).requests)
      (hpage : s.page request = .error reason)

/-- A ledger answers every request from what it holds, and is not changed. -/
theorem answersTo_source (s : Ledger) (requests : List PageQuery) :
    answersTo source requests s = (requests.map s.page, s) := by
  induction requests with
  | nil => rfl
  | cons request requests ih =>
    have hsource : source request s = (s.page request, s) := rfl
    rw [answersTo, hsource, ih]
    rfl

variable {s : Ledger} {n : Network}

/-- A head that was read is the one its value stands for. -/
theorem exists_value_of_head_eq_ok {latest : Block} (hhead : s.head n.name = .ok latest) :
    ∃ value, s.heads[n.headKey]? = some value ∧ value.length = blockWidth ∧
      latest = .ofNat (Bytes.ofLittleEndian value) := by
  rcases s.head_name_cases n with ⟨_, _, hother⟩ | ⟨value, hvalue, hlength, hother⟩
  · rw [hhead] at hother
    cases hother
  · rw [hhead] at hother
    exact ⟨value, hvalue, hlength, Except.ok.inj hother⟩

/-- A reading without a head that can be read fails. -/
theorem readFails_of_head_eq_error {reason : LedgerError} (hhead : s.head n.name = .error reason)
    (pageSize : Nat) : s.ReadFails n pageSize := by
  refine .head fun value hvalue hlength => ?_
  rw [head, head?, named_name] at hhead
  simp only [hvalue, headOfValue?, if_pos hlength] at hhead
  cases hhead

/-- With a head, a reading fails exactly when one of its pages cannot be read. -/
theorem readFails_iff_of_head {latest : Block} (hhead : s.head n.name = .ok latest)
    (pageSize : Nat) :
    s.ReadFails n pageSize ↔
      ∃ request ∈ (readPages source n.name latest pageSize s).requests,
        ∃ reason, s.page request = .error reason := by
  constructor
  · intro h
    cases h with
    | head hnone =>
      obtain ⟨value, hvalue, hlength, _⟩ := exists_value_of_head_eq_ok hhead
      exact absurd hlength (hnone value hvalue)
    | page hother hrequest hpage =>
      obtain rfl := Except.ok.inj (hhead.symm.trans hother)
      exact ⟨_, hrequest, _, hpage⟩
  · rintro ⟨request, hrequest, reason, hpage⟩
    exact .page hhead hrequest hpage

/-- With a head, the coverage of a network is unavailable exactly when a page of its reading cannot
be read. -/
theorem coverage_eq_unavailable_iff_of_head (p : Partition) (hhead : s.head n.name = .ok p.total)
    (pageSize : Nat) :
    (∃ reason, s.coverage n.name p.requested pageSize = .error (.unavailable reason)) ↔
      ∃ request ∈ (readPages source n.name p.total pageSize s).requests,
        ∃ reason, s.page request = .error reason := by
  have horacle : oracle n.name s = (.ok p.total, s) := by
    rw [oracle, hhead]
  have hrun := accounted_measureNetwork source n.name pageSize p horacle
  have hfault := hrun.unavailable_iff
  rw [requests_measureNetwork p horacle, answersTo_source] at hfault
  constructor
  · rintro ⟨reason, hreason⟩
    obtain ⟨k, hk⟩ := (hfault reason).1 hreason
    cases hk with
    | reported hanswer =>
      rw [List.getElem?_map] at hanswer
      obtain ⟨request, hrequest, hpage⟩ := Option.map_eq_some_iff.1 hanswer
      exact ⟨request, List.mem_of_getElem? hrequest, _, hpage⟩
    | stalled =>
      -- A ledger fails with a report, or its coverage is there.
      rcases coverage_name_cases p hhead pageSize with ⟨_, _, hother⟩ | hother
      · rw [hreason] at hother
        cases hother
      · rw [hreason] at hother
        cases hother
  · rintro ⟨request, hrequest, reason, hpage⟩
    obtain ⟨k, hk⟩ := List.getElem?_of_mem hrequest
    refine ⟨.reported reason, (hfault _).2 ⟨k, .reported ?_⟩⟩
    rw [List.getElem?_map, hk, Option.map_some, hpage]

/-- The coverage of a network is unavailable exactly when its reading fails. -/
theorem coverage_eq_unavailable_iff {count : UInt32} (hcount : 0 < count) (pageSize : Nat) :
    (∃ reason, s.coverage n.name count pageSize = .error (.unavailable reason)) ↔
      s.ReadFails n pageSize := by
  cases hhead : s.head n.name with
  | error reason =>
    have horacle : oracle n.name s = (.error reason, s) := by
      rw [oracle, hhead]
    have houtcome := measureNetwork_of_oracle_error source n.name pageSize
      (UInt32.pos_iff_ne_zero.1 hcount) horacle
    refine iff_of_true ⟨.reported reason, ?_⟩ (readFails_of_head_eq_error hhead pageSize)
    rw [coverage, houtcome]
  | ok latest =>
    rw [readFails_iff_of_head hhead]
    exact coverage_eq_unavailable_iff_of_head ⟨latest, count, hcount⟩ hhead pageSize

/-- When the reading of a network does not fail, there is a head, and the coverage is that of the
marked blocks up to it. -/
theorem coverage_of_not_readFails {count : UInt32} (hcount : 0 < count) {pageSize : Nat}
    (hread : ¬ s.ReadFails n pageSize) :
    ∃ p : Partition, p.requested = count ∧ s.head n.name = .ok p.total ∧
      s.coverage n.name count pageSize =
        .ok (p.coverageOf fun block => s.blocks.contains (n.blockKey block)) := by
  cases hhead : s.head n.name with
  | error reason => exact absurd (readFails_of_head_eq_error hhead pageSize) hread
  | ok latest =>
    let p : Partition := ⟨latest, count, hcount⟩
    refine ⟨p, rfl, rfl, ?_⟩
    rcases coverage_name_cases p hhead pageSize with ⟨reason, _, herror⟩ | hcoverage
    · exact absurd ((coverage_eq_unavailable_iff hcount pageSize).1 ⟨_, herror⟩) hread
    · exact hcoverage

/-- Whether all keys that start like those of a network are keys of its blocks. -/
def WellFormed (s : Ledger) (n : Network) : Prop :=
  ∀ key ∈ s.blocks, n.keyStem <+: key → ∃ block, key = n.blockKey block

/-- A ledger that stands for contents has no malformed keys. -/
theorem Represents.wellFormed {c : Contents} (h : Represents s c) (n : Network) : s.WellFormed n :=
  fun _ hmem hstem => h.eq_blockKey_of_keyStem_isPrefix hmem hstem

/-- With a head and without malformed keys, the coverage of a network is that of its marked blocks
in every page size. -/
theorem coverage_eq_of_wellFormed (p : Partition) (hhead : s.head n.name = .ok p.total)
    (hkeys : s.WellFormed n) (pageSize : Nat) :
    s.coverage n.name p.requested pageSize =
      .ok (p.coverageOf fun block => s.blocks.contains (n.blockKey block)) := by
  rcases coverage_name_cases p hhead pageSize with ⟨reason, hunreadable, _⟩ | hcoverage
  · exfalso
    obtain ⟨value, hvalue, hlength, _⟩ := exists_value_of_head_eq_ok hhead
    cases hunreadable with
    | noHead hnone =>
      rw [hvalue] at hnone
      cases hnone
    | malformedHead hother hbad =>
      obtain rfl := Option.some.inj (hvalue.symm.trans hother)
      exact hbad hlength
    | malformedKey _ hmem hstem _ hbad =>
      obtain ⟨block, rfl⟩ := hkeys _ hmem hstem
      exact hbad (n.length_blockKey block)
  · exact hcoverage

/-- With a head and without malformed keys, no reading of a network fails. -/
theorem not_readFails_of_wellFormed {latest : Block} (hhead : s.head n.name = .ok latest)
    (hkeys : s.WellFormed n) (pageSize : Nat) : ¬ s.ReadFails n pageSize := by
  intro hfails
  let p : Partition := ⟨latest, 1, by decide⟩
  obtain ⟨reason, hreason⟩ := (coverage_eq_unavailable_iff p.requested_pos pageSize).2 hfails
  rw [coverage_eq_of_wellFormed p hhead hkeys pageSize] at hreason
  cases hreason

end Ledger
end ChainCoverage
