import ChainCoverage.Proofs.CommandLine.Session
import ChainCoverage.Proofs.CommandLine.Usage
import ChainCoverage.Proofs.Coverage.Counts
import ChainCoverage.Proofs.Ledger.Readings
import ChainCoverage.Proofs.Service.Response

/-!
# Requests for coverage

A request for the coverage of a network is refused, or the progress of the network cannot be
read, or it is answered.  Which of these happens depends on the name, the number of buckets
and the ledger alone, and the ledger is not changed.

Main definitions:

- `Service.RefusesCoverage`: the requests that are refused.
- `Service.Covers`: what the coverage in an answer says of the ledger.

Main results:

- `Service.measure_of_readFails` and `Service.measure_of_not_readFails`: what is measured for
  a request that is not refused.
- `Service.respond_coverage`: the responses to all requests for coverage.
-/

namespace ChainCoverage
namespace Service

/-- Whether a request for coverage is refused: its network has no such name, or it asks for too
many buckets, or for none. -/
def RefusesCoverage (s : Service) (name : String) (count : UInt32) : Prop :=
  Network.isName name = false ∨ s.settings.maxBuckets < count ∨ count = 0

/-- What an answer says of the ledger. -/
structure Covers (s : Service) (n : Network) (count : UInt32) (a : CoverageAnswer) : Prop where
  network : a.network = n.name
  /-- The chain ends at the head that is recorded for it. -/
  recorded : ∃ value, s.ledger.heads[n.headKey]? = some value ∧ value.length = blockWidth ∧
    a.coverage.latest = .ofNat (Bytes.ofLittleEndian value)
  head : s.ledger.head n.name = .ok a.coverage.latest
  exact : a.coverage.Exact a.coverage.latest count fun block =>
    s.ledger.blocks.contains (n.blockKey block)
  length_ranges : a.coverage.ranges.length = min count.toNat (a.coverage.latest.toNat + 1)
  ranges_pos : 0 < a.coverage.ranges.length
  indexedCount_eq : a.indexedCount = a.coverage.indexedCount
  /-- What is not missing is counted, as far as a word reaches. -/
  indexedCount : a.coverage.missing.length < UInt64.size →
    a.indexedCount.toNat + a.coverage.missing.length =
      min (a.coverage.latest.toNat + 1) (UInt64.size - 1)
  percentIndexed : a.percentIndexed = percentOf a.indexedCount a.coverage.chainLength
  /-- The command line prints the same coverage. -/
  reconcile : ∀ (context : Command.Context) (words : List String),
    Command.Line words (.reconcile n.name (some count) false) →
    context.pageSize = s.settings.pageSize ∨ s.ledger.WellFormed n →
    s.ledger.invoke ⟨context, words⟩ = (.ok (.ok (Shaped.toJson a.coverage)), s.ledger)

variable {s : Service}

/-! ## What is measured -/

/-- What is refused changes nothing. -/
theorem coverage_of_refuses {name : String} {buckets : Option UInt32}
    (hrefuses : s.RefusesCoverage name (buckets.getD s.settings.bucketCount)) :
    ∃ reason, reason.status = 400 ∧ s.coverage name buckets = (.error reason, s) := by
  cases hname : Network.isName name with
  | false =>
    obtain ⟨reason, hreason⟩ := checkName_of_not_isName hname
    exact ⟨.network reason, rfl, by rw [coverage, hreason]⟩
  | true =>
    have hchecked : checkName name = .ok () := checkName_name ⟨name, hname⟩
    rw [coverage, hchecked]
    dsimp only
    split
    · exact ⟨_, rfl, rfl⟩
    · rename_i hmany
      have hzero : buckets.getD s.settings.bucketCount = 0 := by
        rcases hrefuses with hother | hother | hzero
        · cases hname.symm.trans hother
        · exact absurd hother hmany
        · exact hzero
      rw [measure, hzero, Ledger.coverage_zero]
      exact ⟨_, rfl, rfl⟩

/-- What is not refused is measured. -/
theorem coverage_of_not_refuses {n : Network} {buckets : Option UInt32}
    (hrefuses : ¬ s.RefusesCoverage n.name (buckets.getD s.settings.bucketCount)) :
    s.coverage n.name buckets = s.measure n.name (buckets.getD s.settings.bucketCount) := by
  have hfew : ¬ s.settings.maxBuckets < buckets.getD s.settings.bucketCount :=
    fun hmany => hrefuses (Or.inr (Or.inl hmany))
  rw [coverage, checkName_name]
  dsimp only
  rw [if_neg hfew]

variable {n : Network} {count : UInt32} (hcount : 0 < count)
include hcount

/-- Nothing is measured when the reading of the network fails. -/
theorem measure_of_readFails (hfails : s.ledger.ReadFails n s.settings.pageSize) :
    ∃ reason, s.measure n.name count = (.error (.unavailable reason), s.countUnmeasured) := by
  obtain ⟨reason, hreason⟩ := (Ledger.coverage_eq_unavailable_iff hcount _).2 hfails
  exact ⟨reason, by rw [measure, hreason]⟩

/-- The coverage of the marked blocks is what an answer has to say. -/
theorem covers_coverageOf {p : Partition} (hrequested : p.requested = count)
    (hhead : s.ledger.head n.name = .ok p.total)
    (hcoverage : s.ledger.coverage n.name count s.settings.pageSize =
      .ok (p.coverageOf fun block => s.ledger.blocks.contains (n.blockKey block))) :
    s.Covers n count (.ofCoverage n.name
      (p.coverageOf fun block => s.ledger.blocks.contains (n.blockKey block))) := by
  subst hrequested
  obtain ⟨value, hvalue, hlength, htotal⟩ := Ledger.exists_value_of_head_eq_ok hhead
  constructor
  case network | indexedCount_eq | percentIndexed => rfl
  case recorded => exact ⟨value, hvalue, hlength, htotal⟩
  case head => exact hhead
  case exact => exact p.exact_coverageOf _
  case length_ranges => exact (p.length_ranges_coverageOf _).trans p.size_eq_min
  case ranges_pos => exact p.size_pos.trans_eq (p.length_ranges_coverageOf _).symm
  case indexedCount => exact p.indexedCount_coverageOf _
  case reconcile =>
    intro context words hline hpages
    have hsame : s.ledger.coverage n.name p.requested context.pageSize =
        .ok (p.coverageOf fun block => s.ledger.blocks.contains (n.blockKey block)) := by
      rcases hpages with hpages | hkeys
      · rw [hpages, hcoverage]
      · exact Ledger.coverage_eq_of_wellFormed p hhead hkeys context.pageSize
    rw [Ledger.invoke_of_line _ hline, Command.run_of_network rfl, Command.runChecked,
      Option.getD_some, hsame]
    rfl

/-- Otherwise the coverage is measured. -/
theorem measure_of_not_readFails (hread : ¬ s.ledger.ReadFails n s.settings.pageSize) :
    ∃ c, s.measure n.name count = (.ok c, s.countMeasured) ∧
      s.Covers n count (.ofCoverage n.name c) := by
  obtain ⟨p, hrequested, hhead, hcoverage⟩ := Ledger.coverage_of_not_readFails hcount hread
  exact ⟨_, by rw [measure, hcoverage], covers_coverageOf hcount hrequested hhead hcoverage⟩

omit hcount

/-! ## Responses -/

section Responses

variable {r : HttpRequest} (hasks : r.Asks .coverage) {name : String} {buckets : Option UInt32}
  (horder : HttpRequest.coverageOrder? r.query = some (name, buckets))
include hasks horder

/-- Without a coverage, the answer is the reason. -/
theorem respond_of_coverage_error {reason : ServiceError} {next : Service}
    (hcoverage : s.coverage name buckets = (.error reason, next)) :
    s.respond r = (.failure reason, next) := by
  rw [s.respond_of_asks hasks, respondOn, respondCoverage, horder]
  dsimp only
  rw [hcoverage]

/-- A coverage is the answer. -/
theorem respond_of_coverage_ok {c : Coverage} {next : Service}
    (hcoverage : s.coverage name buckets = (.ok c, next)) :
    s.respond r = (.ok (.coverage (.ofCoverage name c)), next) := by
  rw [s.respond_of_asks hasks, respondOn, respondCoverage, horder]
  dsimp only
  rw [hcoverage]

/-- A refused request leaves the service as it is. -/
theorem respond_of_refusesCoverage
    (hrefuses : s.RefusesCoverage name (buckets.getD s.settings.bucketCount)) :
    ∃ message, s.respond r = (⟨400, .error message⟩, s) := by
  obtain ⟨reason, hstatus, hcoverage⟩ := coverage_of_refuses hrefuses
  rw [respond_of_coverage_error hasks horder hcoverage, HttpResponse.failure_eq, hstatus]
  exact ⟨_, rfl⟩

variable {n : Network} (hname : n.name = name)
  (hrefuses : ¬ s.RefusesCoverage name (buckets.getD s.settings.bucketCount))
include hname hrefuses

omit hasks horder in
/-- Any other request is measured, in at least one bucket. -/
theorem coverage_eq_measure :
    0 < buckets.getD s.settings.bucketCount ∧
      s.coverage name buckets = s.measure n.name (buckets.getD s.settings.bucketCount) := by
  subst hname
  refine ⟨UInt32.pos_iff_ne_zero.2 fun hzero => ?_, coverage_of_not_refuses hrefuses⟩
  exact hrefuses (Or.inr (Or.inr hzero))

/-- A reading that fails leaves nothing to answer with. -/
theorem respond_of_readFails (hfails : s.ledger.ReadFails n s.settings.pageSize) :
    ∃ message, s.respond r = (⟨503, .error message⟩, s.countUnmeasured) := by
  obtain ⟨hcount, hcoverage⟩ := coverage_eq_measure hname hrefuses
  obtain ⟨reason, hmeasure⟩ := measure_of_readFails hcount hfails
  exact ⟨_, respond_of_coverage_error hasks horder (hcoverage.trans hmeasure)⟩

/-- Otherwise the answer says what the ledger holds. -/
theorem respond_of_not_readFails (hread : ¬ s.ledger.ReadFails n s.settings.pageSize) :
    ∃ a, s.respond r = (.ok (.coverage a), s.countMeasured) ∧
      s.Covers n (buckets.getD s.settings.bucketCount) a := by
  obtain ⟨hcount, hcoverage⟩ := coverage_eq_measure hname hrefuses
  obtain ⟨c, hmeasure, hcovers⟩ := measure_of_not_readFails hcount hread
  rw [respond_of_coverage_ok hasks horder (hcoverage.trans hmeasure), ← hname]
  exact ⟨_, rfl, hcovers⟩

end Responses

end Service
end ChainCoverage
