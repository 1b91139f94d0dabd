import ChainCoverage.Proofs.Partition.Balance
import ChainCoverage.Proofs.WorkerTask
import Mathlib.Data.List.Forall2

/-!
# Plans are even

The tasks of a plan are the buckets of a chain as long as its range, moved up to where the range
starts.  Moving them keeps their sizes and their order, and no block number wraps around on the
way, not even in a range that ends with the last block there is.

Main definitions:

- `Span.shift?`: a span moved up, with both sums checked.

Main results:

- `Span.TileEvenly.shift`: spans that cut up a range evenly do so wherever they are moved.
- `workerPlan_tileEvenly`: when there is no plan, and what a plan is otherwise.
-/

namespace ChainCoverage

/-! ## Moved spans -/

namespace Span

/-- The span moved up by `offset` blocks, unless an end of it would pass the last word. -/
def shift? (s : Span) (offset : Block) : Option Span := do
  let first ← Checked.toWord (offset.toNat + s.first.toNat)
  let last ← Checked.toWord (offset.toNat + s.last.toNat)
  return ⟨first, last⟩

/-- A span that stays within the words is moved without a failure. -/
theorem shift?_eq {s : Span} {offset : Block}
    (hfits : offset.toNat + s.last.toNat < UInt64.size) (hle : s.first ≤ s.last) :
    s.shift? offset = some (s.shift offset) := by
  have hfirst : offset.toNat + s.first.toNat < UInt64.size :=
    Nat.lt_of_le_of_lt (Nat.add_le_add_left (UInt64.le_iff_toNat_le.1 hle) _) hfits
  rw [shift?, Checked.toWord_of_lt hfirst, Checked.toWord_of_lt hfits, shift, UInt64.ofNat_add,
    UInt64.ofNat_add, UInt64.ofNat_toNat, UInt64.ofNat_toNat, UInt64.ofNat_toNat]
  rfl

/-- Spans that cut up a range evenly still do when all of them are moved up. -/
theorem TileEvenly.shift {first last offset : Block} {spans : List Span}
    (h : TileEvenly first last spans)
    (hfits : ∀ span ∈ spans, offset.toNat + span.last.toNat < UInt64.size) :
    TileEvenly (offset + first) (offset + last) (spans.map (·.shift offset)) := by
  have hsize : ∀ span ∈ spans, (span.shift offset).size = span.size :=
    fun span hspan => size_shift (hfits span hspan) (h.nonempty span hspan)
  constructor
  case starts =>
    obtain ⟨front, hfront, hfirst⟩ := Option.map_eq_some_iff.1 h.starts
    rw [List.head?_map, hfront, Option.map_some, Option.map_some, Span.shift, hfirst]
  case ends =>
    obtain ⟨back, hback, hlast⟩ := Option.map_eq_some_iff.1 h.ends
    rw [List.getLast?_map, hback, Option.map_some, Option.map_some, Span.shift, hlast]
  case nonempty =>
    intro moved hmoved
    obtain ⟨span, hspan, rfl⟩ := List.mem_map.1 hmoved
    exact first_le_last_shift (hfits span hspan) (h.nonempty span hspan)
  case contiguous =>
    rw [List.isChain_map, List.isChain_iff_getElem]
    intro index hnext
    have hchain := List.isChain_iff_getElem.1 h.contiguous index hnext
    have hspan : spans[index] ∈ spans := List.getElem_mem _
    have hbehind : spans[index + 1] ∈ spans := List.getElem_mem _
    rw [toNat_first_shift (hfits _ hbehind) (h.nonempty _ hbehind),
      toNat_last_shift (hfits _ hspan), hchain, Nat.add_assoc]
  case narrowing =>
    rw [List.pairwise_map]
    refine h.narrowing.imp_of_mem fun {span later} hspan hlater hle => ?_
    rwa [hsize span hspan, hsize later hlater]
  case even =>
    simp only [List.forall_mem_map]
    intro span hspan other hother
    rw [hsize span hspan, hsize other hother]
    exact h.even span hspan other hother

end Span

/-! ## Plans -/

namespace Partition

variable (p : Partition) {first : Block}
  (hfits : first.toNat + p.total.toNat < UInt64.size) (options : TaskOptions)
include hfits

/-- No bucket is moved past the last word when the chain is not. -/
theorem add_toNat_last_lt_size {span : Span} (hspan : span ∈ p.spans) :
    first.toNat + span.last.toNat < UInt64.size := by
  have hlast := UInt64.le_iff_toNat_le.1 (p.bounds_of_mem_spans hspan).2
  omega

/-- The tasks cut up the moved chain evenly. -/
theorem tileEvenly_tasks :
    Span.TileEvenly first (first + p.total) ((p.tasks first options).map WorkerTask.span) := by
  have hspans : (p.tasks first options).map WorkerTask.span = p.spans.map (·.shift first) := by
    rw [tasks, List.map_map]
    rfl
  have hmoved := p.tileEvenly_spans.shift fun span hspan => p.add_toNat_last_lt_size hfits hspan
  rwa [UInt64.add_zero, ← hspans] at hmoved

/-- Each task is a bucket that is moved without a failure, with the options of the plan. -/
theorem forall₂_tasks :
    List.Forall₂ (fun span task => span.shift? first = some task.span ∧ task.options = options)
      p.spans (p.tasks first options) := by
  rw [tasks, List.forall₂_map_right_iff, List.forall₂_same]
  intro span hspan
  exact ⟨Span.shift?_eq (p.add_toNat_last_lt_size hfits hspan) (p.bounds_of_mem_spans hspan).1, rfl⟩

end Partition

/-- There is no plan exactly for an inverted range or for no workers. -/
theorem exists_workerPlan_eq_error_iff {first last : Block} {workers : UInt32}
    {options : TaskOptions} :
    (∃ reason, workerPlan first last workers options = .error reason) ↔
      last < first ∨ workers = 0 := by
  cases hplan : workerPlan first last workers options with
  | ok tasks =>
    obtain ⟨hle, hworkers, _⟩ := workerPlan_eq_ok_iff.1 hplan
    refine iff_of_false nofun ?_
    rintro (hinverted | hnone)
    · exact UInt64.not_lt.2 hle hinverted
    · exact UInt32.pos_iff_ne_zero.1 hworkers hnone
  | error reason =>
    refine iff_of_true ⟨reason, rfl⟩ ?_
    rw [or_iff_not_imp_left, UInt64.not_lt]
    intro hle
    by_contra hworkers
    have hok := workerPlan_eq_ok_iff.2
      ⟨hle, UInt32.pos_iff_ne_zero.2 hworkers, Eq.refl (Partition.tasks _ first options)⟩
    rw [hplan] at hok
    contradiction

/-- A plan is refused exactly for an inverted range or for no workers.  Otherwise its tasks cut up
the range evenly, one for each worker or for each block when there are fewer of these: they are the
buckets of a chain as long as the range, moved up without a sum that wraps around, and all of them
carry the options. -/
theorem workerPlan_tileEvenly (first last : Block) (workers : UInt32) (options : TaskOptions) :
    ((∃ reason, workerPlan first last workers options = .error reason) ↔
        last < first ∨ workers = 0) ∧
      (first ≤ last → 0 < workers → ∃ tasks spans,
        workerPlan first last workers options = .ok tasks ∧
        balancedSpans (last - first) workers = .ok spans ∧
        tasks.length = min workers.toNat (last.toNat - first.toNat + 1) ∧
        Span.TileEvenly first last (tasks.map WorkerTask.span) ∧
        Checked.sub last.toNat first.toNat = some (last - first).toNat ∧
        List.Forall₂
          (fun span task => span.shift? first = some task.span ∧ task.options = options)
          spans tasks) := by
  refine ⟨exists_workerPlan_eq_error_iff, fun hle hworkers => ?_⟩
  let p : Partition := ⟨last - first, workers, hworkers⟩
  have hbelow := UInt64.le_iff_toNat_le.1 hle
  have hdistance : p.total.toNat = last.toNat - first.toNat := UInt64.toNat_sub_of_le _ _ hle
  have hend : first + p.total = last := by
    rw [UInt64.add_comm]
    exact UInt64.sub_add_cancel last first
  have hfits : first.toNat + p.total.toNat < UInt64.size := by
    rw [hdistance, Nat.add_sub_cancel' hbelow]
    exact last.toNat_lt_size
  have htile := p.tileEvenly_tasks hfits options
  rw [hend] at htile
  refine ⟨p.tasks first options, p.spans, workerPlan_eq_ok_iff.2 ⟨hle, hworkers, rfl⟩,
    p.balancedSpans_eq, ?_, htile, ?_, p.forall₂_tasks hfits options⟩
  · rw [p.length_tasks, p.size_eq_min, Partition.items, hdistance]
  · rw [Checked.sub_of_le hbelow]
    exact congrArg some hdistance.symm

/-- Three workers on the seven blocks at the end of the words. -/
theorem workerPlan_tileEvenly_last_blocks :
    (-7 : Block) ≤ -1 ∧ (0 : UInt32) < 3 ∧
      ∃ tasks, workerPlan (-7) (-1) 3 ⟨true, "debug"⟩ = .ok tasks ∧ tasks.length = 3 ∧
        Span.TileEvenly (-7) (-1) (tasks.map WorkerTask.span) := by
  have hle : (-7 : Block) ≤ -1 := by decide
  have hworkers : (0 : UInt32) < 3 := by decide
  obtain ⟨_, hplan⟩ := workerPlan_tileEvenly (-7) (-1) 3 ⟨true, "debug"⟩
  obtain ⟨tasks, _, htasks, _, hlength, htile, _⟩ := hplan hle hworkers
  exact ⟨hle, hworkers, tasks, htasks, hlength, htile⟩

end ChainCoverage
