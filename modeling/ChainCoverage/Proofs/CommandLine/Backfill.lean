import ChainCoverage.Proofs.CommandLine.Session
import ChainCoverage.Proofs.CommandLine.Usage

/-!
# Marking what is missing

The runs that a network is reported to miss can be given back as block arguments.  When
they are marked nothing is missing any more, and when they are forgotten again the ledger
holds what it held.

Main definitions:

- `Ledger.missing`: the blocks up to the head that a network has not marked.
- `Ledger.Reports`: which blocks reconciling a network reports as missing.
- `Ledger.Backfilled`: the ledgers after marking what is missing and after forgetting it.

Main results:

- `Ledger.Represents.reports_missing`: what is missing is what is reported.
- `Ledger.backfilled_afterInvocations`: marking what is reported, and forgetting it again.
-/

namespace ChainCoverage

/-! ## What is missing -/

/-- The blocks up to `latest` that are not indexed, in order. -/
def Progress.missing (p : Progress) (latest : Block) : List Block :=
  (Span.mk 0 latest).blocks.filter fun block => !decide (block ∈ p.blocks)

namespace Progress

variable (p : Progress) (latest : Block)

theorem mem_missing {block : Block} :
    block ∈ p.missing latest ↔ block ≤ latest ∧ block ∉ p.blocks := by
  rw [missing, List.mem_filter, Span.mem_blocks, Span.mem_zero_iff, Bool.not_eq_true',
    decide_eq_false_iff_not]

/-- Nothing is missing once what is missing is added. -/
theorem missing_add_missing : (p.add (p.missing latest).toFinset).missing latest = [] := by
  rw [List.eq_nil_iff_forall_not_mem]
  intro block hmem
  obtain ⟨hle, hnot⟩ := (mem_missing _ _).1 hmem
  simp only [add, Finset.mem_union, List.mem_toFinset, mem_missing, not_or] at hnot
  exact hnot.2 ⟨hle, hnot.1⟩

/-- What is missing can be added and removed again. -/
theorem remove_add_missing :
    (p.add (p.missing latest).toFinset).remove (p.missing latest).toFinset = p := by
  have hdisjoint : Disjoint p.blocks (p.missing latest).toFinset := by
    rw [Finset.disjoint_right]
    intro block hmem
    exact ((p.mem_missing latest).1 (List.mem_toFinset.1 hmem)).2
  rw [add, remove]
  simp only [Finset.union_sdiff_cancel_right hdisjoint]

end Progress

namespace Contents

variable (c : Contents) (n : Network) (blocks : Finset Block)

/-- Adding blocks leaves all heads. -/
theorem head_set_add (m : Network) : (c.set n ((c n).add blocks) m).head = (c m).head := by
  by_cases hm : m = n
  · subst hm
    rw [set_self, Progress.add]
  · rw [set_of_ne hm]

/-- Adding blocks leaves other blocks and other networks. -/
theorem mem_blocks_set_add_of_other {m : Network} {block : Block}
    (hother : m ≠ n ∨ block ∉ blocks) :
    block ∈ (c.set n ((c n).add blocks) m).blocks ↔ block ∈ (c m).blocks := by
  by_cases hm : m = n
  · subst hm
    rw [set_self, Progress.add, Finset.mem_union]
    exact or_iff_left (hother.resolve_left (not_not_intro rfl))
  · rw [set_of_ne hm]

end Contents

namespace Ledger

/-- The blocks up to `latest` that a network has not marked, in order. -/
def missing (s : Ledger) (n : Network) (latest : Block) : List Block :=
  (Span.mk 0 latest).blocks.filter fun block => !s.blocks.contains (n.blockKey block)

/-- Reconciling a network reports some blocks as missing, by their runs and by their number, for
any number of buckets and any size of pages, and it changes nothing. -/
def Reports (s : Ledger) (name : String) (blocks : List Block) : Prop :=
  ∀ (context : Command.Context) (count : Option UInt32), 0 < count.getD context.bucketCount →
    Command.run context s (.reconcile name count true) =
        (.ok (.array ((Run.ofBlocks blocks).map Span.toJson)), s) ∧
      ∃ c : Coverage, Command.run context s (.reconcile name count false) =
        (.ok (Shaped.toJson c), s) ∧ c.missingCount.toNat = blocks.length

/-! ## Runs as block arguments -/

/-- The block arguments for the runs of some blocks. -/
def runArguments (blocks : List Block) : List String :=
  (Run.ofBlocks blocks).map BlockArgument.format

theorem allBlocks_runArguments (blocks : List Block) :
    BlockArgument.allBlocks (runArguments blocks) = blocks.toFinset := by
  rw [runArguments, BlockArgument.allBlocks_map_format Run.first_le_last_of_mem_ofBlocks,
    Run.blocks_ofBlocks]

theorem totalSize_runArguments (blocks : List Block) :
    BlockArgument.totalSize (runArguments blocks) = blocks.length := by
  rw [runArguments, BlockArgument.totalSize_map_format Run.first_le_last_of_mem_ofBlocks,
    Run.blocks_ofBlocks]

theorem effect_markIndexed_runArguments (c : Contents) (n : Network) (blocks : List Block) :
    (Command.markIndexed n.name (runArguments blocks)).effect c =
      c.set n ((c n).add blocks.toFinset) := by
  rw [Command.effect, c.change_name, allBlocks_runArguments]

theorem effect_unmark_runArguments (c : Contents) (n : Network) (blocks : List Block) :
    (Command.unmark n.name (runArguments blocks)).effect c =
      c.set n ((c n).remove blocks.toFinset) := by
  rw [Command.effect, c.change_name, allBlocks_runArguments]

/-- No argument for a run starts with a hyphen. -/
theorem head?_ne_of_mem_runArguments (blocks : List Block) :
    ∀ argument ∈ runArguments blocks, argument.toList.head? ≠ some '-' := by
  intro argument hmem
  obtain ⟨span, _, rfl⟩ := List.mem_map.1 hmem
  exact BlockArgument.head?_format_ne span

/-- A command on the arguments for runs is not refused. -/
theorem not_refused_runArguments (n : Network) (blocks : List Block) :
    ¬ (Network.isName n.name = false ∨ ∃ argument ∈ runArguments blocks,
      ∃ reason, BlockArgument.parse argument = .error reason) := by
  rintro (hname | hbad)
  · exact absurd n.valid (Bool.eq_false_iff.1 hname)
  · exact BlockArgument.not_exists_error_map_format Run.first_le_last_of_mem_ofBlocks hbad

/-! ## Reports -/

namespace Represents

variable {s : Ledger} {c : Contents} (h : Represents s c) (n : Network)
include h

theorem missing_eq (latest : Block) : s.missing n latest = (c n).missing latest := by
  apply List.filter_congr
  intro block _
  congr 1
  rw [Bool.eq_iff_iff, Std.TreeSet.contains_iff_mem, h.mem_blockKey_iff, decide_eq_true_iff]

/-- What is missing is what is reported. -/
theorem reports_missing {n : Network} {latest : Block} (hhead : (c n).head = some latest)
    (hlt : (s.missing n latest).length < UInt64.size) :
    s.Reports n.name (s.missing n latest) := by
  rw [h.missing_eq] at hlt ⊢
  intro context count hcount
  let p : Partition := ⟨latest, count.getD context.bucketCount, hcount⟩
  let coverage := p.coverageOf fun block => decide (block ∈ (c n).blocks)
  have hrun : ∀ runsOnly, Command.run context s (.reconcile n.name count runsOnly) =
      (.ok (Command.printCoverage runsOnly coverage), s) := by
    intro runsOnly
    rw [Command.run_of_network (n := n) rfl, Command.runChecked, h.coverage_eq p hhead]
  have hmissing : coverage.missing = (c n).missing latest := p.missing_coverageOf _
  refine ⟨?_, coverage, hrun false, ?_⟩
  · rw [hrun, ← hmissing]
    rfl
  · rw [← hmissing] at hlt ⊢
    exact UInt64.toNat_ofNat_of_lt' hlt

/-- A command on the arguments for the runs of some blocks counts these blocks. -/
theorem run_runArguments (command : Command) {blocks : List Block} {reply : Json}
    (hcount : command.blockCount = BlockArgument.totalSize (runArguments blocks))
    (hlt : blocks.length < UInt64.size)
    (hreply : command.countReply? (.ofNat blocks.length) = some reply)
    (haccepted : ∀ context, ¬ command.Refused context c) :
    ∃ next, (∀ context, Command.run context s command = (.ok reply, next)) ∧
      Represents next (command.effect c) := by
  rw [totalSize_runArguments] at hcount
  rw [← hcount] at hreply hlt
  exact Command.exists_run_eq_of_countReply? h command hreply hlt haccepted

end Represents

/-! ## Marking and forgetting -/

/-- The ledgers after marking what a network misses up to `latest`, and after forgetting it. -/
structure Backfilled (s : Ledger) (n : Network) (latest : Block) (marked restored : Ledger) :
    Prop where
  /-- As many blocks are marked as are missing. -/
  mark_eq : ∀ context,
    Command.run context s (.markIndexed n.name (runArguments (s.missing n latest))) =
      (.ok (.object [("marked", .ofNat (s.missing n latest).length), ("network", .text n.name)]),
        marked)
  /-- Nothing is missing then. -/
  reports_marked : marked.Reports n.name []
  /-- As many blocks are forgotten. -/
  unmark_eq : ∀ context,
    Command.run context marked (.unmark n.name (runArguments (s.missing n latest))) =
      (.ok (.object [("network", .text n.name), ("unmarked", .ofNat (s.missing n latest).length)]),
        restored)
  /-- The same blocks are missing again. -/
  reports_restored : restored.Reports n.name (s.missing n latest)
  mem_restored_iff : ∀ key, key ∈ restored.blocks ↔ key ∈ s.blocks
  /-- Other networks and blocks past the head are left alone meanwhile. -/
  mem_marked_iff : ∀ (m : Network) (block : Block), m ≠ n ∨ latest < block →
    (m.blockKey block ∈ marked.blocks ↔ m.blockKey block ∈ s.blocks)
  head?_eq : ∀ m : Network, marked.head? m.name = s.head? m.name ∧
    restored.head? m.name = s.head? m.name

/-- What is missing can be marked and forgotten again. -/
theorem Represents.exists_backfilled {s : Ledger} {c : Contents} (h : Represents s c) {n : Network}
    {latest : Block} (hhead : (c n).head = some latest)
    (hlt : (s.missing n latest).length < UInt64.size) :
    ∃ marked restored, s.Backfilled n latest marked restored := by
  have hmissing := h.missing_eq n latest
  have haccepted := not_refused_runArguments n (s.missing n latest)
  obtain ⟨marked, hmark, hmarked⟩ := h.run_runArguments
    (.markIndexed n.name (runArguments (s.missing n latest))) rfl hlt rfl fun _ => haccepted
  obtain ⟨restored, hunmark, hrestored⟩ := hmarked.run_runArguments
    (.unmark n.name (runArguments (s.missing n latest))) rfl hlt rfl fun _ => haccepted
  rw [effect_markIndexed_runArguments, hmissing] at hmarked
  rw [effect_markIndexed_runArguments, effect_unmark_runArguments, Contents.set_self,
    Contents.set_set, hmissing, Progress.remove_add_missing, Contents.set_apply_self] at hrestored
  refine ⟨marked, restored, hmark, ?_, hunmark, ?_, ?_, ?_, ?_⟩
  · have hnone : marked.missing n latest = [] := by
      rw [hmarked.missing_eq, Contents.set_self, Progress.missing_add_missing]
    have hreports := hmarked.reports_missing ((Contents.head_set_add c n _ n).trans hhead)
      (by rw [hnone]; decide)
    rwa [hnone] at hreports
  · have hsame : restored.missing n latest = s.missing n latest := by
      rw [hrestored.missing_eq, hmissing]
    have hreports := hrestored.reports_missing hhead (by rw [hsame]; exact hlt)
    rwa [hsame] at hreports
  · exact fun key => (hrestored.mem_iff key).trans (h.mem_iff key).symm
  · intro m block hother
    rw [hmarked.mem_blockKey_iff, h.mem_blockKey_iff]
    apply Contents.mem_blocks_set_add_of_other
    refine hother.imp_right fun hlt hmem => ?_
    exact UInt64.not_le.2 hlt (((c n).mem_missing latest).1 (List.mem_toFinset.1 hmem)).1
  · intro m
    rw [hmarked.head?_eq, hrestored.head?_eq, h.head?_eq, Contents.head_set_add]
    exact ⟨rfl, rfl⟩

end Ledger
end ChainCoverage
