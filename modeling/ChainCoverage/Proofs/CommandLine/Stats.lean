import ChainCoverage.Proofs.CommandLine.Effect
import ChainCoverage.Proofs.Coverage.Sums

/-!
# The printed counts

The number of indexed blocks that is printed of a network is found by looking at all of its keys,
also at those of blocks above the head, which no coverage knows of.  It is the number of indexed
blocks in a coverage, and these blocks on top.

Main definitions:

- `Command.statsReply`: what is printed of a network.

Main results:

- `Ledger.Represents.run_stats`: the contents decide what is printed.
- `Ledger.Represents.addsUp_coverage`: the indexed blocks of a network against its coverage.
- `counts_agree`: all counts after a sweep and after any sequence of events on a ledger.
-/

namespace ChainCoverage

/-- What is printed of a network with a head and a count of indexed blocks, beside an estimate of
the number of all keys. -/
def Command.statsReply (n : Network) (head : Option Block) (count : Json) (estimate : UInt64) :
    Json :=
  .object [
    ("approximate_total_indexed", .ofWord estimate),
    ("indexed_count", count),
    ("latest", (head.map Json.ofWord).getD .null),
    ("network", .text n.name)]

namespace Ledger.Represents

variable {s : Ledger} {c : Contents} (h : Represents s c)
include h

/-- The head and the number of indexed blocks are printed. -/
theorem run_stats (context : Command.Context) (n : Network) :
    Command.run context s (.stats n.name) =
      (.ok (Command.statsReply n (c n).head (Command.printCount (c n).blocks.card)
        context.estimate), s) := by
  have hprinted : Command.printStats context.estimate s n.name =
      .ok (Command.statsReply n (c n).head (Command.printCount (c n).blocks.card)
        context.estimate) := by
    rw [Command.printStats, h.head?_eq, h.markedCount_eq]
    rfl
  rw [Command.run_of_network rfl, Command.runChecked_stats hprinted]

/-- The indexed blocks of a network are those of its coverage and those above its head. -/
theorem addsUp_coverage {n : Network} {latest : Block} (hhead : (c n).head = some latest)
    (hlatest : latest.toNat + 1 < UInt64.size) {count : UInt32} (hcount : 0 < count) :
    ∃ coverage : Coverage, (∀ pageSize, s.coverage n.name count pageSize = .ok coverage) ∧
      coverage.latest = latest ∧ coverage.NoUnderflow ∧
      coverage.AddsUp ((c n).blocks.filter (· ≤ latest)).card ∧
      (c n).blocks.card =
        coverage.indexedCount.toNat + ((c n).blocks.filter (latest < ·)).card := by
  let p : Partition := ⟨latest, count, hcount⟩
  have hpresent : ∀ block, block ∈ (c n).blocks.filter (· ≤ latest) ↔
      block ≤ p.total ∧ decide (block ∈ (c n).blocks) = true := by
    intro block
    rw [Finset.mem_filter, decide_eq_true_iff, and_comm]
  obtain ⟨hunderflow, hadds⟩ := p.addsUp_coverageOf _ hlatest hpresent
  refine ⟨_, h.coverage_eq p hhead, rfl, hunderflow, hadds, ?_⟩
  have hsplit := Finset.card_filter_add_card_filter_not (s := (c n).blocks) (· ≤ latest)
  simp only [UInt64.not_le] at hsplit
  rw [hadds.indexedCount_eq, hsplit]

end Ledger.Represents

/-- After a sweep over any blocks no count goes below zero.  The counts of the ranges add up to
those of the chain, and as many blocks are counted as indexed as came of the chain; of a chain that
uses all blocks, one fewer.  After any sequence of events on a ledger, as many blocks are printed
as indexed as the coverage counts, and those above the head. -/
theorem counts_agree :
    (∀ (latest : Block) (blocks : List Block) (count : UInt32), 0 < count →
      (latest.toNat + 1 < UInt64.size →
        ∃ c, Coverage.ofBlocks latest blocks count = .ok c ∧ c.latest = latest ∧ c.NoUnderflow ∧
          c.AddsUp (blocks.toFinset.filter (· ≤ latest)).card) ∧
      (latest.toNat + 1 = UInt64.size → blocks ≠ [] →
        ∃ c, Coverage.ofBlocks latest blocks count = .ok c ∧ c.latest = latest ∧ c.NoUnderflow ∧
          c.indexedCount.toNat + 1 = blocks.toFinset.card)) ∧
    ∀ (events : List Ledger.Event) (n : Network) (latest : Block),
      Ledger.lastHead? events n = some latest → latest.toNat + 1 < UInt64.size →
      ∃ below above : Finset Block,
        (∀ block, block ∈ below ↔ block ≤ latest ∧ Ledger.lastMarked events n block = true) ∧
        (∀ block, block ∈ above ↔ latest < block ∧ Ledger.lastMarked events n block = true) ∧
        ∀ count : UInt32, 0 < count → ∃ c : Coverage,
          (∀ pageSize,
            (Ledger.empty.after events).coverage n.name count pageSize = .ok c) ∧
          c.latest = latest ∧ c.NoUnderflow ∧ c.AddsUp below.card ∧
          (Ledger.empty.after events).markedCount n.name =
            .ok (c.indexedCount.toNat + above.card) ∧
          ∀ context, ∃ printed, Command.run context (Ledger.empty.after events) (.stats n.name) =
              (.ok (Command.statsReply n (some latest) printed context.estimate),
                Ledger.empty.after events) ∧
            printed = Command.printCount (c.indexedCount.toNat + above.card) ∧
            (c.indexedCount.toNat + above.card < UInt64.size →
              printed = .ofNat (c.indexedCount.toNat + above.card)) := by
  constructor
  · intro latest blocks count hcount
    exact ⟨fun hlatest => Coverage.ofBlocks_addsUp hlatest hcount blocks,
      fun hlatest hblocks => Coverage.ofBlocks_top hlatest hcount hblocks⟩
  · intro events n latest hlast hlatest
    have hrepresents := Ledger.represents_empty.after events
    have hhead := (Contents.head_after events n).trans hlast
    refine ⟨(Contents.empty.after events n).blocks.filter (· ≤ latest),
      (Contents.empty.after events n).blocks.filter (latest < ·), ?below, ?above, ?counts⟩
    case below | above =>
      intro block
      rw [Finset.mem_filter, Contents.mem_blocks_after, and_comm]
    case counts =>
      intro count hcount
      obtain ⟨c, hcoverage, hclatest, hunderflow, hadds, htotal⟩ :=
        hrepresents.addsUp_coverage hhead hlatest hcount
      refine ⟨c, hcoverage, hclatest, hunderflow, hadds, ?_, fun context =>
        ⟨_, ?_, rfl, Command.printCount_of_lt⟩⟩
      · rw [hrepresents.markedCount_eq, htotal]
      · rw [hrepresents.run_stats, hhead, htotal]

/-- A late block and one above the head, a chain that uses all blocks, and a ledger that forgot
one of its blocks. -/
theorem counts_agree_above_head :
    let main : Network := ⟨"main", by decide⟩
    let events : List Ledger.Event := [.on main (.setHead 9), .on main (.markAll [0, 4, 12]),
      .on main (.unmark 4), .reopened]
    (∃ c, Coverage.ofBlocks 9 [6, 0, 3, 6, 12] 2 = .ok c ∧ c.indexedCount.toNat = 3) ∧
      (∃ c, Coverage.ofBlocks (-1) [5, -1, 5] 1 = .ok c ∧ c.indexedCount.toNat = 1) ∧
      ∃ (c : Coverage) (above : Finset Block),
        (Ledger.empty.after events).coverage "main" 3 1000 = .ok c ∧
        12 ∈ above ∧ 4 ∉ above ∧
        (Ledger.empty.after events).markedCount "main" =
          .ok (c.indexedCount.toNat + above.card) := by
  intro main events
  obtain ⟨hsweep, hledger⟩ := counts_agree
  refine ⟨?_, ?_, ?_⟩
  · obtain ⟨hshort, _⟩ := hsweep 9 [6, 0, 3, 6, 12] 2 (by decide)
    obtain ⟨c, hc, _, _, hadds⟩ := hshort (by decide)
    exact ⟨c, hc, hadds.indexedCount_eq.trans (by decide)⟩
  · obtain ⟨_, htop⟩ := hsweep (-1) [5, -1, 5] 1 (by decide)
    obtain ⟨c, hc, _, _, hcount⟩ := htop (by decide) (by decide)
    exact ⟨c, hc, Nat.succ.inj (hcount.trans (by decide))⟩
  · obtain ⟨_, above, _, habove, hcounts⟩ := hledger events main 9 (by decide) (by decide)
    obtain ⟨c, hc, _, _, _, hmarked, _⟩ := hcounts 3 (by decide)
    refine ⟨c, above, hc 1000, (habove 12).2 (by decide), ?_, hmarked⟩
    rw [habove]
    decide

end ChainCoverage
