import ChainCoverage.Proofs.Ledger.Archive
import ChainCoverage.Proofs.Ledger.Contents
import ChainCoverage.Proofs.Ledger.Marked

/-!
# A ledger answers like its contents

Clients cannot tell a ledger from the sets that its keys stand for.  A ledger represents
contents when its keys are the keys of the indexed blocks of all networks and nothing
else.  Every event keeps this relation and is answered from the contents.

Main results:

- `Ledger.Represents`: which contents a ledger represents.
- `Ledger.Represents.markedBlocks_eq`: the marked blocks are the indexed ones.
- `Ledger.Represents.step`: an event on the ledger is the same event on its contents.
- `Ledger.answers_eq_contents`: the answers to any sequence of events.
-/

namespace ChainCoverage
namespace Ledger

/-! ## Operations under a valid name -/

section Named

variable (s : Ledger) (n : Network)

@[simp]
theorem write_name (change : Network → Ledger) : s.write n.name change = (.ok (), change n) := by
  rw [write, named_name]

theorem mark_name (block : Block) :
    s.mark n.name block = (.ok (), s.insertKey (n.blockKey block)) :=
  write_name s n _

theorem unmark_name (block : Block) :
    s.unmark n.name block = (.ok (), s.eraseKey (n.blockKey block)) :=
  write_name s n _

theorem setHead_name (head : Block) :
    s.setHead n.name head = (.ok (), s.insertHead n.headKey (headValue head)) :=
  write_name s n _

/-- Writes that do not fail are made one after another and counted. -/
theorem foldl_writeAll_step {op : Ledger → Block → Except LedgerError Unit × Ledger}
    {change : Ledger → Block → Ledger} (hop : ∀ s block, op s block = (.ok (), change s block))
    (blocks : List Block) (count : Nat) :
    blocks.foldl (writeAll.step op) (.ok count, s) =
      (.ok (count + blocks.length), blocks.foldl change s) := by
  induction blocks generalizing s count with
  | nil => rfl
  | cons block blocks ih =>
    have hstep : writeAll.step op (.ok count, s) block = (.ok (count + 1), change s block) := by
      rw [writeAll.step, hop]
    rw [List.foldl_cons, hstep, ih, List.length_cons, List.foldl_cons, Nat.add_assoc,
      Nat.add_comm 1]

theorem markAll_name (blocks : List Block) :
    s.markAll n.name blocks = (.ok blocks.length,
      blocks.foldl (fun s block => s.insertKey (n.blockKey block)) s) := by
  rw [markAll, writeAll, foldl_writeAll_step s fun s block => s.mark_name n block, Nat.zero_add]

theorem unmarkAll_name (blocks : List Block) :
    s.unmarkAll n.name blocks = (.ok blocks.length,
      blocks.foldl (fun s block => s.eraseKey (n.blockKey block)) s) := by
  rw [unmarkAll, writeAll, foldl_writeAll_step s fun s block => s.unmark_name n block,
    Nat.zero_add]

theorem markedCount_name :
    s.markedCount n.name = .ok (s.blocks.toList.countP (n.keyStem.isPrefixOf ·)) := by
  rw [markedCount, named_name]
  rfl

end Named

/-! ## What a ledger represents -/

/-- The keys of a ledger are the keys of the indexed blocks of all networks, and its heads are the
heads of all chains. -/
structure Represents (s : Ledger) (c : Contents) : Prop where
  mem_blockKey_iff : ∀ (n : Network) (block : Block),
    n.blockKey block ∈ s.blocks ↔ block ∈ (c n).blocks
  exists_blockKey : ∀ key ∈ s.blocks, ∃ (n : Network) (block : Block), key = n.blockKey block
  heads_eq : ∀ n : Network, s.heads[n.headKey]? = (c n).head.map headValue

/-- The empty ledger holds nothing. -/
theorem represents_empty : Represents empty .empty where
  mem_blockKey_iff n block := by
    refine iff_of_false Std.TreeSet.not_mem_emptyc ?_
    exact Finset.notMem_empty block
  exists_blockKey key hmem := absurd hmem Std.TreeSet.not_mem_emptyc
  heads_eq n := Std.TreeMap.getElem?_emptyc

namespace Represents

variable {s : Ledger} {c : Contents} (h : Represents s c)
include h

/-! ## Reads -/

/-- The blocks that a network has marked are its indexed blocks. -/
theorem markedBlocks_eq (n : Network) : s.markedBlocks n = (c n).blocks := by
  ext block
  rw [mem_markedBlocks, h.mem_blockKey_iff]

/-- The keys are those of the indexed blocks. -/
theorem mem_iff (key : Bytes) :
    key ∈ s.blocks ↔ ∃ (n : Network) (block : Block), key = n.blockKey block ∧
      block ∈ (c n).blocks := by
  constructor
  · intro hmem
    obtain ⟨n, block, rfl⟩ := h.exists_blockKey key hmem
    exact ⟨n, block, rfl, (h.mem_blockKey_iff n block).1 hmem⟩
  · rintro ⟨n, block, rfl, hmem⟩
    exact (h.mem_blockKey_iff n block).2 hmem

/-- A key that starts like the keys of a network is one of them. -/
theorem eq_blockKey_of_keyStem_isPrefix {n : Network} {key : Bytes} (hmem : key ∈ s.blocks)
    (hstem : n.keyStem <+: key) : ∃ block, key = n.blockKey block := by
  obtain ⟨m, block, rfl⟩ := h.exists_blockKey key hmem
  obtain rfl := Network.eq_of_keyStem_isPrefix hstem
  exact ⟨block, rfl⟩

/-- Membership is answered from the set. -/
theorem isMarked_eq (n : Network) (block : Block) :
    s.isMarked n.name block = .ok (decide (block ∈ (c n).blocks)) := by
  rw [s.isMarked_name]
  congr 1
  rw [Bool.eq_iff_iff, Std.TreeSet.contains_iff_mem, h.mem_blockKey_iff, decide_eq_true_iff]

/-- Keys are counted like blocks. -/
theorem markedCount_eq (n : Network) : s.markedCount n.name = .ok (c n).blocks.card := by
  have hown : ∀ block, n.keyStem.isPrefixOf (n.blockKey block) = true := by
    intro block
    rw [List.isPrefixOf_iff_prefix, Network.blockKey]
    exact List.prefix_append _ _
  have hother : ∀ key ∈ s.blocks, n.keyStem.isPrefixOf key = true →
      ∃ block, key = n.blockKey block := fun key hmem hprefix =>
    h.eq_blockKey_of_keyStem_isPrefix hmem (List.isPrefixOf_iff_prefix.1 hprefix)
  rw [s.markedCount_name, List.countP_eq_length_filter, filter_toList hown hother,
    List.filter_true, List.length_map, ascendingBlocks, Finset.length_sort, h.markedBlocks_eq]

/-- A page is answered from the set in ascending order. -/
theorem page_eq (n : Network) (after : Option Block) (upTo : Block) (limit : Nat) :
    s.page ⟨n.name, after, upTo, limit⟩ =
      .ok (pageOf (ascendingBlocks (c n).blocks) ⟨n.name, after, upTo, limit⟩) := by
  rcases s.page_name_cases n after upTo limit with ⟨key, hmem, hstem, _, hnone, _⟩ | hpage
  · obtain ⟨block, rfl⟩ := h.eq_blockKey_of_keyStem_isPrefix hmem hstem
    rw [Network.blockOfKey?_blockKey] at hnone
    contradiction
  · rw [hpage, h.markedBlocks_eq]

/-- The head is read as it was written. -/
theorem head?_eq (n : Network) : s.head? n.name = .ok (c n).head := by
  rw [head?, named_name]
  dsimp only
  rw [h.heads_eq]
  cases (c n).head with
  | none => rfl
  | some head =>
    rw [Option.map_some]
    dsimp only
    rw [headOfValue?_headValue]

/-- A head must have been written. -/
theorem head_eq (n : Network) : s.head n.name = (c n).requireHead n.name := by
  rw [head, h.head?_eq, Progress.requireHead]
  cases (c n).head <;> rfl

/-! ## Writes -/

/-- The heads stay when only the blocks of a network change. -/
theorem heads_set (n : Network) {p : Progress} (hhead : p.head = (c n).head) (m : Network) :
    s.heads[m.headKey]? = (c.set n p m).head.map headValue := by
  rw [h.heads_eq]
  by_cases hm : m = n
  · subst hm
    rw [Contents.set_self, hhead]
  · rw [Contents.set_of_ne hm]

/-- A key more is a block more of its network. -/
theorem insertKey (n : Network) (block : Block) :
    Represents (s.insertKey (n.blockKey block)) (c.set n ((c n).add {block})) where
  mem_blockKey_iff m other := by
    rw [mem_insertKey, Network.blockKey_inj, h.mem_blockKey_iff]
    by_cases hm : m = n
    · subst hm
      simp [Progress.add, eq_comm]
    · simp [hm, Ne.symm hm]
  exists_blockKey key hmem := by
    rcases mem_insertKey.1 hmem with rfl | hmem
    · exact ⟨n, block, rfl⟩
    · exact h.exists_blockKey key hmem
  heads_eq := h.heads_set n rfl

/-- A key less is a block less of its network. -/
theorem eraseKey (n : Network) (block : Block) :
    Represents (s.eraseKey (n.blockKey block)) (c.set n ((c n).remove {block})) where
  mem_blockKey_iff m other := by
    rw [mem_eraseKey, Ne, Network.blockKey_inj, h.mem_blockKey_iff]
    by_cases hm : m = n
    · subst hm
      simp [Progress.remove, eq_comm, and_comm]
    · simp [hm, Ne.symm hm]
  exists_blockKey key hmem := h.exists_blockKey key (mem_eraseKey.1 hmem).2
  heads_eq := h.heads_set n rfl

/-- Another value is another head of its network. -/
theorem insertHead (n : Network) (head : Block) :
    Represents (s.insertHead n.headKey (headValue head)) (c.set n ((c n).withHead head)) where
  mem_blockKey_iff m other := by
    by_cases hm : m = n
    · subst hm
      rw [Contents.set_self]
      exact h.mem_blockKey_iff m other
    · rw [Contents.set_of_ne hm]
      exact h.mem_blockKey_iff m other
  exists_blockKey := h.exists_blockKey
  heads_eq m := by
    rw [heads_insertHead]
    by_cases hm : m = n
    · subst hm
      rw [Contents.set_self, if_pos rfl]
      rfl
    · have hne : n.headKey ≠ m.headKey := fun hkey => hm (Network.headKey_inj.1 hkey).symm
      rw [Contents.set_of_ne hm, if_neg hne]
      exact h.heads_eq m

/-- Keys more are blocks more of their network. -/
theorem foldl_insertKey (n : Network) (blocks : List Block) :
    Represents (blocks.foldl (fun s block => s.insertKey (n.blockKey block)) s)
      (c.set n ((c n).add blocks.toFinset)) := by
  induction blocks generalizing s c with
  | nil => simpa [Progress.add] using h
  | cons block blocks ih =>
    have hrest := ih (h.insertKey n block)
    simpa [Progress.add, Finset.union_assoc] using hrest

/-- Keys less are blocks less of their network. -/
theorem foldl_eraseKey (n : Network) (blocks : List Block) :
    Represents (blocks.foldl (fun s block => s.eraseKey (n.blockKey block)) s)
      (c.set n ((c n).remove blocks.toFinset)) := by
  induction blocks generalizing s c with
  | nil => simpa [Progress.remove] using h
  | cons block blocks ih =>
    have hrest := ih (h.eraseKey n block)
    simpa [Progress.remove, sdiff_sdiff_left] using hrest

/-- A reopened ledger represents the same. -/
theorem reopen : Represents s.reopen c where
  mem_blockKey_iff n block := by
    rw [mem_blocks_reopen]
    exact h.mem_blockKey_iff n block
  exists_blockKey key hmem := h.exists_blockKey key ((s.mem_blocks_reopen key).1 hmem)
  heads_eq n := by
    rw [heads_reopen]
    exact h.heads_eq n

/-! ## Runs -/

/-- An operation is answered from the progress of its network and changes that progress only. -/
theorem perform (n : Network) (operation : Operation) :
    (s.perform n.name operation).1 = ((c n).perform n.name operation).1 ∧
      Represents (s.perform n.name operation).2
        (c.set n ((c n).perform n.name operation).2) := by
  cases operation with
  | mark block =>
    simp only [Ledger.perform, mark_name]
    exact ⟨rfl, h.insertKey n block⟩
  | markAll blocks =>
    simp only [Ledger.perform, markAll_name]
    exact ⟨rfl, h.foldl_insertKey n blocks⟩
  | unmark block =>
    simp only [Ledger.perform, unmark_name]
    exact ⟨rfl, h.eraseKey n block⟩
  | unmarkAll blocks =>
    simp only [Ledger.perform, unmarkAll_name]
    exact ⟨rfl, h.foldl_eraseKey n blocks⟩
  | setHead head =>
    simp only [Ledger.perform, setHead_name]
    exact ⟨rfl, h.insertHead n head⟩
  | isMarked block =>
    simp only [Ledger.perform, h.isMarked_eq, Progress.perform, Contents.set_apply_self]
    exact ⟨rfl, h⟩
  | page after upTo limit =>
    simp only [Ledger.perform, source, h.page_eq, Progress.perform, Contents.set_apply_self]
    exact ⟨rfl, h⟩
  | markedCount =>
    simp only [Ledger.perform, h.markedCount_eq, Progress.perform, Contents.set_apply_self]
    exact ⟨rfl, h⟩
  | head? =>
    simp only [Ledger.perform, h.head?_eq, Progress.perform, Contents.set_apply_self]
    exact ⟨rfl, h⟩
  | head =>
    simp only [Ledger.perform, oracle, h.head_eq, Progress.perform, Contents.set_apply_self]
    exact ⟨rfl, h⟩

/-- An event on the ledger is the same event on its contents. -/
theorem step (event : Event) :
    (s.step event).1 = (c.step event).1 ∧ Represents (s.step event).2 (c.step event).2 := by
  cases event with
  | on n operation => exact h.perform n operation
  | reopened => exact ⟨rfl, h.reopen⟩

/-- The relation is kept by any sequence of events. -/
theorem after (events : List Event) : Represents (s.after events) (c.after events) := by
  induction events generalizing s c with
  | nil => exact h
  | cons event events ih => exact ih (h.step event).2

/-- Any sequence of events is answered from the contents. -/
theorem answers_eq (events : List Event) : s.answers events = c.answers events := by
  induction events generalizing s c with
  | nil => rfl
  | cons event events ih =>
    obtain ⟨hanswer, hnext⟩ := h.step event
    rw [answers, Contents.answers, hanswer, ih hnext]

end Represents

/-- From the empty ledger on, every event is answered from the sets of blocks and the heads of the
chains; and an operation on a network is answered as if there had been no other network. -/
theorem answers_eq_contents (events : List Event) :
    empty.answers events = Contents.empty.answers events ∧
      ∀ (n : Network) (operation : Operation),
        ((empty.after events).perform n.name operation).1 =
          ((empty.after (events.filter (·.concerns n))).perform n.name operation).1 := by
  refine ⟨represents_empty.answers_eq events, fun n operation => ?_⟩
  have hall := (represents_empty.after events).perform n operation
  have hown := (represents_empty.after (events.filter (·.concerns n))).perform n operation
  have hprogress : Contents.empty.after (events.filter (·.concerns n)) n =
      Contents.empty.after events n := Contents.after_filter_concerns rfl events
  rw [hall.1, hown.1, hprogress]

end Ledger
end ChainCoverage
