import ChainCoverage.Ledger.Archive

/-!
# Closing and opening a ledger

The saved entries of a ledger are all that it holds, so a ledger that was closed and
opened again answers like before.

Main results:

- `Ledger.reopen_eq`: the reopened ledger, entry after entry.
- `Ledger.mem_blocks_reopen` and `Ledger.heads_reopen`: nothing is lost or added.
-/

namespace ChainCoverage
namespace Ledger

/-- Saved blocks are inserted as blocks. -/
theorem foldl_insertEntry_block (s : Ledger) (keys : List Bytes) :
    (keys.map Entry.block).foldl insertEntry s = { s with blocks := s.blocks.insertMany keys } := by
  induction keys generalizing s with
  | nil => rfl
  | cons key keys ih =>
    rw [List.map_cons, List.foldl_cons, ih, Std.TreeSet.insertMany_cons]
    rfl

/-- Saved heads are inserted as heads. -/
theorem foldl_insertEntry_head (s : Ledger) (entries : List (Bytes × Bytes)) :
    (entries.map fun (key, value) => Entry.head key value).foldl insertEntry s =
      { s with heads := s.heads.insertMany entries } := by
  induction entries generalizing s with
  | nil => rfl
  | cons entry entries ih =>
    rw [List.map_cons, List.foldl_cons, ih, Std.TreeMap.insertMany_cons]
    rfl

/-- The reopened ledger is filled with the entries of the ledger. -/
theorem reopen_eq (s : Ledger) :
    s.reopen = ⟨Std.TreeSet.insertMany ∅ s.blocks.toList,
      Std.TreeMap.insertMany ∅ s.heads.toList⟩ := by
  rw [reopen, ofEntries, entries, List.foldl_append, foldl_insertEntry_block,
    foldl_insertEntry_head]
  rfl

/-- The reopened ledger has the same blocks. -/
@[simp]
theorem mem_blocks_reopen (s : Ledger) (key : Bytes) : key ∈ s.reopen.blocks ↔ key ∈ s.blocks := by
  rw [reopen_eq, Std.TreeSet.mem_insertMany_list]
  simp

/-- The reopened ledger has the same heads. -/
@[simp]
theorem heads_reopen (s : Ledger) (key : Bytes) : s.reopen.heads[key]? = s.heads[key]? := by
  rw [reopen_eq]
  cases hhead : s.heads[key]? with
  | none =>
    have habsent : (s.heads.toList.map Prod.fst).contains key = false := by
      rw [Std.TreeMap.map_fst_toList_eq_keys, Std.TreeMap.contains_keys,
        Std.TreeMap.contains_eq_isSome_getElem?, hhead]
      rfl
    rw [Std.TreeMap.getElem?_insertMany_list_of_contains_eq_false habsent]
    exact Std.TreeMap.getElem?_emptyc
  | some value =>
    refine Std.TreeMap.getElem?_insertMany_list_of_mem Std.compare_self
      Std.TreeMap.distinct_keys_toList ?_
    exact Std.TreeMap.mem_toList_iff_getElem?_eq_some.2 hhead

end Ledger
end ChainCoverage
