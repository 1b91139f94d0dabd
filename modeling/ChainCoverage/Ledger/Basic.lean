import ChainCoverage.Coverage.Network
import ChainCoverage.Ledger.Key
import Std.Data.TreeMap
import Std.Data.TreeSet

/-!
# The ledger of indexing progress

A ledger holds the keys of the indexed blocks of all networks, and a value for the head
of each chain.  Every operation takes a network by its name and refuses a name that is
none.  A page looks at its bounds before it looks at the name, and marking no blocks
looks at no name.

The contents are not trusted: a key between the bounds of a page that has the wrong
length is a failure, and so is a head that has not eight bytes.

Main definitions:

- `Ledger` and `LedgerError`.
- `Ledger.mark`, `Ledger.markAll`, `Ledger.unmark`, `Ledger.setHead`: the writes, each with
  the ledger it leaves.
- `Ledger.countWord`: the word that is told of a count.
- `Ledger.isMarked`, `Ledger.page`, `Ledger.markedCount`, `Ledger.head?`, `Ledger.head`: the
  reads.
- `Ledger.coverage`: the coverage of a network from the ledger alone.

Main results:

- `Ledger.mem_insertKey`, `Ledger.mem_eraseKey` and `Ledger.heads_insertHead`: what a write
  does to each entry.
- `Ledger.keysWithin_eq`: the keys between two bounds, as a filter on all keys.
-/

namespace ChainCoverage

/-- Why the ledger has no answer. -/
inductive LedgerError where
  | badNetwork (reason : NetworkError)
  | malformedKey (length : Nat)
  | malformedHead
  | noHead (network : String)
deriving DecidableEq

namespace LedgerError

/-- The wording. -/
def message : LedgerError → String
  | badNetwork reason => reason.message
  | malformedKey length => s!"Invalid key length in indexed_blocks partition: {length}"
  | malformedHead => "db corrupted, failed to read latest block"
  | noHead network => s!"no chain head recorded for network {network}"

instance : ToString LedgerError := ⟨message⟩

end LedgerError

/-- Indexed blocks by key, and chain heads by key. -/
structure Ledger where
  blocks : Std.TreeSet Bytes
  heads : Std.TreeMap Bytes Bytes

namespace Ledger

/-- The ledger before its first write. -/
def empty : Ledger := ⟨∅, ∅⟩

/-- The network with a name. -/
def named (name : String) : Except LedgerError Network :=
  (Network.ofName name).mapError .badNetwork

/-! ## Writes -/

/-- The ledger with a key among its blocks. -/
def insertKey (s : Ledger) (key : Bytes) : Ledger :=
  { s with blocks := s.blocks.insert key }

/-- The ledger without a key among its blocks. -/
def eraseKey (s : Ledger) (key : Bytes) : Ledger :=
  { s with blocks := s.blocks.erase key }

/-- The ledger with a value for a chain head. -/
def insertHead (s : Ledger) (key value : Bytes) : Ledger :=
  { s with heads := s.heads.insert key value }

@[simp]
theorem mem_insertKey {s : Ledger} {key other : Bytes} :
    other ∈ (s.insertKey key).blocks ↔ key = other ∨ other ∈ s.blocks := by
  rw [insertKey, Std.TreeSet.mem_insert, Std.LawfulEqCmp.compare_eq_iff_eq]

@[simp]
theorem mem_eraseKey {s : Ledger} {key other : Bytes} :
    other ∈ (s.eraseKey key).blocks ↔ key ≠ other ∧ other ∈ s.blocks := by
  rw [eraseKey, Std.TreeSet.mem_erase, Ne, Std.LawfulEqCmp.compare_eq_iff_eq]

@[simp]
theorem heads_insertHead {s : Ledger} {key value other : Bytes} :
    (s.insertHead key value).heads[other]? =
      if key = other then some value else s.heads[other]? := by
  simp only [insertHead, Std.TreeMap.getElem?_insert, Std.LawfulEqCmp.compare_eq_iff_eq]

/-- Applies a change to the ledger for the network with a name. -/
def write (s : Ledger) (name : String) (change : Network → Ledger) :
    Except LedgerError Unit × Ledger :=
  match named name with
  | .error reason => (.error reason, s)
  | .ok network => (.ok (), change network)

/-- Records a block as indexed. -/
def mark (s : Ledger) (name : String) (block : Block) : Except LedgerError Unit × Ledger :=
  s.write name fun network => s.insertKey (network.blockKey block)

/-- Forgets that a block is indexed. -/
def unmark (s : Ledger) (name : String) (block : Block) : Except LedgerError Unit × Ledger :=
  s.write name fun network => s.eraseKey (network.blockKey block)

/-- Records the head of a chain. -/
def setHead (s : Ledger) (name : String) (head : Block) : Except LedgerError Unit × Ledger :=
  s.write name fun network => s.insertHead network.headKey (headValue head)

/-- Applies one write after another until the first failure, and counts them. -/
def writeAll (s : Ledger) (op : Ledger → Block → Except LedgerError Unit × Ledger)
    (blocks : List Block) : Except LedgerError Nat × Ledger :=
  blocks.foldl step (.ok 0, s)
where
  step : Except LedgerError Nat × Ledger → Block → Except LedgerError Nat × Ledger
    | (.error reason, s), _ => (.error reason, s)
    | (.ok count, s), block =>
      match op s block with
      | (.error reason, s) => (.error reason, s)
      | (.ok (), s) => (.ok (count + 1), s)

/-- Records blocks as indexed, and counts them with their repetitions. -/
def markAll (s : Ledger) (name : String) (blocks : List Block) :
    Except LedgerError Nat × Ledger :=
  s.writeAll (mark · name ·) blocks

/-- Forgets that blocks are indexed, and counts them with their repetitions. -/
def unmarkAll (s : Ledger) (name : String) (blocks : List Block) :
    Except LedgerError Nat × Ledger :=
  s.writeAll (unmark · name ·) blocks

/-! ## Counts

Writes and keys are counted in natural numbers.  What is told of a count is a word of 64 bits,
which is the count itself as long as it fits: this holds of every list in memory and of every set
of keys on a disk. -/

/-- The word that is told of a count. -/
def countWord (count : Nat) : UInt64 :=
  .ofNat count

theorem toNat_countWord {count : Nat} (h : count < UInt64.size) :
    (countWord count).toNat = count :=
  UInt64.toNat_ofNat_of_lt' h

/-! ## Reads -/

/-- Whether a block is indexed. -/
def isMarked (s : Ledger) (name : String) (block : Block) : Except LedgerError Bool :=
  (named name).map fun network => s.blocks.contains (network.blockKey block)

/-- The first `limit` keys from `low` to `high` bytewise, both included, in order. -/
def keysWithin (s : Ledger) (low high : Bytes) (limit : Nat) : List Bytes :=
  (s.blocks[low...=high].iter.take limit).toList

theorem keysWithin_eq (s : Ledger) (low high : Bytes) (limit : Nat) :
    s.keysWithin low high limit =
      (s.blocks.toList.filter fun key =>
        (compare key low).isGE ∧ (compare key high).isLE).take limit := by
  simp [keysWithin, Std.Iter.toList_take_of_finite]

/-- The block that a key of a network stands for. -/
def readKey (network : Network) (key : Bytes) : Except LedgerError Block :=
  match network.blockOfKey? key with
  | some block => .ok block
  | none => .error (.malformedKey key.length)

/-- The indexed blocks that a request asks for, in ascending order. -/
def page (s : Ledger) (request : PageQuery) : Except LedgerError (List Block) :=
  if request.upTo.toNat < firstAbove request.after then
    .ok []
  else
    match named request.network with
    | .error reason => .error reason
    | .ok network =>
      let low := network.blockKey (.ofNat (firstAbove request.after))
      let high := network.blockKey request.upTo
      (s.keysWithin low high request.limit).mapM (readKey network)

/-- Number of keys recorded for a network. -/
def markedCount (s : Ledger) (name : String) : Except LedgerError Nat :=
  (named name).map fun network => s.blocks.toList.countP (network.keyStem.isPrefixOf ·)

/-- The recorded head of a chain, if there is one. -/
def head? (s : Ledger) (name : String) : Except LedgerError (Option Block) :=
  match named name with
  | .error reason => .error reason
  | .ok network =>
    match s.heads[network.headKey]? with
    | none => .ok none
    | some value =>
      match headOfValue? value with
      | none => .error .malformedHead
      | some head => .ok (some head)

/-- The recorded head of a chain, of which there must be one. -/
def head (s : Ledger) (name : String) : Except LedgerError Block :=
  match s.head? name with
  | .error reason => .error reason
  | .ok none => .error (.noHead name)
  | .ok (some head) => .ok head

/-! ## Coverage -/

/-- The ledger as an oracle for chain heads, which no answer changes. -/
def oracle : Oracle Ledger LedgerError :=
  fun network s => (s.head network, s)

/-- The ledger as a source of indexed blocks, which no answer changes. -/
def source : Source Ledger LedgerError :=
  fun request s => (s.page request, s)

/-- The coverage of a network, with the ledger as oracle and as source. -/
def coverage (s : Ledger) (network : String) (count : UInt32) (pageSize : Nat) :
    Except (CoverageFailure LedgerError) Coverage :=
  (measureNetwork oracle source network count pageSize s).outcome

end Ledger
end ChainCoverage
