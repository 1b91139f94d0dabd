import ChainCoverage.Ledger.Archive
import ChainCoverage.Proofs.Paging.Page
import Mathlib.Logic.Function.Basic

/-!
# What a ledger stands for

Behind the keys of a ledger stands, for each network, a set of indexed blocks and maybe
the head of its chain.  Clients know no more than the operations on one network at a
time; the operations answer from that network's progress and change nothing else.

Main definitions:

- `Ledger.Operation` and `Ledger.Answer`: what a client asks of one network, and is told.
- `Ledger.perform`: an operation on the ledger.
- `Progress.perform`: the same operation on the progress of its network.
- `Ledger.Event`: an operation on some network, or closing and opening the ledger again.
- `Ledger.answers` and `Contents.answers`: the answers to a sequence of events.
-/

namespace ChainCoverage

/-! ## Operations on a ledger -/

namespace Ledger

/-- What a client asks of one network. -/
inductive Operation where
  | mark (block : Block)
  | markAll (blocks : List Block)
  | unmark (block : Block)
  | unmarkAll (blocks : List Block)
  | setHead (head : Block)
  | isMarked (block : Block)
  | page (after : Option Block) (upTo : Block) (limit : Nat)
  | markedCount
  | head?
  | head

/-- What a client is told. -/
inductive Answer where
  | done
  | count (count : Nat)
  | found (found : Bool)
  | blocks (blocks : List Block)
  | maybeHead (head : Option Block)
  | head (head : Block)
deriving DecidableEq

/-- A result with the ledger after it, as an answer. -/
def answered {α : Type} (answer : α → Answer) (result : Except LedgerError α × Ledger) :
    Except LedgerError Answer × Ledger :=
  (result.1.map answer, result.2)

/-- An operation on the network with a name. -/
def perform (s : Ledger) (network : String) : Operation → Except LedgerError Answer × Ledger
  | .mark block => answered (fun _ => .done) (s.mark network block)
  | .markAll blocks => answered .count (s.markAll network blocks)
  | .unmark block => answered (fun _ => .done) (s.unmark network block)
  | .unmarkAll blocks => answered .count (s.unmarkAll network blocks)
  | .setHead head => answered (fun _ => .done) (s.setHead network head)
  | .isMarked block => answered .found (s.isMarked network block, s)
  | .page after upTo limit => answered .blocks (source ⟨network, after, upTo, limit⟩ s)
  | .markedCount => answered .count (s.markedCount network, s)
  | .head? => answered .maybeHead (s.head? network, s)
  | .head => answered .head (oracle network s)

/-- What happens to a ledger: an operation on a network, or that it is closed and opened again. -/
inductive Event where
  | on (network : Network) (operation : Operation)
  | reopened

/-- Whether an event is an operation on a network. -/
def Event.concerns (network : Network) : Event → Bool
  | .on other _ => other == network
  | .reopened => false

/-- The answer to an event and the ledger after it. -/
def step (s : Ledger) : Event → Except LedgerError Answer × Ledger
  | .on network operation => s.perform network.name operation
  | .reopened => (.ok .done, s.reopen)

/-- The ledger after some events. -/
def after (s : Ledger) (events : List Event) : Ledger :=
  events.foldl (fun s event => (s.step event).2) s

/-- The answers to some events. -/
def answers (s : Ledger) : List Event → List (Except LedgerError Answer)
  | [] => []
  | event :: events => (s.step event).1 :: (s.step event).2.answers events

end Ledger

/-! ## The same operations on sets -/

/-- The progress of one network: its indexed blocks, and the head of its chain if it is known. -/
structure Progress where
  blocks : Finset Block
  head : Option Block

namespace Progress

/-- The progress before the first operation. -/
def empty : Progress := ⟨∅, none⟩

/-- The progress with more indexed blocks. -/
def add (p : Progress) (blocks : Finset Block) : Progress :=
  { p with blocks := p.blocks ∪ blocks }

/-- The progress with fewer indexed blocks. -/
def remove (p : Progress) (blocks : Finset Block) : Progress :=
  { p with blocks := p.blocks \ blocks }

/-- The progress with another head. -/
def withHead (p : Progress) (head : Block) : Progress :=
  { p with head := some head }

/-- The head, of which there must be one. -/
def requireHead (p : Progress) (network : String) : Except LedgerError Block :=
  match p.head with
  | none => .error (.noHead network)
  | some head => .ok head

/-- An operation on the progress of the network with a name. -/
def perform (p : Progress) (network : String) :
    Ledger.Operation → Except LedgerError Ledger.Answer × Progress
  | .mark block => (.ok .done, p.add {block})
  | .markAll blocks => (.ok (.count blocks.length), p.add blocks.toFinset)
  | .unmark block => (.ok .done, p.remove {block})
  | .unmarkAll blocks => (.ok (.count blocks.length), p.remove blocks.toFinset)
  | .setHead head => (.ok .done, p.withHead head)
  | .isMarked block => (.ok (.found (block ∈ p.blocks)), p)
  | .page after upTo limit =>
    (.ok (.blocks (pageOf (ascendingBlocks p.blocks) ⟨network, after, upTo, limit⟩)), p)
  | .markedCount => (.ok (.count p.blocks.card), p)
  | .head? => (.ok (.maybeHead p.head), p)
  | .head => ((p.requireHead network).map .head, p)

end Progress

/-- The progress of all networks. -/
abbrev Contents := Network → Progress

namespace Contents

/-- The contents of a ledger before its first write. -/
def empty : Contents := fun _ => .empty

/-- The contents with another progress of one network. -/
def set (c : Contents) (network : Network) (p : Progress) : Contents :=
  Function.update c network p

@[simp]
theorem set_self (c : Contents) (network : Network) (p : Progress) :
    c.set network p network = p := by
  rw [set, Function.update_self]

@[simp]
theorem set_of_ne {c : Contents} {network other : Network} (h : other ≠ network) (p : Progress) :
    c.set network p other = c other := by
  rw [set, Function.update_of_ne h]

@[simp]
theorem set_set (c : Contents) (network : Network) (p q : Progress) :
    (c.set network p).set network q = c.set network q := by
  rw [set, set, set, Function.update_idem]

@[simp]
theorem set_apply_self (c : Contents) (network : Network) : c.set network (c network) = c := by
  rw [set, Function.update_eq_self]

/-- The answer to an event and the contents after it. -/
def step (c : Contents) : Ledger.Event → Except LedgerError Ledger.Answer × Contents
  | .on network operation =>
    (((c network).perform network.name operation).1,
      c.set network ((c network).perform network.name operation).2)
  | .reopened => (.ok .done, c)

/-- The contents after some events. -/
def after (c : Contents) (events : List Ledger.Event) : Contents :=
  events.foldl (fun c event => (c.step event).2) c

/-- The answers to some events. -/
def answers (c : Contents) : List Ledger.Event → List (Except LedgerError Ledger.Answer)
  | [] => []
  | event :: events => (c.step event).1 :: (c.step event).2.answers events

/-- One more event comes after the others. -/
theorem after_concat (c : Contents) (events : List Ledger.Event) (event : Ledger.Event) :
    c.after (events ++ [event]) = ((c.after events).step event).2 := by
  rw [after, List.foldl_append]
  rfl

/-! ## Networks do not meet -/

/-- An operation on a network changes its progress. -/
theorem step_on_self (c : Contents) (network : Network) (operation : Ledger.Operation) :
    (c.step (.on network operation)).2 network =
      ((c network).perform network.name operation).2 :=
  c.set_self network _

/-- An event that is no operation on a network leaves its progress. -/
theorem step_of_not_concerns {c : Contents} {network : Network} {event : Ledger.Event}
    (h : ¬ event.concerns network) : (c.step event).2 network = c network := by
  cases event with
  | reopened => rfl
  | on other operation =>
    have hne : network ≠ other := by
      rintro rfl
      exact h (beq_self_eq_true _)
    exact set_of_ne hne _

/-- What an operation does to its network depends on that network's progress only. -/
theorem step_congr {c c' : Contents} {network : Network} (h : c network = c' network)
    (event : Ledger.Event) : (c.step event).2 network = (c'.step event).2 network := by
  by_cases hconcerns : event.concerns network
  · cases event with
    | reopened => exact h
    | on other operation =>
      obtain rfl : other = network := eq_of_beq hconcerns
      rw [step_on_self, step_on_self, h]
  · rw [step_of_not_concerns hconcerns, step_of_not_concerns hconcerns, h]

/-- The progress of a network comes from the operations on it alone. -/
theorem after_filter_concerns {c c' : Contents} {network : Network} (h : c network = c' network)
    (events : List Ledger.Event) :
    c.after (events.filter (·.concerns network)) network = c'.after events network := by
  induction events generalizing c c' with
  | nil => exact h
  | cons event events ih =>
    rw [List.filter_cons]
    split
    · exact ih (step_congr h event)
    · rename_i hconcerns
      exact ih (h.trans (step_of_not_concerns hconcerns).symm)

end Contents
end ChainCoverage
