import ChainCoverage.Proofs.Ledger.Contents
import Mathlib.Data.List.Induction

/-!
# The last write decides

What a ledger holds of a block, or of the head of a chain, is what the last event said
about it.  The events are searched from the last one back, without looking at any state
in between.

Main results:

- `Ledger.Event.marks?` and `Ledger.Event.sets?`: what one event says.
- `Ledger.lastMarked` and `Ledger.lastHead?`: what the last event says.
- `Contents.mem_blocks_after` and `Contents.head_after`: the contents after some events.
-/

namespace ChainCoverage

/-! ## What events say -/

namespace Ledger

/-- Whether an operation marks or forgets a block, if it does one of the two. -/
def Operation.marks? (block : Block) : Operation → Option Bool
  | .mark other => if block = other then some true else none
  | .markAll blocks => if block ∈ blocks then some true else none
  | .unmark other => if block = other then some false else none
  | .unmarkAll blocks => if block ∈ blocks then some false else none
  | _ => none

/-- The head that an operation records, if it records one. -/
def Operation.sets? : Operation → Option Block
  | .setHead latest => some latest
  | _ => none

/-- Whether an event marks or forgets a block of a network, if it does one of the two. -/
def Event.marks? (network : Network) (block : Block) : Event → Option Bool
  | .on other operation => if other = network then operation.marks? block else none
  | .reopened => none

/-- The head that an event records for a network, if it records one. -/
def Event.sets? (network : Network) : Event → Option Block
  | .on other operation => if other = network then operation.sets? else none
  | .reopened => none

/-- Whether the last event about a block of a network marked it. -/
def lastMarked (events : List Event) (network : Network) (block : Block) : Bool :=
  (events.reverse.findSome? (·.marks? network block)).getD false

/-- The last head recorded for a network, if there is one. -/
def lastHead? (events : List Event) (network : Network) : Option Block :=
  events.reverse.findSome? (·.sets? network)

/-- One more event decides what it speaks of. -/
theorem lastMarked_concat (events : List Event) (event : Event) (network : Network)
    (block : Block) :
    lastMarked (events ++ [event]) network block =
      (event.marks? network block).getD (lastMarked events network block) := by
  rw [lastMarked, List.reverse_append, List.reverse_singleton, List.singleton_append,
    List.findSome?_cons]
  cases event.marks? network block <;> rfl

theorem lastHead?_concat (events : List Event) (event : Event) (network : Network) :
    lastHead? (events ++ [event]) network =
      (event.sets? network).or (lastHead? events network) := by
  rw [lastHead?, List.reverse_append, List.reverse_singleton, List.singleton_append,
    List.findSome?_cons]
  cases event.sets? network <;> rfl

end Ledger

/-! ## What contents become -/

/-- An operation changes the blocks that it speaks of. -/
theorem Progress.mem_blocks_perform (p : Progress) (network : String)
    (operation : Ledger.Operation) (block : Block) :
    block ∈ (p.perform network operation).2.blocks ↔
      (operation.marks? block).getD (decide (block ∈ p.blocks)) = true := by
  cases operation with
  | mark other => by_cases hblock : block = other <;>
      simp [perform, add, Ledger.Operation.marks?, hblock]
  | markAll blocks => by_cases hblock : block ∈ blocks <;>
      simp [perform, add, Ledger.Operation.marks?, hblock]
  | unmark other => by_cases hblock : block = other <;>
      simp [perform, remove, Ledger.Operation.marks?, hblock]
  | unmarkAll blocks => by_cases hblock : block ∈ blocks <;>
      simp [perform, remove, Ledger.Operation.marks?, hblock]
  | _ => simp [perform, withHead, Ledger.Operation.marks?]

/-- An operation changes the head that it speaks of. -/
theorem Progress.head_perform (p : Progress) (network : String) (operation : Ledger.Operation) :
    (p.perform network operation).2.head = operation.sets?.or p.head := by
  cases operation <;> rfl

namespace Contents

/-- An event changes the blocks that it speaks of. -/
theorem mem_blocks_step (c : Contents) (event : Ledger.Event) (network : Network)
    (block : Block) :
    block ∈ ((c.step event).2 network).blocks ↔
      (event.marks? network block).getD (decide (block ∈ (c network).blocks)) = true := by
  cases event with
  | reopened => simp [step, Ledger.Event.marks?]
  | on other operation =>
    by_cases hnetwork : other = network
    · subst hnetwork
      rw [step_on_self, Progress.mem_blocks_perform, Ledger.Event.marks?, if_pos rfl]
    · rw [step_of_not_concerns (by simp [Ledger.Event.concerns, hnetwork]), Ledger.Event.marks?,
        if_neg hnetwork]
      simp

/-- An event changes the head that it speaks of. -/
theorem head_step (c : Contents) (event : Ledger.Event) (network : Network) :
    ((c.step event).2 network).head = (event.sets? network).or (c network).head := by
  cases event with
  | reopened => rfl
  | on other operation =>
    by_cases hnetwork : other = network
    · subst hnetwork
      rw [step_on_self, Progress.head_perform, Ledger.Event.sets?, if_pos rfl]
    · rw [step_of_not_concerns (by simp [Ledger.Event.concerns, hnetwork]), Ledger.Event.sets?,
        if_neg hnetwork]
      rfl

/-- A block is indexed exactly when the last event about it marked it. -/
theorem mem_blocks_after (events : List Ledger.Event) (network : Network) (block : Block) :
    block ∈ (empty.after events network).blocks ↔
      Ledger.lastMarked events network block = true := by
  induction events using List.reverseRecOn with
  | nil => simp [after, empty, Progress.empty, Ledger.lastMarked]
  | append_singleton events event ih =>
    have hindexed : decide (block ∈ (empty.after events network).blocks) =
        Ledger.lastMarked events network block := by
      rw [Bool.eq_iff_iff, decide_eq_true_iff]
      exact ih
    rw [after_concat, mem_blocks_step, hindexed, Ledger.lastMarked_concat]

/-- The head of a chain is the last one that was recorded. -/
theorem head_after (events : List Ledger.Event) (network : Network) :
    (empty.after events network).head = Ledger.lastHead? events network := by
  induction events using List.reverseRecOn with
  | nil => rfl
  | append_singleton events event ih =>
    rw [after_concat, head_step, Ledger.lastHead?_concat, ih]

end Contents
end ChainCoverage
