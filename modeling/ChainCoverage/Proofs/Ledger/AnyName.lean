import ChainCoverage.Proofs.Ledger.Coverage

/-!
# Operations under any name

A name is looked at where a key is made from it.  So an operation under a name that is
refused fails and leaves the ledger as it was, unless it makes no key: then it answers
without looking at the name, and leaves the ledger as well.  A ledger that was built by
operations, under whatever names, fails no operation on a network but the one that needs
the head of a chain where none was recorded.

Main definitions:

- `Ledger.Operation.idleAnswer?`: the answer of an operation that makes no key.
- `Ledger.afterCalls`: the ledger after operations under any names.

Main results:

- `Ledger.perform_of_refused`: an operation under a refused name.
- `Ledger.afterCalls_eq_after`: of operations under any names, those on networks count.
- `Ledger.failures_under_name`: which operations fail, for refused names and for networks.
-/

namespace ChainCoverage

/-- Whatever the progress of a network, an operation on it fails only by requiring a head that is
not there. -/
theorem Progress.perform_fails_iff (p : Progress) (name : String)
    (operation : Ledger.Operation) :
    (∃ failure, (p.perform name operation).1 = .error failure) ↔
      operation = .head ∧ p.head = none := by
  cases operation with
  | head =>
    rw [Progress.perform, Progress.requireHead]
    cases p.head with
    | none => exact iff_of_true ⟨_, rfl⟩ ⟨rfl, rfl⟩
    | some head =>
      refine iff_of_false ?_ ?_
      · rintro ⟨failure, hfailure⟩
        cases hfailure
      · rintro ⟨-, hnone⟩
        cases hnone
  | _ =>
    refine iff_of_false ?_ ?_
    · rintro ⟨failure, hfailure⟩
      cases hfailure
    · rintro ⟨hhead, -⟩
      cases hhead

namespace Ledger

/-! ## Refused names -/

/-- The answer of an operation that makes no key, because there is no block to write or because its
page ends before it begins. -/
def Operation.idleAnswer? : Operation → Option Answer
  | .markAll [] | .unmarkAll [] => some (.count 0)
  | .page after upTo _ => if upTo.toNat < firstAbove after then some (.blocks []) else none
  | _ => none

/-- Once a write has failed, the others are not made. -/
theorem foldl_writeAll_step_error (s : Ledger)
    (op : Ledger → Block → Except LedgerError Unit × Ledger) (reason : LedgerError)
    (blocks : List Block) :
    blocks.foldl (writeAll.step op) (.error reason, s) = (.error reason, s) := by
  induction blocks with
  | nil => rfl
  | cons block blocks ih => exact ih

/-- Of writes that fail and change nothing, the first decides. -/
theorem writeAll_cons_of_error {s : Ledger}
    {op : Ledger → Block → Except LedgerError Unit × Ledger} {reason : LedgerError}
    {block : Block} (hop : op s block = (.error reason, s)) (blocks : List Block) :
    s.writeAll op (block :: blocks) = (.error reason, s) := by
  have hstep : writeAll.step op (.ok 0, s) block = (.error reason, s) := by
    rw [writeAll.step, hop]
  rw [writeAll, List.foldl_cons, hstep, foldl_writeAll_step_error]

section Refused

variable {name : String} {reason : NetworkError} (h : Network.ofName name = .error reason)
include h

theorem named_of_refused : named name = .error (.badNetwork reason) := by
  rw [named, h]
  rfl

theorem write_of_refused (s : Ledger) (change : Network → Ledger) :
    s.write name change = (.error (.badNetwork reason), s) := by
  rw [write, named_of_refused h]

/-- Under a refused name an operation fails unless it makes no key, and never changes the ledger. -/
theorem perform_of_refused (s : Ledger) (operation : Operation) :
    s.perform name operation =
      (operation.idleAnswer?.elim (.error (.badNetwork reason)) .ok, s) := by
  have hwrite := write_of_refused h s
  have hname := named_of_refused h
  cases operation with
  | mark block => rw [perform, mark, hwrite]; rfl
  | unmark block => rw [perform, unmark, hwrite]; rfl
  | setHead head => rw [perform, setHead, hwrite]; rfl
  | markAll blocks =>
    cases blocks with
    | nil => rfl
    | cons block blocks => rw [perform, markAll, writeAll_cons_of_error (hwrite _)]; rfl
  | unmarkAll blocks =>
    cases blocks with
    | nil => rfl
    | cons block blocks => rw [perform, unmarkAll, writeAll_cons_of_error (hwrite _)]; rfl
  | isMarked block => rw [perform, isMarked, hname]; rfl
  | markedCount => rw [perform, markedCount, hname]; rfl
  | head? => rw [perform, head?, hname]; rfl
  | head => rw [perform, oracle, head, head?, hname]; rfl
  | page after upTo limit =>
    -- The bounds are compared before the name is looked at.
    rw [perform, source, page, Operation.idleAnswer?]
    dsimp only
    split
    · rfl
    · rw [hname]
      rfl

end Refused

/-! ## Operations under any names -/

/-- The ledger after some operations, each under a name. -/
def afterCalls (s : Ledger) (calls : List (String × Operation)) : Ledger :=
  calls.foldl (fun s call => (s.perform call.1 call.2).2) s

/-- What an operation under a name is to the ledger, if it is anything. -/
def eventOf? (call : String × Operation) : Option Event :=
  match Network.ofName call.1 with
  | .error _ => none
  | .ok network => some (.on network call.2)

/-- An operation on a network is what it is under that network's name. -/
theorem eventOf?_eq_some_iff {call : String × Operation} {event : Event} :
    eventOf? call = some event ↔
      ∃ network : Network, network.name = call.1 ∧ event = .on network call.2 := by
  rw [eventOf?]
  constructor
  · intro hsome
    split at hsome
    · contradiction
    · rename_i network hnetwork
      exact ⟨network, Network.ofName_eq_ok_iff.1 hnetwork, (Option.some.inj hsome).symm⟩
  · rintro ⟨network, hname, rfl⟩
    rw [Network.ofName_eq_ok_iff.2 hname]

/-- Operations under refused names leave the ledger, so the others decide it. -/
theorem afterCalls_eq_after (s : Ledger) (calls : List (String × Operation)) :
    s.afterCalls calls = s.after (calls.filterMap eventOf?) := by
  induction calls generalizing s with
  | nil => rfl
  | cons call calls ih =>
    obtain ⟨name, operation⟩ := call
    have hcall : (s.perform name operation).2 = s.after (eventOf? (name, operation)).toList := by
      rw [eventOf?]
      dsimp only
      cases hname : Network.ofName name with
      | error reason =>
        rw [perform_of_refused hname]
        rfl
      | ok network =>
        obtain rfl := Network.ofName_eq_ok_iff.1 hname
        rfl
    rw [afterCalls, List.foldl_cons, ← afterCalls, ih, hcall, List.filterMap_cons]
    cases eventOf? (name, operation) <;> rfl

/-- The ledger that operations under any names built represents the contents that those on networks
give. -/
theorem represents_afterCalls (calls : List (String × Operation)) :
    Represents (empty.afterCalls calls) (Contents.empty.after (calls.filterMap eventOf?)) := by
  rw [afterCalls_eq_after]
  exact represents_empty.after _

/-- A network has no head when no operation recorded one under its name. -/
theorem lastHead?_filterMap_eq_none_iff (calls : List (String × Operation)) (n : Network) :
    lastHead? (calls.filterMap eventOf?) n = none ↔
      ∀ latest, (n.name, Operation.setHead latest) ∉ calls := by
  rw [lastHead?, List.findSome?_eq_none_iff]
  constructor
  · intro hnone latest hcall
    have hevent : eventOf? (n.name, .setHead latest) = some (.on n (.setHead latest)) :=
      eventOf?_eq_some_iff.2 ⟨n, rfl, rfl⟩
    have hsets := hnone _ (List.mem_reverse.2 (List.mem_filterMap.2 ⟨_, hcall, hevent⟩))
    rw [Event.sets?, if_pos rfl] at hsets
    contradiction
  · intro hcalls event hmem
    obtain ⟨⟨name, operation⟩, hcall, hevent⟩ := List.mem_filterMap.1 (List.mem_reverse.1 hmem)
    obtain ⟨other, rfl, rfl⟩ := eventOf?_eq_some_iff.1 hevent
    rw [Event.sets?]
    split
    · rename_i hnetwork
      subst hnetwork
      cases operation with
      | setHead latest => exact absurd hcall (hcalls latest)
      | _ => rfl
    · rfl

section BuiltByCalls

variable (calls : List (String × Operation)) (n : Network)

/-- No operation recorded a head. -/
theorem head_after_eq_none_iff :
    (Contents.empty.after (calls.filterMap eventOf?) n).head = none ↔
      ∀ latest, (n.name, Operation.setHead latest) ∉ calls := by
  rw [Contents.head_after, lastHead?_filterMap_eq_none_iff]

/-- On a ledger built by operations, an operation on a network fails only by requiring a head that
no operation recorded. -/
theorem perform_afterCalls_fails_iff (operation : Operation) :
    (∃ failure, ((empty.afterCalls calls).perform n.name operation).1 = .error failure) ↔
      operation = .head ∧ ∀ latest, (n.name, Operation.setHead latest) ∉ calls := by
  rw [((represents_afterCalls calls).perform n operation).1, Progress.perform_fails_iff,
    head_after_eq_none_iff]

/-- On a ledger built by operations, coverage fails only for want of a head that no operation
recorded. -/
theorem coverage_afterCalls_fails_iff {count : UInt32} (hcount : 0 < count) (pageSize : Nat) :
    (∃ failure, (empty.afterCalls calls).coverage n.name count pageSize = .error failure) ↔
      ∀ latest, (n.name, Operation.setHead latest) ∉ calls := by
  have hrepresents := represents_afterCalls calls
  rw [← head_after_eq_none_iff]
  cases hhead : (Contents.empty.after (calls.filterMap eventOf?) n).head with
  | none =>
    have hcoverage := hrepresents.coverage_of_no_head hhead
      (UInt32.pos_iff_ne_zero.1 hcount) pageSize
    exact iff_of_true ⟨_, hcoverage⟩ rfl
  | some latest =>
    have hcoverage := hrepresents.coverage_eq ⟨latest, count, hcount⟩ hhead pageSize
    rw [hcoverage]
    refine iff_of_false ?_ ?_
    · rintro ⟨failure, hfailure⟩
      cases hfailure
    · intro hnone
      cases hnone

end BuiltByCalls

/-- Under a refused name every operation that makes a key fails for that name, the others answer
without looking at it, and none changes the ledger, whatever that holds.  On a ledger that
operations under any names built, no operation on a network fails but the one that requires the
head of its chain, and that one fails exactly when none was recorded; so does coverage. -/
theorem failures_under_name (name : String) :
    (∀ reason, Network.ofName name = .error reason → ∀ (s : Ledger) (operation : Operation),
      s.perform name operation =
        (operation.idleAnswer?.elim (.error (.badNetwork reason)) .ok, s)) ∧
    ∀ n, Network.ofName name = .ok n → ∀ calls : List (String × Operation),
      (∀ operation, (∃ failure,
          ((empty.afterCalls calls).perform name operation).1 = .error failure) ↔
        operation = .head ∧ ∀ latest, (name, Operation.setHead latest) ∉ calls) ∧
      ∀ count : UInt32, 0 < count → ∀ pageSize,
        (∃ failure, (empty.afterCalls calls).coverage name count pageSize = .error failure) ↔
          ∀ latest, (name, Operation.setHead latest) ∉ calls := by
  refine ⟨fun reason hrefused => perform_of_refused hrefused, fun n hname calls => ?_⟩
  obtain rfl := Network.ofName_eq_ok_iff.1 hname
  exact ⟨perform_afterCalls_fails_iff calls n,
    fun count hcount => coverage_afterCalls_fails_iff calls n hcount⟩

/-- The empty name fails a mark; a network whose only head was recorded under a refused name fails
to tell its head and nothing else. -/
theorem failures_under_empty_name :
    let main : Network := ⟨"main", by decide⟩
    let calls : List (String × Operation) :=
      [("main", .markAll [3, 1]), ("", .mark 2), ("main\n", .setHead 9)]
    Network.ofName "" = .error .badLength ∧ Network.ofName "main" = .ok main ∧
      (0 : UInt32) < 2 ∧
      (∀ s : Ledger, s.perform "" (.mark 2) = (.error (.badNetwork .badLength), s)) ∧
      (∃ failure, ((empty.afterCalls calls).perform "main" .head).1 = .error failure) ∧
      (¬ ∃ failure, ((empty.afterCalls calls).perform "main" .head?).1 = .error failure) ∧
      ∃ failure, (empty.afterCalls calls).coverage "main" 2 1 = .error failure := by
  intro main calls
  have hempty : Network.ofName "" = .error .badLength := by decide
  have hmain : Network.ofName "main" = .ok main := main.ofName_name
  have hcount : (0 : UInt32) < 2 := by decide
  have hnohead : ∀ latest, ("main", Operation.setHead latest) ∉ calls := by
    simp [calls]
  obtain ⟨hperform, hcoverage⟩ := (failures_under_name "main").2 main hmain calls
  refine ⟨hempty, hmain, hcount, fun s => (failures_under_name "").1 _ hempty s _,
    (hperform .head).2 ⟨rfl, hnohead⟩, fun hfails => ?_, (hcoverage 2 hcount 1).2 hnohead⟩
  exact absurd ((hperform .head?).1 hfails).1 nofun

/-- Not every operation under a refused name fails: marking no blocks answers, and so does a page
that ends before it begins. -/
theorem idle_under_empty_name :
    Network.ofName "" = .error .badLength ∧
      empty.perform "" (.markAll []) = (.ok (.count 0), empty) ∧
      empty.perform "" (.page (some 5) 5 1) = (.ok (.blocks []), empty) ∧
      ¬ ∀ operation, ∃ failure, (empty.perform "" operation).1 = .error failure := by
  refine ⟨by decide, rfl, rfl, fun hfails => ?_⟩
  obtain ⟨failure, hfailure⟩ := hfails (.markAll [])
  contradiction

end Ledger
end ChainCoverage
