import ChainCoverage.Proofs.CommandLine.BlockArgument
import ChainCoverage.Proofs.Ledger.Coverage

/-!
# What commands do

The sets of blocks and the heads that a ledger stands for decide what a command does.  A
refused command leaves the ledger as it was, wherever among its arguments the fault is.
Any other command has its effect, all of it and on its network only.

Main definitions:

- `Command.Refused`: which commands are refused.
- `Command.effect`: what a command that is not refused does to the contents.
- `Command.blockCount` and `Command.countReply?`: how many blocks a command is given, and what it
  prints that counts them.
- `Command.Settled`: the outcomes that the contents allow.

Main results:

- `Command.settled_run`: the contents decide the outcome of every command.
-/

namespace ChainCoverage

/-- The contents with another progress of the network with a name, if that names one. -/
def Contents.change (c : Contents) (name : String) (f : Progress → Progress) : Contents :=
  fun n => if n.name = name then f (c n) else c n

theorem Contents.change_name (c : Contents) (n : Network) (f : Progress → Progress) :
    c.change n.name f = c.set n (f (c n)) := by
  funext m
  by_cases hm : m = n
  · subst hm
    rw [set_self, change, if_pos rfl]
  · rw [set_of_ne hm, change, if_neg fun hname => hm (Network.eq_of_name_eq hname)]

namespace Command

open BlockArgument

/-- Whether a command is refused on the contents `c`. -/
def Refused (context : Context) (c : Contents) : Command → Prop
  | bucketize _ count => count = 0
  | plan first last workers _ => last < first ∨ workers = 0
  -- A text that is no name has no head.
  | reconcile name count _ => count.getD context.bucketCount = 0 ∨
      ∀ h : Network.isName name = true, (c ⟨name, h⟩).head = none
  | markIndexed name arguments | unmark name arguments => Network.isName name = false ∨
      ∃ argument ∈ arguments, ∃ reason, BlockArgument.parse argument = .error reason
  | setLatest name _ | stats name => Network.isName name = false

instance (argument : String) : Decidable (∃ reason, BlockArgument.parse argument = .error reason) :=
  match BlockArgument.parse argument with
  | .ok _ => isFalse nofun
  | .error reason => isTrue ⟨reason, rfl⟩

instance (context : Context) (c : Contents) (command : Command) :
    Decidable (command.Refused context c) :=
  match command with
  | bucketize _ count => inferInstanceAs (Decidable (count = 0))
  | plan first last workers _ => inferInstanceAs (Decidable (last < first ∨ workers = 0))
  | reconcile name count _ => inferInstanceAs (Decidable (count.getD context.bucketCount = 0 ∨
      ∀ h : Network.isName name = true, (c ⟨name, h⟩).head = none))
  | markIndexed name arguments | unmark name arguments =>
    inferInstanceAs (Decidable (Network.isName name = false ∨
      ∃ argument ∈ arguments, ∃ reason, BlockArgument.parse argument = .error reason))
  | setLatest name _ | stats name => inferInstanceAs (Decidable (Network.isName name = false))

/-- What a command does to the contents. -/
def effect : Command → Contents → Contents
  | markIndexed name arguments, c => c.change name (·.add (allBlocks arguments))
  | unmark name arguments, c => c.change name (·.remove (allBlocks arguments))
  | setLatest name block, c => c.change name (·.withHead block)
  | bucketize .., c | plan .., c | reconcile .., c | stats _, c => c

/-- How many blocks a command is given, with their repetitions. -/
def blockCount : Command → Nat
  | markIndexed _ arguments | unmark _ arguments => totalSize arguments
  | bucketize .. | plan .. | reconcile .. | setLatest .. | stats _ => 0

/-- What a command prints that counts the blocks it was given. -/
def countReply? (count : Json) : Command → Option Json
  | markIndexed name _ => some (.object [("marked", count), ("network", .text name)])
  | unmark name _ => some (.object [("network", .text name), ("unmarked", count)])
  | bucketize .. | plan .. | reconcile .. | setLatest .. | stats _ => none

/-- Whether a command may change the ledger. -/
def writes : Command → Bool
  | markIndexed .. | unmark .. | setLatest .. => true
  | bucketize .. | plan .. | reconcile .. | stats _ => false

/-- What a command that is not refused has done to a ledger `s` with the contents `c`. -/
structure Done (command : Command) (s : Ledger) (c : Contents) (outcome : Outcome) : Prop where
  succeeds : ∃ json, outcome.1 = .ok json
  represents : Ledger.Represents outcome.2 (command.effect c)
  unchanged : command.writes = false → outcome.2 = s
  counted : ∀ reply, command.countReply? (printCount command.blockCount) = some reply →
    outcome.1 = .ok reply

/-- An outcome that the contents decide: a refusal that leaves the ledger, or the effect. -/
inductive Settled (context : Context) (s : Ledger) (c : Contents) (command : Command) :
    Outcome → Prop where
  | refused {reason : CommandError} (hrefused : command.Refused context c) :
      Settled context s c command (.error reason, s)
  | done {outcome : Outcome} (haccepted : ¬ command.Refused context c)
      (hdone : command.Done s c outcome) : Settled context s c command outcome

variable {context : Context} {s : Ledger} {c : Contents}

/-- A refused command fails and leaves the ledger as it was. -/
theorem Settled.of_refused {command : Command} {outcome : Outcome}
    (h : command.Settled context s c outcome) (hrefused : command.Refused context c) :
    ∃ reason, outcome = (.error reason, s) := by
  cases h with
  | refused => exact ⟨_, rfl⟩
  | done haccepted => exact absurd hrefused haccepted

/-- A command that is not refused has its effect. -/
theorem Settled.of_not_refused {command : Command} {outcome : Outcome}
    (h : command.Settled context s c outcome) (haccepted : ¬ command.Refused context c) :
    command.Done s c outcome := by
  cases h with
  | refused hrefused => exact absurd hrefused haccepted
  | done _ hdone => exact hdone

theorem effect_of_not_writes {command : Command} (hwrites : command.writes = false) :
    command.effect c = c := by
  cases command <;> first | rfl | contradiction

theorem countReply?_of_not_writes {command : Command} (hwrites : command.writes = false)
    (count : Json) : command.countReply? count = none := by
  cases command <;> first | rfl | contradiction

/-- A command that only reads has its effect when it succeeds. -/
theorem done_of_not_writes (h : Ledger.Represents s c) {command : Command}
    (hwrites : command.writes = false) (json : Json) : command.Done s c (.ok json, s) where
  succeeds := ⟨json, rfl⟩
  represents := (effect_of_not_writes hwrites).symm ▸ h
  unchanged _ := rfl
  counted reply hreply := by
    rw [countReply?_of_not_writes hwrites] at hreply
    contradiction

/-- A command that writes has its effect when it leaves the contents that it should. -/
theorem done_of_writes {command : Command} (hwrites : command.writes = true) {json : Json}
    {next : Ledger} (hnext : Ledger.Represents next (command.effect c))
    (hjson : ∀ reply, command.countReply? (printCount command.blockCount) = some reply →
      json = reply) :
    command.Done s c (.ok json, next) where
  succeeds := ⟨json, rfl⟩
  represents := hnext
  unchanged hreads := by
    rw [hwrites] at hreads
    contradiction
  counted reply hreply := congrArg _ (hjson reply hreply)

/-! ## Commands without a network -/

theorem settled_bucketize (h : Ledger.Represents s c) (total : Block) (count : UInt32) :
    Settled context s c (bucketize total count)
      (runChecked context s (bucketize total count)) := by
  by_cases hcount : count = 0
  · subst hcount
    exact .refused rfl
  · let p : Partition := ⟨total, count, UInt32.pos_iff_ne_zero.2 hcount⟩
    refine .done hcount ?_
    rw [runChecked, p.balancedSpans_eq]
    exact done_of_not_writes h rfl _

theorem settled_plan (h : Ledger.Represents s c) (first last : Block) (workers : UInt32)
    (options : TaskOptions) :
    Settled context s c (plan first last workers options)
      (runChecked context s (plan first last workers options)) := by
  rw [runChecked, workerPlan]
  by_cases hinverted : last < first
  · rw [if_pos hinverted]
    exact .refused (Or.inl hinverted)
  · by_cases hworkers : workers = 0
    · rw [if_neg hinverted, if_pos hworkers]
      exact .refused (Or.inr hworkers)
    · let p : Partition := ⟨last - first, workers, UInt32.pos_iff_ne_zero.2 hworkers⟩
      refine .done (not_or.2 ⟨hinverted, hworkers⟩) ?_
      rw [if_neg hinverted, if_neg hworkers, p.balancedSpans_eq]
      exact done_of_not_writes h rfl _

/-! ## Commands on a network -/

theorem settled_reconcile (h : Ledger.Represents s c) (n : Network) (count : Option UInt32)
    (runsOnly : Bool) :
    Settled context s c (reconcile n.name count runsOnly)
      (runChecked context s (reconcile n.name count runsOnly)) := by
  rw [runChecked]
  by_cases hcount : count.getD context.bucketCount = 0
  · rw [hcount, Ledger.coverage_zero]
    exact .refused (Or.inl hcount)
  · cases hhead : (c n).head with
    | none =>
      rw [h.coverage_of_no_head hhead hcount]
      exact .refused (Or.inr fun _ => hhead)
    | some latest =>
      let p : Partition :=
        ⟨latest, count.getD context.bucketCount, UInt32.pos_iff_ne_zero.2 hcount⟩
      have haccepted : ¬ (reconcile n.name count runsOnly).Refused context c := by
        rintro (hzero | hnone)
        · exact hcount hzero
        · cases (hnone n.valid).symm.trans hhead
      refine .done haccepted ?_
      rw [h.coverage_eq p hhead]
      exact done_of_not_writes h rfl _

theorem settled_stats (h : Ledger.Represents s c) (n : Network) :
    Settled context s c (stats n.name) (runChecked context s (stats n.name)) := by
  refine .done (by simp [Refused, n.valid]) ?_
  rw [runChecked, printStats, h.head?_eq, h.markedCount_eq]
  exact done_of_not_writes h rfl _

theorem settled_setLatest (h : Ledger.Represents s c) (n : Network) (block : Block) :
    Settled context s c (setLatest n.name block)
      (runChecked context s (setLatest n.name block)) := by
  refine .done (by simp [Refused, n.valid]) ?_
  rw [runChecked, Ledger.setHead_name]
  refine done_of_writes rfl ?_ fun reply hreply => by contradiction
  rw [effect, c.change_name]
  exact h.insertHead n block

/-- A command that writes blocks reads all of its arguments first, and then it counts all blocks
that it writes. -/
theorem settled_writeBlocks {command : Command} {n : Network} {arguments : List String}
    {print : Nat → Json} {write : List Block → Except LedgerError Nat × Ledger}
    {next : List Block → Ledger}
    (hrefused : command.Refused context c ↔ Network.isName n.name = false ∨
      ∃ argument ∈ arguments, ∃ reason, BlockArgument.parse argument = .error reason)
    (hwrites : command.writes = true)
    (hreply : ∀ reply, command.countReply? (printCount command.blockCount) = some reply →
      print (totalSize arguments) = reply)
    (hwrite : ∀ blocks, write blocks = (.ok blocks.length, next blocks))
    (hnext : ∀ blocks : List Block, blocks.toFinset = allBlocks arguments →
      Ledger.Represents (next blocks) (command.effect c)) :
    command.Settled context s c (writeBlocks s arguments print write) := by
  rw [writeBlocks]
  by_cases hexists : ∃ argument ∈ arguments, ∃ reason, BlockArgument.parse argument = .error reason
  · obtain ⟨reason, hspans⟩ := spansOf_of_exists_error hexists
    rw [hspans]
    exact .refused (hrefused.2 (Or.inr hexists))
  · obtain ⟨spans, hspans, hblocks, hlength⟩ := spansOf_of_not_exists_error hexists
    have haccepted : ¬ command.Refused context c := by
      rw [hrefused, n.valid]
      exact not_or.2 ⟨nofun, hexists⟩
    refine .done haccepted ?_
    rw [hspans]
    dsimp only
    rw [hwrite, hlength]
    exact done_of_writes hwrites (hnext _ hblocks) hreply

theorem settled_markIndexed (h : Ledger.Represents s c) (n : Network) (arguments : List String) :
    Settled context s c (markIndexed n.name arguments)
      (runChecked context s (markIndexed n.name arguments)) := by
  refine settled_writeBlocks (n := n) Iff.rfl rfl (fun _ => Option.some.inj)
    (Ledger.markAll_name s n) fun blocks hblocks => ?_
  rw [effect, c.change_name, ← hblocks]
  exact h.foldl_insertKey n blocks

theorem settled_unmark (h : Ledger.Represents s c) (n : Network) (arguments : List String) :
    Settled context s c (unmark n.name arguments)
      (runChecked context s (unmark n.name arguments)) := by
  refine settled_writeBlocks (n := n) Iff.rfl rfl (fun _ => Option.some.inj)
    (Ledger.unmarkAll_name s n) fun blocks hblocks => ?_
  rw [effect, c.change_name, ← hblocks]
  exact h.foldl_eraseKey n blocks

/-! ## All commands -/

/-- A bad name is a failure before anything else. -/
theorem run_of_not_isName {command : Command} {name : String}
    (hnetwork : command.network? = some name) (hname : Network.isName name = false) :
    ∃ reason, command.run context s = (.error reason, s) := by
  obtain ⟨reason, hreason⟩ := Network.ofName_of_not_isName hname
  rw [run, hnetwork]
  dsimp only
  rw [hreason]
  exact ⟨_, rfl⟩

/-- A good name is passed on. -/
theorem run_of_network {command : Command} {n : Network}
    (hnetwork : command.network? = some n.name) :
    command.run context s = command.runChecked context s := by
  rw [run, hnetwork]
  dsimp only
  rw [Network.ofName_name]

/-- A command on a bad name is refused. -/
theorem refused_of_not_isName {command : Command} {name : String}
    (hnetwork : command.network? = some name) (hname : Network.isName name = false) :
    command.Refused context c := by
  cases command with
  | bucketize | plan => contradiction
  | reconcile =>
    obtain rfl := Option.some.inj hnetwork
    exact Or.inr fun hvalid => absurd hvalid (Bool.eq_false_iff.1 hname)
  | markIndexed | unmark =>
    obtain rfl := Option.some.inj hnetwork
    exact Or.inl hname
  | setLatest | stats =>
    obtain rfl := Option.some.inj hnetwork
    exact hname

/-- The contents decide the outcome of every command. -/
theorem settled_run (context : Context) (h : Ledger.Represents s c) (command : Command) :
    command.Settled context s c (command.run context s) := by
  cases hnetwork : command.network? with
  | none =>
    cases command with
    | bucketize total count => exact settled_bucketize h total count
    | plan first last workers options => exact settled_plan h first last workers options
    | _ => contradiction
  | some name =>
    cases hname : Network.isName name with
    | false =>
      obtain ⟨reason, hrun⟩ := run_of_not_isName hnetwork hname
      rw [hrun]
      exact .refused (refused_of_not_isName hnetwork hname)
    | true =>
      let n : Network := ⟨name, hname⟩
      rw [run_of_network (n := n) hnetwork]
      cases command with
      | bucketize | plan => contradiction
      | reconcile _ count runsOnly => cases hnetwork; exact settled_reconcile h n count runsOnly
      | markIndexed _ arguments => cases hnetwork; exact settled_markIndexed h n arguments
      | unmark _ arguments => cases hnetwork; exact settled_unmark h n arguments
      | setLatest _ block => cases hnetwork; exact settled_setLatest h n block
      | stats _ => cases hnetwork; exact settled_stats h n

/-- A command that counts its blocks depends on the ledger alone. -/
theorem run_eq_of_countReply? {command : Command} {count reply : Json}
    (hreply : command.countReply? count = some reply) (context' : Context) :
    command.run context s = command.run context' s := by
  cases command with
  | markIndexed | unmark => rfl
  | _ => contradiction

/-- A command that counts its blocks, and is not refused, has its effect; a number of blocks that
fits a word is printed as it is. -/
theorem exists_run_eq_of_countReply? (h : Ledger.Represents s c) (command : Command) {reply : Json}
    (hreply : command.countReply? (.ofNat command.blockCount) = some reply)
    (hlt : command.blockCount < UInt64.size)
    (haccepted : ∀ context, ¬ command.Refused context c) :
    ∃ next, (∀ context, command.run context s = (.ok reply, next)) ∧
      Ledger.Represents next (command.effect c) := by
  rw [← printCount_of_lt hlt] at hreply
  let found : Context := ⟨defaultBuckets, defaultPageLimit, 0⟩
  have hdone := (settled_run found h command).of_not_refused (haccepted found)
  refine ⟨(command.run found s).2, fun context => ?_, hdone.represents⟩
  rw [run_eq_of_countReply? hreply found, ← hdone.counted reply hreply]

end Command
end ChainCoverage
