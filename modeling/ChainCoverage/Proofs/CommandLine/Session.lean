import ChainCoverage.Proofs.CommandLine.Effect
import ChainCoverage.Proofs.CommandLine.Usage

/-!
# Sequences of command lines

Command lines are carried out one after another on the same ledger.  What they leave is
the fold of their effects on the contents, so a command line is answered from what the
ones before it did to its network.  A line that is no line of a command does nothing.

Main definitions:

- `Invocation`: one run of the command line.
- `Ledger.invoke` and `Contents.invoke`: what it does to a ledger, and to contents.
- `Ledger.Answered`: what a command that is not refused answers.

Main results:

- `Ledger.Represents.invoke`: a command line keeps the relation between the two.
- `Ledger.invoke_afterInvocations`: a command line after any others.
-/

namespace ChainCoverage

/-- One run of the command line: what it finds besides the ledger, and its words. -/
structure Invocation where
  context : Command.Context
  words : List String

/-- Carries out a command line on a ledger, when its words are a command. -/
def Ledger.invoke (s : Ledger) (invocation : Invocation) :
    Except Usage (Except CommandError Json) × Ledger :=
  match Command.parse invocation.words with
  | .error usage => (.error usage, s)
  | .ok command =>
    let (result, next) := command.run invocation.context s
    (.ok result, next)

/-- The ledger after some command lines. -/
def Ledger.afterInvocations (s : Ledger) (invocations : List Invocation) : Ledger :=
  invocations.foldl (fun s invocation => (s.invoke invocation).2) s

/-- What a command line does to the contents: the effect of its command, unless that is refused. -/
def Contents.invoke (c : Contents) (invocation : Invocation) : Contents :=
  match Command.parse invocation.words with
  | .error _ => c
  | .ok command => if command.Refused invocation.context c then c else command.effect c

/-- The contents after some command lines. -/
def Contents.afterInvocations (c : Contents) (invocations : List Invocation) : Contents :=
  invocations.foldl Contents.invoke c

namespace Contents

variable (c : Contents) {invocation : Invocation} {command : Command}

/-- A line that is no line of a command has no effect. -/
theorem invoke_of_forall_not_line (h : ∀ command, ¬ Command.Line invocation.words command) :
    c.invoke invocation = c := by
  rw [invoke]
  cases hparse : Command.parse invocation.words with
  | error => rfl
  | ok command => exact absurd (Command.parse_eq_ok_iff.1 hparse) (h command)

/-- A line of a command has the effect of it, unless that is refused. -/
theorem invoke_of_line (h : Command.Line invocation.words command) :
    c.invoke invocation =
      if command.Refused invocation.context c then c else command.effect c := by
  rw [invoke, Command.parse_eq_ok_iff.2 h]

end Contents

namespace Ledger

variable {s : Ledger} {c : Contents}

/-- A line that is no line of a command is answered with a reason, and nothing happens. -/
theorem invoke_of_forall_not_line (s : Ledger) {invocation : Invocation}
    (h : ∀ command, ¬ Command.Line invocation.words command) :
    ∃ usage, s.invoke invocation = (.error usage, s) := by
  rw [invoke]
  cases hparse : Command.parse invocation.words with
  | error usage => exact ⟨usage, rfl⟩
  | ok command => exact absurd (Command.parse_eq_ok_iff.1 hparse) (h command)

/-- A line of a command is that command. -/
theorem invoke_of_line (s : Ledger) {invocation : Invocation} {command : Command}
    (h : Command.Line invocation.words command) :
    s.invoke invocation =
      (.ok (command.run invocation.context s).1, (command.run invocation.context s).2) := by
  rw [invoke, Command.parse_eq_ok_iff.2 h]

/-- A command line does to the contents what it does to the ledger. -/
theorem Represents.invoke (h : Represents s c) (invocation : Invocation) :
    Represents (s.invoke invocation).2 (c.invoke invocation) := by
  by_cases hline : ∃ command, Command.Line invocation.words command
  · obtain ⟨command, hline⟩ := hline
    rw [invoke_of_line s hline, c.invoke_of_line hline]
    dsimp only
    have hsettled := Command.settled_run invocation.context h command
    split
    · rename_i hrefused
      obtain ⟨reason, hrun⟩ := hsettled.of_refused hrefused
      rw [hrun]
      exact h
    · rename_i haccepted
      exact (hsettled.of_not_refused haccepted).represents
  · rw [not_exists] at hline
    obtain ⟨usage, hinvoke⟩ := s.invoke_of_forall_not_line hline
    rw [hinvoke, c.invoke_of_forall_not_line hline]
    exact h

/-- The relation is kept by any sequence of command lines. -/
theorem Represents.afterInvocations (h : Represents s c) (invocations : List Invocation) :
    Represents (s.afterInvocations invocations) (c.afterInvocations invocations) := by
  induction invocations generalizing s c with
  | nil => exact h
  | cons invocation invocations ih => exact ih (h.invoke invocation)

/-- What a command that is not refused answers on a ledger `s` with the contents `c`, and the ledger
that it leaves. -/
structure Answered (s : Ledger) (c : Contents) (command : Command) (json : Json) (next : Ledger) :
    Prop where
  represents : Represents next (command.effect c)
  /-- A command that only reads leaves the ledger itself as it was. -/
  unchanged : command.writes = false → next = s
  /-- A command on blocks prints the word that is told of their number. -/
  counted : ∀ reply, command.countReply? (Command.printCount command.blockCount) = some reply →
    json = reply
  /-- It prints the number itself, as long as that fits. -/
  counted_of_lt : command.blockCount < UInt64.size →
    ∀ reply, command.countReply? (.ofNat command.blockCount) = some reply → json = reply

/-- A command that is not refused is answered. -/
theorem exists_answered {context : Command.Context} {command : Command}
    (h : command.Settled context s c (command.run context s))
    (haccepted : ¬ command.Refused context c) :
    ∃ json next, command.run context s = (.ok json, next) ∧ s.Answered c command json next := by
  have hdone := h.of_not_refused haccepted
  obtain ⟨json, hjson⟩ := hdone.succeeds
  have hcounted : ∀ reply,
      command.countReply? (Command.printCount command.blockCount) = some reply → json = reply :=
    fun reply hreply => Except.ok.inj (hjson.symm.trans (hdone.counted reply hreply))
  refine ⟨json, _, by rw [← hjson], hdone.represents, hdone.unchanged, hcounted, ?_⟩
  intro hlt reply hreply
  rw [← Command.printCount_of_lt hlt] at hreply
  exact hcounted reply hreply

/-- From the empty ledger on, the ledger stands for the fold of the effects of all command lines.
The next line is no line of a command and does nothing; or its command is refused and changes
nothing; or it has its effect and counts what it was given. -/
theorem invoke_afterInvocations (invocations : List Invocation) :
    let s := empty.afterInvocations invocations
    let c := Contents.empty.afterInvocations invocations
    Represents s c ∧
      ∀ invocation : Invocation,
        ((∀ command, ¬ Command.Line invocation.words command) →
          (∃ usage, s.invoke invocation = (.error usage, s)) ∧ c.invoke invocation = c) ∧
        ∀ command, Command.Line invocation.words command →
          (command.Refused invocation.context c →
            (∃ reason, s.invoke invocation = (.ok (.error reason), s)) ∧
              c.invoke invocation = c) ∧
          (¬ command.Refused invocation.context c →
            (∃ json next, s.invoke invocation = (.ok (.ok json), next) ∧
              s.Answered c command json next) ∧
              c.invoke invocation = command.effect c) := by
  intro s c
  have h : Represents s c := represents_empty.afterInvocations invocations
  refine ⟨h, fun invocation => ⟨fun hnone => ?none, fun command hline => ⟨?refused, ?done⟩⟩⟩
  case none =>
    exact ⟨s.invoke_of_forall_not_line hnone, c.invoke_of_forall_not_line hnone⟩
  all_goals
    have hsettled := Command.settled_run invocation.context h command
    rw [invoke_of_line s hline, c.invoke_of_line hline]
  case refused =>
    intro hrefused
    obtain ⟨reason, hrun⟩ := hsettled.of_refused hrefused
    exact ⟨⟨reason, by rw [hrun]⟩, if_pos hrefused⟩
  case done =>
    intro haccepted
    obtain ⟨json, next, hrun, hanswered⟩ := exists_answered hsettled haccepted
    exact ⟨⟨json, next, by rw [hrun], hanswered⟩, if_neg haccepted⟩

/-- Overlapping spans are counted as often as they are given, a bad argument behind a good one stops
a line, and so does a missing one. -/
theorem invoke_afterInvocations_overlap :
    let found : Command.Context := ⟨4, 3, 0⟩
    let main : Network := ⟨"main", by decide⟩
    let s := empty.afterInvocations [⟨found, ["set-latest", "main", "9"]⟩,
      ⟨found, ["mark-indexed", "main", "0-3"]⟩]
    let c := Contents.empty.afterInvocations [⟨found, ["set-latest", "main", "9"]⟩,
      ⟨found, ["mark-indexed", "main", "0-3"]⟩]
    Represents s c ∧
      (∃ next, s.invoke ⟨found, ["mark-indexed", "main", "2-5", "--", "4-6"]⟩ =
        (.ok (.ok (.object [("marked", .ofNat 7), ("network", .text "main")])), next) ∧
        Represents next (c.set main ((c main).add {2, 3, 4, 5, 6}))) ∧
      (∃ next, s.invoke ⟨found, ["unmark", "--", "main", "1", "1-2"]⟩ =
        (.ok (.ok (.object [("network", .text "main"), ("unmarked", .ofNat 3)])), next) ∧
        Represents next (c.set main ((c main).remove {1, 2}))) ∧
      (∃ json next, s.invoke ⟨found, ["set-latest", "main", "7"]⟩ = (.ok (.ok json), next) ∧
        Represents next (c.set main ((c main).withHead 7))) ∧
      (∃ reason, s.invoke ⟨found, ["unmark", "main", "1", "3-2"]⟩ = (.ok (.error reason), s)) ∧
      ∃ usage, s.invoke ⟨found, ["mark-indexed", "main"]⟩ = (.error usage, s) := by
  intro found main s c
  obtain ⟨h, hinvoke⟩ := invoke_afterInvocations
    [⟨found, ["set-latest", "main", "9"]⟩, ⟨found, ["mark-indexed", "main", "0-3"]⟩]
  -- Lines that count their blocks are answered with the number itself.
  have hcounted : ∀ {words : List String} {command : Command} {reply : Json},
      Command.Line words command → ¬ command.Refused found c →
      command.blockCount < UInt64.size →
      command.countReply? (.ofNat command.blockCount) = some reply →
      ∃ next, s.invoke ⟨found, words⟩ = (.ok (.ok reply), next) ∧
        Represents next (command.effect c) := by
    intro words command reply hline haccepted hlt hreply
    obtain ⟨-, hdone⟩ := (hinvoke ⟨found, words⟩).2 command hline
    obtain ⟨⟨json, next, hnext, hanswered⟩, -⟩ := hdone haccepted
    obtain rfl := hanswered.counted_of_lt hlt reply hreply
    exact ⟨next, hnext, hanswered.represents⟩
  refine ⟨h, ?_, ?_, ?_, ?_, ?_⟩
  · have hline : Command.Line ["mark-indexed", "main", "2-5", "--", "4-6"]
        (.markIndexed "main" ["2-5", "4-6"]) :=
      .markIndexed (.plain (by decide) (.plain (by decide) (.doubleHyphen ["4-6"])))
    have hcount : (Command.markIndexed "main" ["2-5", "4-6"]).blockCount = 7 := by decide +kernel
    have hblocks : BlockArgument.allBlocks ["2-5", "4-6"] = {2, 3, 4, 5, 6} := by decide +kernel
    obtain ⟨next, hnext, hrepresents⟩ :=
      hcounted hline (by decide +kernel) (by rw [hcount]; decide) (by rw [hcount]; rfl)
    rw [Command.effect, c.change_name main, hblocks] at hrepresents
    exact ⟨next, hnext, hrepresents⟩
  · have hline : Command.Line ["unmark", "--", "main", "1", "1-2"]
        (.unmark "main" ["1", "1-2"]) := .unmark (.doubleHyphen _)
    have hcount : (Command.unmark "main" ["1", "1-2"]).blockCount = 3 := by decide +kernel
    have hblocks : BlockArgument.allBlocks ["1", "1-2"] = {1, 2} := by decide +kernel
    obtain ⟨next, hnext, hrepresents⟩ :=
      hcounted hline (by decide +kernel) (by rw [hcount]; decide) (by rw [hcount]; rfl)
    rw [Command.effect, c.change_name main, hblocks] at hrepresents
    exact ⟨next, hnext, hrepresents⟩
  · have hline : Command.Line ["set-latest", "main", "7"] (.setLatest "main" 7) :=
      .setLatest (.of_plain (by decide)) (Unsigned.numeral_toDigits 7)
    obtain ⟨-, hdone⟩ := (hinvoke ⟨found, _⟩).2 _ hline
    obtain ⟨⟨json, next, hnext, hanswered⟩, -⟩ := hdone (by decide +kernel)
    have hrepresents := hanswered.represents
    rw [Command.effect, c.change_name main] at hrepresents
    exact ⟨json, next, hnext, hrepresents⟩
  · have hline : Command.Line ["unmark", "main", "1", "3-2"] (.unmark "main" ["1", "3-2"]) :=
      .unmark (.of_plain (by decide))
    obtain ⟨hrefused, -⟩ := (hinvoke ⟨found, _⟩).2 _ hline
    exact (hrefused (by decide +kernel)).1
  · have hnone : ∀ command, ¬ Command.Line ["mark-indexed", "main"] command := by
      intro command hline
      cases (Command.parse_eq_ok_iff.2 hline)
    exact ((hinvoke ⟨found, _⟩).1 hnone).1

end Ledger
end ChainCoverage
