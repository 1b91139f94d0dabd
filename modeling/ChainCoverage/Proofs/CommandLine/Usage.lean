import ChainCoverage.Proofs.CommandLine.Reading

/-!
# The lines of the commands

Every command has its own lines: a word that names it, and the words that spell its
arguments.  These lines are read as their commands, and no other line is a command.

Main definitions:

- `Command.Line`: the lines of every command.

Main results:

- `CommandShape.wellFormed_of_mem_all`: the arguments of every command can be told apart.
- `Command.parse_eq_ok_iff`: the lines that are read as a command are its lines.
- `Command.parse_markIndexed`, `Command.parse_unmark` and `Command.line_reconcile`: lines that
  other programs write.
-/

namespace ChainCoverage

namespace Command

/-- The lines of every command.  Numbers are written as numerals, a command on blocks names at least
one text that stands for blocks, and no option is given twice. -/
inductive Line : List String → Command → Prop
  | bucketize {words : List String} {total count : String} {last : Block} {buckets : UInt32}
    (hwords : Spells [] words [total, count] [])
    (htotal : Unsigned.Numeral total.toList last.toNat) (hcount : IsCount count.toList buckets) :
    Line ("bucketize" :: words) (.bucketize last buckets)
  | plan {words : List String} {start stop count : String} {given : Matches} {first last : Block}
    {workers : UInt32}
    (hwords : Spells [⟨"force", none, none⟩, ⟨"log-level", none, some .text⟩] words
      [start, stop, count] given)
    (hgiven : (given.map Prod.fst).Nodup) (hstart : Unsigned.Numeral start.toList first.toNat)
    (hstop : Unsigned.Numeral stop.toList last.toNat) (hcount : IsCount count.toList workers) :
    Line ("plan" :: words) (.plan first last workers
      ⟨given.has "force", (given.text? "log-level").getD "info"⟩)
  | reconcile {name network : String} {words : List String} {given : Matches}
    (hname : name = "reconcile" ∨ name = "r")
    (hwords : Spells [⟨"buckets", some 'b', some .halfWord⟩, ⟨"runs", none, none⟩] words
      [network] given)
    (hgiven : (given.map Prod.fst).Nodup) :
    Line (name :: words) (.reconcile network (given.halfWord? "buckets") (given.has "runs"))
  | markIndexed {words : List String} {network block : String} {blocks : List String}
    (hwords : Spells [] words (network :: block :: blocks) []) :
    Line ("mark-indexed" :: words) (.markIndexed network (block :: blocks))
  | unmark {words : List String} {network block : String} {blocks : List String}
    (hwords : Spells [] words (network :: block :: blocks) []) :
    Line ("unmark" :: words) (.unmark network (block :: blocks))
  | setLatest {words : List String} {network head : String} {block : Block}
    (hwords : Spells [] words [network, head] [])
    (hhead : Unsigned.Numeral head.toList block.toNat) :
    Line ("set-latest" :: words) (.setLatest network block)
  | stats {words : List String} {network : String} (hwords : Spells [] words [network] []) :
    Line ("stats" :: words) (.stats network)

end Command

/-! ## The arguments of the commands -/

namespace Matches

variable {m : Matches} {name : String}

theorem mem_of_lookup {values : List ArgumentValue} (h : m.lookup name = some values) :
    name ∈ m.map Prod.fst :=
  has_eq_true_iff.1 (Option.isSome_iff_exists.2 ⟨values, h⟩)

theorem mem_of_word? {value : UInt64} (h : m.word? name = some value) : name ∈ m.map Prod.fst := by
  rw [word?] at h
  split at h
  · exact mem_of_lookup ‹_›
  · cases h

theorem mem_of_halfWord? {value : UInt32} (h : m.halfWord? name = some value) :
    name ∈ m.map Prod.fst := by
  rw [halfWord?] at h
  split at h
  · exact mem_of_lookup ‹_›
  · cases h

theorem mem_of_text? {value : String} (h : m.text? name = some value) : name ∈ m.map Prod.fst := by
  rw [text?] at h
  split at h
  · exact mem_of_lookup ‹_›
  · cases h

theorem mem_of_texts? {values : List String} (h : m.texts? name = some values) :
    name ∈ m.map Prod.fst := by
  obtain ⟨found, hfound, _⟩ := Option.map_eq_some_iff.1 h
  exact mem_of_lookup hfound

end Matches

namespace CommandShape

/-- A command is made only of arguments that were found. -/
theorem required_of_mem_all {shape : CommandShape} (h : shape ∈ all) {m : Matches}
    {command : Command} (hbuild : shape.build m = some command) :
    ∀ p ∈ shape.positionals, p.name ∈ m.map Prod.fst := by
  simp only [all, List.mem_cons, List.not_mem_nil, or_false] at h
  rcases h with rfl | rfl | rfl | rfl | rfl | rfl | rfl <;>
    simp only [Option.bind_eq_bind, Option.bind_eq_some_iff] at hbuild <;>
    simp only [networkArgument, blockArguments, List.forall_mem_cons]
  · obtain ⟨_, htotal, _, hcount, _⟩ := hbuild
    exact ⟨Matches.mem_of_word? htotal, Matches.mem_of_halfWord? hcount, List.forall_mem_nil _⟩
  · obtain ⟨_, hfirst, _, hlast, _, hworkers, _⟩ := hbuild
    exact ⟨Matches.mem_of_word? hfirst, Matches.mem_of_word? hlast,
      Matches.mem_of_halfWord? hworkers, List.forall_mem_nil _⟩
  · obtain ⟨_, hnetwork, _⟩ := hbuild
    exact ⟨Matches.mem_of_text? hnetwork, List.forall_mem_nil _⟩
  · obtain ⟨_, hnetwork, _, hblocks, _⟩ := hbuild
    exact ⟨Matches.mem_of_text? hnetwork, Matches.mem_of_texts? hblocks, List.forall_mem_nil _⟩
  · obtain ⟨_, hnetwork, _, hblocks, _⟩ := hbuild
    exact ⟨Matches.mem_of_text? hnetwork, Matches.mem_of_texts? hblocks, List.forall_mem_nil _⟩
  · obtain ⟨_, hnetwork, _, hblock, _⟩ := hbuild
    exact ⟨Matches.mem_of_text? hnetwork, Matches.mem_of_word? hblock, List.forall_mem_nil _⟩
  · obtain ⟨_, hnetwork, _⟩ := hbuild
    exact ⟨Matches.mem_of_text? hnetwork, List.forall_mem_nil _⟩

/-- The arguments of every command can be told apart. -/
theorem wellFormed_of_mem_all {shape : CommandShape} (h : shape ∈ all) : shape.WellFormed := by
  refine ⟨⟨?ofLong, ?ofShort⟩, ⟨?names, ?single⟩, ?fresh, ?build,
    fun hbuild => required_of_mem_all h hbuild⟩
  all_goals
    simp only [all, List.mem_cons, List.not_mem_nil, or_false] at h
  case ofLong =>
    rcases h with rfl | rfl | rfl | rfl | rfl | rfl | rfl <;> simp [OptionUse.ofLong?]
  case ofShort =>
    rcases h with rfl | rfl | rfl | rfl | rfl | rfl | rfl <;> simp [OptionUse.ofShort?]
  case names | single | fresh =>
    rcases h with rfl | rfl | rfl | rfl | rfl | rfl | rfl <;>
      simp [networkArgument, blockArguments]
  case build =>
    intro m others hlookup
    rcases h with rfl | rfl | rfl | rfl | rfl | rfl | rfl <;>
      simp only [Matches.word?, Matches.halfWord?, Matches.text?, Matches.texts?, Matches.has,
        hlookup]

/-- A word that names a command names one of all. -/
theorem of_find? {word : String} {shape : CommandShape} (h : find? word = some shape) :
    shape ∈ all ∧ (shape.name = word ∨ word ∈ shape.aliases) := by
  have hfound := List.find?_some h
  rw [Bool.or_eq_true, beq_iff_eq, List.contains_iff_mem] at hfound
  exact ⟨List.mem_of_find?_eq_some h, hfound⟩

end CommandShape

/-- Texts are read as they stand. -/
theorem ValueShape.forall₂_written_text {texts : List String} {values : List ArgumentValue} :
    List.Forall₂ text.Written texts values ↔ values = texts.map .text := by
  rw [← mapM_read?_eq_some_iff]
  have hread : texts.mapM text.read? = some (texts.map .text) := List.mapM_pure
  rw [hread, Option.some.injEq, eq_comm]

/-- The texts that were read are the texts of an argument. -/
theorem Matches.texts?_eq {m : Matches} {name : String} {values : List String}
    (h : m.lookup name = some (values.map .text)) : m.texts? name = some values := by
  rw [texts?, h, Option.map_some, List.filterMap_map]
  exact congrArg some List.filterMap_some

/-- A command on the blocks of a network is made from the texts at its places. -/
theorem Matches.make_networkBlocks (make : String → List String → Command) (network : String)
    (blocks : List String) :
    let m : Matches := [("NETWORK", [.text network]), ("BLOCKS", blocks.map .text)] ++ []
    (do return make (← m.text? "NETWORK") (← m.texts? "BLOCKS")) = some (make network blocks) := by
  intro m
  rw [Matches.texts?_eq rfl]
  rfl

namespace Positional.Fills

variable {name : String} {rest : List Positional} {plains : List String} {entries : Matches}

theorem of_nil (h : Fills [] plains entries) : plains = [] ∧ entries = [] := by
  cases h
  exact ⟨rfl, rfl⟩

theorem of_word (h : Fills (⟨name, .word, false⟩ :: rest) plains entries) :
    ∃ text words value others, plains = text :: words ∧
      Unsigned.Numeral text.toList value.toNat ∧ Fills rest words others ∧
      entries = (name, [.word value]) :: others := by
  cases h with
  | repeats => contradiction
  | cons _ hvalue hrest =>
    cases hvalue with
    | word hvalue => exact ⟨_, _, _, _, rfl, hvalue, hrest, rfl⟩

theorem of_halfWord (h : Fills (⟨name, .halfWord, false⟩ :: rest) plains entries) :
    ∃ text words value others, plains = text :: words ∧ IsCount text.toList value ∧
      Fills rest words others ∧ entries = (name, [.halfWord value]) :: others := by
  cases h with
  | repeats => contradiction
  | cons _ hvalue hrest =>
    cases hvalue with
    | halfWord hvalue => exact ⟨_, _, _, _, rfl, hvalue, hrest, rfl⟩

theorem of_text (h : Fills (⟨name, .text, false⟩ :: rest) plains entries) :
    ∃ text words others, plains = text :: words ∧ Fills rest words others ∧
      entries = (name, [.text text]) :: others := by
  cases h with
  | repeats => contradiction
  | cons _ hvalue hrest =>
    cases hvalue
    exact ⟨_, _, _, rfl, hrest, rfl⟩

theorem of_texts (h : Fills [⟨name, .text, true⟩] plains entries) :
    ∃ text words, plains = text :: words ∧ entries = [(name, plains.map .text)] := by
  cases h with
  | cons => contradiction
  | repeats _ hne hvalues =>
    obtain ⟨text, words, rfl⟩ := List.exists_cons_of_ne_nil hne
    exact ⟨text, words, rfl, by rw [ValueShape.forall₂_written_text.1 hvalues]⟩

theorem networkBlocks (network block : String) (blocks : List String) :
    Fills [CommandShape.networkArgument, CommandShape.blockArguments] (network :: block :: blocks)
      [("NETWORK", [.text network]), ("BLOCKS", (block :: blocks).map .text)] :=
  .cons rfl (.text network) (.repeats rfl (List.cons_ne_nil _ _)
    (ValueShape.forall₂_written_text.2 rfl))

end Positional.Fills

namespace Command

/-! ## All lines -/

/-- A line that is a command starts with its name. -/
theorem exists_shape_of_parse {words : List String} {command : Command}
    (h : parse words = .ok command) : ∃ word rest shape, words = word :: rest ∧
      CommandShape.find? word = some shape ∧ shape.parse rest = .ok command := by
  cases words with
  | nil => cases h
  | cons word rest =>
    unfold parse at h
    dsimp only at h
    split at h
    · split at h <;> cases h
    · cases h
    · cases h
    · split at h
      · cases h
      · split at h
        · exact ⟨word, rest, _, rfl, ‹_›, h⟩
        · cases h

/-- What a command reads is one of its lines. -/
theorem line_of_parse {word : String} {rest : List String} {shape : CommandShape}
    {command : Command} (hfind : CommandShape.find? word = some shape)
    (h : shape.parse rest = .ok command) : Line (word :: rest) command := by
  obtain ⟨hmem, hname⟩ := CommandShape.of_find? hfind
  obtain ⟨plains, given, entries, hspells, hfills, hgiven, hbuild⟩ :=
    (CommandShape.parse_eq_ok_iff (CommandShape.wellFormed_of_mem_all hmem)).1 h
  simp only [CommandShape.all, List.mem_cons, List.not_mem_nil, or_false] at hmem
  rcases hmem with rfl | rfl | rfl | rfl | rfl | rfl | rfl
  · obtain rfl := hname.resolve_right List.not_mem_nil
    obtain rfl := hspells.given_eq_nil
    obtain ⟨total, _, last, _, rfl, htotal, hrest, rfl⟩ := hfills.of_word
    obtain ⟨count, _, buckets, _, rfl, hcount, hnone, rfl⟩ := hrest.of_halfWord
    obtain ⟨rfl, rfl⟩ := hnone.of_nil
    obtain rfl := Option.some.inj hbuild
    exact .bucketize hspells htotal hcount
  · obtain rfl := hname.resolve_right List.not_mem_nil
    obtain ⟨start, _, first, _, rfl, hstart, hrest, rfl⟩ := hfills.of_word
    obtain ⟨stop, _, last, _, rfl, hstop, hcounts, rfl⟩ := hrest.of_word
    obtain ⟨count, _, workers, _, rfl, hcount, hnone, rfl⟩ := hcounts.of_halfWord
    obtain ⟨rfl, rfl⟩ := hnone.of_nil
    have hline := Line.plan hspells hgiven hstart hstop hcount
    exact Option.some.inj hbuild ▸ hline
  · obtain ⟨network, _, _, rfl, hnone, rfl⟩ := hfills.of_text
    obtain ⟨rfl, rfl⟩ := hnone.of_nil
    have hline := Line.reconcile (hname.imp Eq.symm List.mem_singleton.1) hspells hgiven
    exact Option.some.inj hbuild ▸ hline
  · obtain rfl := hname.resolve_right List.not_mem_nil
    obtain rfl := hspells.given_eq_nil
    obtain ⟨network, _, _, rfl, hrest, rfl⟩ := hfills.of_text
    obtain ⟨block, blocks, rfl, rfl⟩ := hrest.of_texts
    obtain rfl := Option.some.inj ((Matches.make_networkBlocks .markIndexed _ _).symm.trans hbuild)
    exact .markIndexed hspells
  · obtain rfl := hname.resolve_right List.not_mem_nil
    obtain rfl := hspells.given_eq_nil
    obtain ⟨network, _, _, rfl, hrest, rfl⟩ := hfills.of_text
    obtain ⟨block, blocks, rfl, rfl⟩ := hrest.of_texts
    obtain rfl := Option.some.inj ((Matches.make_networkBlocks .unmark _ _).symm.trans hbuild)
    exact .unmark hspells
  · obtain rfl := hname.resolve_right List.not_mem_nil
    obtain rfl := hspells.given_eq_nil
    obtain ⟨network, _, _, rfl, hrest, rfl⟩ := hfills.of_text
    obtain ⟨head, _, block, _, rfl, hhead, hnone, rfl⟩ := hrest.of_word
    obtain ⟨rfl, rfl⟩ := hnone.of_nil
    obtain rfl := Option.some.inj hbuild
    exact .setLatest hspells hhead
  · obtain rfl := hname.resolve_right List.not_mem_nil
    obtain rfl := hspells.given_eq_nil
    obtain ⟨network, _, _, rfl, hnone, rfl⟩ := hfills.of_text
    obtain ⟨rfl, rfl⟩ := hnone.of_nil
    obtain rfl := Option.some.inj hbuild
    exact .stats hspells

/-- The command of a line is what is read of it. -/
theorem parse_of_line {words : List String} {command : Command} (h : Line words command) :
    parse words = .ok command := by
  have hwellFormed : ∀ shape ∈ CommandShape.all, shape.WellFormed := fun _ =>
    CommandShape.wellFormed_of_mem_all
  simp only [CommandShape.all, List.forall_mem_cons] at hwellFormed
  obtain ⟨hbucketize, hplan, hreconcile, hmarkIndexed, hunmark, hsetLatest, hstats, _⟩ :=
    hwellFormed
  cases h with
  | bucketize hwords htotal hcount =>
    exact (CommandShape.parse_eq_ok_iff hbucketize).2 ⟨_, _, _, hwords,
      .cons rfl (.word htotal) (.cons rfl (.halfWord hcount) .nil), List.nodup_nil, rfl⟩
  | plan hwords hgiven hstart hstop hcount =>
    exact (CommandShape.parse_eq_ok_iff hplan).2 ⟨_, _, _, hwords, .cons rfl (.word hstart)
      (.cons rfl (.word hstop) (.cons rfl (.halfWord hcount) .nil)), hgiven, rfl⟩
  | reconcile hname hwords hgiven =>
    rcases hname with rfl | rfl
    all_goals
      exact (CommandShape.parse_eq_ok_iff hreconcile).2
        ⟨_, _, _, hwords, .cons rfl (.text _) .nil, hgiven, rfl⟩
  | markIndexed hwords =>
    exact (CommandShape.parse_eq_ok_iff hmarkIndexed).2 ⟨_, _, _, hwords, .networkBlocks _ _ _,
      List.nodup_nil, Matches.make_networkBlocks .markIndexed _ _⟩
  | unmark hwords =>
    exact (CommandShape.parse_eq_ok_iff hunmark).2 ⟨_, _, _, hwords, .networkBlocks _ _ _,
      List.nodup_nil, Matches.make_networkBlocks .unmark _ _⟩
  | setLatest hwords hhead =>
    exact (CommandShape.parse_eq_ok_iff hsetLatest).2 ⟨_, _, _, hwords,
      .cons rfl (.text _) (.cons rfl (.word hhead) .nil), List.nodup_nil, rfl⟩
  | stats hwords =>
    exact (CommandShape.parse_eq_ok_iff hstats).2 ⟨_, _, _, hwords, .cons rfl (.text _) .nil,
      List.nodup_nil, rfl⟩

/-- The lines that are read as a command are the lines of it. -/
theorem parse_eq_ok_iff {words : List String} {command : Command} :
    parse words = .ok command ↔ Line words command := by
  constructor
  · intro h
    obtain ⟨word, rest, shape, rfl, hfind, hparse⟩ := exists_shape_of_parse h
    exact line_of_parse hfind hparse
  · exact parse_of_line

/-! ## Lines that other programs write -/

/-- Words that name a network and blocks: none of them starts with a hyphen, or all of them stand
behind a double hyphen. -/
def NameBlocks (network : String) (blocks words : List String) : Prop :=
  words = "--" :: network :: blocks ∨
    words = network :: blocks ∧ ∀ word ∈ words, word.toList.head? ≠ some '-'

theorem NameBlocks.spells {network : String} {blocks words : List String}
    (h : NameBlocks network blocks words) : Spells [] words (network :: blocks) [] := by
  rcases h with rfl | ⟨rfl, hplain⟩
  · exact .doubleHyphen _
  · exact .of_plain fun word hmem => .inr (hplain word hmem)

section NameBlocks

variable {network : String} {blocks words : List String} (hwords : NameBlocks network blocks words)
  (hne : blocks ≠ [])
include hwords hne

/-- A line that marks blocks. -/
theorem parse_markIndexed :
    parse ("mark-indexed" :: words) = .ok (.markIndexed network blocks) := by
  obtain ⟨block, blocks, rfl⟩ := List.exists_cons_of_ne_nil hne
  exact parse_eq_ok_iff.2 (.markIndexed hwords.spells)

/-- A line that forgets blocks. -/
theorem parse_unmark : parse ("unmark" :: words) = .ok (.unmark network blocks) := by
  obtain ⟨block, blocks, rfl⟩ := List.exists_cons_of_ne_nil hne
  exact parse_eq_ok_iff.2 (.unmark hwords.spells)

end NameBlocks

/-- A line that reconciles a network in a number of buckets. -/
theorem line_reconcile (network : String) (count : UInt32) :
    Line ["reconcile", "-b", toString count, "--", network]
      (.reconcile network (some count) false) := by
  let buckets : NamedOption := ⟨"buckets", some 'b', some .halfWord⟩
  have hnumeral : Unsigned.Numeral (toString count).toList count.toNat := by
    rw [Unsigned.toList_toString_halfWord]
    exact Unsigned.numeral_toDigits _
  have hplain : ArgumentWord.IsPlain (toString count) :=
    .inr fun hhead => hnumeral.hyphen_notMem (List.mem_of_head? hhead)
  have hspelled : buckets.Spelled ["-b", toString count] [.halfWord count] :=
    .behind rfl (.inr ⟨'b', rfl, .short (by decide)⟩) hplain (.halfWord (.numeral hnumeral))
  have hnetwork : Spells [buckets, ⟨"runs", none, none⟩] ["--", network] [network] [] :=
    .doubleHyphen [network]
  have hwords := Spells.option List.mem_cons_self hspelled hnetwork
  exact .reconcile (.inl rfl) hwords (List.pairwise_singleton _ _)

end Command
end ChainCoverage
