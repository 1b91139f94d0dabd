import ChainCoverage.Proofs.CommandLine.Pending
import Mathlib.Data.List.Perm.Basic

/-!
# Which arguments are found

The arguments of a command are read from the left by a machine with a pending argument.
Between two arguments it finds exactly what the words spell, so what it finds in all words
is what they spell, apart from the order.

Main definitions:

- `NamedOption.Distinct` and `Positional.Placed`: arguments that can be told apart.
- `CommandShape.WellFormed`: a command whose arguments can be told apart.
- `ArgumentReading.between`: the states between two arguments.

Main results:

- `ArgumentReading.exists_finds_of_spells` and `ArgumentReading.exists_spells_of_finds`: what is
  found in words is what they spell.
- `CommandShape.parse_eq_ok_iff`: the lines of a command are the words that spell its arguments.
-/

namespace ChainCoverage

/-! ## Arguments that can be told apart -/

/-- Options that can be told apart; those that take no value have no letter. -/
structure NamedOption.Distinct (options : List NamedOption) : Prop where
  ofLong : ∀ o ∈ options, OptionUse.ofLong? options o.long = some (.named o)
  ofShort : ∀ o ∈ options, ∀ letter, o.short = some letter →
    OptionUse.ofShort? options letter = some (.named o) ∧ o.shape ≠ none

/-- Arguments known by their places that can be told apart; one repeats only where no option is
known. -/
structure Positional.Placed (options : List NamedOption) (rest : List Positional) : Prop where
  names : (rest.map Positional.name).Nodup
  single : (∀ p ∈ rest, p.repeats = false) ∨ options = []

namespace Positional.Placed

variable {options : List NamedOption} {p : Positional} {rest : List Positional}

theorem tail (h : Placed options (p :: rest)) : Placed options rest where
  names := (List.nodup_cons.1 h.names).2
  single := h.single.imp_left fun hall q hmem => hall q (List.mem_cons_of_mem _ hmem)

theorem options_eq_nil (h : Placed options rest) (hmem : p ∈ rest) (hrepeats : p.repeats = true) :
    options = [] :=
  h.single.resolve_left fun hall => Bool.false_ne_true ((hall p hmem).symm.trans hrepeats)

/-- No argument that repeats is still to come behind an option. -/
theorem name_ne (h : Placed options rest) {o : NamedOption} (ho : o ∈ options) :
    ∀ q ∈ rest, q.repeats = true → q.name ≠ o.long :=
  fun _ hmem hrepeats => absurd (h.options_eq_nil hmem hrepeats ▸ ho) List.not_mem_nil

end Positional.Placed

/-- One value is read by itself. -/
theorem ValueShape.mapM_read?_singleton {shape : ValueShape} {text : String}
    {values : List ArgumentValue} :
    [text].mapM shape.read? = some values ↔
      ∃ value, shape.Written text value ∧ values = [value] := by
  rw [mapM_read?_eq_some_iff, List.forall₂_cons_left_iff]
  simp

namespace ArgumentReading

variable {options : List NamedOption} {r s : ArgumentReading} {words : List String} {m : Matches}

/-! ## States without a pending argument -/

/-- Nothing is pending. -/
def between (found : Matches) (onlyPlain : Bool) (rest : List Positional) : ArgumentReading :=
  ⟨found, none, false, onlyPlain, rest⟩

variable {found : Matches} {onlyPlain : Bool} {rest : List Positional}

theorem finds_between_nil : (between found onlyPlain rest).Finds options [] m ↔ found = m := by
  rw [finds_nil]
  simp [between, settle]

/-- The pending argument is taken with all its values. -/
theorem finds_pending_iff {argument : PendingArgument}
    (hnew : ∀ p ∈ rest, p.repeats = true → p.name ≠ argument.name) :
    (⟨found, some argument, false, onlyPlain, rest⟩ : ArgumentReading).Finds options words m ↔
      ∃ values, argument.values ≠ [] ∧ argument.name ∉ found.map Prod.fst ∧
        argument.values.mapM argument.shape.read? = some values ∧
        (between (found ++ [(argument.name, values)]) onlyPlain rest).Finds options words m := by
  rw [finds_iff_of_settle (.inr rfl) fun _ h => Option.some.inj h ▸ hnew]
  simp only [settle, accept_eq_ok_iff]
  constructor
  · rintro ⟨_, ⟨values, hne, hfresh, hvalues, rfl⟩, hfinds⟩
    exact ⟨values, hne, hfresh, hvalues, hfinds⟩
  · rintro ⟨values, hne, hfresh, hvalues, hfinds⟩
    exact ⟨_, ⟨values, hne, hfresh, hvalues, rfl⟩, hfinds⟩

/-- The pending argument is taken with its one value. -/
theorem finds_pending_singleton_iff {name text : String} {shape : ValueShape}
    (hnew : ∀ p ∈ rest, p.repeats = true → p.name ≠ name) :
    (⟨found, some ⟨name, shape, [text]⟩, false, onlyPlain, rest⟩ : ArgumentReading).Finds options
        words m ↔
      ∃ value, shape.Written text value ∧ name ∉ found.map Prod.fst ∧
        (between (found ++ [(name, [value])]) onlyPlain rest).Finds options words m := by
  rw [finds_pending_iff hnew]
  constructor
  · rintro ⟨values, _, hfresh, hvalues, hfinds⟩
    obtain ⟨value, hvalue, rfl⟩ := ValueShape.mapM_read?_singleton.1 hvalues
    exact ⟨value, hvalue, hfresh, hfinds⟩
  · rintro ⟨value, hvalue, hfresh, hfinds⟩
    exact ⟨_, List.cons_ne_nil _ _, hfresh, ValueShape.mapM_read?_singleton.2 ⟨value, hvalue, rfl⟩,
      hfinds⟩

/-- An argument that is known by its place and does not repeat. -/
theorem finds_between_plain {p : Positional} {word : String}
    (hplaced : Positional.Placed options (p :: rest)) (hrepeats : p.repeats = false)
    (hplain : onlyPlain = true ∨ ArgumentWord.IsPlain word) :
    (between found onlyPlain (p :: rest)).Finds options (word :: words) m ↔
      ∃ value, p.shape.Written word value ∧ p.name ∉ found.map Prod.fst ∧
        (between (found ++ [(p.name, [value])]) onlyPlain rest).Finds options words m := by
  have hstep : step options (between found onlyPlain (p :: rest)) word =
      .ok ⟨found, some ⟨p.name, p.shape, [word]⟩, false, onlyPlain, rest⟩ := by
    rw [step_eq_takePlain (.inr rfl) hplain, takePlain_of_pending_eq_none rfl rfl, hrepeats]
    rfl
  have hnew : ∀ other ∈ rest, other.repeats = true → other.name ≠ p.name :=
    fun other hmem _ heq =>
      (List.nodup_cons.1 hplaced.names).1 (List.mem_map.2 ⟨other, hmem, heq⟩)
  rw [finds_cons, hstep, ← finds_pending_singleton_iff hnew]
  simp

/-! ### Options -/

theorem stopWith_ne_ok (answer : Usage) (next : ArgumentReading) :
    r.stopWith answer ≠ .ok next := by
  rw [stopWith, Ne, bind_eq_ok_iff]
  rintro ⟨_, _, h⟩
  cases h

section Named

variable {o : NamedOption} {word : String} {attached : Option String}
  (hoptions : NamedOption.Distinct options) (hmem : o ∈ options) (hword : o.Named word attached)
  (honly : r.onlyPlain = false)
include hoptions hmem hword honly

/-- An option that takes a value. -/
theorem step_of_named {shape : ValueShape} (hshape : o.shape = some shape) :
    step options r word = r.takeOption o.long shape attached := by
  have ho : o = ⟨o.long, o.short, some shape⟩ := by rw [← hshape]
  rcases hword with hlooks | ⟨letter, hletter, hlooks⟩
  · have huse := hoptions.ofLong o hmem
    rw [ho] at huse
    rw [step_of_long hlooks honly]
    unfold takeLong
    rw [huse]
  · have huse := (hoptions.ofShort o hmem letter hletter).1
    rw [ho] at huse
    rw [step_of_short hlooks honly]
    unfold takeShort
    rw [huse]

/-- An option that takes no value. -/
theorem step_of_named_flag (hshape : o.shape = none) :
    step options r word =
      if attached.isSome then .error .surplusValue else r.takeFlag o.long := by
  have ho : o = ⟨o.long, o.short, none⟩ := by rw [← hshape]
  rcases hword with hlooks | ⟨letter, hletter, hlooks⟩
  · have huse := hoptions.ofLong o hmem
    rw [ho] at huse
    rw [step_of_long hlooks honly]
    unfold takeLong
    rw [huse]
    cases attached <;> rfl
  · exact absurd hshape (hoptions.ofShort o hmem letter hletter).2

end Named

/-- Any word that is neither plain nor a double hyphen names an option. -/
theorem exists_named_of_step {word : String} {next : ArgumentReading} (honly : r.onlyPlain = false)
    (hplain : ¬ ArgumentWord.IsPlain word) (hhyphens : word ≠ "--")
    (hstep : step options r word = .ok next) :
    ∃ o ∈ options, ∃ attached, o.Named word attached := by
  obtain ⟨look, hlooks⟩ := ArgumentWord.exists_looks word
  cases look with
  | doubleHyphen => cases hlooks; contradiction
  | plain => cases hlooks; contradiction
  | long name attached =>
    rw [step_of_long hlooks honly] at hstep
    unfold takeLong at hstep
    split at hstep
    · cases hstep
    · rename_i long short shape huse
      obtain ⟨hmem, rfl⟩ := OptionUse.mem_of_ofLong? huse
      exact ⟨_, hmem, _, .inl hlooks⟩
    · cases hstep
    · exact absurd hstep (stopWith_ne_ok _ _)
    · exact absurd hstep (stopWith_ne_ok _ _)
    · rename_i long short huse
      obtain ⟨hmem, rfl⟩ := OptionUse.mem_of_ofLong? huse
      exact ⟨_, hmem, _, .inl hlooks⟩
  | short letter attached =>
    rw [step_of_short hlooks honly] at hstep
    unfold takeShort at hstep
    split at hstep
    · cases hstep
    · exact absurd hstep (stopWith_ne_ok _ _)
    · exact absurd hstep (stopWith_ne_ok _ _)
    all_goals
      rename_i huse
      obtain ⟨hmem, hshort⟩ := OptionUse.mem_of_ofShort? huse
      exact ⟨_, hmem, _, .inr ⟨letter, hshort, hlooks⟩⟩

/-- An option without a value is no argument. -/
theorem settle_ne_ok {name : String} {shape : ValueShape} {awaitsValue : Bool} :
    settle ⟨found, some ⟨name, shape, []⟩, awaitsValue, onlyPlain, rest⟩ ≠ .ok s := by
  intro hsettle
  obtain ⟨_, hne, _⟩ := accept_eq_ok_iff.1 hsettle
  exact hne rfl

/-- An option that waits for its value gets it from a plain word. -/
theorem finds_awaiting_iff {name : String} {shape : ValueShape}
    (hnew : ∀ p ∈ rest, p.repeats = true → p.name ≠ name) :
    (⟨found, some ⟨name, shape, []⟩, true, false, rest⟩ : ArgumentReading).Finds options words m ↔
      ∃ text behind, words = text :: behind ∧ ArgumentWord.IsPlain text ∧
        (⟨found, some ⟨name, shape, [text]⟩, false, false, rest⟩ : ArgumentReading).Finds options
          behind m := by
  have hstep : ∀ {text}, ArgumentWord.IsPlain text →
      step options ⟨found, some ⟨name, shape, []⟩, true, false, rest⟩ text =
        .ok ⟨found, some ⟨name, shape, [text]⟩, false, false, rest⟩ := by
    intro text hplain
    rw [step, ArgumentWord.ofString_eq_of_looks (.plain hplain)]
    rfl
  constructor
  · intro hfinds
    cases words with
    | nil =>
      obtain ⟨s, hsettle, _⟩ := finds_nil.1 hfinds
      exact absurd hsettle settle_ne_ok
    | cons text behind =>
      obtain ⟨next, hnext, hfinds⟩ := finds_cons.1 hfinds
      by_cases hplain : ArgumentWord.IsPlain text
      · cases hnext.symm.trans (hstep hplain)
        exact ⟨text, behind, rfl, hplain, hfinds⟩
      · by_cases hhyphens : text = "--"
        · subst hhyphens
          cases hnext.symm.trans (step_doubleHyphen rfl)
          rw [finds_iff_of_settle (.inl rfl) fun _ h => Option.some.inj h ▸ hnew] at hfinds
          obtain ⟨s, hsettle, _⟩ := hfinds
          exact absurd hsettle settle_ne_ok
        · obtain ⟨s, hsettle, _⟩ := (step_eq_ok_iff rfl hplain hhyphens).1 hnext
          exact absurd hsettle settle_ne_ok
  · rintro ⟨text, behind, rfl, hplain, hfinds⟩
    exact finds_cons.2 ⟨_, hstep hplain, hfinds⟩

section Between

variable {o : NamedOption} {word : String} (hoptions : NamedOption.Distinct options)
  (hmem : o ∈ options)
include hoptions hmem

/-- A flag is found without a value. -/
theorem finds_between_flag (hword : o.Named word none) (hshape : o.shape = none) :
    (between found false rest).Finds options (word :: words) m ↔
      o.long ∉ found.map Prod.fst ∧
        (between (found ++ [(o.long, [])]) false rest).Finds options words m := by
  have hflag : ∀ next, (between found false rest).takeFlag o.long = .ok next ↔
      o.long ∉ found.map Prod.fst ∧ next = between (found ++ [(o.long, [])]) false rest := by
    intro next
    rw [← Matches.has_eq_true_iff]
    change (if found.has o.long then _ else _) = _ ↔ _
    cases found.has o.long with
    | true => simp
    | false => simp [between, pure, Except.pure, eq_comm]
  rw [finds_cons, step_of_named_flag hoptions hmem hword rfl hshape]
  constructor
  · rintro ⟨next, hnext, hfinds⟩
    obtain ⟨hfresh, rfl⟩ := (hflag next).1 hnext
    exact ⟨hfresh, hfinds⟩
  · rintro ⟨hfresh, hfinds⟩
    exact ⟨_, (hflag _).2 ⟨hfresh, rfl⟩, hfinds⟩

/-- An option is found with the value that is attached to it. -/
theorem finds_between_attached {text : String} {shape : ValueShape}
    (hnew : ∀ p ∈ rest, p.repeats = true → p.name ≠ o.long)
    (hword : o.Named word (some text)) (hshape : o.shape = some shape) :
    (between found false rest).Finds options (word :: words) m ↔
      ∃ value, shape.Written text value ∧ o.long ∉ found.map Prod.fst ∧
        (between (found ++ [(o.long, [value])]) false rest).Finds options words m := by
  let pending : ArgumentReading := ⟨found, some ⟨o.long, shape, [text]⟩, false, false, rest⟩
  have hsettle : pending.Finds options words m ↔
      ∃ next, pending.settle = .ok next ∧ next.Finds options words m :=
    finds_iff_of_settle (.inr rfl) fun _ h => Option.some.inj h ▸ hnew
  rw [finds_cons, step_of_named hoptions hmem hword rfl hshape, ← finds_pending_singleton_iff hnew,
    hsettle]
  rfl

/-- An option is found with the value behind it. -/
theorem finds_between_behind {shape : ValueShape}
    (hnew : ∀ p ∈ rest, p.repeats = true → p.name ≠ o.long)
    (hword : o.Named word none) (hshape : o.shape = some shape) :
    (between found false rest).Finds options (word :: words) m ↔
      ∃ text behind, words = text :: behind ∧ ArgumentWord.IsPlain text ∧
        ∃ value, shape.Written text value ∧ o.long ∉ found.map Prod.fst ∧
          (between (found ++ [(o.long, [value])]) false rest).Finds options behind m := by
  have hstep : (between found false rest).takeOption o.long shape none =
      .ok ⟨found, some ⟨o.long, shape, []⟩, true, false, rest⟩ := rfl
  rw [finds_cons, step_of_named hoptions hmem hword rfl hshape, hstep]
  simp only [← finds_pending_singleton_iff hnew, ← finds_awaiting_iff hnew]
  simp

/-- What is found behind the name of an option is found behind words that spell it. -/
theorem exists_spelled_of_finds (hnew : ∀ p ∈ rest, p.repeats = true → p.name ≠ o.long)
    {attached : Option String} (hword : o.Named word attached)
    (hfinds : (between found false rest).Finds options (word :: words) m) :
    ∃ front behind values, word :: words = front ++ behind ∧ o.Spelled front values ∧
      o.long ∉ found.map Prod.fst ∧
        (between (found ++ [(o.long, values)]) false rest).Finds options behind m := by
  cases hshape : o.shape with
  | none =>
    cases attached with
    | none =>
      obtain ⟨hfresh, hfinds⟩ := (finds_between_flag hoptions hmem hword hshape).1 hfinds
      exact ⟨[word], words, [], rfl, .flag hshape hword, hfresh, hfinds⟩
    | some text =>
      obtain ⟨next, hnext, _⟩ := finds_cons.1 hfinds
      rw [step_of_named_flag hoptions hmem hword rfl hshape] at hnext
      cases hnext
  | some shape =>
    cases attached with
    | some text =>
      obtain ⟨value, hvalue, hfresh, hfinds⟩ :=
        (finds_between_attached hoptions hmem hnew hword hshape).1 hfinds
      exact ⟨[word], words, [value], rfl, .attached hshape hword hvalue, hfresh, hfinds⟩
    | none =>
      obtain ⟨text, behind, rfl, htext, value, hvalue, hfresh, hfinds⟩ :=
        (finds_between_behind hoptions hmem hnew hword hshape).1 hfinds
      exact ⟨[word, text], behind, [value], rfl, .behind hshape hword htext hvalue, hfresh,
        hfinds⟩

end Between

/-! ### Arguments that repeat -/

/-- The plain words among some words without options. -/
def Gathers (onlyPlain : Bool) (words plains : List String) : Prop :=
  if onlyPlain then words = plains else Spells [] words plains []

theorem gathers_nil {plains : List String} : Gathers onlyPlain [] plains ↔ plains = [] := by
  cases onlyPlain with
  | true => exact eq_comm
  | false =>
    constructor
    · exact fun h => (Spells.of_nil h).1
    · rintro rfl
      exact .nil

theorem gathers_plain {word : String} {plains : List String}
    (hplain : onlyPlain = true ∨ ArgumentWord.IsPlain word) :
    Gathers onlyPlain (word :: words) plains ↔
      ∃ rest, plains = word :: rest ∧ Gathers onlyPlain words rest := by
  cases onlyPlain with
  | true =>
    constructor
    · rintro rfl
      exact ⟨words, rfl, rfl⟩
    · rintro ⟨_, rfl, rfl⟩
      rfl
  | false =>
    have hword : ArgumentWord.IsPlain word := hplain.resolve_left nofun
    constructor
    · intro h
      rcases Spells.of_no_options h with ⟨rfl, _⟩ | ⟨_, hrest⟩
      · exact absurd hword ArgumentWord.not_isPlain_doubleHyphen
      · exact hrest
    · rintro ⟨rest, rfl, hrest⟩
      exact .plain hword hrest

/-- The words of an argument that repeats, when no option is known. -/
theorem finds_repeating_iff {p : Positional} (hrepeats : p.repeats = true) {values : List String}
    (hvalues : values ≠ []) :
    (⟨found, some ⟨p.name, p.shape, values⟩, false, onlyPlain, p :: rest⟩ : ArgumentReading).Finds
        [] words m ↔
      ∃ plains, Gathers onlyPlain words plains ∧ p.name ∉ found.map Prod.fst ∧
        ∃ read, (values ++ plains).mapM p.shape.read? = some read ∧
          m = found ++ [(p.name, read)] := by
  induction words generalizing onlyPlain values with
  | nil =>
    simp only [finds_nil, settle, accept_eq_ok_iff, gathers_nil]
    constructor
    · rintro ⟨_, ⟨read, _, hfresh, hread, rfl⟩, rfl⟩
      exact ⟨[], rfl, hfresh, read, by rwa [List.append_nil], rfl⟩
    · rintro ⟨_, rfl, hfresh, read, hread, rfl⟩
      rw [List.append_nil] at hread
      exact ⟨_, ⟨read, hvalues, hfresh, hread, rfl⟩, rfl⟩
  | cons word words ih =>
    rw [finds_cons]
    by_cases hplain : onlyPlain = true ∨ ArgumentWord.IsPlain word
    · have hstep :
          step [] ⟨found, some ⟨p.name, p.shape, values⟩, false, onlyPlain, p :: rest⟩ word =
          .ok ⟨found, some ⟨p.name, p.shape, values ++ [word]⟩, false, onlyPlain, p :: rest⟩ := by
        rw [step_eq_takePlain (.inr rfl) hplain]
        simp [takePlain, hrepeats]
      constructor
      · rintro ⟨next, hnext, hfinds⟩
        cases hnext.symm.trans hstep
        obtain ⟨plains, hplains, hfresh, read, hread, rfl⟩ := (ih (by simp)).1 hfinds
        rw [← List.append_cons] at hread
        exact ⟨_, (gathers_plain hplain).2 ⟨plains, rfl, hplains⟩, hfresh, read, hread, rfl⟩
      · rintro ⟨_, hplains, hfresh, read, hread, rfl⟩
        obtain ⟨plains, rfl, hmore⟩ := (gathers_plain hplain).1 hplains
        rw [List.append_cons] at hread
        exact ⟨_, hstep, (ih (by simp)).2 ⟨plains, hmore, hfresh, read, hread, rfl⟩⟩
    · rw [not_or, Bool.not_eq_true] at hplain
      obtain ⟨rfl, hword⟩ := hplain
      by_cases hhyphens : word = "--"
      · subst hhyphens
        have hgathers : ∀ {plains},
            Gathers false ("--" :: words) plains ↔ Gathers true words plains := by
          intro plains
          constructor
          · intro h
            rcases Spells.of_no_options h with ⟨_, heq, _⟩ | ⟨hplain, _⟩
            · exact heq.symm
            · exact absurd hplain hword
          · rintro rfl
            exact .doubleHyphen words
        rw [step_doubleHyphen rfl]
        simp only [hgathers, ← ih hvalues]
        simp
      · constructor
        · rintro ⟨next, hnext, _⟩
          obtain ⟨_, hmem, _⟩ := exists_named_of_step rfl hword hhyphens hnext
          exact absurd hmem List.not_mem_nil
        · rintro ⟨_, hplains, _⟩
          rcases Spells.of_no_options hplains with ⟨heq, _⟩ | ⟨hplain, _⟩
          · exact absurd heq hhyphens
          · exact absurd hplain hword

/-! ### Plain words only -/

/-- The first word of an argument that repeats. -/
theorem finds_between_repeating {p : Positional} {word : String} (hrepeats : p.repeats = true)
    (hplain : onlyPlain = true ∨ ArgumentWord.IsPlain word) :
    (between found onlyPlain (p :: rest)).Finds [] (word :: words) m ↔
      ∃ plains, Gathers onlyPlain words plains ∧ p.name ∉ found.map Prod.fst ∧
        ∃ read, (word :: plains).mapM p.shape.read? = some read ∧
          m = found ++ [(p.name, read)] := by
  have hstep : step [] (between found onlyPlain (p :: rest)) word =
      .ok ⟨found, some ⟨p.name, p.shape, [word]⟩, false, onlyPlain, p :: rest⟩ := by
    rw [step_eq_takePlain (.inr rfl) hplain, takePlain_of_pending_eq_none rfl rfl, hrepeats]
    rfl
  rw [finds_cons, hstep, ← List.singleton_append]
  simp [finds_repeating_iff hrepeats]

/-- A plain word is too many when no argument is to come. -/
theorem not_finds_between_of_rest_eq_nil {word : String}
    (hplain : onlyPlain = true ∨ ArgumentWord.IsPlain word) :
    ¬ (between found onlyPlain []).Finds options (word :: words) m := by
  rw [finds_cons, step_eq_takePlain (.inr rfl) hplain]
  rintro ⟨_, hnext, _⟩
  cases hnext

/-- Behind a double hyphen all words are arguments known by their places. -/
theorem finds_onlyPlain_iff (hplaced : Positional.Placed options rest)
    (hfound : (found.map Prod.fst).Nodup) :
    (between found true rest).Finds options words m ↔
      ∃ entries, Positional.entries? rest words = some entries ∧
        ((found ++ entries).map Prod.fst).Nodup ∧ m = found ++ entries := by
  induction words generalizing found rest with
  | nil =>
    rw [finds_between_nil]
    simp [hfound, eq_comm]
  | cons word words ih =>
    cases rest with
    | nil =>
      refine iff_of_false (not_finds_between_of_rest_eq_nil (.inl rfl)) ?_
      rintro ⟨_, hentries, _⟩
      cases hentries
    | cons p rest =>
      cases hrepeats : p.repeats with
      | true =>
        obtain rfl := hplaced.options_eq_nil List.mem_cons_self hrepeats
        rw [finds_between_repeating hrepeats (.inl rfl)]
        constructor
        · rintro ⟨plains, rfl, hfresh, read, hread, rfl⟩
          exact ⟨_, (Positional.entries?_of_repeats hrepeats).2 ⟨read, hread, rfl⟩,
            Matches.nodup_concat.2 ⟨hfound, hfresh⟩, rfl⟩
        · rintro ⟨_, hentries, hnodup, rfl⟩
          obtain ⟨read, hread, rfl⟩ := (Positional.entries?_of_repeats hrepeats).1 hentries
          exact ⟨words, rfl, (Matches.nodup_concat.1 hnodup).2, read, hread, rfl⟩
      | false =>
        rw [finds_between_plain hplaced hrepeats (.inl rfl)]
        constructor
        · rintro ⟨value, hvalue, hfresh, hfinds⟩
          obtain ⟨others, hothers, hnodup, rfl⟩ :=
            (ih hplaced.tail (Matches.nodup_concat.2 ⟨hfound, hfresh⟩)).1 hfinds
          rw [← List.append_cons] at hnodup ⊢
          exact ⟨_, (Positional.entries?_of_not_repeats hrepeats).2
            ⟨value, hvalue, others, hothers, rfl⟩, hnodup, rfl⟩
        · rintro ⟨_, hentries, hnodup, rfl⟩
          obtain ⟨value, hvalue, others, hothers, rfl⟩ :=
            (Positional.entries?_of_not_repeats hrepeats).1 hentries
          rw [List.append_cons] at hnodup
          have hfresh := Matches.nodup_of_append hnodup
          exact ⟨value, hvalue, (Matches.nodup_concat.1 hfresh).2,
            (ih hplaced.tail hfresh).2 ⟨others, hothers, hnodup, List.append_cons ..⟩⟩

/-! ### All words -/

/-- What an option gives can be moved in front of what the places give. -/
theorem perm_middle (found entries given : Matches) (entry : String × List ArgumentValue) :
    (found ++ entries ++ entry :: given).Perm (found ++ [entry] ++ entries ++ given) := by
  simp only [List.append_assoc, List.singleton_append]
  exact List.perm_middle.append_left found

/-- What is found in words that spell arguments, apart from the order. -/
theorem exists_finds_of_spells (hoptions : NamedOption.Distinct options) {plains : List String}
    {given entries : Matches} (hspells : Spells options words plains given)
    (hplaced : Positional.Placed options rest)
    (hentries : Positional.entries? rest plains = some entries)
    (hnodup : ((found ++ entries ++ given).map Prod.fst).Nodup) :
    ∃ m, (between found false rest).Finds options words m ∧ m.Perm (found ++ entries ++ given) := by
  induction hspells generalizing found rest entries with
  | nil =>
    obtain rfl := Option.some.inj ((Positional.entries?_nil rest).symm.trans hentries)
    exact ⟨found, finds_between_nil.2 rfl, by simp⟩
  | doubleHyphen words =>
    rw [List.append_nil] at hnodup ⊢
    refine ⟨_, finds_cons.2 ⟨_, step_doubleHyphen rfl, ?_⟩, .refl _⟩
    exact (finds_onlyPlain_iff hplaced (Matches.nodup_of_append hnodup)).2
      ⟨entries, hentries, hnodup, rfl⟩
  | @plain word words plains given hword hspells ih =>
    cases rest with
    | nil => cases hentries
    | cons p rest =>
      cases hrepeats : p.repeats with
      | true =>
        obtain rfl := hplaced.options_eq_nil List.mem_cons_self hrepeats
        obtain ⟨read, hread, rfl⟩ := (Positional.entries?_of_repeats hrepeats).1 hentries
        obtain rfl := hspells.given_eq_nil
        rw [List.append_nil] at hnodup ⊢
        refine ⟨_, (finds_between_repeating hrepeats (.inr hword)).2 ?_, .refl _⟩
        exact ⟨plains, hspells, (Matches.nodup_concat.1 hnodup).2, read, hread, rfl⟩
      | false =>
        obtain ⟨value, hvalue, others, hothers, rfl⟩ :=
          (Positional.entries?_of_not_repeats hrepeats).1 hentries
        rw [List.append_cons] at hnodup ⊢
        obtain ⟨m, hfinds, hperm⟩ := ih hplaced.tail hothers hnodup
        rw [List.append_assoc] at hnodup
        refine ⟨m, (finds_between_plain hplaced hrepeats (.inr hword)).2 ?_, hperm⟩
        exact ⟨value, hvalue, (Matches.nodup_concat.1 (Matches.nodup_of_append hnodup)).2, hfinds⟩
  | @option o front words plains values given hmem hfront hspells ih =>
    have hmiddle := perm_middle found entries given (o.long, values)
    have hnodup' := (hmiddle.map Prod.fst).nodup_iff.1 hnodup
    obtain ⟨m, hfinds, hperm⟩ := ih hplaced hentries hnodup'
    refine ⟨m, ?_, hperm.trans hmiddle.symm⟩
    have hfresh : o.long ∉ found.map Prod.fst := by
      rw [List.append_assoc] at hnodup'
      exact (Matches.nodup_concat.1 (Matches.nodup_of_append hnodup')).2
    have hnew := hplaced.name_ne hmem
    cases hfront with
    | flag hshape hword =>
      exact (finds_between_flag hoptions hmem hword hshape).2 ⟨hfresh, hfinds⟩
    | attached hshape hword hvalue =>
      exact (finds_between_attached hoptions hmem hnew hword hshape).2 ⟨_, hvalue, hfresh, hfinds⟩
    | behind hshape hword htext hvalue =>
      exact (finds_between_behind hoptions hmem hnew hword hshape).2
        ⟨_, _, rfl, htext, _, hvalue, hfresh, hfinds⟩

/-- Words that some spell behind the words of an option spell that option as well. -/
theorem exists_spells_of_option {o : NamedOption} (hmem : o ∈ options) {front behind : List String}
    {values : List ArgumentValue} (hfront : o.Spelled front values)
    (h : ∃ plains given entries, Spells options behind plains given ∧
      Positional.entries? rest plains = some entries ∧
      ((found ++ [(o.long, values)] ++ entries ++ given).map Prod.fst).Nodup ∧
      m.Perm (found ++ [(o.long, values)] ++ entries ++ given)) :
    ∃ plains given entries, Spells options (front ++ behind) plains given ∧
      Positional.entries? rest plains = some entries ∧
      ((found ++ entries ++ given).map Prod.fst).Nodup ∧ m.Perm (found ++ entries ++ given) := by
  obtain ⟨plains, given, entries, hspells, hentries, hnodup, hperm⟩ := h
  have hmiddle := perm_middle found entries given (o.long, values)
  exact ⟨plains, _, entries, .option hmem hfront hspells, hentries,
    (hmiddle.map Prod.fst).nodup_iff.2 hnodup, hperm.trans hmiddle.symm⟩

/-- Words in which something is found spell it, apart from the order. -/
theorem exists_spells_of_finds (hoptions : NamedOption.Distinct options) (words : List String)
    (found : Matches) (rest : List Positional) (m : Matches)
    (hplaced : Positional.Placed options rest)
    (hfound : (found.map Prod.fst).Nodup)
    (hfinds : (between found false rest).Finds options words m) :
    ∃ plains given entries, Spells options words plains given ∧
      Positional.entries? rest plains = some entries ∧
      ((found ++ entries ++ given).map Prod.fst).Nodup ∧ m.Perm (found ++ entries ++ given) := by
  match words with
  | [] =>
    obtain rfl := finds_between_nil.1 hfinds
    refine ⟨[], [], [], .nil, Positional.entries?_nil rest, ?_, ?_⟩
    · simpa using hfound
    · simp
  | word :: words =>
    by_cases hplain : ArgumentWord.IsPlain word
    · cases rest with
      | nil => exact absurd hfinds (not_finds_between_of_rest_eq_nil (.inr hplain))
      | cons p rest =>
        cases hrepeats : p.repeats with
        | true =>
          obtain rfl := hplaced.options_eq_nil List.mem_cons_self hrepeats
          obtain ⟨plains, hspells, hfresh, read, hread, rfl⟩ :=
            (finds_between_repeating hrepeats (.inr hplain)).1 hfinds
          refine ⟨_, [], _, .plain hplain hspells,
            (Positional.entries?_of_repeats hrepeats).2 ⟨read, hread, rfl⟩, ?_, ?_⟩
          · rw [List.append_nil]
            exact Matches.nodup_concat.2 ⟨hfound, hfresh⟩
          · rw [List.append_nil]
        | false =>
          obtain ⟨value, hvalue, hfresh, hfinds⟩ :=
            (finds_between_plain hplaced hrepeats (.inr hplain)).1 hfinds
          obtain ⟨plains, given, others, hspells, hothers, hnodup, hperm⟩ :=
            exists_spells_of_finds hoptions words _ rest m hplaced.tail
              (Matches.nodup_concat.2 ⟨hfound, hfresh⟩) hfinds
          rw [← List.append_cons] at hnodup hperm
          exact ⟨_, given, _, .plain hplain hspells,
            (Positional.entries?_of_not_repeats hrepeats).2 ⟨value, hvalue, others, hothers, rfl⟩,
            hnodup, hperm⟩
    · by_cases hhyphens : word = "--"
      · subst hhyphens
        obtain ⟨next, hnext, hfinds⟩ := finds_cons.1 hfinds
        cases hnext.symm.trans (step_doubleHyphen rfl)
        obtain ⟨entries, hentries, hnodup, rfl⟩ := (finds_onlyPlain_iff hplaced hfound).1 hfinds
        refine ⟨words, [], entries, .doubleHyphen words, hentries, ?_, ?_⟩
        · rwa [List.append_nil]
        · rw [List.append_nil]
      · obtain ⟨next, hnext, _⟩ := finds_cons.1 hfinds
        obtain ⟨o, hmem, attached, hword⟩ := exists_named_of_step rfl hplain hhyphens hnext
        obtain ⟨front, behind, values, hwords, hfront, hfresh, hfinds⟩ :=
          exists_spelled_of_finds hoptions hmem (hplaced.name_ne hmem) hword hfinds
        have hlength : behind.length < (word :: words).length := by
          rw [hwords, List.length_append]
          exact Nat.lt_add_of_pos_left hfront.length_pos
        rw [hwords]
        exact exists_spells_of_option hmem hfront (exists_spells_of_finds hoptions behind _ rest m
          hplaced (Matches.nodup_concat.2 ⟨hfound, hfresh⟩) hfinds)
termination_by words.length
decreasing_by
  · simp_wf
  · exact hlength

end ArgumentReading

/-! ## Lines of a command -/

namespace Matches

variable {m others : Matches}

/-- Among arguments that are given once the order makes no difference. -/
theorem lookup_eq_some_iff (hnodup : (m.map Prod.fst).Nodup) {name : String}
    {values : List ArgumentValue} : m.lookup name = some values ↔ (name, values) ∈ m := by
  induction m with
  | nil => exact iff_of_false nofun List.not_mem_nil
  | cons entry m ih =>
    obtain ⟨key, found⟩ := entry
    obtain ⟨hfresh, hnodup⟩ := List.nodup_cons.1 hnodup
    rw [List.lookup_cons, List.mem_cons, Prod.mk.injEq]
    by_cases hname : name = key
    · subst hname
      have hother : (name, values) ∉ m := fun hmem => hfresh (List.mem_map.2 ⟨_, hmem, rfl⟩)
      simp [hother, eq_comm]
    · rw [beq_eq_false_iff_ne.2 hname, ih hnodup]
      simp [hname]

theorem lookup_eq_of_perm (h : m.Perm others) (hnodup : (m.map Prod.fst).Nodup) (name : String) :
    m.lookup name = others.lookup name := by
  apply Option.ext
  intro values
  rw [lookup_eq_some_iff hnodup, lookup_eq_some_iff ((h.map Prod.fst).nodup_iff.1 hnodup),
    h.mem_iff]

end Matches

namespace CommandShape

/-- A command whose arguments can be told apart, and which asks for them by their names. -/
structure WellFormed (shape : CommandShape) : Prop where
  options : NamedOption.Distinct shape.options
  positionals : Positional.Placed shape.options shape.positionals
  fresh : ∀ o ∈ shape.options, o.long ∉ shape.positionals.map Positional.name
  build_congr : ∀ {m others : Matches}, (∀ name, m.lookup name = others.lookup name) →
    shape.build m = shape.build others
  required : ∀ {m : Matches} {command : Command}, shape.build m = some command →
    ∀ p ∈ shape.positionals, p.name ∈ m.map Prod.fst

variable {shape : CommandShape} {words : List String} {command : Command}

/-- A command is built from what is found. -/
theorem parse_eq_ok_iff_finds :
    shape.parse words = .ok command ↔
      ∃ m, (ArgumentReading.start shape).Finds shape.options words m ∧
        shape.build m = some command := by
  rw [parse]
  simp only [bind_eq_ok_iff]
  constructor
  · rintro ⟨reading, hread, settled, hsettle, hbuild⟩
    refine ⟨settled.found, ⟨reading, settled, hread, hsettle, rfl⟩, ?_⟩
    cases hfound : shape.build settled.found with
    | none =>
      rw [hfound] at hbuild
      cases hbuild
    | some other =>
      rw [hfound] at hbuild
      exact congrArg some (Except.ok.inj hbuild)
  · rintro ⟨_, ⟨reading, settled, hread, hsettle, rfl⟩, hbuild⟩
    refine ⟨reading, hread, settled, hsettle, ?_⟩
    rw [hbuild]
    rfl

/-- The lines of a command are the words that spell its arguments: all places are filled, and each
option is given once at most. -/
theorem parse_eq_ok_iff (h : shape.WellFormed) :
    shape.parse words = .ok command ↔
      ∃ plains given entries, Spells shape.options words plains given ∧
        Positional.Fills shape.positionals plains entries ∧
        (given.map Prod.fst).Nodup ∧ shape.build (entries ++ given) = some command := by
  rw [parse_eq_ok_iff_finds]
  constructor
  · rintro ⟨m, hfinds, hbuild⟩
    obtain ⟨plains, given, entries, hspells, hentries, hnodup, hperm⟩ :=
      ArgumentReading.exists_spells_of_finds h.options words [] shape.positionals m h.positionals
        List.nodup_nil hfinds
    rw [List.nil_append] at hnodup hperm
    have hsame := (h.build_congr (Matches.lookup_eq_of_perm hperm.symm hnodup)).trans hbuild
    rw [List.map_append] at hnodup
    refine ⟨plains, given, entries, hspells, ?_, (List.nodup_append.1 hnodup).2.1, hsame⟩
    refine Positional.fills_of_entries? h.positionals.names hentries fun p hmem => ?_
    have hp := h.required hsame p hmem
    rw [List.map_append, List.mem_append] at hp
    -- No option has the name of a place.
    refine hp.resolve_right fun hoption => ?_
    obtain ⟨o, ho, hname⟩ := hspells.exists_option_of_mem hoption
    exact h.fresh o ho (hname ▸ List.mem_map_of_mem hmem)
  · rintro ⟨plains, given, entries, hspells, hfills, hgiven, hbuild⟩
    have hentries := Positional.entries?_of_fills hfills
    have hsub := Positional.map_fst_entries? hentries
    have hnodup : (([] ++ entries ++ given).map Prod.fst).Nodup := by
      rw [List.nil_append, List.map_append]
      refine List.nodup_append.2 ⟨hsub.nodup h.positionals.names, hgiven, ?_⟩
      rintro name hentry _ hoption rfl
      obtain ⟨o, hmem, rfl⟩ := hspells.exists_option_of_mem hoption
      exact h.fresh o hmem (hsub.subset hentry)
    obtain ⟨m, hfinds, hperm⟩ :=
      ArgumentReading.exists_finds_of_spells h.options hspells h.positionals hentries
        hnodup
    have hlookup := Matches.lookup_eq_of_perm hperm ((hperm.map Prod.fst).nodup_iff.2 hnodup)
    exact ⟨m, hfinds, (h.build_congr hlookup).trans hbuild⟩

end CommandShape
end ChainCoverage
