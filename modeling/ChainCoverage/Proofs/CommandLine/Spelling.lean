import ChainCoverage.CommandLine.Usage
import ChainCoverage.Proofs.Text.Unsigned
import Mathlib.Data.List.Forall2
import Mathlib.Data.List.TakeWhile

/-!
# How arguments are spelled

A word that starts with a hyphen names an option, unless it is a hyphen alone.  An option
may have its value attached, behind an equals sign or right behind its letter, or in the
next word.  All other words are plain: arguments known by their places.  Behind a double
hyphen all words are plain.

Main definitions:

- `ArgumentWord.Looks`: what each word looks like.
- `ValueShape.Written`: the texts of each value.
- `NamedOption.Spelled`: the words that spell one option.
- `Spells`: words as plain words and options in any order.
- `Positional.entries?`: the values that plain words give to their places.

Main results:

- `ArgumentWord.ofString_eq_of_looks` and `ArgumentWord.exists_looks`: every word looks like
  something, and it is taken for that.
- `ValueShape.read?_eq_some_iff`: the texts that are read as a value are those of it.
-/

namespace ChainCoverage

/-! ## Words -/

namespace ArgumentWord

/-- A word is plain when it does not start with a hyphen, and so is a single hyphen. -/
def IsPlain (word : String) : Prop :=
  word = "-" ∨ word.toList.head? ≠ some '-'

instance (word : String) : Decidable (IsPlain word) :=
  inferInstanceAs (Decidable (_ ∨ _))

/-- What each word looks like. -/
inductive Looks : String → ArgumentWord → Prop
  | doubleHyphen : Looks "--" .doubleHyphen
  | long {name : List Char} (hne : name ≠ []) (hname : '=' ∉ name) :
    Looks (.ofList ('-' :: '-' :: name)) (.long (.ofList name) none)
  | longWith {name : List Char} (hname : '=' ∉ name) (value : List Char) :
    Looks (.ofList ('-' :: '-' :: (name ++ '=' :: value)))
      (.long (.ofList name) (some (.ofList value)))
  | short {letter : Char} (hletter : letter ≠ '-') :
    Looks (.ofList ['-', letter]) (.short letter none)
  | shortEquals {letter : Char} (hletter : letter ≠ '-') (value : List Char) :
    Looks (.ofList ('-' :: letter :: '=' :: value)) (.short letter (some (.ofList value)))
  | shortWith {letter first : Char} (hletter : letter ≠ '-') (hfirst : first ≠ '=')
    (value : List Char) :
    Looks (.ofList ('-' :: letter :: first :: value))
      (.short letter (some (.ofList (first :: value))))
  | plain {word : String} (hplain : IsPlain word) : Looks word (.plain word)

/-- A name in front of an equals sign is found. -/
theorem takeWhile_dropWhile_of_notMem {name : List Char} (hname : '=' ∉ name) (rest : List Char) :
    (name ++ '=' :: rest).takeWhile (· ≠ '=') = name ∧
      (name ++ '=' :: rest).dropWhile (· ≠ '=') = '=' :: rest := by
  have hall : ∀ c ∈ name, decide (c ≠ '=') = true := fun c hmem =>
    decide_eq_true fun heq => hname (heq ▸ hmem)
  constructor
  · rw [List.takeWhile_append_of_pos hall]
    simp
  · rw [List.dropWhile_append_of_pos hall]
    simp

/-- Behind two hyphens stands a long name, up to an equals sign if there is one. -/
theorem ofString_long {rest : List Char} (hne : rest ≠ []) :
    ofString (.ofList ('-' :: '-' :: rest)) =
      match rest.dropWhile (· ≠ '=') with
      | [] => long (.ofList rest) none
      | _ :: value => long (.ofList (rest.takeWhile (· ≠ '='))) (some (.ofList value)) := by
  obtain ⟨first, rest, rfl⟩ := List.exists_cons_of_ne_nil hne
  rw [ofString, String.toList_ofList]
  rfl

/-- What a word looks like is what it is taken for. -/
theorem ofString_eq_of_looks {word : String} {look : ArgumentWord} (h : Looks word look) :
    ofString word = look := by
  cases h with
  | doubleHyphen => rfl
  | @long name hne hname =>
    have hdrop : name.dropWhile (· ≠ '=') = [] := by
      rw [List.dropWhile_eq_nil_iff]
      exact fun c hmem => decide_eq_true fun heq => hname (heq ▸ hmem)
    rw [ofString_long hne, hdrop]
  | @longWith name hname value =>
    obtain ⟨htake, hdrop⟩ := takeWhile_dropWhile_of_notMem hname value
    rw [ofString_long (by simp), hdrop, htake]
  | short hletter =>
    rw [ofString, String.toList_ofList]
    split <;> simp_all
  | shortEquals hletter value =>
    rw [ofString, String.toList_ofList]
    split <;> simp_all [eq_comm]
  | shortWith hletter hfirst value =>
    rw [ofString, String.toList_ofList]
    split <;> simp_all
  | plain hplain =>
    rcases hplain with rfl | hhead
    · rfl
    · rw [ofString]
      -- All looks but the last start with a hyphen.
      split <;> simp_all

/-- Every word looks like something. -/
theorem exists_looks (word : String) : ∃ look, Looks word look := by
  rw [← word.ofList_toList]
  match word.toList with
  | [] => exact ⟨_, .plain (.inr (by simp))⟩
  | [c] =>
    by_cases hc : c = '-'
    · exact ⟨_, .plain (.inl (by rw [hc]))⟩
    · exact ⟨_, .plain (.inr (by simpa using hc))⟩
  | c :: letter :: rest =>
    by_cases hc : c = '-'
    · subst hc
      by_cases hletter : letter = '-'
      · subst hletter
        by_cases hmem : '=' ∈ rest
        · obtain ⟨name, value, rfl, hname⟩ := List.eq_append_cons_of_mem hmem
          exact ⟨_, .longWith hname value⟩
        · cases rest with
          | nil => exact ⟨_, .doubleHyphen⟩
          | cons first rest => exact ⟨_, .long (List.cons_ne_nil _ _) hmem⟩
      · match rest with
        | [] => exact ⟨_, .short hletter⟩
        | first :: rest =>
          by_cases hfirst : first = '='
          · subst hfirst
            exact ⟨_, .shortEquals hletter rest⟩
          · exact ⟨_, .shortWith hletter hfirst rest⟩
    · exact ⟨_, .plain (.inr (by simpa using hc))⟩

theorem not_isPlain_doubleHyphen : ¬ IsPlain "--" := by
  rintro (h | h)
  · exact absurd h (by decide)
  · exact h rfl

end ArgumentWord

/-! ## Values -/

/-- The texts of a small count: its numerals, and a minus sign in front of zeros for zero. -/
inductive IsCount : List Char → UInt32 → Prop
  | numeral {text : List Char} {count : UInt32} (h : Unsigned.Numeral text count.toNat) :
    IsCount text count
  | minus {zeros : List Char} (hne : zeros ≠ []) (hzeros : ∀ c ∈ zeros, c = '0') :
    IsCount ('-' :: zeros) 0

/-- The texts that are read as a small count are those of it. -/
theorem readCount?_eq_some_iff {text : List Char} {count : UInt32} :
    readCount? text = some count ↔ IsCount text count := by
  constructor
  · intro h
    unfold readCount? at h
    split at h
    · rename_i digits
      split at h
      · cases h
      · rename_i hzeros
        obtain rfl := Option.some.inj h
        simp only [Bool.or_eq_true, not_or, List.isEmpty_iff, List.any_eq_true, decide_eq_true_eq,
          not_exists, not_and, not_not] at hzeros
        exact .minus hzeros.1 hzeros.2
    · exact .numeral (Unsigned.parseHalfWord_eq_ok_iff.1 (toOption_eq_some_iff.1 h))
  · intro h
    cases h with
    | numeral h =>
      unfold readCount?
      split
      · exact absurd List.mem_cons_self h.hyphen_notMem
      · exact toOption_eq_some_iff.2 (Unsigned.parseHalfWord_eq_ok_iff.2 h)
    | minus hne hzeros =>
      refine if_neg ?_
      simpa [hne] using hzeros

/-- The texts of a value. -/
inductive ValueShape.Written : ValueShape → String → ArgumentValue → Prop
  | word {text : String} {value : UInt64} (h : Unsigned.Numeral text.toList value.toNat) :
    Written .word text (.word value)
  | halfWord {text : String} {value : UInt32} (h : IsCount text.toList value) :
    Written .halfWord text (.halfWord value)
  | text (text : String) : Written .text text (.text text)

/-- The texts that are read as a value are those of it. -/
theorem ValueShape.read?_eq_some_iff {shape : ValueShape} {text : String} {value : ArgumentValue} :
    shape.read? text = some value ↔ shape.Written text value := by
  cases shape with
  | word =>
    simp only [read?, Unsigned.word?, Option.map_eq_some_iff, toOption_eq_some_iff,
      Unsigned.parseWord_eq_ok_iff]
    constructor
    · rintro ⟨value, h, rfl⟩
      exact .word h
    · intro h
      cases h with
      | word h => exact ⟨_, h, rfl⟩
  | halfWord =>
    simp only [read?, Option.map_eq_some_iff, readCount?_eq_some_iff]
    constructor
    · rintro ⟨value, h, rfl⟩
      exact .halfWord h
    · intro h
      cases h with
      | halfWord h => exact ⟨_, h, rfl⟩
  | text =>
    constructor
    · intro h
      obtain rfl := Option.some.inj h
      exact .text text
    · intro h
      cases h
      rfl

/-- Values are read one by one. -/
theorem ValueShape.mapM_read?_eq_some_iff {shape : ValueShape} {texts : List String}
    {values : List ArgumentValue} :
    texts.mapM shape.read? = some values ↔ List.Forall₂ shape.Written texts values := by
  induction texts generalizing values with
  | nil =>
    rw [List.forall₂_nil_left_iff]
    exact ⟨fun h => (Option.some.inj h).symm, fun h => h ▸ rfl⟩
  | cons text texts ih =>
    rw [List.mapM_cons, List.forall₂_cons_left_iff]
    simp only [Option.bind_eq_bind, Option.bind_eq_some_iff, read?_eq_some_iff, ih]
    constructor
    · rintro ⟨value, hvalue, others, hothers, h⟩
      exact ⟨value, others, hvalue, hothers, (Option.some.inj h).symm⟩
    · rintro ⟨value, others, hvalue, hothers, rfl⟩
      exact ⟨value, hvalue, others, hothers, rfl⟩

/-! ## Options -/

namespace NamedOption

/-- Whether a word names an option, with a text attached to it or not. -/
def Named (o : NamedOption) (word : String) (attached : Option String) : Prop :=
  ArgumentWord.Looks word (.long o.long attached) ∨
    ∃ letter, o.short = some letter ∧ ArgumentWord.Looks word (.short letter attached)

/-- The words that spell an option, and the values that they give it. -/
inductive Spelled (o : NamedOption) : List String → List ArgumentValue → Prop
  | flag {word : String} (hshape : o.shape = none) (hword : o.Named word none) :
    o.Spelled [word] []
  | attached {shape : ValueShape} {word text : String} {value : ArgumentValue}
    (hshape : o.shape = some shape) (hword : o.Named word (some text))
    (hvalue : shape.Written text value) : o.Spelled [word] [value]
  | behind {shape : ValueShape} {word text : String} {value : ArgumentValue}
    (hshape : o.shape = some shape) (hword : o.Named word none) (htext : ArgumentWord.IsPlain text)
    (hvalue : shape.Written text value) : o.Spelled [word, text] [value]

theorem Spelled.length_pos {o : NamedOption} {front : List String} {values : List ArgumentValue}
    (h : o.Spelled front values) : 0 < front.length := by
  cases h <;> exact Nat.succ_pos _

end NamedOption

/-! ## All words of a command -/

/-- The words of a command behind its name: plain words and options in any order.  Behind a double
hyphen all words are plain. -/
inductive Spells (options : List NamedOption) : List String → List String → Matches → Prop
  | nil : Spells options [] [] []
  | doubleHyphen (words : List String) : Spells options ("--" :: words) words []
  | plain {word : String} {words plains : List String} {given : Matches}
    (hword : ArgumentWord.IsPlain word) (hrest : Spells options words plains given) :
    Spells options (word :: words) (word :: plains) given
  | option {o : NamedOption} {front words plains : List String} {values : List ArgumentValue}
    {given : Matches} (hmem : o ∈ options) (hfront : o.Spelled front values)
    (hrest : Spells options words plains given) :
    Spells options (front ++ words) plains ((o.long, values) :: given)

namespace Spells

/-- Plain words spell themselves. -/
theorem of_plain {options : List NamedOption} {words : List String}
    (h : ∀ word ∈ words, ArgumentWord.IsPlain word) : Spells options words words [] := by
  induction words with
  | nil => exact .nil
  | cons word words ih =>
    obtain ⟨hword, hwords⟩ := List.forall_mem_cons.1 h
    exact .plain hword (ih hwords)

/-- No words spell nothing. -/
theorem of_nil {options : List NamedOption} {plains : List String} {given : Matches}
    (h : Spells options [] plains given) : plains = [] ∧ given = [] := by
  generalize hall : ([] : List String) = all at h
  cases h with
  | nil => exact ⟨rfl, rfl⟩
  | doubleHyphen | plain => cases hall
  | option _ hfront _ => cases hfront <;> cases hall

/-- Without options a word is plain, unless it is the double hyphen. -/
theorem of_no_options {word : String} {words plains : List String} {given : Matches}
    (h : Spells [] (word :: words) plains given) :
    word = "--" ∧ plains = words ∧ given = [] ∨
      ArgumentWord.IsPlain word ∧ ∃ rest, plains = word :: rest ∧ Spells [] words rest given := by
  generalize hall : word :: words = all at h
  cases h with
  | nil => cases hall
  | doubleHyphen =>
    cases hall
    exact .inl ⟨rfl, rfl, rfl⟩
  | plain hword hrest =>
    cases hall
    exact .inr ⟨hword, _, rfl, hrest⟩
  | option hmem => exact absurd hmem List.not_mem_nil

/-- Without options nothing is given by one. -/
theorem given_eq_nil {words plains : List String} {given : Matches}
    (h : Spells [] words plains given) : given = [] := by
  induction h with
  | nil | doubleHyphen => rfl
  | plain _ _ ih => exact ih
  | option hmem => cases hmem

/-- What is given by options has their names. -/
theorem exists_option_of_mem {options : List NamedOption} {words plains : List String}
    {given : Matches} (h : Spells options words plains given) {name : String}
    (hname : name ∈ given.map Prod.fst) : ∃ o ∈ options, o.long = name := by
  induction h with
  | nil | doubleHyphen => cases hname
  | plain _ _ ih => exact ih hname
  | option hmem _ _ ih =>
    rcases List.mem_cons.1 hname with rfl | hname
    · exact ⟨_, hmem, rfl⟩
    · exact ih hname

end Spells

/-! ## Arguments known by their places -/

/-- The values of arguments known by their places; one that repeats takes all words. -/
def Positional.entries? : List Positional → List String → Option Matches
  | _, [] => some []
  | [], _ :: _ => none
  | argument :: rest, word :: words =>
    if argument.repeats then
      ((word :: words).mapM argument.shape.read?).map fun values => [(argument.name, values)]
    else do
      let value ← argument.shape.read? word
      let entries ← entries? rest words
      return (argument.name, [value]) :: entries

namespace Positional

variable {p : Positional} {rest : List Positional} {word : String} {words : List String}
  {entries : Matches}

@[simp]
theorem entries?_nil (rest : List Positional) : entries? rest [] = some [] := by
  cases rest <;> rfl

theorem entries?_of_repeats (hrepeats : p.repeats = true) :
    entries? (p :: rest) (word :: words) = some entries ↔
      ∃ values, (word :: words).mapM p.shape.read? = some values ∧
        entries = [(p.name, values)] := by
  rw [entries?, if_pos hrepeats, Option.map_eq_some_iff]
  simp only [eq_comm]

theorem entries?_of_not_repeats (hrepeats : p.repeats = false) :
    entries? (p :: rest) (word :: words) = some entries ↔
      ∃ value, p.shape.Written word value ∧ ∃ others, entries? rest words = some others ∧
        entries = (p.name, [value]) :: others := by
  rw [entries?, if_neg (Bool.eq_false_iff.1 hrepeats)]
  simp only [← ValueShape.read?_eq_some_iff]
  cases p.shape.read? word with
  | none => simp
  | some value =>
    cases entries? rest words with
    | none => simp
    | some others => simp [eq_comm]

/-- Every place is filled once at most. -/
theorem map_fst_entries? (h : entries? rest words = some entries) :
    (entries.map Prod.fst).Sublist (rest.map Positional.name) := by
  induction rest generalizing words entries with
  | nil =>
    cases words with
    | nil =>
      obtain rfl := Option.some.inj h
      exact List.Sublist.refl _
    | cons => cases h
  | cons p rest ih =>
    cases words with
    | nil =>
      obtain rfl := Option.some.inj ((entries?_nil _).symm.trans h)
      exact List.nil_sublist _
    | cons word words =>
      cases hrepeats : p.repeats with
      | true =>
        obtain ⟨values, _, rfl⟩ := (entries?_of_repeats hrepeats).1 h
        exact (List.nil_sublist _).cons_cons _
      | false =>
        obtain ⟨value, _, others, hothers, rfl⟩ := (entries?_of_not_repeats hrepeats).1 h
        exact (ih hothers).cons_cons _

/-- Words that fill all places; all words from its place on belong to an argument that repeats. -/
inductive Fills : List Positional → List String → Matches → Prop
  | nil : Fills [] [] []
  | cons {p : Positional} {rest : List Positional} {word : String} {words : List String}
    {value : ArgumentValue} {entries : Matches} (hrepeats : p.repeats = false)
    (hvalue : p.shape.Written word value) (hrest : Fills rest words entries) :
    Fills (p :: rest) (word :: words) ((p.name, [value]) :: entries)
  | repeats {p : Positional} {words : List String} {values : List ArgumentValue}
    (hrepeats : p.repeats = true) (hne : words ≠ [])
    (hvalues : List.Forall₂ p.shape.Written words values) : Fills [p] words [(p.name, values)]

theorem entries?_of_fills (h : Fills rest words entries) : entries? rest words = some entries := by
  induction h with
  | nil => rfl
  | cons hrepeats hvalue _ ih =>
    exact (entries?_of_not_repeats hrepeats).2 ⟨_, hvalue, _, ih, rfl⟩
  | repeats hrepeats hne hvalues =>
    obtain ⟨word, words, rfl⟩ := List.exists_cons_of_ne_nil hne
    exact (entries?_of_repeats hrepeats).2 ⟨_, ValueShape.mapM_read?_eq_some_iff.2 hvalues, rfl⟩

/-- The places are filled when each of them has an entry. -/
theorem fills_of_entries? (hnames : (rest.map Positional.name).Nodup)
    (h : entries? rest words = some entries)
    (hfilled : ∀ p ∈ rest, p.name ∈ entries.map Prod.fst) : Fills rest words entries := by
  induction rest generalizing words entries with
  | nil =>
    cases words with
    | nil =>
      obtain rfl := Option.some.inj h
      exact .nil
    | cons => cases h
  | cons p rest ih =>
    obtain ⟨hp, hrest⟩ := List.forall_mem_cons.1 hfilled
    obtain ⟨hfresh, hnames⟩ := List.nodup_cons.1 hnames
    cases words with
    | nil =>
      obtain rfl := Option.some.inj ((entries?_nil _).symm.trans h)
      cases hp
    | cons word words =>
      cases hrepeats : p.repeats with
      | true =>
        obtain ⟨values, hvalues, rfl⟩ := (entries?_of_repeats hrepeats).1 h
        have hnil : rest = [] := by
          refine List.eq_nil_iff_forall_not_mem.2 fun q hmem => hfresh ?_
          have hname : q.name = p.name := List.mem_singleton.1 (hrest q hmem)
          exact hname ▸ List.mem_map_of_mem hmem
        subst hnil
        exact .repeats hrepeats (List.cons_ne_nil _ _)
          (ValueShape.mapM_read?_eq_some_iff.1 hvalues)
      | false =>
        obtain ⟨value, hvalue, others, hothers, rfl⟩ := (entries?_of_not_repeats hrepeats).1 h
        refine .cons hrepeats hvalue (ih hnames hothers fun q hmem => ?_)
        have hne : q.name ≠ p.name := fun heq => hfresh (heq ▸ List.mem_map_of_mem hmem)
        exact (List.mem_cons.1 (hrest q hmem)).resolve_left hne

end Positional

end ChainCoverage
