import ChainCoverage.CommandLine.BlockArgument
import ChainCoverage.Proofs.Block
import ChainCoverage.Proofs.Text.Unsigned

/-!
# The language of block arguments

A block argument is a number with blanks around it, or two such numbers with a hyphen
between them, the second no smaller than the first.  A number with blanks around it has no
hyphen, so the first hyphen of an argument is the one between its numbers, and an argument
names one span at most.

Main definitions:

- `BlockArgument.IsPadded`: a number with blanks around it.
- `BlockArgument.Names`: the language, with the span that a text of it names.

Main results:

- `BlockArgument.parse_eq_ok_iff_names`: the texts of the language are read, and nothing else.
- `BlockArgument.parse_format`: a printed span is read back.
- `BlockArgument.parse_language`: what is read, what is refused, and what is never read.
-/

namespace ChainCoverage

/-- No character of a numeral is a blank. -/
theorem Unsigned.Numeral.isBlank_eq_false {text : List Char} {n : Nat} (h : Numeral text n)
    {c : Char} (hmem : c ∈ text) : Text.isBlank c = false := by
  rcases h.eq_plus_or_isDigit hmem with rfl | hdigit
  · decide
  · exact Text.isBlank_of_isDigit hdigit

namespace BlockArgument

/-! ## Numbers with blanks around them -/

/-- A text that is a numeral of the block but for the blanks around it. -/
def IsPadded (text : List Char) (block : Block) : Prop :=
  ∃ before numeral after, Text.AllBlank before ∧ Unsigned.Numeral numeral block.toNat ∧
    Text.AllBlank after ∧ text = before ++ numeral ++ after

/-- What is read behind the trimming is a number with blanks around it. -/
theorem parseWord_trim_eq_ok_iff {text : List Char} {block : Block} :
    Unsigned.parseWord (Text.trim text) = .ok block ↔ IsPadded text block := by
  rw [Unsigned.parseWord_eq_ok_iff]
  constructor
  · intro h
    obtain ⟨before, after, hbefore, hafter, htext⟩ := Text.exists_eq_append_trim text
    exact ⟨before, Text.trim text, after, hbefore, h, hafter, htext⟩
  · rintro ⟨before, numeral, after, hbefore, h, hafter, rfl⟩
    rwa [Text.trim_append hbefore (fun _ => h.isBlank_eq_false) hafter]

/-- Blanks, digits and plus signs are no hyphens. -/
theorem IsPadded.hyphen_notMem {text : List Char} {block : Block} (h : IsPadded text block) :
    '-' ∉ text := by
  obtain ⟨before, numeral, after, hbefore, hnumeral, hafter, rfl⟩ := h
  have hblank : '-'.toNat ∉ Text.whiteSpace := by decide
  simp only [List.mem_append, not_or]
  exact ⟨⟨fun hmem => hblank (hbefore _ hmem), hnumeral.hyphen_notMem⟩,
    fun hmem => hblank (hafter _ hmem)⟩

/-- A printed number needs no blanks. -/
theorem isPadded_toDigits (block : Block) : IsPadded (Nat.toDigits 10 block.toNat) block :=
  ⟨[], _, [], Text.allBlank_nil, Unsigned.numeral_toDigits _, Text.allBlank_nil, by simp⟩

/-! ## The two ends of an argument -/

/-- The ends of a text are what stands before and behind its first hyphen. -/
theorem ends_append {first : List Char} (hfirst : '-' ∉ first) (last : List Char) :
    ends (first ++ '-' :: last) = (first, last) := by
  have hne : ∀ c ∈ first, decide (c ≠ '-') = true := by
    intro c hmem
    rw [decide_eq_true_iff]
    rintro rfl
    exact hfirst hmem
  rw [ends, List.dropWhile_append_of_pos hne, List.takeWhile_append_of_pos hne]
  simp

/-- Without a hyphen both ends are the whole text. -/
theorem ends_of_hyphen_notMem {text : List Char} (h : '-' ∉ text) : ends text = (text, text) := by
  have hdrop : text.dropWhile (· ≠ '-') = [] := by
    rw [List.dropWhile_eq_nil_iff]
    intro c hmem
    rw [decide_eq_true_iff]
    rintro rfl
    exact h hmem
  rw [ends, hdrop]

/-- What is read is two numbers in order, with blanks around them. -/
theorem parse_eq_ok_iff_isPadded {argument : String} {span : Span} :
    parse argument = .ok span ↔
      IsPadded (ends argument.toList).1 span.first ∧ IsPadded (ends argument.toList).2 span.last ∧
        span.first ≤ span.last := by
  constructor
  · intro h
    unfold parse at h
    dsimp only at h
    split at h
    · contradiction
    · split at h
      · contradiction
      · split at h
        · contradiction
        · rename_i _ first hfirst _ last hlast hle
          cases h
          exact ⟨parseWord_trim_eq_ok_iff.1 hfirst, parseWord_trim_eq_ok_iff.1 hlast,
            UInt64.not_lt.1 hle⟩
  · rintro ⟨hfirst, hlast, hle⟩
    rw [← parseWord_trim_eq_ok_iff] at hfirst hlast
    rw [parse]
    dsimp only
    rw [hfirst, hlast]
    dsimp only
    rw [if_neg (UInt64.not_lt.2 hle)]

/-- The span of an argument does not end before it starts. -/
theorem first_le_last_of_parse {argument : String} {span : Span} (h : parse argument = .ok span) :
    span.first ≤ span.last :=
  (parse_eq_ok_iff_isPadded.1 h).2.2

/-! ## The language -/

/-- The texts that name spans: a number, or two numbers in order with a hyphen between them. -/
inductive Names : List Char → Span → Prop where
  | single {text : List Char} {block : Block} (h : IsPadded text block) :
      Names text ⟨block, block⟩
  | range {before behind : List Char} {first last : Block} (hfirst : IsPadded before first)
      (hlast : IsPadded behind last) (hle : first ≤ last) :
      Names (before ++ '-' :: behind) ⟨first, last⟩

/-- The arguments that are read are the texts of the language, and each names what is read. -/
theorem parse_eq_ok_iff_names {argument : String} {span : Span} :
    parse argument = .ok span ↔ Names argument.toList span := by
  rw [parse_eq_ok_iff_isPadded]
  constructor
  · rintro ⟨hfirst, hlast, hle⟩
    by_cases hhyphen : '-' ∈ argument.toList
    · obtain ⟨before, behind, htext, hnot⟩ := List.eq_append_cons_of_mem hhyphen
      rw [htext, ends_append hnot] at hfirst hlast
      rw [htext]
      exact .range hfirst hlast hle
    · rw [ends_of_hyphen_notMem hhyphen] at hfirst hlast
      -- Both ends are read off the same text.
      have hsame : span.first = span.last := by
        rw [← parseWord_trim_eq_ok_iff] at hfirst hlast
        exact Except.ok.inj (hfirst.symm.trans hlast)
      obtain ⟨first, last⟩ := span
      obtain rfl : first = last := hsame
      exact .single hfirst
  · intro h
    generalize argument.toList = text at h
    cases h with
    | single h =>
      rw [ends_of_hyphen_notMem h.hyphen_notMem]
      exact ⟨h, h, UInt64.le_refl _⟩
    | range hfirst hlast hle =>
      rw [ends_append hfirst.hyphen_notMem]
      exact ⟨hfirst, hlast, hle⟩

/-! ## Printed spans -/

/-- A printed span is a number, a hyphen and a number. -/
theorem toList_format (span : Span) :
    (format span).toList =
      Nat.toDigits 10 span.first.toNat ++ '-' :: Nat.toDigits 10 span.last.toNat := by
  have hprint : format span = toString span.first ++ toString "-" ++ toString span.last := rfl
  rw [hprint, String.toList_append, String.toList_append, Unsigned.toList_toString,
    Unsigned.toList_toString, List.append_assoc]
  rfl

/-- A printed span does not start with a hyphen. -/
theorem head?_format_ne (span : Span) : (format span).toList.head? ≠ some '-' := by
  have hdigits := Unsigned.hyphen_notMem_toDigits span.first.toNat
  rw [toList_format]
  cases hfirst : Nat.toDigits 10 span.first.toNat with
  | nil => exact absurd hfirst Nat.toDigits_ne_nil
  | cons c rest =>
    rw [hfirst] at hdigits
    rw [List.cons_append, List.head?_cons]
    rintro ⟨⟩
    exact hdigits List.mem_cons_self

/-- A printed span is read back. -/
theorem parse_format {span : Span} (hle : span.first ≤ span.last) :
    parse (format span) = .ok span := by
  rw [parse_eq_ok_iff_names, toList_format]
  exact .range (isPadded_toDigits _) (isPadded_toDigits _) hle

/-- The arguments that are read are exactly the texts of the language, and each is read as what it
names; all others are refused.  Printed numbers and printed ranges are among them, and no span
that is read is empty or ends before it starts. -/
theorem parse_language :
    (∀ argument span, parse argument = .ok span ↔ Names argument.toList span) ∧
      (∀ argument, (∃ reason, parse argument = .error reason) ↔
        ∀ span, ¬ Names argument.toList span) ∧
      (∀ first last : Block, first ≤ last → parse s!"{first}-{last}" = .ok ⟨first, last⟩) ∧
      (∀ block : Block, parse (toString block) = .ok ⟨block, block⟩) ∧
      ∀ argument span, parse argument = .ok span → span.first ≤ span.last ∧ span.blocks ≠ [] := by
  refine ⟨fun _ _ => parse_eq_ok_iff_names, fun argument => ?_, fun first last hle => ?_,
    fun block => ?_, fun argument span h => ?_⟩
  · simp only [← parse_eq_ok_iff_names]
    cases parse argument <;> simp
  · have hread : parse (format ⟨first, last⟩) = .ok ⟨first, last⟩ := parse_format hle
    exact hread
  · rw [parse_eq_ok_iff_names, Unsigned.toList_toString]
    exact .single (isPadded_toDigits block)
  · have hle := first_le_last_of_parse h
    have hfirst : span.first ∈ span.blocks := Span.mem_blocks.2 ⟨UInt64.le_refl _, hle⟩
    exact ⟨hle, List.ne_nil_of_mem hfirst⟩

/-- Blanks other than spaces, a plus sign and leading zeros do no harm. -/
theorem parse_language_padded_range :
    (3 : Block) ≤ 12 ∧ parse "3-12" = .ok ⟨3, 12⟩ ∧
      Names "\u2003+007\u00a0-10 ".toList ⟨7, 10⟩ := by
  have hle : (3 : Block) ≤ 12 := by decide
  have hread : parse "\u2003+007\u00a0-10 " = .ok ⟨7, 10⟩ := by decide
  exact ⟨hle, parse_language.2.2.1 3 12 hle, (parse_language.1 _ _).1 hread⟩

example : parse "1-2-3" = .error (.badNumber "1-2-3" .badDigit) := by decide

example : parse "18446744073709551616" = .error (.badNumber "18446744073709551616" .tooLarge) := by
  decide

end BlockArgument
end ChainCoverage
