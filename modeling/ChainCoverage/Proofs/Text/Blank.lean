import ChainCoverage.Text.Basic
import Mathlib.Data.List.TakeWhile

/-!
# What trimming takes away

A trimmed text is the text without the blanks that surround it: the text is the trimmed
one with blanks on both sides, and around a text that has no blanks trimming finds that
text again.

Main definitions:

- `Text.whiteSpace`: the code points with the property White_Space, one by one.
- `Text.AllBlank`: a text of such characters only.

Main results:

- `Text.isBlank_iff`: blanks are the characters with one of these code points.
- `Text.exists_eq_append_trim`: what is trimmed away is blank.
- `Text.trim_append`: blanks around a text are trimmed away.
-/

namespace ChainCoverage
namespace Text

/-- The code points with the property White_Space. -/
def whiteSpace : List Nat :=
  [0x09, 0x0A, 0x0B, 0x0C, 0x0D, 0x20, 0x85, 0xA0, 0x1680, 0x2000, 0x2001, 0x2002, 0x2003, 0x2004,
    0x2005, 0x2006, 0x2007, 0x2008, 0x2009, 0x200A, 0x2028, 0x2029, 0x202F, 0x205F, 0x3000]

theorem isBlank_iff {c : Char} : isBlank c = true ↔ c.toNat ∈ whiteSpace := by
  simp only [isBlank, whiteSpace, Bool.or_eq_true, Bool.and_eq_true, decide_eq_true_iff, beq_iff_eq,
    List.mem_cons, List.not_mem_nil, or_false]
  omega

/-- A run of characters with the property White_Space. -/
def AllBlank (text : List Char) : Prop :=
  ∀ c ∈ text, c.toNat ∈ whiteSpace

theorem allBlank_nil : AllBlank [] :=
  fun _ hmem => absurd hmem List.not_mem_nil

theorem allBlank_reverse {text : List Char} : AllBlank text.reverse ↔ AllBlank text := by
  simp [AllBlank]

/-- The blanks in front of a text. -/
theorem allBlank_takeWhile (text : List Char) : AllBlank (text.takeWhile isBlank) :=
  fun _ hmem => isBlank_iff.1 (List.mem_takeWhile_imp hmem)

/-- A text is what trimming leaves of it, with blanks on both sides. -/
theorem exists_eq_append_trim (text : List Char) :
    ∃ before after, AllBlank before ∧ AllBlank after ∧ text = before ++ trim text ++ after := by
  refine ⟨text.takeWhile isBlank, ((trimStart text).reverse.takeWhile isBlank).reverse,
    allBlank_takeWhile _, allBlank_reverse.2 (allBlank_takeWhile _), ?_⟩
  have hend : trim text ++ ((trimStart text).reverse.takeWhile isBlank).reverse =
      trimStart text := by
    rw [trim, trimEnd, ← List.reverse_append, List.takeWhile_append_dropWhile, List.reverse_reverse]
  rw [List.append_assoc, hend, trimStart, List.takeWhile_append_dropWhile]

theorem dropWhile_append_of_allBlank {before : List Char} (hbefore : AllBlank before)
    (text : List Char) : (before ++ text).dropWhile isBlank = text.dropWhile isBlank :=
  List.dropWhile_append_of_pos fun c hmem => isBlank_iff.2 (hbefore c hmem)

theorem dropWhile_append_of_not_isBlank {text : List Char} (hne : text ≠ [])
    (htext : ∀ c ∈ text, isBlank c = false) (rest : List Char) :
    (text ++ rest).dropWhile isBlank = text ++ rest := by
  cases text with
  | nil => contradiction
  | cons c text =>
    exact List.dropWhile_cons_of_neg (Bool.eq_false_iff.1 (htext c List.mem_cons_self))

/-- Blanks on both sides of a text are trimmed away, when the text has none of its own. -/
theorem trim_append {before inner after : List Char} (hbefore : AllBlank before)
    (hinner : ∀ c ∈ inner, isBlank c = false) (hafter : AllBlank after) :
    trim (before ++ inner ++ after) = inner := by
  rw [List.append_assoc, trim, trimStart, dropWhile_append_of_allBlank hbefore]
  by_cases hne : inner = []
  · have hdrop := dropWhile_append_of_allBlank hafter []
    rw [List.append_nil] at hdrop
    rw [hne, List.nil_append, hdrop]
    rfl
  · have hreverse : inner.reverse.dropWhile isBlank = inner.reverse := by
      have hkept := dropWhile_append_of_not_isBlank (mt List.reverse_eq_nil_iff.1 hne)
        (fun c hmem => hinner c (List.mem_reverse.1 hmem)) []
      rwa [List.append_nil] at hkept
    rw [dropWhile_append_of_not_isBlank hne hinner, trimEnd, List.reverse_append,
      dropWhile_append_of_allBlank (allBlank_reverse.2 hafter), hreverse, List.reverse_reverse]

end Text
end ChainCoverage
