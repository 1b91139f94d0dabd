import ChainCoverage.Proofs.Text.Blank
import ChainCoverage.Text.Unsigned

/-!
# Which texts are numbers

The texts that are read as numbers are the numerals below the bound: digits with or
without a plus sign in front of them.  A printed number is such a row of digits, so it is
read back.  No digit is a blank or a hyphen.

Main definitions:

- `Unsigned.Numeral`: the texts that stand for a number.

Main results:

- `Unsigned.parse_eq_ok_iff`, `Unsigned.parseWord_eq_ok_iff` and `Unsigned.parseHalfWord_eq_ok_iff`:
  exactly the numerals below the bound are read.
- `Text.decimal_toDigits`: a printed number stands for itself.
- `Unsigned.numeral_toDigits`: a printed number is a numeral of itself.
- `Unsigned.parseWord_toDigits`: a printed number of 64 bits is read back.
-/

namespace ChainCoverage

/-! ## Printed numbers are digits -/

namespace Unsigned

/-- A printed number is made of digits. -/
theorem isDigit_of_mem_toDigits {n : Nat} {c : Char} (h : c ∈ Nat.toDigits 10 n) :
    c.isDigit = true :=
  Nat.isDigit_of_mem_toDigits (by decide) (by decide) h

end Unsigned

namespace Text

/-- A printed number is the number that its digits stand for. -/
theorem decimal_toDigits (n : Nat) : decimal (Nat.toDigits 10 n) = n :=
  Nat.ofDigitChars_ten_toDigits

/-- Only zero is printed with a zero in front. -/
theorem eq_zero_of_head?_toDigits {n : Nat} (h : (Nat.toDigits 10 n).head? = some '0') : n = 0 := by
  induction n using Nat.strongRecOn with
  | ind n ih =>
    rcases Nat.lt_or_ge n 10 with hlt | hge
    · rw [Nat.toDigits_of_lt_base hlt] at h
      have hchar : Nat.digitChar n = '0' := Option.some.inj h
      clear ih h
      decide +revert
    · rw [Nat.toDigits_of_base_le (by decide) hge, List.head?_append,
        Option.or_of_isSome (List.isSome_head?.2 Nat.toDigits_ne_nil)] at h
      have hzero := ih (n / 10) (by omega) h
      omega

/-! ## Digits are no blanks -/

/-- No digit is a blank. -/
theorem isBlank_of_isDigit {c : Char} (h : c.isDigit = true) : isBlank c = false := by
  obtain ⟨hlow, hhigh⟩ := Char.isDigit_iff_toNat.1 h
  have hzero : '0'.toNat = 48 := rfl
  have hnine : '9'.toNat = 57 := rfl
  simp only [isBlank, Bool.or_eq_false_iff, Bool.and_eq_false_iff, decide_eq_false_iff_not,
    beq_eq_false_iff_ne]
  omega

end Text

namespace Unsigned

/-! ## Numerals are read, and nothing else -/

/-- The texts that stand for a number: at least one digit, and a plus sign in front or none. -/
inductive Numeral : List Char → Nat → Prop where
  | plain {digits : List Char} (hne : digits ≠ []) (hdigit : ∀ c ∈ digits, c.isDigit = true) :
      Numeral digits (Text.decimal digits)
  | signed {digits : List Char} (hne : digits ≠ []) (hdigit : ∀ c ∈ digits, c.isDigit = true) :
      Numeral ('+' :: digits) (Text.decimal digits)

/-- Reading on makes no number smaller. -/
theorem le_ofDigitChars (text : List Char) (value : Nat) :
    value ≤ Nat.ofDigitChars 10 text value := by
  rw [Nat.ofDigitChars_eq_ofDigitChars_zero]
  have hpow : 0 < 10 ^ text.length := Nat.pow_pos (by decide)
  exact Nat.le_trans (Nat.le_mul_of_pos_left _ hpow) (Nat.le_add_right _ _)

/-- Behind a number already read, digits are read that leave it below the bound. -/
theorem digits_eq_ok_iff {bound value n : Nat} {text : List Char} (hvalue : value < bound) :
    digits bound value text = .ok n ↔
      (∀ c ∈ text, c.isDigit = true) ∧ Nat.ofDigitChars 10 text value = n ∧ n < bound := by
  induction text generalizing value with
  | nil =>
    have hsame : value = n ↔ value = n ∧ n < bound := ⟨fun h => ⟨h, h ▸ hvalue⟩, And.left⟩
    simpa [digits] using hsame
  | cons c text ih =>
    rw [digits, Nat.ofDigitChars_cons, List.forall_mem_cons]
    by_cases hdigit : c.isDigit = true
    · rw [if_pos hdigit]
      dsimp only
      by_cases hnext : 10 * value + Text.digitValue c < bound
      · rw [if_pos hnext, ih hnext]
        exact (and_congr_left' (and_iff_right hdigit)).symm
      · rw [if_neg hnext]
        refine iff_of_false (fun h => by contradiction) ?_
        rintro ⟨_, hread, hlt⟩
        have hle := le_ofDigitChars text (10 * value + Text.digitValue c)
        exact hnext (Nat.lt_of_le_of_lt (hle.trans_eq hread) hlt)
    · rw [if_neg hdigit]
      exact iff_of_false (fun h => by contradiction) fun h => hdigit h.1.1

/-- The texts that are read are the numerals of the numbers below the bound. -/
theorem parse_eq_ok_iff {bound n : Nat} {text : List Char} (hbound : 0 < bound) :
    parse bound text = .ok n ↔ Numeral text n ∧ n < bound := by
  constructor
  · intro h
    unfold parse at h
    split at h
    · contradiction
    · contradiction
    · rename_i rest hne
      obtain ⟨hdigit, rfl, hlt⟩ := (digits_eq_ok_iff hbound).1 h
      exact ⟨.signed (fun hnil => hne (by rw [hnil])) hdigit, hlt⟩
    · rename_i hne _ _
      obtain ⟨hdigit, rfl, hlt⟩ := (digits_eq_ok_iff hbound).1 h
      exact ⟨.plain hne hdigit, hlt⟩
  · rintro ⟨hnumeral, hlt⟩
    cases hnumeral with
    | plain hne hdigit =>
      -- Digits have no sign in front of them.
      have hsign : ∀ rest, text ≠ '+' :: rest := by
        rintro rest rfl
        exact absurd (hdigit '+' List.mem_cons_self) (by decide)
      rw [parse]
      · exact (digits_eq_ok_iff hbound).2 ⟨hdigit, rfl, hlt⟩
      · exact hne
      · exact hsign []
      · exact hsign
    | signed hne hdigit =>
      rw [parse]
      · exact (digits_eq_ok_iff hbound).2 ⟨hdigit, rfl, hlt⟩
      · exact hne

/-- The texts that are read as a number of some width are its numerals. -/
theorem map_parse_eq_ok_iff {α : Type} {bound : Nat} {ofNat : Nat → α} {toNat : α → Nat}
    (hlt : ∀ a, toNat a < bound) (hofNat : ∀ n < bound, toNat (ofNat n) = n)
    (htoNat : ∀ a, ofNat (toNat a) = a) {text : List Char} {a : α} :
    (parse bound text).map ofNat = .ok a ↔ Numeral text (toNat a) := by
  have hbound := Nat.zero_lt_of_lt (hlt a)
  constructor
  · intro h
    cases hparse : parse bound text with
    | error problem =>
      rw [hparse] at h
      contradiction
    | ok value =>
      rw [hparse] at h
      obtain rfl : ofNat value = a := Except.ok.inj h
      obtain ⟨hnumeral, hvalue⟩ := (parse_eq_ok_iff hbound).1 hparse
      rwa [hofNat value hvalue]
  · intro h
    rw [(parse_eq_ok_iff hbound).2 ⟨h, hlt a⟩]
    exact congrArg Except.ok (htoNat a)

/-- The texts that are read as a number of 64 bits are its numerals. -/
theorem parseWord_eq_ok_iff {text : List Char} {n : UInt64} :
    parseWord text = .ok n ↔ Numeral text n.toNat :=
  map_parse_eq_ok_iff UInt64.toNat_lt_size (fun _ => UInt64.toNat_ofNat_of_lt')
    fun _ => UInt64.ofNat_toNat

/-- The texts that are read as a number of 32 bits are its numerals. -/
theorem parseHalfWord_eq_ok_iff {text : List Char} {n : UInt32} :
    parseHalfWord text = .ok n ↔ Numeral text n.toNat :=
  map_parse_eq_ok_iff UInt32.toNat_lt_size (fun _ => UInt32.toNat_ofNat_of_lt')
    fun _ => UInt32.ofNat_toNat

/-- The characters of a numeral are digits, but for the sign. -/
theorem Numeral.eq_plus_or_isDigit {text : List Char} {n : Nat} (h : Numeral text n) {c : Char}
    (hmem : c ∈ text) : c = '+' ∨ c.isDigit = true := by
  cases h with
  | plain _ hdigit => exact Or.inr (hdigit c hmem)
  | signed _ hdigit => exact (List.mem_cons.1 hmem).imp_right (hdigit c)

/-- No numeral has a hyphen. -/
theorem Numeral.hyphen_notMem {text : List Char} {n : Nat} (h : Numeral text n) : '-' ∉ text := by
  intro hmem
  rcases h.eq_plus_or_isDigit hmem with hplus | hdigit
  · exact absurd hplus (by decide)
  · exact absurd hdigit (by decide)

/-! ## Printed numbers are read back -/

/-- A number of 64 bits is printed as its decimal digits. -/
theorem toList_toString (n : UInt64) : (toString n).toList = Nat.toDigits 10 n.toNat := by
  have hprint : toString n = toString n.toNat := rfl
  rw [hprint, Nat.toString_eq_ofList_toDigits, String.toList_ofList]

/-- A number of 32 bits is printed as its decimal digits. -/
theorem toList_toString_halfWord (n : UInt32) :
    (toString n).toList = Nat.toDigits 10 n.toNat := by
  have hprint : toString n = toString n.toNat := rfl
  rw [hprint, Nat.toString_eq_ofList_toDigits, String.toList_ofList]

/-- A printed number is a numeral of itself. -/
theorem numeral_toDigits (n : Nat) : Numeral (Nat.toDigits 10 n) n := by
  have hnumeral : Numeral (Nat.toDigits 10 n) (Text.decimal (Nat.toDigits 10 n)) :=
    .plain Nat.toDigits_ne_nil fun _ => isDigit_of_mem_toDigits
  rwa [Text.decimal_toDigits] at hnumeral

/-- No printed number has a hyphen. -/
theorem hyphen_notMem_toDigits (n : Nat) : '-' ∉ Nat.toDigits 10 n :=
  (numeral_toDigits n).hyphen_notMem

/-- A printed number of 64 bits is read back. -/
theorem parseWord_toDigits (n : UInt64) : parseWord (Nat.toDigits 10 n.toNat) = .ok n :=
  parseWord_eq_ok_iff.2 (numeral_toDigits n.toNat)

end Unsigned
end ChainCoverage
