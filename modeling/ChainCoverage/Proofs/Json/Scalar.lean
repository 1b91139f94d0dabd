import ChainCoverage.Json.Printer
import ChainCoverage.Proofs.Json.Token
import ChainCoverage.Proofs.Text.Unsigned
import Mathlib.Tactic.SplitIfs

/-!
# Texts and numbers are read as they are printed

A printed text is one token, whatever its characters are and whatever stands behind it.  A
printed number is one token where nothing goes on with it: no digit, point or exponent.

Main results:

- `Token.scan_printText`: a text is read as it is printed.
- `Token.scan_printNumeral`: a number is read as it is printed.
-/

namespace ChainCoverage

namespace Json

/-- A fraction behind its point, unless it is empty. -/
def printFraction (digits : List (Fin 10)) : List Char :=
  if digits.isEmpty then [] else '.' :: digits.map (Nat.digitChar ·.val)

/-- An exponent, if there is one. -/
def printExponent? : Option Int → List Char
  | none => []
  | some e => printExponent e

/-- A number behind its sign. -/
def printUnsigned (n : Numeral) : List Char :=
  printNat n.whole ++ printFraction n.fraction ++ printExponent? n.exponent

theorem printNumeral_eq (n : Numeral) :
    printNumeral n = (if n.negative then ['-'] else []) ++ printUnsigned n := by
  obtain ⟨negative, whole, fraction, exponent⟩ := n
  cases exponent <;>
    simp only [printNumeral, printUnsigned, printFraction, printExponent?, List.append_assoc]

end Json

namespace Token

/-! ## Texts -/

/-- The four digits that a control character is written with stand for it. -/
theorem hexUnit?_digitChar {n : Nat} (h : n < 0x20) :
    hexUnit? '0' '0' (Nat.digitChar (n / 16)) (Nat.digitChar (n % 16)) = some n := by
  decide +revert

/-- One character of a text is read as it is printed. -/
theorem textUnits?_escapeChar (c : Char) (rest : List Char) :
    textUnits? (Json.escapeChar c ++ rest) = consUnit (some c.toNat) (textUnits? rest) := by
  unfold Json.escapeChar
  split_ifs with hquote hbackslash hline hreturn htab hback hfeed hcontrol
  · rw [hquote]
    rfl
  · rw [hbackslash]
    rfl
  · rw [hline]
    rfl
  · rw [hreturn]
    rfl
  · rw [htab]
    rfl
  · rw [hback]
    rfl
  · rw [hfeed]
    rfl
  · rw [← hexUnit?_digitChar hcontrol]
    rfl
  · rw [List.singleton_append, textUnits?, if_neg hcontrol]
    · exact hquote
    · exact fun _ _ _ _ _ hc _ => hbackslash hc
    · exact fun _ _ hc _ => hbackslash hc

/-- The characters of a text are read as they are printed. -/
theorem textUnits?_flatMap_escapeChar (text rest : List Char) :
    textUnits? (text.flatMap Json.escapeChar ++ '"' :: rest) =
      some (text.map Char.toNat, rest) := by
  induction text with
  | nil => rfl
  | cons c text ih =>
    rw [List.flatMap_cons, List.append_assoc, textUnits?_escapeChar, ih]
    rfl

/-- No character is half a surrogate pair. -/
theorem isHalf_toNat_eq_false (c : Char) :
    isHighHalf c.toNat = false ∧ isLowHalf c.toNat = false := by
  have hvalid : c.toNat < 0xD800 ∨ 0xDFFF < c.toNat ∧ c.toNat < 0x110000 := c.valid
  simp only [isHighHalf, isLowHalf, Bool.and_eq_false_iff, decide_eq_false_iff_not]
  omega

/-- Units that stand for characters are those characters. -/
theorem joinUnits?_map_toNat (text : List Char) : joinUnits? (text.map Char.toNat) = some text := by
  induction text with
  | nil => rfl
  | cons c text ih =>
    obtain ⟨hhigh, hlow⟩ := isHalf_toNat_eq_false c
    cases text with
    | nil => simp [joinUnits?, hhigh, hlow]
    | cons d text =>
      rw [List.map_cons, List.map_cons, joinUnits?, hhigh, hlow, ← List.map_cons, ih]
      simp

/-- A printed text is one token. -/
theorem scan_printText (content : String) (rest : List Char) :
    scan (Json.printText content ++ rest) = text (some content) :: scan rest := by
  have hread := textUnits?_flatMap_escapeChar content.toList rest
  rw [Json.printText, List.cons_append, List.cons_append, List.append_assoc]
  refine scan_of_next? rfl ?_
  rw [next?, List.singleton_append, hread, Option.map_some]
  dsimp only
  rw [joinUnits?_map_toNat, Option.map_some, String.ofList_toList]

/-! ## Numbers -/

/-- Whether a number that stands in front of a text ends there. -/
def EndsNumber (rest : List Char) : Prop :=
  ∀ c ∈ rest.head?, c.isDigit = false ∧ c ≠ '.' ∧ c ≠ 'e' ∧ c ≠ 'E'

/-- Digits are taken up to the first other character. -/
theorem splitDigits_append {digits rest : List Char} (hdigits : ∀ c ∈ digits, c.isDigit = true)
    (hrest : ∀ c ∈ rest.head?, c.isDigit = false) :
    splitDigits (digits ++ rest) = (digits, rest) := by
  have htake : rest.takeWhile Char.isDigit = [] := by
    cases rest with
    | nil => rfl
    | cons c rest => exact List.takeWhile_cons_of_neg (by simp [hrest c rfl])
  have hdrop : rest.dropWhile Char.isDigit = rest := by
    cases rest with
    | nil => rfl
    | cons c rest => exact List.dropWhile_cons_of_neg (by simp [hrest c rfl])
  rw [splitDigits, List.takeWhile_append_of_pos hdigits, List.dropWhile_append_of_pos hdigits,
    htake, hdrop, List.append_nil]

/-- A whole part is read when it does not start with a needless zero. -/
theorem whole?_append {digits rest : List Char} (hdigits : ∀ c ∈ digits, c.isDigit = true)
    (hne : digits ≠ []) (hlead : digits.head? = some '0' → digits = ['0'])
    (hrest : ∀ c ∈ rest.head?, c.isDigit = false) :
    whole? (digits ++ rest) = some (Text.decimal digits, rest) := by
  rw [whole?, splitDigits_append hdigits hrest]
  split
  case h_1 heq =>
    cases heq
    exact absurd rfl hne
  case h_2 heq =>
    cases heq
    rfl
  case h_3 hother heq =>
    cases heq
    exact absurd (hlead rfl) (by simpa using hother)
  case h_4 heq =>
    cases heq
    rfl

/-- The whole part of a number is read as it is printed. -/
theorem whole?_printNat (n : Nat) {rest : List Char}
    (hrest : ∀ c ∈ rest.head?, c.isDigit = false) :
    whole? (Json.printNat n ++ rest) = some (n, rest) := by
  have hlead : (Nat.toDigits 10 n).head? = some '0' → Nat.toDigits 10 n = ['0'] := by
    intro hzero
    rw [Text.eq_zero_of_head?_toDigits hzero]
    rfl
  rw [Json.printNat, whole?_append (fun _ => Unsigned.isDigit_of_mem_toDigits)
    Nat.toDigits_ne_nil hlead hrest, Text.decimal_toDigits]

theorem fin_ofNat_digitValue (d : Fin 10) :
    Fin.ofNat 10 (Text.digitValue (Nat.digitChar d.val)) = d := by
  revert d
  decide

theorem isDigit_digitChar (d : Fin 10) : (Nat.digitChar d.val).isDigit = true := by
  revert d
  decide

/-- A fraction is read as it is printed. -/
theorem fraction?_printFraction (digits : List (Fin 10)) {rest : List Char}
    (hdigit : ∀ c ∈ rest.head?, c.isDigit = false) (hpoint : rest.head? ≠ some '.') :
    fraction? (Json.printFraction digits ++ rest) = some (digits, rest) := by
  cases digits with
  | nil =>
    change fraction? rest = _
    unfold fraction?
    split
    · exact absurd rfl hpoint
    · rfl
  | cons d digits =>
    have hdigits : ∀ c ∈ (d :: digits).map (Nat.digitChar ·.val), c.isDigit = true := by
      simp only [List.mem_map, forall_exists_index, and_imp]
      rintro _ d _ rfl
      exact isDigit_digitChar d
    have hread : ((d :: digits).map (Nat.digitChar ·.val)).map
        (fun c => Fin.ofNat 10 (Text.digitValue c)) = d :: digits := by
      rw [List.map_map]
      exact (List.map_congr_left fun d _ => fin_ofNat_digitValue d).trans (List.map_id _)
    rw [Json.printFraction, List.isEmpty_cons, if_neg Bool.false_ne_true, List.cons_append,
      fraction?, splitDigits_append hdigits hdigit]
    exact congrArg (fun read => some (read, rest)) hread

/-- The digits of an exponent are read as they are printed. -/
theorem exponentDigits?_printNat (negative : Bool) (n : Nat) {rest : List Char}
    (hrest : ∀ c ∈ rest.head?, c.isDigit = false) :
    exponentDigits? negative (Json.printNat n ++ rest) =
      some (some (if negative then -(n : Int) else n), rest) := by
  rw [exponentDigits?, Json.printNat,
    splitDigits_append (fun _ => Unsigned.isDigit_of_mem_toDigits) hrest]
  split
  · rename_i heq
    exact absurd (Prod.mk.inj heq).1 Nat.toDigits_ne_nil
  · rename_i heq
    cases heq
    rw [Text.decimal_toDigits]

/-- A text that starts with a digit has no sign in front. -/
theorem ne_sign_of_isDigit {c : Char} (h : c.isDigit = true) : c ≠ '-' ∧ c ≠ '+' := by
  constructor <;>
  · rintro rfl
    exact absurd h (by decide)

/-- A printed number starts with a digit. -/
theorem exists_printNat_eq_cons (n : Nat) :
    ∃ c cs, Json.printNat n = c :: cs ∧ c.isDigit = true := by
  obtain ⟨c, cs, heq⟩ := List.exists_cons_of_ne_nil (Nat.toDigits_ne_nil (b := 10) (n := n))
  exact ⟨c, cs, heq, Unsigned.isDigit_of_mem_toDigits (heq ▸ List.mem_cons_self)⟩

/-- A printed exponent is read. -/
theorem exponent?_printExponent (e : Int) {rest : List Char}
    (hrest : ∀ c ∈ rest.head?, c.isDigit = false) :
    exponent? (Json.printExponent e ++ rest) = some (some e, rest) := by
  cases e with
  | ofNat n =>
    have hread : exponent? ('e' :: (Json.printNat n ++ rest)) =
        exponentDigits? false (Json.printNat n ++ rest) := by
      obtain ⟨c, cs, heq, hc⟩ := exists_printNat_eq_cons n
      obtain ⟨hminus, hplus⟩ := ne_sign_of_isDigit hc
      rw [heq, List.cons_append, exponent?]
      · rintro _ ⟨⟩
        exact hminus rfl
      · rintro _ ⟨⟩
        exact hplus rfl
    exact hread.trans (exponentDigits?_printNat false n hrest)
  | negSucc n => exact exponentDigits?_printNat true (n + 1) hrest

/-- A text without an exponent has none. -/
theorem exponent?_none {rest : List Char} (h : EndsNumber rest) :
    exponent? rest = some (none, rest) := by
  unfold exponent?
  split
  case h_7 => rfl
  all_goals
    obtain ⟨_, _, hlower, hupper⟩ := h _ rfl
    contradiction

/-- An exponent is read as it is printed, if there is one. -/
theorem exponent?_printExponent? (exponent : Option Int) {rest : List Char} (h : EndsNumber rest) :
    exponent? (Json.printExponent? exponent ++ rest) = some (exponent, rest) := by
  cases exponent with
  | none => exact exponent?_none h
  | some e => exact exponent?_printExponent e fun c hc => (h c hc).1

/-- What is printed behind a fraction does not go on with it. -/
theorem head?_printExponent? (exponent : Option Int) {rest : List Char} (h : EndsNumber rest) :
    ∀ c ∈ (Json.printExponent? exponent ++ rest).head?, c.isDigit = false ∧ c ≠ '.' := by
  intro c hc
  match exponent with
  | none =>
    obtain ⟨hdigit, hpoint, _, _⟩ := h c hc
    exact ⟨hdigit, hpoint⟩
  | some (.ofNat n) =>
    cases hc
    decide
  | some (.negSucc n) =>
    cases hc
    decide

/-- What is printed behind a whole part does not go on with it. -/
theorem head?_printFraction (digits : List (Fin 10)) {rest : List Char}
    (h : ∀ c ∈ rest.head?, c.isDigit = false) :
    ∀ c ∈ (Json.printFraction digits ++ rest).head?, c.isDigit = false := by
  intro c hc
  cases digits with
  | nil => exact h c hc
  | cons d digits =>
    cases hc
    decide

/-- A number behind its sign is read as it is printed. -/
theorem unsigned?_printUnsigned (negative : Bool) (n : Numeral) {rest : List Char}
    (h : EndsNumber rest) :
    unsigned? negative (Json.printUnsigned n ++ rest) =
      some (⟨negative, n.whole, n.fraction, n.exponent⟩, rest) := by
  have hexponent := head?_printExponent? n.exponent h
  have hdigit : ∀ c ∈ (Json.printExponent? n.exponent ++ rest).head?, c.isDigit = false :=
    fun c hc => (hexponent c hc).1
  have hpoint : (Json.printExponent? n.exponent ++ rest).head? ≠ some '.' :=
    fun hc => (hexponent '.' hc).2 rfl
  simp only [unsigned?, Json.printUnsigned, List.append_assoc,
    whole?_printNat n.whole (head?_printFraction n.fraction hdigit),
    fraction?_printFraction n.fraction hdigit hpoint, exponent?_printExponent? n.exponent h,
    Option.bind_eq_bind, Option.bind_some]
  rfl

/-- Behind its sign a printed number starts with a digit. -/
theorem exists_printUnsigned_eq_cons (n : Numeral) :
    ∃ c cs, Json.printUnsigned n = c :: cs ∧ c.isDigit = true := by
  obtain ⟨c, cs, heq, hc⟩ := exists_printNat_eq_cons n.whole
  exact ⟨c, _, by rw [Json.printUnsigned, heq, List.cons_append, List.cons_append], hc⟩

/-- A number is read as it is printed. -/
theorem numeral?_printNumeral (n : Numeral) {rest : List Char} (h : EndsNumber rest) :
    numeral? (Json.printNumeral n ++ rest) = some (n, rest) := by
  have hread := unsigned?_printUnsigned n.negative n h
  rw [Json.printNumeral_eq]
  cases hnegative : n.negative with
  | true =>
    rw [hnegative] at hread
    rw [if_pos rfl]
    exact hread.trans (by rw [← hnegative])
  | false =>
    rw [hnegative] at hread
    obtain ⟨c, cs, heq, hc⟩ := exists_printUnsigned_eq_cons n
    have hsign := (ne_sign_of_isDigit hc).1
    rw [if_neg Bool.false_ne_true, List.nil_append]
    rw [heq, List.cons_append] at hread ⊢
    rw [numeral?, hread, ← hnegative]
    rintro _ ⟨⟩
    exact hsign rfl

/-- A printed number starts with a sign or a digit. -/
theorem exists_printNumeral_eq_cons (n : Numeral) :
    ∃ c cs, Json.printNumeral n = c :: cs ∧ (c = '-' ∨ c.isDigit = true) := by
  rw [Json.printNumeral_eq]
  cases n.negative with
  | true => exact ⟨'-', _, rfl, .inl rfl⟩
  | false =>
    obtain ⟨c, cs, heq, hc⟩ := exists_printUnsigned_eq_cons n
    exact ⟨c, cs, heq, .inr hc⟩

/-- No number starts with a blank. -/
theorem isSpace_of_isDigit {c : Char} (hc : c = '-' ∨ c.isDigit = true) : isSpace c = false := by
  simp only [isSpace, Bool.or_eq_false_iff, beq_eq_false_iff_ne]
  refine ⟨⟨⟨?_, ?_⟩, ?_⟩, ?_⟩
  all_goals
    rintro rfl
    revert hc
    decide

/-- A token that starts with a sign or a digit is a number. -/
theorem next?_of_isDigit {c : Char} (hc : c = '-' ∨ c.isDigit = true) (cs : List Char) :
    next? (c :: cs) = (numeral? (c :: cs)).map fun (n, rest) => (number n, rest) := by
  rw [next?]
  all_goals
    rintro _ ⟨⟩
    revert hc
    decide

/-- A printed number is one token, where it ends. -/
theorem scan_printNumeral (n : Numeral) {rest : List Char} (h : EndsNumber rest) :
    scan (Json.printNumeral n ++ rest) = number n :: scan rest := by
  have hread := numeral?_printNumeral n h
  obtain ⟨c, cs, heq, hc⟩ := exists_printNumeral_eq_cons n
  have hspace : isSpace c = false := isSpace_of_isDigit hc
  rw [heq, List.cons_append] at hread ⊢
  exact scan_of_next? hspace (by rw [next?_of_isDigit hc, hread, Option.map_some])

end Token
end ChainCoverage
