import ChainCoverage.Json.Token

/-!
# Cutting a text into tokens

Every token takes at least one character, so the tokens of a text are its first token and
the tokens of what is left, up to the end of the text or the place where it stops being
JSON.  Blanks between tokens do not count.

Main results:

- `Token.length_lt_of_next?`: every token takes a character.
- `Token.scan_of_next?`: the tokens of a text from its first token.
- `Token.scan_of_forall_isSpace`: blanks in front do not count.
-/

namespace ChainCoverage
namespace Token

/-! ## Every token takes a character -/

/-- A unit in front is read together with the units behind it. -/
theorem exists_of_consUnit {unit : Option Nat} {rest : Option (List Nat × List Char)}
    {units : List Nat} {after : List Char} (h : consUnit unit rest = some (units, after)) :
    ∃ others, rest = some (others, after) := by
  match unit, rest with
  | some unit, some (others, after') =>
    cases h
    exact ⟨others, rfl⟩

theorem length_lt_of_textUnits? {cs : List Char} {units : List Nat} {after : List Char}
    (h : textUnits? cs = some (units, after)) : after.length < cs.length := by
  fun_induction textUnits? cs generalizing units with
  | case1 => cases h
  | case2 rest =>
    cases h
    exact Nat.lt_succ_self _
  | case3 a b c d rest ih =>
    obtain ⟨others, hrest⟩ := exists_of_consUnit h
    have hlt := ih hrest
    simp only [List.length_cons]
    omega
  | case4 c rest _ ih =>
    obtain ⟨others, hrest⟩ := exists_of_consUnit h
    have hlt := ih hrest
    simp only [List.length_cons]
    omega
  | case5 => cases h
  | case6 c rest _ _ _ _ ih =>
    obtain ⟨others, hrest⟩ := exists_of_consUnit h
    exact Nat.lt_succ_of_lt (ih hrest)

theorem length_of_splitDigits {cs digits rest : List Char} (h : splitDigits cs = (digits, rest)) :
    digits.length + rest.length = cs.length := by
  cases h
  rw [← List.length_append, List.takeWhile_append_dropWhile]

theorem length_lt_of_whole? {cs rest : List Char} {n : Nat} (h : whole? cs = some (n, rest)) :
    rest.length < cs.length := by
  unfold whole? at h
  split at h
  case h_1 => cases h
  case h_2 hsplit =>
    cases h
    have hlength := length_of_splitDigits hsplit
    rw [List.length_singleton] at hlength
    omega
  case h_3 => cases h
  case h_4 hnil _ _ hsplit =>
    cases h
    have hlength := length_of_splitDigits hsplit
    have hdigits := List.length_pos_iff.2 hnil
    omega

theorem length_le_of_fraction? {cs rest : List Char} {digits : List (Fin 10)}
    (h : fraction? cs = some (digits, rest)) : rest.length ≤ cs.length := by
  unfold fraction? at h
  split at h
  case h_1 cs =>
    split at h
    · cases h
    · rename_i hsplit
      cases h
      have hlength := length_of_splitDigits hsplit
      rw [List.length_cons]
      omega
  case h_2 =>
    cases h
    exact Nat.le_refl _

theorem length_le_of_exponentDigits? {negative : Bool} {cs rest : List Char} {e : Option Int}
    (h : exponentDigits? negative cs = some (e, rest)) : rest.length ≤ cs.length := by
  unfold exponentDigits? at h
  split at h
  · cases h
  · rename_i hsplit
    cases h
    have hlength := length_of_splitDigits hsplit
    omega

theorem length_le_of_exponent? {cs rest : List Char} {e : Option Int}
    (h : exponent? cs = some (e, rest)) : rest.length ≤ cs.length := by
  unfold exponent? at h
  split at h
  case h_7 =>
    cases h
    exact Nat.le_refl _
  all_goals
    have hle := length_le_of_exponentDigits? h
    simp only [List.length_cons]
    omega

theorem length_lt_of_unsigned? {negative : Bool} {cs rest : List Char} {n : Numeral}
    (h : unsigned? negative cs = some (n, rest)) : rest.length < cs.length := by
  simp only [unsigned?, Option.bind_eq_bind, Option.bind_eq_some_iff] at h
  obtain ⟨⟨whole, cs₁⟩, hwhole, ⟨fraction, cs₂⟩, hfraction, ⟨exponent, cs₃⟩, hexponent, h⟩ := h
  have hlt := length_lt_of_whole? hwhole
  have hle := length_le_of_fraction? hfraction
  have hle' := length_le_of_exponent? hexponent
  cases h
  exact Nat.lt_of_le_of_lt (Nat.le_trans hle' hle) hlt

theorem length_lt_of_numeral? {cs rest : List Char} {n : Numeral}
    (h : numeral? cs = some (n, rest)) : rest.length < cs.length := by
  unfold numeral? at h
  split at h
  · exact Nat.lt_succ_of_lt (length_lt_of_unsigned? h)
  · exact length_lt_of_unsigned? h

/-- Every token takes a character. -/
theorem length_lt_of_next? {cs after : List Char} {token : Token}
    (h : next? cs = some (token, after)) : after.length < cs.length := by
  unfold next? at h
  split at h
  -- Texts and numbers take what their readers take, and every other token is a row of characters.
  case h_10 =>
    obtain ⟨⟨units, _⟩, htext, h⟩ := Option.map_eq_some_iff.1 h
    cases h
    exact Nat.lt_succ_of_lt (length_lt_of_textUnits? htext)
  case h_11 =>
    obtain ⟨⟨n, _⟩, hnumeral, h⟩ := Option.map_eq_some_iff.1 h
    cases h
    exact length_lt_of_numeral? hnumeral
  all_goals
    cases h
    simp only [List.length_cons]
    omega

/-! ## The first token and the others -/

/-- Fuel beyond the number of characters makes no difference. -/
theorem scanWith_congr {fuel other : Nat} {cs : List Char} (hfuel : cs.length ≤ fuel)
    (hother : cs.length ≤ other) : scanWith fuel cs = scanWith other cs := by
  induction fuel generalizing other cs with
  | zero =>
    obtain rfl := List.length_eq_zero_iff.1 (Nat.le_zero.1 hfuel)
    cases other <;> rfl
  | succ fuel ih =>
    cases other with
    | zero =>
      obtain rfl := List.length_eq_zero_iff.1 (Nat.le_zero.1 hother)
      rfl
    | succ other =>
      have hdrop : (cs.dropWhile isSpace).length ≤ cs.length :=
        (List.dropWhile_sublist _).length_le
      rw [scanWith, scanWith]
      split
      · rfl
      · split
        · rfl
        · rename_i token after hnext
          have hlt := length_lt_of_next? hnext
          have hsame : scanWith fuel after = scanWith other after := ih (by omega) (by omega)
          rw [hsame]

@[simp]
theorem scan_nil : scan [] = [] :=
  rfl

/-- The tokens of a text that starts with one. -/
theorem scan_of_next? {c : Char} {cs after : List Char} {token : Token} (hc : isSpace c = false)
    (h : next? (c :: cs) = some (token, after)) : scan (c :: cs) = token :: scan after := by
  have hdrop : (c :: cs).dropWhile isSpace = c :: cs := List.dropWhile_cons_of_neg (by simp [hc])
  have hlt := length_lt_of_next? h
  rw [scan, List.length_cons, scanWith, hdrop]
  dsimp only
  rw [h]
  dsimp only
  rw [scan, scanWith_congr (Nat.le_of_lt_succ hlt) (Nat.le_refl _)]

/-- A blank in front does not count. -/
theorem scan_of_isSpace {c : Char} {cs : List Char} (hc : isSpace c = true) :
    scan (c :: cs) = scan cs := by
  have hdrop : (c :: cs).dropWhile isSpace = cs.dropWhile isSpace := List.dropWhile_cons_of_pos hc
  have hsame : scanWith (cs.length + 1) (c :: cs) = scanWith (cs.length + 1) cs := by
    rw [scanWith, scanWith, hdrop]
  rw [scan, List.length_cons, hsame, scan, scanWith_congr (Nat.le_succ _) (Nat.le_refl _)]

/-- Blanks in front do not count. -/
theorem scan_of_forall_isSpace {blanks : List Char} (cs : List Char)
    (h : ∀ c ∈ blanks, isSpace c = true) : scan (blanks ++ cs) = scan cs := by
  induction blanks with
  | nil => rfl
  | cons c blanks ih =>
    rw [List.cons_append, scan_of_isSpace (h c List.mem_cons_self),
      ih fun d hd => h d (List.mem_cons_of_mem _ hd)]

end Token
end ChainCoverage
