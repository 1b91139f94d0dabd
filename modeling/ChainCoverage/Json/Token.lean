import ChainCoverage.Json.Value
import ChainCoverage.Text.Basic

/-!
# JSON tokens

A text is cut into tokens, up to its end or to the first place where no token stands;
that place is a token of its own.  So a reader of tokens meets the problems of a text
in the order of the text.

Main definitions:

- `Token`: one token.
- `Token.scan`: the tokens of a text.
-/

namespace ChainCoverage

/-- A token.  A text whose escapes leave half a surrogate pair alone has no content. -/
inductive Token where
  | arrayOpen
  | arrayClose
  | objectOpen
  | objectClose
  | comma
  | colon
  | null
  | bool (value : Bool)
  | number (value : Numeral)
  | text (content : Option String)
  /-- The place where the text stops being JSON. -/
  | bad
deriving DecidableEq

namespace Token

/-- The blanks between tokens. -/
def isSpace (c : Char) : Bool :=
  c == ' ' || c == '\n' || c == '\t' || c == '\r'

/-! ## Texts -/

/-- Value of four hexadecimal digits. -/
def hexUnit? (a b c d : Char) : Option Nat :=
  match Text.hexDigit? a, Text.hexDigit? b, Text.hexDigit? c, Text.hexDigit? d with
  | some a, some b, some c, some d => some (4096 * a + 256 * b + 16 * c + d)
  | _, _, _, _ => none

/-- The code point that a letter behind a backslash stands for. -/
def shortEscape? (c : Char) : Option Nat :=
  if c = '"' ∨ c = '\\' ∨ c = '/' then some c.toNat
  else if c = 'b' then some 0x08
  else if c = 'f' then some 0x0C
  else if c = 'n' then some 0x0A
  else if c = 'r' then some 0x0D
  else if c = 't' then some 0x09
  else none

/-- Puts a code unit in front of the units that are read from what follows it. -/
def consUnit (unit : Option Nat) (rest : Option (List Nat × List Char)) :
    Option (List Nat × List Char) :=
  match unit, rest with
  | some unit, some (units, after) => some (unit :: units, after)
  | _, _ => none

/-- The code points up to the closing quote, and what stands behind it.  Each half of a surrogate
pair is a unit of its own, which only an escape can write. -/
def textUnits? : List Char → Option (List Nat × List Char)
  | [] => none
  | '"' :: rest => some ([], rest)
  | '\\' :: 'u' :: a :: b :: c :: d :: rest => consUnit (hexUnit? a b c d) (textUnits? rest)
  | '\\' :: c :: rest => consUnit (shortEscape? c) (textUnits? rest)
  | c :: rest => if c.toNat < 0x20 then none else consUnit (some c.toNat) (textUnits? rest)

/-- Whether a unit is the first half of a surrogate pair. -/
def isHighHalf (unit : Nat) : Bool :=
  0xD800 ≤ unit && unit < 0xDC00

/-- Whether a unit is the second half of a surrogate pair. -/
def isLowHalf (unit : Nat) : Bool :=
  0xDC00 ≤ unit && unit < 0xE000

/-- The code point of a surrogate pair. -/
def joinHalves (high low : Nat) : Nat :=
  0x10000 + 1024 * (high - 0xD800) + (low - 0xDC00)

/-- The characters that code units stand for; none when half a pair stands alone. -/
def joinUnits? : List Nat → Option (List Char)
  | [] => some []
  | [unit] => if isHighHalf unit || isLowHalf unit then none else some [.ofNat unit]
  | unit :: next :: rest =>
    if isHighHalf unit then
      if isLowHalf next then
        (joinUnits? rest).map (.ofNat (joinHalves unit next) :: ·)
      else
        none
    else if isLowHalf unit then
      none
    else
      (joinUnits? (next :: rest)).map (.ofNat unit :: ·)

/-! ## Numbers -/

/-- The digits in front of a text, and the rest of it. -/
def splitDigits (cs : List Char) : List Char × List Char :=
  (cs.takeWhile Char.isDigit, cs.dropWhile Char.isDigit)

/-- Reads a whole part: a zero that no digit follows, or digits that start with another. -/
def whole? (cs : List Char) : Option (Nat × List Char) :=
  match splitDigits cs with
  | ([], _) => none
  | (['0'], rest) => some (0, rest)
  | ('0' :: _, _) => none
  | (digits, rest) => some (Text.decimal digits, rest)

/-- Reads a fraction, if there is one. -/
def fraction? : List Char → Option (List (Fin 10) × List Char)
  | '.' :: cs =>
    match splitDigits cs with
    | ([], _) => none
    | (digits, rest) => some (digits.map fun c => Fin.ofNat 10 (Text.digitValue c), rest)
  | cs => some ([], cs)

/-- Reads the digits of an exponent. -/
def exponentDigits? (negative : Bool) (cs : List Char) :
    Option (Option Int × List Char) :=
  match splitDigits cs with
  | ([], _) => none
  | (digits, rest) =>
    let value : Int := Text.decimal digits
    some (some (if negative then -value else value), rest)

/-- Reads an exponent, if there is one. -/
def exponent? : List Char → Option (Option Int × List Char)
  | 'e' :: '-' :: cs | 'E' :: '-' :: cs => exponentDigits? true cs
  | 'e' :: '+' :: cs | 'E' :: '+' :: cs => exponentDigits? false cs
  | 'e' :: cs | 'E' :: cs => exponentDigits? false cs
  | cs => some (none, cs)

/-- Reads a number behind its sign. -/
def unsigned? (negative : Bool) (cs : List Char) : Option (Numeral × List Char) := do
  let (whole, cs) ← whole? cs
  let (fraction, cs) ← fraction? cs
  let (exponent, cs) ← exponent? cs
  return (⟨negative, whole, fraction, exponent⟩, cs)

/-- Reads a number. -/
def numeral? : List Char → Option (Numeral × List Char)
  | '-' :: cs => unsigned? true cs
  | cs => unsigned? false cs

/-! ## Tokens -/

/-- Reads one token from a text that does not start with a blank. -/
def next? : List Char → Option (Token × List Char)
  | '[' :: rest => some (arrayOpen, rest)
  | ']' :: rest => some (arrayClose, rest)
  | '\x7b' :: rest => some (objectOpen, rest)
  | '\x7d' :: rest => some (objectClose, rest)
  | ',' :: rest => some (comma, rest)
  | ':' :: rest => some (colon, rest)
  | 'n' :: 'u' :: 'l' :: 'l' :: rest => some (null, rest)
  | 't' :: 'r' :: 'u' :: 'e' :: rest => some (bool true, rest)
  | 'f' :: 'a' :: 'l' :: 's' :: 'e' :: rest => some (bool false, rest)
  | '"' :: rest =>
    (textUnits? rest).map fun (units, after) =>
      (text ((joinUnits? units).map String.ofList), after)
  | cs => (numeral? cs).map fun (n, rest) => (number n, rest)

/-- The tokens of a text, at most `fuel` of them. -/
def scanWith : (fuel : Nat) → List Char → List Token
  | 0, _ => []
  | fuel + 1, cs =>
    match cs.dropWhile isSpace with
    | [] => []
    | rest =>
      match next? rest with
      | none => [bad]
      | some (token, after) => token :: scanWith fuel after

/-- The tokens of a text.  Each takes at least one character, so there are no more tokens than
characters. -/
def scan (cs : List Char) : List Token :=
  scanWith cs.length cs

end Token
end ChainCoverage
