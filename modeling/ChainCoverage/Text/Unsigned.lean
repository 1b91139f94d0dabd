import ChainCoverage.Text.Basic

/-!
# Unsigned numbers

A number is written as an optional plus sign and at least one decimal digit;
leading zeros are allowed and nothing else is.  The text is read from the left and
its first problem decides.

Main definitions:

- `Unsigned.Problem`: why a text is no number.
- `Unsigned.parse`: the number below a bound that a text stands for.
- `Unsigned.parseWord` and `Unsigned.parseHalfWord`: the numbers of 64 and 32 bits.
- `Unsigned.word?` and `Unsigned.halfWord?`: the same without the reason for a failure.
-/

namespace ChainCoverage
namespace Unsigned

/-- Why a text is no number. -/
inductive Problem where
  | empty
  | badDigit
  | tooLarge
deriving DecidableEq

namespace Problem

/-- The wording. -/
def message : Problem → String
  | empty => "cannot parse integer from empty string"
  | badDigit => "invalid digit found in string"
  | tooLarge => "number too large to fit in target type"

end Problem

/-- Reads digits behind a number already read, each of which must leave it below the bound. -/
def digits (bound value : Nat) : List Char → Except Problem Nat
  | [] => .ok value
  | c :: rest =>
    if c.isDigit then
      let next := 10 * value + Text.digitValue c
      if next < bound then digits bound next rest else .error .tooLarge
    else
      .error .badDigit

/-- The number below `bound` that a text stands for. -/
def parse (bound : Nat) : List Char → Except Problem Nat
  | [] => .error .empty
  | ['+'] => .error .badDigit
  | '+' :: rest => digits bound 0 rest
  | text => digits bound 0 text

/-- A number of 64 bits. -/
def parseWord (text : List Char) : Except Problem UInt64 :=
  (parse UInt64.size text).map UInt64.ofNat

/-- A number of 32 bits. -/
def parseHalfWord (text : List Char) : Except Problem UInt32 :=
  (parse UInt32.size text).map UInt32.ofNat

/-- The number of 64 bits that a text stands for, if it stands for one. -/
def word? (text : String) : Option UInt64 :=
  (parseWord text.toList).toOption

/-- The number of 32 bits that a text stands for, if it stands for one. -/
def halfWord? (text : String) : Option UInt32 :=
  (parseHalfWord text.toList).toOption

end Unsigned
end ChainCoverage
