/-!
# Characters and parts of a text

Texts are read as lists of characters.  A list is cut at every place where a separator
stands; a list without separators is one part, and so is the empty list.  Only the digits
of ASCII count as digits.  The blanks around a text are the characters with the property
White_Space, and no others.

Main definitions:

- `parts`: the lists between the separators.
- `digitValue` and `decimal`: a decimal digit, and a row of them.
- `hexDigit?` and `hexByte`: a hexadecimal digit in either case, and the digits of a byte.
- `isBlank` and `trim`: a blank, and a text without the blanks at its two ends.
-/

namespace ChainCoverage
namespace Text

/-! ## Parts -/

section Parts

variable {α : Type} [DecidableEq α]

/-- Puts an element in front of the first part. -/
def consFirst (a : α) : List (List α) → List (List α)
  | [] => [[a]]
  | first :: rest => (a :: first) :: rest

/-- The lists between the separators, of which there is one more than separators. -/
def parts (separator : α) : List α → List (List α)
  | [] => [[]]
  | a :: rest =>
    if a = separator then [] :: parts separator rest else consFirst a (parts separator rest)

end Parts

/-! ## Digits -/

/-- Value of a decimal digit. -/
def digitValue (c : Char) : Nat :=
  c.toNat - '0'.toNat

/-- The number that a row of decimal digits stands for. -/
def decimal (digits : List Char) : Nat :=
  digits.foldl (fun n c => 10 * n + digitValue c) 0

/-- Value of a hexadecimal digit in either case. -/
def hexDigit? (c : Char) : Option Nat :=
  if c.isDigit then some (digitValue c)
  else if 'a' ≤ c ∧ c ≤ 'f' then some (c.toNat - 'a'.toNat + 10)
  else if 'A' ≤ c ∧ c ≤ 'F' then some (c.toNat - 'A'.toNat + 10)
  else none

/-- The two hexadecimal digits of a byte, in lower case. -/
def hexByte (byte : UInt8) : List Char :=
  [Nat.digitChar (byte.toNat / 16), Nat.digitChar (byte.toNat % 16)]

/-! ## Blanks -/

/-- The 25 characters with the property White_Space. -/
def isBlank (c : Char) : Bool :=
  (0x09 ≤ c.toNat && c.toNat ≤ 0x0D) || c.toNat == 0x20 || c.toNat == 0x85 ||
    c.toNat == 0xA0 || c.toNat == 0x1680 || (0x2000 ≤ c.toNat && c.toNat ≤ 0x200A) ||
    c.toNat == 0x2028 || c.toNat == 0x2029 || c.toNat == 0x202F || c.toNat == 0x205F ||
    c.toNat == 0x3000

/-- The text without the blanks in front of it. -/
def trimStart (text : List Char) : List Char :=
  text.dropWhile isBlank

/-- The text without the blanks behind it. -/
def trimEnd (text : List Char) : List Char :=
  (text.reverse.dropWhile isBlank).reverse

/-- The text without the blanks at its two ends. -/
def trim (text : List Char) : List Char :=
  trimEnd (trimStart text)

end Text
end ChainCoverage
