import ChainCoverage.Text.Combining
import ChainCoverage.Text.Invisible

/-!
# Quoted text

Text in a message stands between double quotes, so that blanks and invisible
characters can be told apart.  A character that does not show by itself is written
by its code point.

A character is written as it is only when it shows by itself.  An invisible character
shows nothing, and a combining character shows only on the character before it.  The
two halfwidth sound marks of Katakana extend the character before them too, but they
take a place of their own, so they show by themselves.

Main definitions:

- `inRanges`: whether a code point lies in one of the ranges of a table.
- `isVisible`: whether a character shows by itself.
- `quoteChar` and `quoted`: the written form of one character, and of a text.
-/

namespace ChainCoverage
namespace Text

/-! ## Visible characters -/

/-- Whether a code point lies in one of the ranges, ends included. -/
def inRanges (ranges : List (Nat × Nat)) (code : Nat) : Bool :=
  ranges.any fun range => range.1 ≤ code && code ≤ range.2

/-- Whether a code point is one of the two halfwidth sound marks, voiced and semi-voiced. -/
def isHalfwidthMark (code : Nat) : Bool :=
  code == 0xFF9E || code == 0xFF9F

/-- Whether a character shows only on the character before it. -/
def isCombining (code : Nat) : Bool :=
  inRanges combiningRanges code && !isHalfwidthMark code

/-- Whether a character shows by itself.  Those of ASCII are decided without the tables. -/
def isVisible (c : Char) : Bool :=
  if c.toNat < 0x7F then
    0x20 ≤ c.toNat
  else
    !(inRanges invisibleRanges c.toNat || isCombining c.toNat)

/-! ## Quotes -/

/-- The digits of a number to base sixteen, in lower case. -/
def hexDigits (n : Nat) : String :=
  String.ofList (Nat.toDigits 16 n)

/-- The written form of one character within quotes. -/
def quoteChar (c : Char) : String :=
  if c = '"' then "\\\""
  else if c = '\\' then "\\\\"
  else if c = '\t' then "\\t"
  else if c = '\n' then "\\n"
  else if c = '\r' then "\\r"
  else if c = '\x00' then "\\0"
  else if isVisible c then c.toString
  else "\\u\x7b" ++ hexDigits c.toNat ++ "\x7d"

/-- A text between double quotes. -/
def quoted (text : String) : String :=
  "\"" ++ String.join (text.toList.map quoteChar) ++ "\""

end Text
end ChainCoverage
