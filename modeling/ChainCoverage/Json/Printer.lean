import ChainCoverage.Json.Value
import ChainCoverage.Text.Quoted

/-!
# Printed JSON

A value is printed compactly, or with one item or member to a line and two blanks for
each level of nesting.  Empty arrays and objects stay on one line.  In text, quotes,
backslashes and control characters are escaped, and nothing else.

Main definitions:

- `Json.compact`: a value without blanks.
- `Json.pretty`: a value over several lines.
-/

namespace ChainCoverage
namespace Json

/-- The written form of one character of a text. -/
def escapeChar (c : Char) : List Char :=
  if c = '"' then ['\\', '"']
  else if c = '\\' then ['\\', '\\']
  else if c = '\n' then ['\\', 'n']
  else if c = '\r' then ['\\', 'r']
  else if c = '\t' then ['\\', 't']
  else if c.toNat = 0x08 then ['\\', 'b']
  else if c.toNat = 0x0C then ['\\', 'f']
  else if c.toNat < 0x20 then
    ['\\', 'u', '0', '0', Nat.digitChar (c.toNat / 16), Nat.digitChar (c.toNat % 16)]
  else [c]

/-- A text between its quotes. -/
def printText (text : String) : List Char :=
  '"' :: text.toList.flatMap escapeChar ++ ['"']

/-- A natural number in decimal digits. -/
def printNat (n : Nat) : List Char :=
  Nat.toDigits 10 n

/-- An exponent with its sign. -/
def printExponent : Int → List Char
  | .ofNat n => 'e' :: printNat n
  | .negSucc n => 'e' :: '-' :: printNat (n + 1)

/-- A number. -/
def printNumeral (n : Numeral) : List Char :=
  (if n.negative then ['-'] else []) ++ printNat n.whole ++
    (if n.fraction.isEmpty then [] else '.' :: n.fraction.map (Nat.digitChar ·.val)) ++
    (match n.exponent with
      | none => []
      | some e => printExponent e)

/-- The two truth values. -/
def printBool (b : Bool) : List Char :=
  if b then ['t', 'r', 'u', 'e'] else ['f', 'a', 'l', 's', 'e']

/-- The null value. -/
def printNull : List Char := ['n', 'u', 'l', 'l']

/-! ## Compact form -/

mutual

/-- A value without blanks. -/
def compactChars : Json → List Char
  | null => printNull
  | bool value => printBool value
  | number value => printNumeral value
  | text value => printText value
  | array [] => ['[', ']']
  | array (item :: rest) => '[' :: compactChars item ++ compactItems rest
  | object [] => ['\x7b', '\x7d']
  | object ((name, value) :: rest) =>
    '\x7b' :: printText name ++ ':' :: compactChars value ++ compactMembers rest

/-- The items behind the first, and the end of their array. -/
def compactItems : List Json → List Char
  | [] => [']']
  | item :: rest => ',' :: compactChars item ++ compactItems rest

/-- The members behind the first, and the end of their object. -/
def compactMembers : List (String × Json) → List Char
  | [] => ['\x7d']
  | (name, value) :: rest =>
    ',' :: printText name ++ ':' :: compactChars value ++ compactMembers rest

end

/-- A value without blanks. -/
def compact (value : Json) : String :=
  String.ofList value.compactChars

/-! ## Form over several lines -/

/-- The end of a line, and the blanks in front of the next at some level of nesting. -/
def newLine (level : Nat) : List Char :=
  '\n' :: List.replicate (2 * level) ' '

mutual

/-- A value over several lines, the first of which is already indented. -/
def prettyChars (level : Nat) : Json → List Char
  | null => printNull
  | bool value => printBool value
  | number value => printNumeral value
  | text value => printText value
  | array [] => ['[', ']']
  | array (item :: rest) =>
    '[' :: newLine (level + 1) ++ prettyChars (level + 1) item ++ prettyItems level rest
  | object [] => ['\x7b', '\x7d']
  | object ((name, value) :: rest) =>
    '\x7b' :: newLine (level + 1) ++ printText name ++ ':' :: ' ' ::
      prettyChars (level + 1) value ++ prettyMembers level rest

/-- The items behind the first, and the end of their array. -/
def prettyItems (level : Nat) : List Json → List Char
  | [] => newLine level ++ [']']
  | item :: rest =>
    ',' :: newLine (level + 1) ++ prettyChars (level + 1) item ++ prettyItems level rest

/-- The members behind the first, and the end of their object. -/
def prettyMembers (level : Nat) : List (String × Json) → List Char
  | [] => newLine level ++ ['\x7d']
  | (name, value) :: rest =>
    ',' :: newLine (level + 1) ++ printText name ++ ':' :: ' ' ::
      prettyChars (level + 1) value ++ prettyMembers level rest

end

/-- A value over several lines. -/
def pretty (value : Json) : String :=
  String.ofList (value.prettyChars 0)

end Json
end ChainCoverage
