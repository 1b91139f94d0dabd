import ChainCoverage.Text.Basic
import ChainCoverage.Text.Utf8

/-!
# Queries

The query of a request is a list of pairs with ampersands between them.  A pair is cut
at its first equals sign; without one its value is empty.  A plus sign is a blank, and
a percent sign with two hexadecimal digits is a byte; a percent sign without them stands
for itself.

Main definitions:

- `Query.parse`: the pairs of a query.
- `Query.required` and `Query.optional`: the values of known names.
-/

namespace ChainCoverage

/-- The pairs of a query, in order. -/
abbrev Query := List (String × String)

namespace Query

/-- Value of a byte that is a hexadecimal digit. -/
def hexDigit? (byte : UInt8) : Option Nat :=
  Text.hexDigit? (.ofNat byte.toNat)

/-- The byte that stands for itself, with a plus sign for a blank. -/
def plainByte (byte : UInt8) : UInt8 :=
  if byte = 0x2B then 0x20 else byte

/-- The bytes that a name or a value stands for. -/
def unescape : Bytes → Bytes
  | 0x25 :: a :: b :: rest =>
    match hexDigit? a, hexDigit? b with
    | some high, some low => .ofNat (16 * high + low) :: unescape rest
    | _, _ => 0x25 :: unescape (a :: b :: rest)
  | byte :: rest => plainByte byte :: unescape rest
  | [] => []

/-- The text that a name or a value stands for. -/
def text (bytes : Bytes) : String :=
  Utf8.decode (unescape bytes)

/-- The name and the value of a pair. -/
def pair (bytes : Bytes) : String × String :=
  (text (bytes.takeWhile (· ≠ 0x3D)), text ((bytes.dropWhile (· ≠ 0x3D)).drop 1))

/-- The pairs of a query; empty ones do not count. -/
def parse (query : String) : Query :=
  ((Text.parts 0x26 query.toUTF8.toList).filter (!·.isEmpty)).map pair

/-- A value that stands at most once, read by `read`.  The outer `none` refuses the query. -/
def optional {α : Type} (q : Query) (name : String) (read : String → Option α) :
    Option (Option α) :=
  match q.filter (·.1 == name) with
  | [] => some none
  | [(_, value)] => (read value).map some
  | _ => none

/-- A value that stands exactly once, read by `read`. -/
def required {α : Type} (q : Query) (name : String) (read : String → Option α) : Option α :=
  (q.optional name read).join

/-- Reads a truth value. -/
def readBool (value : String) : Option Bool :=
  if value = "true" then some true else if value = "false" then some false else none

end Query
end ChainCoverage
