import ChainCoverage.Bytes

/-!
# Text from bytes

Bytes are read as UTF-8.  Where they are not, the longest start of a character that
stands there is replaced by one replacement character, and reading goes on behind it.

Main definitions:

- `Utf8.decode`: the characters of some bytes.
-/

namespace ChainCoverage
namespace Utf8

/-- The character that stands for bytes that are none. -/
def replacement : Char := '\uFFFD'

/-- A character whose first bytes have been read: the bits so far, the bounds of the next byte,
and how many bytes follow that one. -/
structure Partial where
  bits : Nat
  low : Nat
  high : Nat
  more : Nat

/-- What a first byte starts. -/
inductive Lead where
  | char (c : Char)
  | start (p : Partial)
  | invalid

/-- Reads a first byte. -/
def lead (byte : Nat) : Lead :=
  if byte < 0x80 then .char (.ofNat byte)
  else if byte < 0xC2 then .invalid
  else if byte < 0xE0 then .start ⟨byte - 0xC0, 0x80, 0xBF, 0⟩
  else if byte = 0xE0 then .start ⟨0, 0xA0, 0xBF, 1⟩
  else if byte = 0xED then .start ⟨0x0D, 0x80, 0x9F, 1⟩
  else if byte < 0xF0 then .start ⟨byte - 0xE0, 0x80, 0xBF, 1⟩
  else if byte = 0xF0 then .start ⟨0, 0x90, 0xBF, 2⟩
  else if byte < 0xF4 then .start ⟨byte - 0xF0, 0x80, 0xBF, 2⟩
  else if byte = 0xF4 then .start ⟨4, 0x80, 0x8F, 2⟩
  else .invalid

/-- Reads a byte where a character starts: the characters it completes, and the character it
starts. -/
def first (byte : UInt8) : List Char × Option Partial :=
  match lead byte.toNat with
  | .char c => ([c], none)
  | .start p => ([], some p)
  | .invalid => ([replacement], none)

/-- Reads a byte behind the first bytes of a character. -/
def next (p : Partial) (byte : UInt8) : List Char × Option Partial :=
  if p.low ≤ byte.toNat && byte.toNat ≤ p.high then
    let bits := 64 * p.bits + byte.toNat % 64
    match p.more with
    | 0 => ([.ofNat bits], none)
    | more + 1 => ([], some ⟨bits, 0x80, 0xBF, more⟩)
  else
    let (chars, state) := first byte
    (replacement :: chars, state)

/-- Reads the bytes behind those of a character that has been started. -/
def decodeFrom : Option Partial → Bytes → List Char
  | none, [] => []
  | some _, [] => [replacement]
  | none, byte :: rest =>
    let (chars, state) := first byte
    chars ++ decodeFrom state rest
  | some p, byte :: rest =>
    let (chars, state) := next p byte
    chars ++ decodeFrom state rest

/-- The characters of some bytes. -/
def decode (bytes : Bytes) : String :=
  String.ofList (decodeFrom none bytes)

end Utf8
end ChainCoverage
