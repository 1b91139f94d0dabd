import ChainCoverage.Bytes
import ChainCoverage.Text.Quoted

/-!
# Network names

A network is known by a name of 1 to 64 bytes made of ASCII letters, digits, hyphens
and underscores.  Names are parts of keys, so no name contains the zero byte that
ends it there.

Main definitions:

- `Network`: a name that passed the check.
- `Network.ofName`: the check, with its reason for refusing a name.
-/

namespace ChainCoverage

/-- Why a text is no network name. -/
inductive NetworkError where
  | badLength
  | badCharacter (name : String)
deriving DecidableEq

namespace Network

/-- Largest number of bytes in a name. -/
def maxLength : Nat := 64

end Network

namespace NetworkError

/-- The wording. -/
def message : NetworkError → String
  | badLength => s!"network name must be 1 to {Network.maxLength} bytes long"
  | badCharacter name => "invalid network name: " ++ Text.quoted name

end NetworkError

namespace Network

/-- The characters a name is made of. -/
def isNameChar (c : Char) : Bool :=
  c.isAlphanum || c == '-' || c == '_'

/-- Whether a text is neither empty nor too long, counted in bytes. -/
def hasLength (name : String) : Bool :=
  0 < name.utf8ByteSize && name.utf8ByteSize ≤ maxLength

/-- Whether a text is a network name. -/
def isName (name : String) : Bool :=
  hasLength name && name.toList.all isNameChar

end Network

/-- A network, known by its name. -/
structure Network where
  name : String
  valid : Network.isName name = true
deriving DecidableEq

namespace Network

/-- The network with a name.  The length is checked before the characters. -/
def ofName (name : String) : Except NetworkError Network :=
  if h : isName name = true then
    .ok ⟨name, h⟩
  else if hasLength name then
    .error (.badCharacter name)
  else
    .error .badLength

/-- The bytes of the name. -/
def bytes (n : Network) : Bytes :=
  n.name.toList.map fun c => .ofNat c.toNat

end Network
end ChainCoverage
