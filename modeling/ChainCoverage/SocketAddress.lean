import ChainCoverage.Text.Basic

/-!
# Socket addresses

The address a service listens at: four octets with dots between them, a colon, and a
number of 16 bits.  An octet has at most three digits and no leading zero; the number
may have leading zeros.

Main definitions:

- `SocketAddress` and `SocketAddress.parse?`.
- `listenAt`: the check of an address, with its failure.
-/

namespace ChainCoverage

/-- Four octets and a number of 16 bits. -/
structure SocketAddress where
  octets : List UInt8
  number : UInt16
deriving DecidableEq

namespace SocketAddress

/-- Whether a text is made of digits, of which there is at least one. -/
def isNumber (text : List Char) : Bool :=
  !text.isEmpty && text.all Char.isDigit

/-- Reads an octet. -/
def octet? (text : List Char) : Option UInt8 :=
  if isNumber text && text.length ≤ 3 && (text.length == 1 || text.head? != some '0') &&
      Text.decimal text < 256 then
    some (.ofNat (Text.decimal text))
  else
    none

/-- Reads the number behind the colon. -/
def number? (text : List Char) : Option UInt16 :=
  if isNumber text && Text.decimal text < 65536 then some (.ofNat (Text.decimal text)) else none

/-- The socket address that a text stands for. -/
def parse? (text : String) : Option SocketAddress :=
  match Text.parts ':' text.toList with
  | [host, number] =>
    let octets := Text.parts '.' host
    if octets.length = 4 then do
      let octets ← octets.mapM octet?
      let number ← number? number
      return ⟨octets, number⟩
    else
      none
  | _ => none

end SocketAddress

/-- A text that is no socket address. -/
inductive ListenError where
  | badAddress
deriving DecidableEq

namespace ListenError

/-- The wording. -/
def message : ListenError → String
  | badAddress => "invalid socket address syntax"

end ListenError

/-- The address that a service is to listen at. -/
def listenAt (text : String) : Except ListenError SocketAddress :=
  match SocketAddress.parse? text with
  | some address => .ok address
  | none => .error .badAddress

end ChainCoverage
