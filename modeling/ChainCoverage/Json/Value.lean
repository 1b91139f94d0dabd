import ChainCoverage.Block

/-!
# JSON values

A JSON value with its numbers kept as they are written, so that a number of any size
is exact.

Main definitions:

- `Numeral`: a number by its sign, digits and exponent.
- `Json`: a value; the members of an object keep their order.
- `Numeral.toNat?` and `Numeral.isFinite`: the two questions a reader asks of a number.
-/

namespace ChainCoverage

/-- A written number: a sign, a whole part, the digits of a fraction and an exponent.  An empty
fraction is not written. -/
structure Numeral where
  negative : Bool
  whole : Nat
  fraction : List (Fin 10)
  exponent : Option Int
deriving DecidableEq

namespace Numeral

/-- A natural number as it is written: without sign, fraction or exponent. -/
def ofNat (n : Nat) : Numeral := ⟨false, n, [], none⟩

/-- The number, if it is written as a natural number. -/
def toNat? : Numeral → Option Nat
  | ⟨false, whole, [], none⟩ => some whole
  | _ => none

@[simp]
theorem toNat?_ofNat (n : Nat) : (ofNat n).toNat? = some n :=
  rfl

/-- All digits as one number: the number is this times a power of ten. -/
def significand (n : Numeral) : Nat :=
  n.fraction.foldl (fun value digit => 10 * value + digit.val) n.whole

/-- The power of ten that goes with `significand`. -/
def scale (n : Numeral) : Int :=
  n.exponent.getD 0 - n.fraction.length

/-- The least number whose nearest double is infinite: half a unit above the largest double. -/
def finiteBound : Nat := 1 <<< 1024 - 1 <<< 970

/-- Whether the double nearest to the number is finite.  Numbers with more than 310 or fewer
than 308 digits before the point are decided by that count. -/
def isFinite (n : Numeral) : Bool :=
  let size := (Nat.toDigits 10 n.significand).length + n.scale
  if n.significand = 0 || size ≤ 308 then true
  else if 310 < size then false
  else if 0 ≤ n.scale then n.significand * Nat.pow 10 n.scale.toNat < finiteBound
  else n.significand < finiteBound * Nat.pow 10 (-n.scale).toNat

end Numeral

/-- A JSON value. -/
inductive Json where
  | null
  | bool (value : Bool)
  | number (value : Numeral)
  | text (value : String)
  | array (items : List Json)
  | object (members : List (String × Json))
deriving Inhabited

namespace Json

/-- A natural number as a value. -/
def ofNat (n : Nat) : Json :=
  number (.ofNat n)

/-- A word as a value. -/
def ofWord (n : UInt64) : Json :=
  ofNat n.toNat

end Json
end ChainCoverage
