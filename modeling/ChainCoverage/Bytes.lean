/-!
# Numbers as bytes

A word is written with its most significant byte first where keys must sort like
numbers, and with its least significant byte first as a value.

Main definitions:

- `Bytes.littleEndian` and `Bytes.ofLittleEndian`.
- `Bytes.bigEndian` and `Bytes.ofBigEndian`.

Main results:

- `Bytes.ofLittleEndian_littleEndian` and `Bytes.ofBigEndian_bigEndian`: the bytes of a
  number, read again, are that number when it needs no more of them.
-/

namespace ChainCoverage

/-- A sequence of bytes, ordered bytewise. -/
abbrev Bytes := List UInt8

namespace Bytes

/-- The last `width` bytes of a number, the least significant first. -/
def littleEndian : (width : Nat) → Nat → Bytes
  | 0, _ => []
  | width + 1, n => .ofNat n :: littleEndian width (n / 256)

@[simp]
theorem length_littleEndian (width n : Nat) : (littleEndian width n).length = width := by
  induction width generalizing n with
  | zero => rfl
  | succ width ih => rw [littleEndian, List.length_cons, ih]

/-- The number whose bytes these are, the least significant first. -/
def ofLittleEndian : Bytes → Nat
  | [] => 0
  | byte :: rest => byte.toNat + 256 * ofLittleEndian rest

/-- The last `width` bytes of a number, the most significant first. -/
def bigEndian (width n : Nat) : Bytes :=
  (littleEndian width n).reverse

@[simp]
theorem length_bigEndian (width n : Nat) : (bigEndian width n).length = width := by
  rw [bigEndian, List.length_reverse, length_littleEndian]

/-- The number whose bytes these are, the most significant first. -/
def ofBigEndian (bytes : Bytes) : Nat :=
  ofLittleEndian bytes.reverse

/-- The last bytes of a number, read again, are the number when it has no more. -/
theorem ofLittleEndian_littleEndian {width n : Nat} (h : n < Nat.pow 256 width) :
    ofLittleEndian (littleEndian width n) = n := by
  induction width generalizing n with
  | zero =>
    have hzero : n = 0 := Nat.lt_one_iff.1 h
    rw [hzero]
    rfl
  | succ width ih =>
    have hrest : n / 256 < Nat.pow 256 width := Nat.div_lt_of_lt_mul (by rwa [Nat.mul_comm])
    rw [littleEndian, ofLittleEndian, ih hrest, UInt8.toNat_ofNat']
    exact Nat.mod_add_div n 256

/-- The same with the most significant byte first. -/
theorem ofBigEndian_bigEndian {width n : Nat} (h : n < Nat.pow 256 width) :
    ofBigEndian (bigEndian width n) = n := by
  rw [ofBigEndian, bigEndian, List.reverse_reverse, ofLittleEndian_littleEndian h]

end Bytes
end ChainCoverage
