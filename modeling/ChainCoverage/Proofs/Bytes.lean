import ChainCoverage.Bytes

/-!
# The order of bytes

Sequences of bytes are ordered bytewise, a proper prefix first.  A common stem in front
does not change the order of two sequences, and what lies between two sequences with one
stem has that stem too.  Numbers written with their most significant byte first are
ordered like numbers.

Main results:

- `Bytes.compare_append_left`: a common stem does not count.
- `Bytes.isPrefix_of_between`: the sequences with one stem stand together.
- `Bytes.eq_of_ordered`: an ordered list is known by its members.
- `Bytes.compare_bigEndian`: the order of numbers as bytes.
- `Bytes.bigEndian_ofBigEndian`: bytes are the bytes of the number that they stand for.
-/

namespace ChainCoverage
namespace Bytes

/-! ## Common stems -/

/-- A common stem does not count. -/
theorem compare_append_left (stem x y : Bytes) :
    compare (stem ++ x) (stem ++ y) = compare x y := by
  induction stem with
  | nil => rfl
  | cons byte stem ih =>
    rw [List.cons_append, List.cons_append, List.compare_cons_cons, Std.compare_self, ih]
    rfl

/-- What lies between two sequences with one stem has that stem. -/
theorem isPrefix_of_between {stem low high key : Bytes}
    (hlow : (compare key (stem ++ low)).isGE) (hhigh : (compare key (stem ++ high)).isLE) :
    stem <+: key := by
  induction stem generalizing key with
  | nil => exact List.nil_prefix
  | cons byte stem ih =>
    cases key with
    | nil => simp [List.compare_nil_cons] at hlow
    | cons first rest =>
      rw [List.cons_append, List.compare_cons_cons] at hlow hhigh
      have hge := Ordering.isGE_left_of_isGE_then hlow
      have hle := Ordering.isLE_left_of_isLE_then hhigh
      have heq := Ordering.eq_eq_of_isLE_of_isGE hle hge
      rw [heq] at hlow hhigh
      rw [Std.LawfulEqCmp.eq_of_compare heq, List.cons_prefix_cons]
      exact ⟨rfl, ih hlow hhigh⟩

/-- Two ordered lists with the same members are the same. -/
theorem eq_of_ordered {xs ys : List Bytes} (hxs : xs.Pairwise (compare · · = .lt))
    (hys : ys.Pairwise (compare · · = .lt)) (hmem : ∀ key, key ∈ xs ↔ key ∈ ys) : xs = ys := by
  have hne : ∀ {x y : Bytes}, compare x y = .lt → x ≠ y := by
    rintro x _ hlt rfl
    rw [Std.compare_self] at hlt
    cases hlt
  have hperm : xs.Perm ys := (List.perm_ext_iff_of_nodup (hxs.imp hne) (hys.imp hne)).2 hmem
  refine hperm.eq_of_pairwise ?_ hxs hys
  intro x y _ _ hlt hgt
  have hswap : compare x y = .gt := Std.OrientedCmp.gt_of_lt hgt
  rw [hlt] at hswap
  cases hswap

/-! ## Numbers -/

/-- Sequences of one length are compared by their last bytes when the others agree. -/
theorem compare_append_singleton {x y : Bytes} (hlength : x.length = y.length) (a b : UInt8) :
    compare (x ++ [a]) (y ++ [b]) = (compare x y).then (compare a b) := by
  induction x generalizing y with
  | nil =>
    rw [List.length_nil, eq_comm, List.length_eq_zero_iff] at hlength
    rw [hlength, List.nil_append, List.nil_append, List.compare_cons_cons, Std.compare_self]
    cases compare a b <;> rfl
  | cons first x ih =>
    cases y with
    | nil => cases hlength
    | cons other y =>
      have hrest : x.length = y.length := Nat.succ.inj hlength
      rw [List.cons_append, List.cons_append, List.compare_cons_cons, ih hrest,
        List.compare_cons_cons, Ordering.then_assoc]

/-- A number of more than one byte is the rest of its bytes with the last one behind. -/
theorem bigEndian_succ (width n : Nat) :
    bigEndian (width + 1) n = bigEndian width (n / 256) ++ [.ofNat n] := by
  rw [bigEndian, littleEndian, List.reverse_cons, bigEndian]

/-- Numbers are compared by their remainders when their quotients agree. -/
theorem compare_div_then_mod (m n base : Nat) :
    (compare (m / base) (n / base)).then (compare (m % base) (n % base)) = compare m n := by
  have hm := Nat.div_add_mod m base
  have hn := Nat.div_add_mod n base
  cases hquotient : compare (m / base) (n / base) with
  | lt =>
    have hlt : m < n := Nat.lt_of_div_lt_div (Nat.compare_eq_lt.1 hquotient)
    rw [Nat.compare_eq_lt.2 hlt]
    rfl
  | eq =>
    have heq : m / base = n / base := Nat.compare_eq_eq.1 hquotient
    rw [heq] at hm
    rw [Ordering.eq_then, Nat.compare_eq_ite_lt, Nat.compare_eq_ite_lt]
    split <;> split <;> grind
  | gt =>
    have hgt : n < m := Nat.lt_of_div_lt_div (Nat.compare_eq_gt.1 hquotient)
    rw [Nat.compare_eq_gt.2 hgt]
    rfl

/-- Bytes are ordered like the remainders that they are. -/
theorem compare_ofNat (m n : Nat) :
    compare (UInt8.ofNat m) (UInt8.ofNat n) = compare (m % 256) (n % 256) := by
  have hcompare : ∀ a b : UInt8, compare a b = compare a.toNat b.toNat := by
    intro a b
    simp only [compare, compareOfLessAndEq, UInt8.lt_iff_toNat_lt, ← UInt8.toNat_inj]
  rw [hcompare, UInt8.toNat_ofNat', UInt8.toNat_ofNat']

/-- Numbers that need no more bytes are ordered like those bytes. -/
theorem compare_bigEndian {width m n : Nat} (hm : m < Nat.pow 256 width)
    (hn : n < Nat.pow 256 width) :
    compare (bigEndian width m) (bigEndian width n) = compare m n := by
  induction width generalizing m n with
  | zero =>
    rw [Nat.lt_one_iff.1 hm, Nat.lt_one_iff.1 hn, Std.compare_self, Std.compare_self]
  | succ width ih =>
    have hm' : m / 256 < Nat.pow 256 width := Nat.div_lt_of_lt_mul (by rwa [Nat.mul_comm])
    have hn' : n / 256 < Nat.pow 256 width := Nat.div_lt_of_lt_mul (by rwa [Nat.mul_comm])
    have hlength : (bigEndian width (m / 256)).length = (bigEndian width (n / 256)).length := by
      rw [length_bigEndian, length_bigEndian]
    rw [bigEndian_succ, bigEndian_succ, compare_append_singleton hlength, ih hm' hn', compare_ofNat,
      compare_div_then_mod]

/-! ## Bytes as numbers -/

/-- Bytes stand for a number that needs no more of them. -/
theorem ofLittleEndian_lt (bytes : Bytes) : ofLittleEndian bytes < Nat.pow 256 bytes.length := by
  induction bytes with
  | nil => exact Nat.zero_lt_one
  | cons byte bytes ih =>
    have hbyte : byte.toNat < 256 := byte.toNat_lt
    have hpow : Nat.pow 256 (byte :: bytes).length = Nat.pow 256 bytes.length * 256 := rfl
    rw [ofLittleEndian, hpow]
    omega

/-- Bytes are those of the number that they stand for. -/
theorem littleEndian_ofLittleEndian (bytes : Bytes) :
    littleEndian bytes.length (ofLittleEndian bytes) = bytes := by
  induction bytes with
  | nil => rfl
  | cons byte bytes ih =>
    have hbyte : byte.toNat < 256 := byte.toNat_lt
    have hrest : (byte.toNat + 256 * ofLittleEndian bytes) / 256 = ofLittleEndian bytes := by omega
    have hfirst : UInt8.ofNat (byte.toNat + 256 * ofLittleEndian bytes) = byte := by
      apply UInt8.toNat_inj.1
      rw [UInt8.toNat_ofNat']
      omega
    rw [List.length_cons, ofLittleEndian, littleEndian, hrest, ih, hfirst]

theorem ofBigEndian_lt (bytes : Bytes) : ofBigEndian bytes < Nat.pow 256 bytes.length := by
  have hlt := ofLittleEndian_lt bytes.reverse
  rwa [List.length_reverse] at hlt

/-- The same with the most significant byte first. -/
theorem bigEndian_ofBigEndian (bytes : Bytes) :
    bigEndian bytes.length (ofBigEndian bytes) = bytes := by
  have hreverse := littleEndian_ofLittleEndian bytes.reverse
  rw [List.length_reverse] at hreverse
  rw [bigEndian, ofBigEndian, hreverse, List.reverse_reverse]

end Bytes
end ChainCoverage
