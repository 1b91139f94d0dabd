import ChainCoverage.Proofs.Partition

/-!
# Buckets in machine words

A machine computes the buckets in words of 128 bits, and keeps the ends of a span and the number
of a bucket in words of 64 bits.  Here every step is checked: a sum or a product must fit a double
word, nothing is taken from a smaller number, no divisor is zero, and a number that is kept in a
word must fit it.  All steps succeed, for every chain and every number of buckets.

Main definitions:

- `Checked`: the steps.
- `BucketWords`: what is kept of a partition, and what is computed from it step by step.

Main results:

- `Partition.new?_eq`, `Partition.width?_words`, `Partition.span?_words` and
  `Partition.bucketOf?_words`: no step fails, and the outcome is that of the partition.
-/

namespace ChainCoverage

/-! ## Checked steps -/

namespace Checked

/-- A number that must be below a bound. -/
def fit (bound n : Nat) : Option Nat :=
  if n < bound then some n else none

/-- How many numbers a word of 128 bits has. -/
def doubleWordSize : Nat := UInt64.size * UInt64.size

/-- A sum in a double word. -/
def add (m n : Nat) : Option Nat :=
  fit doubleWordSize (m + n)

/-- A product in a double word. -/
def mul (m n : Nat) : Option Nat :=
  fit doubleWordSize (m * n)

/-- A difference, which must not be negative. -/
def sub (m n : Nat) : Option Nat :=
  if n ≤ m then some (m - n) else none

/-- A quotient by a number that must not be zero. -/
def div (m n : Nat) : Option Nat :=
  if n = 0 then none else some (m / n)

/-- A remainder by a number that must not be zero. -/
def mod (m n : Nat) : Option Nat :=
  if n = 0 then none else some (m % n)

/-- A number as a word that keeps all of its bits. -/
def toWord (n : Nat) : Option UInt64 :=
  (fit UInt64.size n).map UInt64.ofNat

theorem fit_of_lt {bound n : Nat} (h : n < bound) : fit bound n = some n :=
  if_pos h

theorem add_of_lt {m n : Nat} (h : m + n < doubleWordSize) : add m n = some (m + n) :=
  fit_of_lt h

theorem mul_of_lt {m n : Nat} (h : m * n < doubleWordSize) : mul m n = some (m * n) :=
  fit_of_lt h

theorem sub_of_le {m n : Nat} (h : n ≤ m) : sub m n = some (m - n) :=
  if_pos h

theorem div_of_ne_zero {m n : Nat} (h : n ≠ 0) : div m n = some (m / n) :=
  if_neg h

theorem mod_of_ne_zero {m n : Nat} (h : n ≠ 0) : mod m n = some (m % n) :=
  if_neg h

theorem toWord_of_lt {n : Nat} (h : n < UInt64.size) : toWord n = some (.ofNat n) := by
  rw [toWord, fit_of_lt h, Option.map_some]

theorem toWord_of_le {n : Nat} (h : UInt64.size ≤ n) : toWord n = none := by
  rw [toWord, fit, if_neg (Nat.not_lt.2 h), Option.map_none]

end Checked

/-! ## Buckets step by step -/

/-- What is kept of a partition: its total, the width of the narrower buckets, the number of wide
buckets, and the number of buckets. -/
structure BucketWords where
  total : Block
  base : Nat
  wide : Nat
  size : Nat

namespace BucketWords

open Checked

/-- The partition of `0 … total` into `count` buckets. -/
def new? (total : Block) (count : UInt32) : Option BucketWords := do
  let items ← add total.toNat 1
  let base ← div items count.toNat
  let wide ← mod items count.toNat
  let size ← fit UInt64.size (if base = 0 then wide else count.toNat)
  return ⟨total, base, wide, size⟩

/-- The width of the bucket at an index. -/
def widthAt? (w : BucketWords) (index : Nat) : Option Nat :=
  if index < w.wide then add w.base 1 else some w.base

/-- The width of the first bucket, or the largest word when it does not fit one. -/
def width? (w : BucketWords) : Option UInt64 := do
  let width ← w.widthAt? 0
  return (toWord width).getD (.ofNat (UInt64.size - 1))

/-- The blocks of the bucket at an index. -/
def span? (w : BucketWords) (index : Nat) : Option Span := do
  let narrow ← mul index w.base
  let start ← add narrow (min index w.wide)
  let width ← w.widthAt? index
  let first ← toWord start
  let stop ← add start width
  let last ← sub stop 1
  let last ← toWord last
  return ⟨first, last⟩

/-- The index of the bucket that holds a block which is not past the total. -/
def indexOf? (w : BucketWords) (block : Block) : Option Nat := do
  let wideWidth ← add w.base 1
  let wideEnd ← mul w.wide wideWidth
  if block.toNat < wideEnd then
    div block.toNat wideWidth
  else
    let past ← sub block.toNat wideEnd
    let narrow ← div past w.base
    add w.wide narrow

/-- The index of the bucket that holds a block, none for a block past the total. -/
def bucketOf? (w : BucketWords) (block : Block) : Option (Option Nat) :=
  if w.total < block then
    some none
  else
    ((w.indexOf? block).bind (fit UInt64.size)).map some

end BucketWords

/-! ## No step fails -/

namespace Partition

open Checked

variable (p : Partition)

/-- What is kept of a partition. -/
def words : BucketWords := ⟨p.total, p.base, p.wide, p.size⟩

/-- The number of blocks fits a double word with much to spare. -/
theorem lt_doubleWordSize_of_le {n : Nat} (h : n ≤ p.items + p.items) : n < doubleWordSize := by
  have hitems := p.items_le
  have hsize : UInt64.size + UInt64.size < doubleWordSize := by decide
  omega

theorem base_le_items : p.base ≤ p.items :=
  Nat.div_le_self _ _

/-- The number of buckets fits a word. -/
theorem size_lt : p.size < UInt64.size := by
  rw [size_eq_min]
  have hcount := p.requested.toNat_lt_size
  have hsize : UInt32.size < UInt64.size := by decide
  omega

/-- What is kept of a partition is computed without a failure. -/
theorem new?_eq : BucketWords.new? p.total p.requested = some p.words := by
  have hrequested : p.requested.toNat ≠ 0 := Nat.ne_of_gt p.requested_toNat_pos
  have hitems : p.total.toNat + 1 < doubleWordSize :=
    p.lt_doubleWordSize_of_le (Nat.le_add_right p.items p.items)
  have hsize : (if p.base = 0 then p.wide else p.requested.toNat) < UInt64.size := p.size_lt
  rw [BucketWords.new?, add_of_lt hitems]
  simp only [Option.bind_eq_bind, Option.bind_some]
  rw [div_of_ne_zero hrequested, mod_of_ne_zero hrequested]
  exact congrArg (Option.bind · _) (fit_of_lt hsize)

/-- The width of a bucket is computed without a failure. -/
theorem widthAt?_words (index : Nat) : p.words.widthAt? index = some (p.widthAt index) := by
  have hbase := p.base_le_items
  have hitems := p.items_pos
  rw [BucketWords.widthAt?, widthAt, words]
  dsimp only
  split
  · exact add_of_lt (p.lt_doubleWordSize_of_le (by omega))
  · rfl

/-- The width of the widest bucket is computed without a failure. -/
theorem width?_words : p.words.width? = some p.width := by
  rw [BucketWords.width?, widthAt?_words, Option.bind_eq_bind, Option.bind_some, width]
  congr 1
  rcases Nat.lt_or_ge (p.widthAt 0) UInt64.size with hfits | hlarge
  · rw [toWord_of_lt hfits, Option.getD_some, Nat.min_eq_left (by omega)]
  · rw [toWord_of_le hlarge, Option.getD_none, Nat.min_eq_right (by omega)]

/-- The bounds of a bucket are computed without a failure. -/
theorem span?_words {index : Nat} (hindex : index < p.size) :
    p.words.span? index = some (p.span index) := by
  have hwidth := p.widthAt_pos hindex
  have hend : p.startAt (index + 1) ≤ p.items := p.startAt_le_items hindex
  have hitems := p.items_le
  rw [startAt_succ] at hend
  have hstart : index * p.base + min index p.wide = p.startAt index := rfl
  have hnarrow : index * p.base < doubleWordSize := p.lt_doubleWordSize_of_le (by omega)
  have hsum : index * p.base + min index p.wide < doubleWordSize :=
    p.lt_doubleWordSize_of_le (by omega)
  have hstop : p.startAt index + p.widthAt index < doubleWordSize :=
    p.lt_doubleWordSize_of_le (by omega)
  rw [BucketWords.span?, widthAt?_words, words, mul_of_lt hnarrow]
  simp only [Option.bind_eq_bind, Option.bind_some]
  rw [add_of_lt hsum, hstart]
  simp only [Option.bind_some]
  rw [toWord_of_lt (by omega), add_of_lt hstop]
  simp only [Option.bind_some]
  rw [sub_of_le (by omega), Option.bind_some, toWord_of_lt (by omega)]
  rfl

/-- The index of a block's bucket is computed without a failure: blocks at which narrow buckets
of no block would have to be divided up do not occur. -/
theorem indexOf?_words {block : Block} (hwithin : block ≤ p.total) :
    p.words.indexOf? block = p.bucketOf? block := by
  have hblock : block.toNat < p.items :=
    Nat.lt_succ_of_le (UInt64.le_iff_toNat_le.1 hwithin)
  have hbase := p.base_le_items
  have hstep : p.base + 1 < doubleWordSize := p.lt_doubleWordSize_of_le (by omega)
  have hend : p.wideEnd ≤ p.items := by
    rw [wideEnd_eq_startAt]
    exact p.startAt_le_items p.wide_le_size
  rw [wideEnd] at hend
  have hwideEnd : p.wide * (p.base + 1) < doubleWordSize := p.lt_doubleWordSize_of_le (by omega)
  have hpast : ¬ p.total < block := UInt64.not_lt.2 hwithin
  rw [BucketWords.indexOf?, words, bucketOf?, if_neg hpast, wideEnd, add_of_lt hstep]
  simp only [Option.bind_eq_bind, Option.bind_some]
  rw [mul_of_lt hwideEnd, Option.bind_some]
  split
  · exact div_of_ne_zero (Nat.succ_ne_zero _)
  · rename_i hnarrow
    have hdivisor : p.base ≠ 0 :=
      Nat.ne_of_gt (p.base_pos_of_wideEnd_le (Nat.le_of_not_lt hnarrow) hblock)
    have hquotient := Nat.div_le_self (block.toNat - p.wide * (p.base + 1)) p.base
    have hwide : p.wide ≤ p.wide * (p.base + 1) := Nat.le_mul_of_pos_right _ (Nat.succ_pos _)
    rw [sub_of_le (Nat.le_of_not_lt hnarrow), Option.bind_some, div_of_ne_zero hdivisor,
      Option.bind_some]
    exact add_of_lt (p.lt_doubleWordSize_of_le (by omega))

/-- The bucket of a block is computed without a failure. -/
theorem bucketOf?_words (block : Block) : p.words.bucketOf? block = some (p.bucketOf? block) := by
  rw [BucketWords.bucketOf?]
  split
  · rename_i hpast
    rw [p.bucketOf?_eq_none_iff.2 hpast]
  · rename_i hwithin
    rw [p.indexOf?_words (UInt64.not_lt.1 hwithin)]
    obtain ⟨index, hindex⟩ : ∃ index, p.bucketOf? block = some index :=
      Option.ne_none_iff_exists'.1 fun hnone => hwithin (p.bucketOf?_eq_none_iff.1 hnone)
    -- The index is that of a bucket, so it fits a word.
    have hfits : index < UInt64.size := Nat.lt_trans (p.bounds_of_bucketOf? hindex).1 p.size_lt
    rw [hindex, Option.bind_some, fit_of_lt hfits, Option.map_some]

end Partition
end ChainCoverage
