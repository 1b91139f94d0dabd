import ChainCoverage.Proofs.Ledger.Key
import Mathlib.Data.List.DropRight

/-!
# The keys of one network among those of all

The networks share one map, so the keys of a network are found by where they stand: they start with
its name and the zero byte, and no key stands behind that of the largest block or in front of that
of block zero.  Nothing that starts with another name and the zero byte stands there, also when one
name starts the other or when a block number has bytes that look like a name.

Main definitions:

- `Network.IsAmongKeys`: a sequence of bytes stands among the keys of a network.

Main results:

- `Network.bytes_eq_toUTF8`: the bytes of a name in a key are those that encode it.
- `Network.isAmongKeys_blockKey_iff`: the keys of blocks stand among those of their own network.
- `Network.blockKey_separates`: keys tell networks and blocks apart and keep the order of blocks.
-/

namespace ChainCoverage
namespace Network

/-! ## The bytes of a key -/

/-- A character below 128 is encoded as one byte. -/
theorem utf8EncodeChar_of_lt {c : Char} (h : c.toNat < 128) :
    String.utf8EncodeChar c = [.ofNat c.toNat] :=
  if_pos (Nat.le_of_lt_succ h)

/-- The bytes of a name are those that encode it. -/
theorem bytes_eq_toUTF8 (n : Network) : n.bytes = n.name.toUTF8.data.toList := by
  have hchars : ∀ c ∈ n.name.toList, String.utf8EncodeChar c = [UInt8.ofNat c.toNat] :=
    fun c hc => utf8EncodeChar_of_lt (toNat_of_isNameChar (n.isNameChar_of_mem hc)).2
  rw [String.toUTF8_eq_toByteArray, ← String.utf8Encode_toList, List.utf8Encode,
    List.data_toByteArray, List.flatMap_congr hchars, bytes, List.map_eq_flatMap]

/-- The last bytes of a key are those of its block, the most significant first. -/
theorem ofBigEndian_rtake_blockKey (n : Network) (block : Block) :
    Bytes.ofBigEndian ((n.blockKey block).rtake blockWidth) = block.toNat := by
  rw [List.rtake, n.length_blockKey, Nat.add_sub_cancel, blockKey, List.drop_left, blockBytes,
    Bytes.ofBigEndian_bigEndian block.toNat_lt_pow]

/-! ## What stands among the keys of a network -/

/-- Whether a sequence of bytes stands among the keys of a network, from that of the first block to
that of the last one possible. -/
def IsAmongKeys (n : Network) (key : Bytes) : Prop :=
  (compare key (n.blockKey 0)).isGE ∧ (compare key (n.blockKey (-1))).isLE

/-- What stands among the keys of a network starts like them: they have one stem, and what stands
between two sequences with one stem has it too. -/
theorem IsAmongKeys.isPrefix {n : Network} {key : Bytes} (h : n.IsAmongKeys key) :
    n.keyStem <+: key :=
  Bytes.isPrefix_of_between h.1 h.2

/-- The keys of a network stand among its keys, whatever their blocks. -/
theorem isAmongKeys_blockKey (n : Network) (block : Block) : n.IsAmongKeys (n.blockKey block) := by
  have hlast : block.toNat ≤ (-1 : Block).toNat := Nat.le_of_lt_succ block.toNat_lt_size
  rw [IsAmongKeys, n.compare_blockKey, n.compare_blockKey, Std.isGE_compare, Std.isLE_compare]
  exact ⟨Nat.zero_le _, hlast⟩

/-- What starts with the name of a network and the zero byte stands among the keys of no other. -/
theorem eq_of_isAmongKeys {n m : Network} {rest : Bytes} (h : n.IsAmongKeys (m.keyStem ++ rest)) :
    n = m :=
  eq_of_keyStem_isPrefix h.isPrefix

theorem isAmongKeys_blockKey_iff {n m : Network} {block : Block} :
    n.IsAmongKeys (m.blockKey block) ↔ n = m := by
  constructor
  · exact eq_of_isAmongKeys
  · rintro rfl
    exact n.isAmongKeys_blockKey block

/-! ## Keys apart -/

/-- A key is the name of its network, a zero byte and the bytes of its block, and it is known by
these: keys are the same for the same network and block only, those of one network stand in the
order of its blocks, and nothing that starts with another name and the zero byte stands among them
or starts like them.  The last bytes of a key are the number of its block. -/
theorem blockKey_separates (n m : Network) (a b : Block) :
    n.keyStem = n.name.toUTF8.data.toList ++ [0] ∧
      (n.blockKey a = m.blockKey b ↔ n = m ∧ a = b) ∧
      (compare (n.blockKey a) (n.blockKey b) = .lt ↔ a < b) ∧
      (n.IsAmongKeys (m.blockKey b) ↔ n = m) ∧
      (n ≠ m → ∀ rest, ¬ n.IsAmongKeys (m.keyStem ++ rest) ∧ ¬ n.keyStem <+: m.keyStem ++ rest) ∧
      Bytes.ofBigEndian ((n.blockKey a).rtake blockWidth) = a.toNat := by
  refine ⟨?_, blockKey_inj, n.compare_blockKey_eq_lt_iff, isAmongKeys_blockKey_iff, ?_,
    n.ofBigEndian_rtake_blockKey a⟩
  · rw [keyStem, keyStemOf, bytes_eq_toUTF8]
  · intro hne rest
    exact ⟨fun hamong => hne (eq_of_isAmongKeys hamong),
      fun hstem => hne (eq_of_keyStem_isPrefix hstem)⟩

/-- One name starts the other, and still nothing of the longer name stands among the keys of the
shorter one. -/
theorem blockKey_separates_longer_name :
    let n : Network := ⟨"main", by decide⟩
    let m : Network := ⟨"mainnet", by decide⟩
    n ≠ m ∧ n.bytes <+: m.bytes ∧
      ∀ rest, ¬ n.IsAmongKeys (m.keyStem ++ rest) ∧ ¬ n.keyStem <+: m.keyStem ++ rest := by
  intro n m
  have hne : n ≠ m := by decide
  obtain ⟨_, _, _, _, hapart, _⟩ := blockKey_separates n m 0 0
  exact ⟨hne, by decide, hapart hne⟩

end Network
end ChainCoverage
