import ChainCoverage.Ledger.Basic
import ChainCoverage.Proofs.Bytes

/-!
# The order of keys

A network's name has no zero byte, so the zero byte behind it ends it: a key can be read
back, and the keys of one network stand together although all networks share one map.
Within a network the keys are ordered like their blocks.

Main results:

- `Network.takeWhile_keyStem_append`: the name is what stands before the first zero byte.
- `Network.eq_of_keyStem_isPrefix`: no key of a network starts like the keys of another.
- `Network.compare_blockKey`: the keys of a network are ordered like its blocks.
- `Network.blockKey_inj` and `Network.headKey_inj`: no two entries share a key.
- `Network.blockOfKey?_blockKey` and `headOfValue?_headValue`: what is written is read.
- `Network.eq_blockKey_of_blockOfKey?`: only what is written is read.
-/

namespace ChainCoverage

/-! ## Block numbers and heads as bytes -/

/-- A block number needs no more bytes than it gets. -/
theorem Block.toNat_lt_pow (block : Block) : block.toNat < Nat.pow 256 blockWidth :=
  block.toNat_lt_size

/-- Block numbers as bytes are ordered like block numbers. -/
theorem compare_blockBytes (a b : Block) :
    compare (blockBytes a) (blockBytes b) = compare a.toNat b.toNat :=
  Bytes.compare_bigEndian a.toNat_lt_pow b.toNat_lt_pow

/-- A chain head is read as it was written. -/
@[simp]
theorem headOfValue?_headValue (head : Block) : headOfValue? (headValue head) = some head := by
  have hlength : (headValue head).length = blockWidth := Bytes.length_littleEndian _ _
  rw [headOfValue?, if_pos hlength, headValue, Bytes.ofLittleEndian_littleEndian head.toNat_lt_pow,
    UInt64.ofNat_toNat]

namespace Network

/-! ## Names -/

/-- Networks with the same name are the same. -/
theorem eq_of_name_eq {n m : Network} (h : n.name = m.name) : n = m := by
  cases n
  cases m
  cases h
  rfl

/-- A network is known by its name. -/
@[simp]
theorem ofName_name (n : Network) : ofName n.name = .ok n :=
  dif_pos n.valid

/-- The check gives the network that has the name. -/
theorem ofName_eq_ok_iff {name : String} {n : Network} : ofName name = .ok n ↔ n.name = name := by
  constructor
  · intro hok
    rw [ofName] at hok
    split at hok
    · rw [← Except.ok.inj hok]
    · split at hok <;> contradiction
  · rintro rfl
    exact ofName_name n

/-- A text that is no name is refused. -/
theorem ofName_of_not_isName {name : String} (h : isName name = false) :
    ∃ reason, ofName name = .error reason := by
  rw [ofName, dif_neg (Bool.not_eq_true _ ▸ h)]
  split
  · exact ⟨_, rfl⟩
  · exact ⟨_, rfl⟩

/-! ## Names in keys -/

/-- The characters of names are single bytes other than zero. -/
theorem toNat_of_isNameChar {c : Char} (h : isNameChar c = true) : 0 < c.toNat ∧ c.toNat < 128 := by
  have hrange : ∀ {low high : UInt32}, 0 < low.toNat → high.toNat < 128 →
      c.val ≥ low ∧ c.val ≤ high → 0 < c.toNat ∧ c.toNat < 128 := by
    rintro low high hpos hlt ⟨hlow, hhigh⟩
    exact ⟨Nat.lt_of_lt_of_le hpos (UInt32.le_iff_toNat_le.1 hlow),
      Nat.lt_of_le_of_lt (UInt32.le_iff_toNat_le.1 hhigh) hlt⟩
  rw [isNameChar, Bool.or_eq_true, Bool.or_eq_true] at h
  rcases h with (halphanum | hhyphen) | hunderscore
  · have hclasses : ((c.isUpper || c.isLower) || c.isDigit) = true := halphanum
    rw [Bool.or_eq_true, Bool.or_eq_true] at hclasses
    rcases hclasses with (hupper | hlower) | hdigit
    · exact hrange (by decide) (by decide) (of_decide_eq_true hupper)
    · have hboth := (Bool.decide_and (c.val ≥ 'a'.val) (c.val ≤ 'z'.val)).trans hlower
      exact hrange (by decide) (by decide) (of_decide_eq_true hboth)
    · have hboth := (Bool.decide_and (c.val ≥ '0'.val) (c.val ≤ '9'.val)).trans hdigit
      exact hrange (by decide) (by decide) (of_decide_eq_true hboth)
  · rw [eq_of_beq hhyphen]
    decide
  · rw [eq_of_beq hunderscore]
    decide

/-- A name consists of name characters. -/
theorem isNameChar_of_mem (n : Network) {c : Char} (hmem : c ∈ n.name.toList) :
    isNameChar c = true := by
  have hvalid := n.valid
  rw [isName, Bool.and_eq_true, List.all_eq_true] at hvalid
  exact hvalid.2 c hmem

/-- No name has a zero byte. -/
theorem zero_notMem_bytes (n : Network) : (0 : UInt8) ∉ n.bytes := by
  intro hmem
  obtain ⟨c, hc, hzero⟩ := List.mem_map.1 hmem
  obtain ⟨hpos, hlt⟩ := toNat_of_isNameChar (n.isNameChar_of_mem hc)
  have hbyte : (UInt8.ofNat c.toNat).toNat = 0 := congrArg UInt8.toNat hzero
  rw [UInt8.toNat_ofNat', Nat.mod_eq_of_lt (by omega)] at hbyte
  omega

/-- The characters of a name, read back from its bytes. -/
theorem map_ofNat_bytes (n : Network) :
    n.bytes.map (fun byte => Char.ofNat byte.toNat) = n.name.toList := by
  rw [bytes, List.map_map]
  refine (List.map_congr_left fun c hc => ?_).trans (List.map_id _)
  have hlt := (toNat_of_isNameChar (n.isNameChar_of_mem hc)).2
  have hbyte : (UInt8.ofNat c.toNat).toNat = c.toNat := by
    rw [UInt8.toNat_ofNat', Nat.mod_eq_of_lt (by omega)]
  rw [Function.comp_apply, hbyte, Char.ofNat_toNat, id_eq]

/-- Networks with the same bytes are the same. -/
theorem bytes_inj {n m : Network} : n.bytes = m.bytes ↔ n = m := by
  refine ⟨fun h => ?_, fun h => congrArg bytes h⟩
  have hchars : n.name.toList = m.name.toList := by
    rw [← map_ofNat_bytes, ← map_ofNat_bytes, h]
  exact eq_of_name_eq (String.toList_injective hchars)

/-- The name is what stands before the first zero byte. -/
theorem takeWhile_keyStem_append (n : Network) (rest : Bytes) :
    (n.keyStem ++ rest).takeWhile (· ≠ 0) = n.bytes := by
  have hname : ∀ byte ∈ n.bytes, decide (byte ≠ 0) = true := by
    intro byte hmem
    rw [decide_eq_true_iff]
    rintro rfl
    exact n.zero_notMem_bytes hmem
  rw [keyStem, keyStemOf, List.append_assoc, List.takeWhile_append_of_pos hname]
  simp

/-- Only the network's own keys start like them, even when its name starts another name. -/
theorem eq_of_keyStem_isPrefix {n m : Network} {rest : Bytes}
    (h : n.keyStem <+: m.keyStem ++ rest) : n = m := by
  obtain ⟨tail, htail⟩ := h
  have hname := congrArg (List.takeWhile (· ≠ 0)) htail
  rwa [takeWhile_keyStem_append, takeWhile_keyStem_append, bytes_inj] at hname

/-! ## Keys of blocks -/

/-- The keys of a network are ordered like its blocks. -/
theorem compare_blockKey (n : Network) (a b : Block) :
    compare (n.blockKey a) (n.blockKey b) = compare a.toNat b.toNat := by
  rw [blockKey, blockKey, Bytes.compare_append_left, compare_blockBytes]

/-- The key of a block stands in front of the keys of larger blocks. -/
theorem compare_blockKey_eq_lt_iff (n : Network) {a b : Block} :
    compare (n.blockKey a) (n.blockKey b) = .lt ↔ a < b := by
  rw [n.compare_blockKey, Nat.compare_eq_lt, UInt64.lt_iff_toNat_lt]

/-- The key of a block does not stand behind the keys of blocks that are as large. -/
theorem isLE_compare_blockKey_iff (n : Network) {a b : Block} :
    (compare (n.blockKey a) (n.blockKey b)).isLE ↔ a ≤ b := by
  rw [n.compare_blockKey, Std.isLE_compare, UInt64.le_iff_toNat_le]

/-- No two blocks share a key, of one network or of two. -/
theorem blockKey_inj {n m : Network} {a b : Block} :
    n.blockKey a = m.blockKey b ↔ n = m ∧ a = b := by
  constructor
  · intro h
    have hstem : n.keyStem <+: m.keyStem ++ blockBytes b := by
      rw [← blockKey, ← h]
      exact List.prefix_append _ _
    obtain rfl := eq_of_keyStem_isPrefix hstem
    have hcompare := n.compare_blockKey a b
    rw [h, Std.compare_self, eq_comm, Nat.compare_eq_eq, UInt64.toNat_inj] at hcompare
    exact ⟨rfl, hcompare⟩
  · rintro ⟨rfl, rfl⟩
    rfl

/-- All keys of a network have the same length. -/
theorem length_blockKey (n : Network) (block : Block) :
    (n.blockKey block).length = n.keyStem.length + blockWidth := by
  rw [blockKey, List.length_append, blockBytes, Bytes.length_bigEndian]

/-- The key of a block stands for that block. -/
@[simp]
theorem blockOfKey?_blockKey (n : Network) (block : Block) :
    n.blockOfKey? (n.blockKey block) = some block := by
  rw [blockOfKey?, if_pos (n.length_blockKey block), blockKey, List.drop_left, blockBytes,
    Bytes.ofBigEndian_bigEndian block.toNat_lt_pow, UInt64.ofNat_toNat]

/-- A key of a network stands for a block unless it is too long or too short. -/
theorem blockOfKey?_eq_none_iff {n : Network} {key : Bytes} :
    n.blockOfKey? key = none ↔ key.length ≠ n.keyStem.length + blockWidth := by
  unfold blockOfKey?
  split
  · rename_i hlength
    simp [hlength]
  · rename_i hlength
    simp [hlength]

/-- Distinct blocks of a network have distinct keys. -/
theorem blockKey_injective (n : Network) : Function.Injective n.blockKey :=
  fun _ _ h => (blockKey_inj.1 h).2

/-- A key that starts like the keys of a network and has their length is the key of the block that
it stands for. -/
theorem eq_blockKey_of_blockOfKey? {n : Network} {key : Bytes} {block : Block}
    (hstem : n.keyStem <+: key) (h : n.blockOfKey? key = some block) : key = n.blockKey block := by
  obtain ⟨rest, rfl⟩ := hstem
  rw [blockOfKey?, List.drop_left, List.length_append] at h
  split at h
  · rename_i hlength
    have hwidth : rest.length = blockWidth := Nat.add_left_cancel hlength
    cases h
    have hlt : Bytes.ofBigEndian rest < UInt64.size := by
      have hlt := Bytes.ofBigEndian_lt rest
      rwa [hwidth] at hlt
    have hrest := Bytes.bigEndian_ofBigEndian rest
    rw [hwidth] at hrest
    rw [blockKey, blockBytes, UInt64.toNat_ofNat_of_lt' hlt, hrest]
  · contradiction

/-! ## Keys of heads -/

/-- No two heads share a key. -/
theorem headKey_inj {n m : Network} : n.headKey = m.headKey ↔ n = m := by
  rw [headKey, headKey, List.cons_inj_right, bytes_inj]

end Network
end ChainCoverage
