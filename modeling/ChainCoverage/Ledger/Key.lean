import ChainCoverage.Block
import ChainCoverage.Network

/-!
# Keys

All networks share one ordered map of byte keys.  The key of an indexed block is the
network's name, a zero byte, and the block's eight bytes with the most significant
first; so the keys of one network stand together, in the order of their blocks.

Main definitions:

- `Network.keyStem` and `Network.blockKey`: keys of indexed blocks.
- `Network.blockOfKey?`: the block a key stands for, if it stands for one.
- `Network.headKey` and `headValue`: the entry for a chain head.
-/

namespace ChainCoverage

/-- Number of bytes in a block number. -/
def blockWidth : Nat := 8

/-- The bytes of a block number, the most significant first. -/
def blockBytes (block : Block) : Bytes :=
  Bytes.bigEndian blockWidth block.toNat

/-- What the keys of a network with this name start with. -/
def keyStemOf (name : Bytes) : Bytes :=
  name ++ [0]

/-- What the entries for chain heads start with. -/
def headTag : UInt8 := 0

/-- The bytes that a chain head is stored as. -/
def headValue (head : Block) : Bytes :=
  Bytes.littleEndian blockWidth head.toNat

/-- The chain head that bytes stand for, if there are eight of them. -/
def headOfValue? (value : Bytes) : Option Block :=
  if value.length = blockWidth then some (.ofNat (Bytes.ofLittleEndian value)) else none

namespace Network

/-- What the keys of the network's blocks start with. -/
def keyStem (n : Network) : Bytes :=
  keyStemOf n.bytes

/-- The key of an indexed block. -/
def blockKey (n : Network) (block : Block) : Bytes :=
  n.keyStem ++ blockBytes block

/-- The block that a key of the network stands for, if the key has the length of such keys. -/
def blockOfKey? (n : Network) (key : Bytes) : Option Block :=
  if key.length = n.keyStem.length + blockWidth then
    some (.ofNat (Bytes.ofBigEndian (key.drop n.keyStem.length)))
  else
    none

/-- The key of the network's chain head. -/
def headKey (n : Network) : Bytes :=
  headTag :: n.bytes

end Network
end ChainCoverage
