import ConsensusLedger.Digest.Blake3
import ConsensusLedger.Table
import ConsensusLedger.Wire.Codec

/-!
A keyed collection that counts its writes and has a root hash. The root hash is taken over the
entries in key order, so it depends on the contents alone.
-/

namespace ConsensusLedger

/-- A table together with the number of writes made to it. -/
structure Collection (κ ν : Type) [Ord κ] where
  table : Table κ ν
  /-- The count of writes. Kept in a 64-bit word it would be the same for fewer than 2^64 writes,
  and they are made one at a time. -/
  modifications : Nat

namespace Collection

variable {κ ν : Type} [Ord κ]

def empty : Collection κ ν := ⟨∅, 0⟩

def get? (c : Collection κ ν) (k : κ) : Option ν := c.table.get? k

def contains (c : Collection κ ν) (k : κ) : Bool := c.table.contains k

def size (c : Collection κ ν) : Nat := c.table.size

def entries (c : Collection κ ν) : List (κ × ν) := c.table.entries

/-- Writes a value, whether or not the key had one. -/
def put [Std.TransOrd κ] [Std.LawfulEqOrd κ] (c : Collection κ ν) (k : κ) (v : ν) :
    Collection κ ν :=
  ⟨c.table.insert k v, c.modifications + 1⟩

/-- Removes a key. Only a removal that finds the key counts as a write. -/
def remove (c : Collection κ ν) (k : κ) : Collection κ ν :=
  if c.contains k then ⟨c.table.erase k, c.modifications + 1⟩ else c

def leaves (key : Wire.Codec κ) (value : Wire.Codec ν) (c : Collection κ ν) : List (List UInt8) :=
  c.entries.map (key.pair value).write

def rootHash (key : Wire.Codec κ) (value : Wire.Codec ν) (c : Collection κ ν) : Octets 32 :=
  Digest.blake3Many (c.leaves key value)

end Collection

end ConsensusLedger
