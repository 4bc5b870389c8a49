import ConsensusLedger.Entity
import ConsensusLedger.Key
import ConsensusLedger.Timestamp
import ConsensusLedger.Wire.Codec

/-!
Written forms of identifiers, timestamps and keys.
-/

namespace ConsensusLedger

open Wire

def EntityId.codec : Codec EntityId :=
  (Codec.u64.pair (Codec.u64.pair Codec.u64)).imap
    (fun (shard, realm, num) => ⟨shard, realm, num⟩)
    (fun id => (id.shard, id.realm, id.num))

def Timestamp.codec : Codec Timestamp :=
  (Codec.i64.pair Codec.u32).imap (fun (seconds, nanos) => ⟨seconds, nanos⟩)
    (fun t => (t.seconds, t.nanos))

def PublicKey.codec : Codec PublicKey := Codec.fixed 32

namespace Key

mutual

def write : Key → List UInt8
  | .ed25519 k => tag 0 ++ PublicKey.codec.write k
  | .list ks => tag 1 ++ littleEndian 8 ks.length ++ writeAll ks
  | .threshold n ks => tag 2 ++ Codec.u32.write n ++ littleEndian 8 ks.length ++ writeAll ks

def writeAll : List Key → List UInt8
  | [] => []
  | k :: ks => k.write ++ writeAll ks

end

/-- Reads a key nested at most `depth` deep. -/
def readNested : Nat → Reader Key
  | 0, _ => .error .endOfInput
  | depth + 1, bytes => do
    let (t, rest) ← (Codec.number 4).read bytes
    match t with
    | 0 =>
      let (k, rest) ← PublicKey.codec.read rest
      return (.ed25519 k, rest)
    | 1 =>
      let (n, rest) ← (Codec.number 8).read rest
      let (ks, rest) ← Codec.readTimes (readNested depth) n rest
      return (.list ks, rest)
    | 2 =>
      let (count, rest) ← Codec.u32.read rest
      let (n, rest) ← (Codec.number 8).read rest
      let (ks, rest) ← Codec.readTimes (readNested depth) n rest
      return (.threshold count ks, rest)
    | t => throw (.badVariant t 3)

/-- The written form of a key. Each level takes up bytes, so the bytes bound the depth. -/
def codec : Codec Key where
  write := write
  read bytes := readNested (bytes.length + 1) bytes

end Key

end ConsensusLedger
