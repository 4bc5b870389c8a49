import ConsensusLedger.Digest.Sha2

/-!
The hash function BLAKE3 without a key. A message of at most 1024 bytes is one chunk; a longer one
splits at the largest power-of-two number of chunks that leaves something on the right, and the
halves meet in a parent node.
-/

namespace ConsensusLedger.Digest

/-- Four words that are worked on side by side. -/
structure Lanes where
  x0 : UInt32
  x1 : UInt32
  x2 : UInt32
  x3 : UInt32

namespace Lanes

def zip (f : UInt32 → UInt32 → UInt32) (a b : Lanes) : Lanes :=
  ⟨f a.x0 b.x0, f a.x1 b.x1, f a.x2 b.x2, f a.x3 b.x3⟩

def map (f : UInt32 → UInt32) (a : Lanes) : Lanes := ⟨f a.x0, f a.x1, f a.x2, f a.x3⟩

def turn (a : Lanes) : Lanes := ⟨a.x1, a.x2, a.x3, a.x0⟩

def words (a : Lanes) : List UInt32 := [a.x0, a.x1, a.x2, a.x3]

end Lanes

/-- The sixteen working words as four rows. -/
structure Grid where
  a : Lanes
  b : Lanes
  c : Lanes
  d : Lanes

private def rotr32 (n w : UInt32) : UInt32 := (w >>> n) ||| (w <<< (32 - n))

/-- Half a quarter round, with the message words `m` and the two rotation distances. -/
def Grid.mix (r s : UInt32) (m : Lanes) (g : Grid) : Grid :=
  let a := (g.a.zip (· + ·) g.b).zip (· + ·) m
  let d := (g.d.zip (· ^^^ ·) a).map (rotr32 r)
  let c := g.c.zip (· + ·) d
  ⟨a, (g.b.zip (· ^^^ ·) c).map (rotr32 s), c, d⟩

def Grid.quarter (m m' : Lanes) (g : Grid) : Grid := (g.mix 16 12 m).mix 8 7 m'

private def pick (m : List UInt32) (i j k l : Nat) : Lanes :=
  ⟨m.getD i 0, m.getD j 0, m.getD k 0, m.getD l 0⟩

/-- A round: columns, then diagonals. -/
def Grid.round (m : List UInt32) (g : Grid) : Grid :=
  let g := g.quarter (pick m 0 2 4 6) (pick m 1 3 5 7)
  let g := (Grid.mk g.a g.b.turn g.c.turn.turn g.d.turn.turn.turn).quarter
    (pick m 8 10 12 14) (pick m 9 11 13 15)
  ⟨g.a, g.b.turn.turn.turn, g.c.turn.turn, g.d.turn⟩

/-- The order in which the next round reads the message words. -/
def blakeOrder : List Nat := [2, 6, 3, 10, 7, 0, 4, 13, 1, 11, 12, 5, 9, 14, 15, 8]

def Grid.rounds : Nat → List UInt32 → Grid → Grid
  | 0, _, g => g
  | n + 1, m, g => Grid.rounds n (blakeOrder.map fun i => m.getD i 0) (g.round m)

def blakeStart : List UInt32 :=
  [0x6a09e667, 0xbb67ae85, 0x3c6ef372, 0xa54ff53a, 0x510e527f, 0x9b05688c, 0x1f83d9ab, 0x5be0cd19]

/-- What is still to be compressed: a node is finished in one way for its parent and in another at
the root. -/
structure BlakeNode where
  chaining : List UInt32
  block : List UInt8
  counter : Nat
  flags : UInt32

private def toWords (count : Nat) (bytes : List UInt8) : List UInt32 :=
  (pieces 4 count bytes).map fun w => UInt32.ofNat (ofLittleEndian w)

/-- The first eight words of the compressed node; `extra` are added flags. -/
def BlakeNode.compress (n : BlakeNode) (extra : UInt32) : List UInt32 :=
  let lanes (ws : List UInt32) (i : Nat) := pick ws i (i + 1) (i + 2) (i + 3)
  let g : Grid := ⟨lanes n.chaining 0, lanes n.chaining 4, lanes blakeStart 0,
    ⟨UInt32.ofNat n.counter, UInt32.ofNat (n.counter >>> 32), UInt32.ofNat n.block.length,
      n.flags ||| extra⟩⟩
  let g := Grid.rounds 7 (toWords 16 n.block) g
  (g.a.zip (· ^^^ ·) g.c).words ++ (g.b.zip (· ^^^ ·) g.d).words

private def chunkStart : UInt32 := 1
private def chunkEnd : UInt32 := 2
private def parent : UInt32 := 4
private def root : UInt32 := 8

/-- The node of one chunk; `first` is set for its first block. `fuel` bounds the blocks left. -/
def chunkNode (counter : Nat) : Nat → UInt32 → List UInt32 → List UInt8 → BlakeNode
  | 0, first, cv, bytes => ⟨cv, bytes, counter, first ||| chunkEnd⟩
  | fuel + 1, first, cv, bytes =>
    if bytes.length ≤ 64 then ⟨cv, bytes, counter, first ||| chunkEnd⟩
    else
      let cv := (BlakeNode.mk cv (bytes.take 64) counter first).compress 0
      chunkNode counter fuel 0 cv (bytes.drop 64)

/-- The number of bytes that go to the left of a message longer than one chunk. -/
def leftLength (length : Nat) : Nat := 1024 <<< Nat.log2 ((length - 1) / 1024)

/-- The node of a run of chunks that begins at chunk `counter`. `fuel` bounds the depth. -/
def treeNode : Nat → Nat → List UInt8 → BlakeNode
  | 0, counter, bytes => chunkNode counter 16 chunkStart blakeStart bytes
  | fuel + 1, counter, bytes =>
    if bytes.length ≤ 1024 then chunkNode counter 16 chunkStart blakeStart bytes
    else
      let n := leftLength bytes.length
      let left := (treeNode fuel counter (bytes.take n)).compress 0
      let right := (treeNode fuel (counter + n / 1024) (bytes.drop n)).compress 0
      ⟨blakeStart, (left ++ right).flatMap fun w => littleEndian 4 w.toNat, 0, parent⟩

def blake3 (bytes : List UInt8) : Octets 32 :=
  ⟨((treeNode bytes.length 0 bytes).compress root).flatMap fun w => littleEndian 4 w.toNat,
    by simp [BlakeNode.compress, Lanes.words]⟩

/-- The bytes hashed for a list of byte strings: each is preceded by its length in eight bytes, so
different lists give different bytes. -/
def framed (parts : List (List UInt8)) : List UInt8 :=
  parts.flatMap fun p => littleEndian 8 p.length ++ p

def blake3Many (parts : List (List UInt8)) : Octets 32 := blake3 (framed parts)

end ConsensusLedger.Digest
