import ConsensusLedger.Octets

/-!
The hash functions SHA-384 and SHA-512. They share one compression function on eight 64-bit words
and differ in the words they start from and in how much of the last state they keep. SHA-384 makes
a running hash: a head that each absorbed item moves on, so that it commits to the items and their
order.
-/

namespace ConsensusLedger.Digest

structure ShaState where
  a : UInt64
  b : UInt64
  c : UInt64
  d : UInt64
  e : UInt64
  f : UInt64
  g : UInt64
  h : UInt64

namespace ShaState

def add (s t : ShaState) : ShaState :=
  ⟨s.a + t.a, s.b + t.b, s.c + t.c, s.d + t.d, s.e + t.e, s.f + t.f, s.g + t.g, s.h + t.h⟩

def bytes (s : ShaState) : List UInt8 :=
  [s.a, s.b, s.c, s.d, s.e, s.f, s.g, s.h].flatMap fun w => bigEndian 8 w.toNat

end ShaState

/-- One constant for each of the eighty rounds: the leading fractional bits of the cube roots of the
first primes. -/
def shaConstants : List UInt64 := [
  0x428a2f98d728ae22, 0x7137449123ef65cd, 0xb5c0fbcfec4d3b2f, 0xe9b5dba58189dbbc,
  0x3956c25bf348b538, 0x59f111f1b605d019, 0x923f82a4af194f9b, 0xab1c5ed5da6d8118,
  0xd807aa98a3030242, 0x12835b0145706fbe, 0x243185be4ee4b28c, 0x550c7dc3d5ffb4e2,
  0x72be5d74f27b896f, 0x80deb1fe3b1696b1, 0x9bdc06a725c71235, 0xc19bf174cf692694,
  0xe49b69c19ef14ad2, 0xefbe4786384f25e3, 0x0fc19dc68b8cd5b5, 0x240ca1cc77ac9c65,
  0x2de92c6f592b0275, 0x4a7484aa6ea6e483, 0x5cb0a9dcbd41fbd4, 0x76f988da831153b5,
  0x983e5152ee66dfab, 0xa831c66d2db43210, 0xb00327c898fb213f, 0xbf597fc7beef0ee4,
  0xc6e00bf33da88fc2, 0xd5a79147930aa725, 0x06ca6351e003826f, 0x142929670a0e6e70,
  0x27b70a8546d22ffc, 0x2e1b21385c26c926, 0x4d2c6dfc5ac42aed, 0x53380d139d95b3df,
  0x650a73548baf63de, 0x766a0abb3c77b2a8, 0x81c2c92e47edaee6, 0x92722c851482353b,
  0xa2bfe8a14cf10364, 0xa81a664bbc423001, 0xc24b8b70d0f89791, 0xc76c51a30654be30,
  0xd192e819d6ef5218, 0xd69906245565a910, 0xf40e35855771202a, 0x106aa07032bbd1b8,
  0x19a4c116b8d2d0c8, 0x1e376c085141ab53, 0x2748774cdf8eeb99, 0x34b0bcb5e19b48a8,
  0x391c0cb3c5c95a63, 0x4ed8aa4ae3418acb, 0x5b9cca4f7763e373, 0x682e6ff3d6b2b8a3,
  0x748f82ee5defb2fc, 0x78a5636f43172f60, 0x84c87814a1f0ab72, 0x8cc702081a6439ec,
  0x90befffa23631e28, 0xa4506cebde82bde9, 0xbef9a3f7b2c67915, 0xc67178f2e372532b,
  0xca273eceea26619c, 0xd186b8c721c0c207, 0xeada7dd6cde0eb1e, 0xf57d4f7fee6ed178,
  0x06f067aa72176fba, 0x0a637dc5a2c898a6, 0x113f9804bef90dae, 0x1b710b35131c471b,
  0x28db77f523047d84, 0x32caab7b40c72493, 0x3c9ebe0a15c9bebc, 0x431d67c49c100d4c,
  0x4cc5d4becb3e42b6, 0x597f299cfc657e2a, 0x5fcb6fab3ad6faec, 0x6c44198c4a475817]

def sha512Start : ShaState :=
  ⟨0x6a09e667f3bcc908, 0xbb67ae8584caa73b, 0x3c6ef372fe94f82b, 0xa54ff53a5f1d36f1,
   0x510e527fade682d1, 0x9b05688c2b3e6c1f, 0x1f83d9abfb41bd6b, 0x5be0cd19137e2179⟩

def sha384Start : ShaState :=
  ⟨0xcbbb9d5dc1059ed8, 0x629a292a367cd507, 0x9159015a3070dd17, 0x152fecd8f70e5939,
   0x67332667ffc00b31, 0x8eb44a8768581511, 0xdb0c2e0d64f98fa7, 0x47b5481dbefa4fa4⟩

private def rotr (w n : UInt64) : UInt64 := (w >>> n) ||| (w <<< (64 - n))

private def bigSigma0 (w : UInt64) : UInt64 := rotr w 28 ^^^ rotr w 34 ^^^ rotr w 39
private def bigSigma1 (w : UInt64) : UInt64 := rotr w 14 ^^^ rotr w 18 ^^^ rotr w 41
private def smallSigma0 (w : UInt64) : UInt64 := rotr w 1 ^^^ rotr w 8 ^^^ (w >>> 7)
private def smallSigma1 (w : UInt64) : UInt64 := rotr w 19 ^^^ rotr w 61 ^^^ (w >>> 6)
private def choose (e f g : UInt64) : UInt64 := (e &&& f) ^^^ (~~~e &&& g)
private def majority (a b c : UInt64) : UInt64 := (a &&& b) ^^^ (a &&& c) ^^^ (b &&& c)

/-- The window of sixteen schedule words moves on by one word. -/
def slideSchedule (w : List UInt64) : List UInt64 :=
  w.drop 1 ++ [smallSigma1 (w.getD 14 0) + w.getD 9 0 + smallSigma0 (w.getD 1 0) + w.getD 0 0]

def shaRound (k w : UInt64) (s : ShaState) : ShaState :=
  let t1 := s.h + bigSigma1 s.e + choose s.e s.f s.g + k + w
  let t2 := bigSigma0 s.a + majority s.a s.b s.c
  ⟨t1 + t2, s.a, s.b, s.c, s.d + t1, s.e, s.f, s.g⟩

/-- The rounds for the given constants, over a window of schedule words. -/
def shaRounds : List UInt64 → List UInt64 → ShaState → ShaState
  | [], _, s => s
  | k :: ks, w, s => shaRounds ks (slideSchedule w) (shaRound k (w.getD 0 0) s)

/-- Cuts off `count` pieces of `size` elements each. -/
def pieces {α : Type} (size : Nat) : Nat → List α → List (List α)
  | 0, _ => []
  | count + 1, xs => xs.take size :: pieces size count (xs.drop size)

def shaBlock (s : ShaState) (block : List UInt8) : ShaState :=
  let words := (pieces 8 16 block).map fun w => UInt64.ofNat (ofBigEndian w)
  s.add (shaRounds shaConstants words s)

/-- A message filled up to whole blocks: a one bit, zeros, and its length in bits. -/
def shaPad (msg : List UInt8) : List UInt8 :=
  msg ++ 0x80 :: List.replicate ((239 - msg.length % 128) % 128) 0 ++ bigEndian 16 (8 * msg.length)

def shaDigest (start : ShaState) (msg : List UInt8) : List UInt8 :=
  let padded := shaPad msg
  ((pieces 128 (padded.length / 128) padded).foldl shaBlock start).bytes

private theorem length_bytes (s : ShaState) : s.bytes.length = 64 := by
  simp [ShaState.bytes, bigEndian]

private theorem length_shaDigest (start : ShaState) (msg : List UInt8) :
    (shaDigest start msg).length = 64 := length_bytes _

def sha512 (msg : List UInt8) : Octets 64 :=
  ⟨shaDigest sha512Start msg, length_shaDigest _ _⟩

def sha384 (msg : List UInt8) : Octets 48 :=
  ⟨(shaDigest sha384Start msg).take 48, by simp [length_shaDigest]⟩

/-- The bytes hashed when an item joins a chain: the head so far and the item's own digest. -/
def linkInput (head : Octets 48) (item : List UInt8) : List UInt8 :=
  head.val ++ (sha384 item).val

/-- The head after one more item. -/
def link (head : Octets 48) (item : List UInt8) : Octets 48 := sha384 (linkInput head item)

def chain (seed : Octets 48) (items : List (List UInt8)) : Octets 48 := items.foldl link seed

@[simp] theorem chain_nil (seed : Octets 48) : chain seed [] = seed := rfl

theorem chain_append (seed : Octets 48) (xs ys : List (List UInt8)) :
    chain seed (xs ++ ys) = chain (chain seed xs) ys := List.foldl_append

theorem chain_concat (seed : Octets 48) (xs : List (List UInt8)) (x : List UInt8) :
    chain seed (xs ++ [x]) = link (chain seed xs) x := by
  rw [chain_append]; rfl

end ConsensusLedger.Digest
