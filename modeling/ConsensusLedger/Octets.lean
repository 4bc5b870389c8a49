/-!
Byte strings of a fixed length, and the little-endian and big-endian digits of a number.
-/

namespace ConsensusLedger

/-- Byte strings of length `n`. -/
abbrev Octets (n : Nat) := { bytes : List UInt8 // bytes.length = n }

namespace Octets

def ofList? (n : Nat) (bytes : List UInt8) : Option (Octets n) :=
  if h : bytes.length = n then some ⟨bytes, h⟩ else none

def replicate (n : Nat) (b : UInt8) : Octets n :=
  ⟨List.replicate n b, List.length_replicate⟩

theorem ofList?_val {n : Nat} (o : Octets n) : ofList? n o.val = some o := by
  simp [ofList?, o.property]

theorem ofList?_eq_some_iff {n : Nat} {bytes : List UInt8} {o : Octets n} :
    ofList? n bytes = some o ↔ bytes = o.val := by
  constructor
  · intro h
    unfold ofList? at h
    split at h
    · cases h; rfl
    · cases h
  · rintro rfl
    exact ofList?_val o

end Octets

/-- The `w` lowest base-256 digits of `n`, least significant first. -/
def littleEndian : Nat → Nat → List UInt8
  | 0, _ => []
  | w + 1, n => UInt8.ofNat n :: littleEndian w (n / 256)

/-- The number whose base-256 digits are given, least significant first. -/
def ofLittleEndian : List UInt8 → Nat
  | [] => 0
  | b :: rest => b.toNat + 256 * ofLittleEndian rest

/-- The `w` lowest base-256 digits of `n`, most significant first. -/
def bigEndian (w n : Nat) : List UInt8 := (littleEndian w n).reverse

/-- The number whose base-256 digits are given, most significant first. -/
def ofBigEndian (bytes : List UInt8) : Nat :=
  bytes.foldl (fun acc b => 256 * acc + b.toNat) 0

@[simp] theorem length_littleEndian (w n : Nat) : (littleEndian w n).length = w := by
  induction w generalizing n with
  | zero => rfl
  | succ w ih => simp [littleEndian, ih]

theorem ofLittleEndian_littleEndian (w n : Nat) :
    ofLittleEndian (littleEndian w n) = n % Nat.pow 256 w := by
  induction w generalizing n with
  | zero => simp [littleEndian, ofLittleEndian, Nat.mod_one]
  | succ w ih =>
    have hpow : Nat.pow 256 (w + 1) = 256 * Nat.pow 256 w := Nat.mul_comm _ _
    rw [hpow, Nat.mod_mul]
    simp only [littleEndian, ofLittleEndian, ih, UInt8.toNat_ofNat']

theorem littleEndian_ofLittleEndian (bytes : List UInt8) :
    littleEndian bytes.length (ofLittleEndian bytes) = bytes := by
  induction bytes with
  | nil => rfl
  | cons b rest ih =>
    have hb : b.toNat < 256 := b.toNat_lt
    have hdiv : (b.toNat + 256 * ofLittleEndian rest) / 256 = ofLittleEndian rest := by omega
    simp only [List.length_cons, littleEndian, ofLittleEndian, hdiv, ih, List.cons.injEq, and_true]
    apply UInt8.toNat_inj.1
    rw [UInt8.toNat_ofNat']
    omega

theorem ofLittleEndian_lt (bytes : List UInt8) :
    ofLittleEndian bytes < Nat.pow 256 bytes.length := by
  induction bytes with
  | nil => simp [ofLittleEndian]
  | cons b rest ih =>
    have hb : b.toNat < 256 := b.toNat_lt
    have hpow : Nat.pow 256 (rest.length + 1) = 256 * Nat.pow 256 rest.length := Nat.mul_comm _ _
    rw [List.length_cons, hpow, ofLittleEndian]
    omega

end ConsensusLedger
