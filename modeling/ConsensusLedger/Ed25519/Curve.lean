import ConsensusLedger.Ed25519.Field
import ConsensusLedger.Octets

/-!
The twisted Edwards curve −x² + y² = 1 + d·x²·y² in extended coordinates, and the 32-byte form of
its points: the y coordinate with the sign of x in the top bit.
-/

namespace ConsensusLedger.Ed25519

/-- A point with x = X/Z, y = Y/Z and xy = T/Z. -/
structure Point where
  x : Fe
  y : Fe
  z : Fe
  t : Fe

/-- The curve constant −121665/121666. -/
def curveD : Fe :=
  ⟨37095705934669439343138083508754565189542113879843219016388785533085940283555⟩

namespace Point

def identity : Point := ⟨0, 1, 1, 0⟩

/-- The generator of the prime-order subgroup. -/
def base : Point :=
  let x : Fe := ⟨15112221349535400772501151409588531511454012693041857206046113283949847762202⟩
  let y : Fe := ⟨46316835694926478169428394003475163141307993866256225615783033603165251855960⟩
  ⟨x, y, 1, x * y⟩

def add (p q : Point) : Point :=
  let a := (p.y - p.x) * (q.y - q.x)
  let b := (p.y + p.x) * (q.y + q.x)
  let c := (curveD + curveD) * p.t * q.t
  let d := (p.z + p.z) * q.z
  let e := b - a
  let f := d - c
  let g := d + c
  let h := b + a
  ⟨e * f, g * h, f * g, e * h⟩

def double (p : Point) : Point :=
  let a := p.x * p.x
  let b := p.y * p.y
  let c := p.z * p.z
  let h := a + b
  let s := p.x + p.y
  let e := h - s * s
  let g := a - b
  let f := c + c + g
  ⟨e * f, g * h, f * g, e * h⟩

def neg (p : Point) : Point := ⟨-p.x, p.y, p.z, -p.t⟩

def mul (k : Nat) (p : Point) : Point :=
  (List.range 256).foldr
    (fun i acc => let s := acc.double; if k.testBit i then s.add p else s) identity

def compress (p : Point) : Octets 32 :=
  let zi := p.z.inv
  let x := p.x * zi
  let y := p.y * zi
  ⟨littleEndian 32 (y.rep + if x.isNegative then 1 <<< 255 else 0), length_littleEndian _ _⟩

/-- The point with a given 32-byte form. The y coordinate may be given by any representative below
2²⁵⁵, and a set sign bit is accepted for x = 0. -/
def decompress? (bytes : Octets 32) : Option Point :=
  let n := ofLittleEndian bytes.val
  let y := Fe.ofNat (n % (1 <<< 255))
  let yy := y * y
  (Fe.sqrtRatio? (yy - 1) (curveD * yy + 1)).map fun root =>
    let x := if n.testBit 255 then -root else root
    ⟨x, y, 1, x * y⟩

end Point

end ConsensusLedger.Ed25519
