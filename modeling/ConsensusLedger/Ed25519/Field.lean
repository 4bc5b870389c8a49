/-!
The field of integers modulo 2²⁵⁵ − 19, by representatives below the modulus.
-/

namespace ConsensusLedger.Ed25519

def modulus : Nat := (1 <<< 255) - 19

/-- A field element, as the representative below the modulus. -/
structure Fe where
  rep : Nat
  deriving DecidableEq, Repr

namespace Fe

def ofNat (n : Nat) : Fe := ⟨n % modulus⟩

instance : Zero Fe := ⟨⟨0⟩⟩
instance : One Fe := ⟨⟨1⟩⟩
instance : Add Fe := ⟨fun a b => ofNat (a.rep + b.rep)⟩
instance : Sub Fe := ⟨fun a b => ofNat (a.rep + (modulus - b.rep))⟩
instance : Mul Fe := ⟨fun a b => ofNat (a.rep * b.rep)⟩
instance : Neg Fe := ⟨fun a => ofNat (modulus - a.rep)⟩

/-- A power with a 256-bit exponent, by repeated squaring. -/
def pow (a : Fe) (e : Nat) : Fe :=
  (List.range 256).foldr (fun i acc => let s := acc * acc; if e.testBit i then s * a else s) 1

def inv (a : Fe) : Fe := a.pow (modulus - 2)

/-- Of the two square roots of a nonzero square, the odd representative is the negative one. -/
def isNegative (a : Fe) : Bool := a.rep % 2 = 1

def sqrtMinusOne : Fe := (ofNat 2).pow ((modulus - 1) / 4)

/-- The nonnegative square root of `u / v`, if there is one. -/
def sqrtRatio? (u v : Fe) : Option Fe :=
  let v3 := v * v * v
  let r := u * v3 * (u * v3 * v3 * v).pow ((modulus - 5) / 8)
  let check := v * r * r
  let root? :=
    if check = u then some r
    else if check = -u then some (r * sqrtMinusOne)
    else none
  root?.map fun r => if r.isNegative then -r else r

end Fe

end ConsensusLedger.Ed25519
