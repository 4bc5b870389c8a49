import ConsensusLedger.Digest.Sha2
import ConsensusLedger.Ed25519.Curve

/-!
Ed25519 signatures. A signature is a point R and a scalar S; it verifies for a public key A when the
32-byte form of S·B − k·A is R, where k is the hash of R, A and the message.
-/

namespace ConsensusLedger

abbrev PublicKey := Octets 32

inductive SignatureError where
  | signatureVerificationFailed
  | invalidSignatureFormat (length : Nat)
  | invalidPublicKey
  deriving DecidableEq, Repr

namespace SignatureError

def message : SignatureError → String
  | signatureVerificationFailed => "Signature verification failed"
  | invalidSignatureFormat n => s!"Invalid signature format: expected 64 bytes, got {n}"
  | invalidPublicKey => "Invalid public key"

end SignatureError

namespace Ed25519

def groupOrder : Nat := (1 <<< 252) + 27742317777372353535851937790883648493

private def scalarOfHash (bytes : List UInt8) : Nat :=
  ofLittleEndian (Digest.sha512 bytes).val % groupOrder

/-- The secret scalar of a seed: the lower half of its hash, a multiple of eight with the top bit
of its 255 bits set. -/
def secretScalar (seed : Octets 32) : Nat :=
  let n := ofLittleEndian ((Digest.sha512 seed.val).val.take 32)
  n % (1 <<< 254) / 8 * 8 + (1 <<< 254)

def publicKey (seed : Octets 32) : PublicKey := (Point.base.mul (secretScalar seed)).compress

def sign (seed : Octets 32) (message : List UInt8) : List UInt8 :=
  let r := scalarOfHash ((Digest.sha512 seed.val).val.drop 32 ++ message)
  let rBytes := (Point.base.mul r).compress.val
  let k := scalarOfHash (rBytes ++ (publicKey seed).val ++ message)
  rBytes ++ littleEndian 32 ((r + k * secretScalar seed) % groupOrder)

/-- Checks a signature. The key is looked at first, then the length, then the signature itself. -/
def verify (key : PublicKey) (message signature : List UInt8) : Except SignatureError Unit :=
  match Point.decompress? key with
  | none => .error .invalidPublicKey
  | some a =>
    if signature.length ≠ 64 then .error (.invalidSignatureFormat signature.length)
    else
      let rBytes := signature.take 32
      let s := ofLittleEndian (signature.drop 32)
      let k := scalarOfHash (rBytes ++ key.val ++ message)
      if s < groupOrder ∧ ((Point.base.mul s).add (a.neg.mul k)).compress.val = rBytes then .ok ()
      else .error .signatureVerificationFailed

def verifies (key : PublicKey) (message signature : List UInt8) : Bool :=
  (verify key message signature).isOk

end Ed25519

end ConsensusLedger
