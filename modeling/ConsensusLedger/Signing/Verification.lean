import ConsensusLedger.Signing.Expansion

/-!
Verification of signature maps. Which keys a map signs for depends on the map and the message only;
the number of claims decides whether they are verified on the spot or in parallel.
-/

namespace ConsensusLedger.Signing

structure ScopedSignature where
  key : PublicKey
  valid : Bool
  deriving DecidableEq, Repr

/-- Where signatures are verified: by the caller, or by a pool while the caller waits. -/
inductive Completion where
  | sync
  | async
  deriving DecidableEq, Repr

/-- How the resolution of signatures ended. -/
structure SignatureStatus where
  code : Status
  mode : Completion
  deriving DecidableEq, Repr

def SignatureStatus.isError (s : SignatureStatus) : Bool := !s.code.isOk

/-- The verdicts on a signature map. -/
structure Verified where
  signatures : List ScopedSignature
  status : SignatureStatus
  deriving DecidableEq, Repr

namespace Verified

def hasValid (v : Verified) (key : PublicKey) : Bool :=
  v.signatures.any fun s => s.valid && s.key = key

/-- The distinct keys with a valid signature. -/
def validKeys (v : Verified) : List PublicKey :=
  distinct ((v.signatures.filter (·.valid)).map (·.key))

end Verified

/-- A test of a signature: key, message, signature. -/
abbrev Verifier := PublicKey → List UInt8 → List UInt8 → Bool

structure VerifierConfig where
  verifier : Verifier
  /-- From so many claims on, but at least one, they are verified in parallel. -/
  parallelThreshold : Nat

/-- Verifies the claims of a map for the required keys over a message. -/
def VerifierConfig.verifyMap (c : VerifierConfig) (message : List UInt8) (pairs : SignatureMap)
    (required : List PublicKey) : Verified :=
  match expand pairs required with
  | .error code => ⟨[], ⟨code, .sync⟩⟩
  | .ok claimed =>
    ⟨claimed.map fun s => ⟨s.key, c.verifier s.key message s.signature⟩,
      ⟨.ok, if max c.parallelThreshold 1 ≤ claimed.length then .async else .sync⟩⟩

end ConsensusLedger.Signing
