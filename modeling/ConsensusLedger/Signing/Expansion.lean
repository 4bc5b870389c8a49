import ConsensusLedger.Status
import ConsensusLedger.Transaction.Basic

/-!
Attribution of signatures to the keys that have to sign. A pair speaks for every required key that
its key prefix begins; a required key for which two pairs speak makes the whole map ambiguous.
-/

namespace ConsensusLedger.Signing

/-- The signature claimed for a required key. -/
structure Claimed where
  key : PublicKey
  signature : List UInt8
  deriving DecidableEq, Repr

/-- The elements of a list without repetitions, in the order in which they first occur. -/
def distinct {α : Type} [DecidableEq α] (xs : List α) : List α :=
  xs.foldl (fun seen x => if x ∈ seen then seen else seen ++ [x]) []

/-- The pair's key prefix begins the key. -/
def speaksFor (pair : SignaturePair) (key : PublicKey) : Bool :=
  pair.keyPrefix.isPrefixOf key.val

def claims (pairs : SignatureMap) : List PublicKey → Except Status (List Claimed)
  | [] => .ok []
  | key :: rest =>
    match pairs.filter fun p => speaksFor p key with
    | [] => claims pairs rest
    | [pair] => (claims pairs rest).map (⟨key, pair.signature⟩ :: ·)
    | _ :: _ :: _ => .error .keyPrefixMismatch

/-- The signatures claimed for the required keys, in the order of the keys. Keys for which no pair
speaks are left out. -/
def expand (pairs : SignatureMap) (required : List PublicKey) : Except Status (List Claimed) :=
  claims pairs (distinct required)

end ConsensusLedger.Signing
