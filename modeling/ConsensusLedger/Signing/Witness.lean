import ConsensusLedger.Signing.Verification

/-!
How a schedule operation responds to the signatures that come with it. With `A` signing attempts,
`V` distinct keys whose signature is valid and `I` invalid signatures: nothing is witnessed when
`V < A` and `0 < I`. Otherwise the valid keys are witnessed, and the operation succeeds when it
brings a new signatory or finds the target ready.
-/

namespace ConsensusLedger.Signing

/-- Something that collects signatories. Both methods may fail; witnessing reports how many of the
keys are new. -/
structure WitnessTarget (σ ε : Type) where
  witness : List PublicKey → σ → Except ε Nat × σ
  isReady : σ → Except ε Bool

/-- The verdict on an operation; one that is ready succeeds. -/
structure Outcome where
  status : Status
  ready : Bool
  deriving DecidableEq, Repr

/-- The distinct keys with a valid signature, in the order in which they first occur. -/
def validKeys (sigs : List ScopedSignature) : List PublicKey :=
  distinct ((sigs.filter (·.valid)).map (·.key))

/-- Some attempt went wrong and is not made up for by a key of its own. -/
def isRejected (attempts : Nat) (sigs : List ScopedSignature) : Bool :=
  0 < attempts && (validKeys sigs).length < attempts && sigs.any (!·.valid)

/-- The two calls that an operation makes on a target. Either may fail, and either may leave a mark on
the state. -/
structure TargetCalls (σ ε : Type) where
  witness : List PublicKey → σ → Except ε Nat × σ
  isReady : σ → Except ε Bool × σ

namespace TargetCalls

variable {σ ε : Type}

/-- Asks for readiness, which overrides the status so far. -/
def settle (calls : TargetCalls σ ε) (status : Status) (s : σ) : Except ε Outcome × σ :=
  match calls.isReady s with
  | (.error e, s) => (.error e, s)
  | (.ok ready, s) => (.ok ⟨if ready then .ok else status, ready⟩, s)

def witnessInScope (calls : TargetCalls σ ε) (attempts : Nat) (sigs : List ScopedSignature) (s : σ) :
    Except ε Outcome × σ :=
  if isRejected attempts sigs then (.ok ⟨.someSignaturesWereInvalid, false⟩, s)
  else if attempts = 0 then calls.settle .ok s
  else
    match calls.witness (validKeys sigs) s with
    | (.error e, s) => (.error e, s)
    | (.ok new, s) => calls.settle (if new = 0 then .noNewValidSignatures else .ok) s

end TargetCalls

/-- To ask a target whether it is ready leaves it as it is. -/
def WitnessTarget.calls {σ ε : Type} (target : WitnessTarget σ ε) : TargetCalls σ ε :=
  ⟨target.witness, fun s => (target.isReady s, s)⟩

@[simp] theorem WitnessTarget.calls_witness {σ ε : Type} (target : WitnessTarget σ ε) :
    target.calls.witness = target.witness := rfl

@[simp] theorem WitnessTarget.calls_isReady {σ ε : Type} (target : WitnessTarget σ ε) (s : σ) :
    target.calls.isReady s = (target.isReady s, s) := rfl

def witnessInScope {σ ε : Type} (attempts : Nat) (sigs : List ScopedSignature)
    (target : WitnessTarget σ ε) (s : σ) : Except ε Outcome × σ :=
  target.calls.witnessInScope attempts sigs s

end ConsensusLedger.Signing
