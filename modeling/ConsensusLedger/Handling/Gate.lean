import ConsensusLedger.Handling.Context
import ConsensusLedger.Handling.History

/-!
Checks made before any business logic. A transaction that fails a sanity check is dropped without a
record; one that fails due diligence costs the submitting member and not the payer.
-/

namespace ConsensusLedger

structure NodeAddress where
  stake : UInt64
  account : AccountId
  deriving DecidableEq, Repr

abbrev AddressBook := Table MemberId NodeAddress

structure DurationBounds where
  min : Int64
  max : Int64
  deriving DecidableEq, Repr

namespace DurationBounds

def contains (b : DurationBounds) (duration : Int64) : Bool := b.min ≤ duration && duration ≤ b.max

end DurationBounds

/-- Why a transaction is dropped. -/
inductive SanityFailure where
  | nonIncreasingConsensusTime (time last : Timestamp)
  | zeroStake (member : MemberId)
  deriving DecidableEq, Repr

def SanityFailure.message : SanityFailure → String
  | nonIncreasingConsensusTime time last => s!"consensus time {time} is not after {last}"
  | zeroStake member => s!"member {member} has zero stake"

namespace SanityFailure

def notice (txn : Envelope) : SanityFailure → Notice
  | nonIncreasingConsensusTime time last => .timeNotIncreasing time last txn
  | zeroStake member => .zeroStake member txn.id

end SanityFailure

namespace Gate

def stakedAddress (book : AddressBook) (member : MemberId) : Except SanityFailure NodeAddress :=
  match book.get? member with
  | some address => if 0 < address.stake then .ok address else .error (.zeroStake member)
  | none => .error (.zeroStake member)

/-- The submitter's address, if the transaction may be handled: its time is later than the last one
and the member has stake. -/
def sanityCheck (book : AddressBook) (time : Timestamp) (last : Option Timestamp)
    (member : MemberId) : Except SanityFailure NodeAddress :=
  match last with
  | some t =>
    if time.isAfter t then stakedAddress book member else .error (.nonIncreasingConsensusTime time t)
  | none => stakedAddress book member

/-- Whether a transaction is valid at a time: from its valid start on, and until the valid duration
is over. -/
def chronology (body : TransactionBody) (time : Timestamp) : Status :=
  if body.id.validStart.isAfter time then .invalidTransactionStart
  else if !(body.id.validStart.plusSeconds body.validDuration).isAfter time then .transactionExpired
  else .ok

/-- The designated node account exists and is the submitter's. -/
def nodeAccountMatches (ledger : Ledger) (txn : Envelope) (c : Context) : Bool :=
  ledger.contains txn.body.nodeAccount && c.nodeAccount = some txn.body.nodeAccount

/-- The code of the first due-diligence check that fails. -/
def dueDiligenceFailure (bounds : DurationBounds) (ledger : Ledger) (txn : Envelope) (c : Context)
    (duplicity : Duplicity) : Option Status :=
  if !nodeAccountMatches ledger txn c then some .invalidNodeAccount
  else if !c.payerKnownActive then some .invalidPayerSignature
  else if duplicity = .nodeDuplicate then some .duplicateTransaction
  else if !bounds.contains txn.body.validDuration then some .invalidTransactionDuration
  else
    match chronology txn.body c.time with
    | .ok => none
    | code => some code

def dueDiligenceNotices (ledger : Ledger) (txn : Envelope) (c : Context) : List Notice :=
  if nodeAccountMatches ledger txn c then []
  else [.foreignNode c.member txn.body.nodeAccount txn.id]

def maxSystemAccount : UInt64 := 100

/-- Only system accounts may freeze the network. -/
def policy (txn : Envelope) : Status :=
  if txn.function = .freeze ∧ maxSystemAccount < txn.payer.num then .notSupported else .ok

end Gate

end ConsensusLedger
