import ConsensusLedger.Entity
import ConsensusLedger.Key
import ConsensusLedger.Timestamp

/-!
Transactions: what they are identified by, what they ask for, and the signatures they come with.
-/

namespace ConsensusLedger

/-- Identifies a transaction by its payer and the start of its validity. The inner transaction of an
executed schedule has an identifier of its own, marked as scheduled. -/
structure TransactionId where
  payer : AccountId
  validStart : Timestamp
  scheduled : Bool
  deriving DecidableEq, Repr, Inhabited

namespace TransactionId

/-- The identifier under which the scheduled transaction runs. -/
def asScheduled (id : TransactionId) : TransactionId := { id with scheduled := true }

/-- Payer and valid start, joined by an at sign; a scheduled identifier ends in a mark. -/
def text (id : TransactionId) : String :=
  s!"{id.payer}@{id.validStart}" ++ if id.scheduled then "?scheduled" else ""

instance : ToString TransactionId := ⟨text⟩

end TransactionId

/-- A signature and the first bytes of the public key that it claims. -/
structure SignaturePair where
  keyPrefix : List UInt8
  signature : List UInt8
  deriving DecidableEq, Repr

abbrev SignatureMap := List SignaturePair

structure AccountAmount where
  account : AccountId
  amount : Int64
  deriving DecidableEq, Repr

/-- A daily window in which the network is frozen. -/
structure FreezeWindow where
  startHour : UInt8
  startMinute : UInt8
  endHour : UInt8
  endMinute : UInt8
  deriving DecidableEq, Repr

inductive TransactionData where
  | cryptoTransfer (transfers : List AccountAmount)
  | scheduleCreate (scheduledBody : List UInt8) (payer : Option AccountId) (adminKey : Option Key)
      (memo : String) (signatures : SignatureMap)
  | scheduleSign (schedule : ScheduleId) (signatures : SignatureMap)
  | scheduleDelete (schedule : ScheduleId)
  | freeze (window : FreezeWindow)
  deriving DecidableEq, Repr

inductive Function where
  | cryptoTransfer
  | scheduleCreate
  | scheduleSign
  | scheduleDelete
  | freeze
  deriving DecidableEq, Repr

namespace Function

def all : List Function :=
  [.cryptoTransfer, .scheduleCreate, .scheduleSign, .scheduleDelete, .freeze]

def name : Function → String
  | cryptoTransfer => "CryptoTransfer"
  | scheduleCreate => "ScheduleCreate"
  | scheduleSign => "ScheduleSign"
  | scheduleDelete => "ScheduleDelete"
  | freeze => "Freeze"

def ofName? (name : String) : Option Function := all.find? fun f => f.name = name

/-- Only these can make another transaction run right after them. -/
def canTrigger : Function → Bool
  | scheduleCreate | scheduleSign => true
  | _ => false

/-- Schedules hold no operation on schedules. -/
def isSchedulable : Function → Bool
  | cryptoTransfer | freeze => true
  | _ => false

end Function

def TransactionData.function : TransactionData → Function
  | cryptoTransfer _ => .cryptoTransfer
  | scheduleCreate .. => .scheduleCreate
  | scheduleSign .. => .scheduleSign
  | scheduleDelete _ => .scheduleDelete
  | freeze _ => .freeze

/-- What the signatures of a transaction sign. -/
structure TransactionBody where
  id : TransactionId
  nodeAccount : AccountId
  /-- The most that the payer agrees to be charged. -/
  offeredFee : UInt64
  validDuration : Int64
  memo : String
  data : TransactionData
  deriving DecidableEq, Repr

def TransactionBody.function (b : TransactionBody) : Function := b.data.function

structure SignedTransaction where
  bodyBytes : List UInt8
  signatures : SignatureMap
  deriving DecidableEq, Repr

end ConsensusLedger
