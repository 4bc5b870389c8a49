import ConsensusLedger.Fee.Charging
import ConsensusLedger.Handling.Requirement

/-!
The state of a transaction while it is handled, and the part of the ledger's state that its
transition may change.
-/

namespace ConsensusLedger

/-- What has come out of a handling so far. -/
structure Context where
  time : Timestamp
  member : MemberId
  nodeAccount : Option AccountId
  lastStatus : Option Status
  payerKnownActive : Bool
  payerKey : Option Key
  feeCharged : UInt64
  created : Option ScheduleId
  scheduledId : Option TransactionId
  /-- The transaction to run right after this one. -/
  triggered : Option Envelope

namespace Context

def start (time : Timestamp) (member : MemberId) (nodeAccount : Option AccountId) : Context :=
  ⟨time, member, nodeAccount, none, false, none, 0, none, none, none⟩

def setStatus (c : Context) (status : Status) : Context := { c with lastStatus := some status }

/-- The last code that was set; a handling that set none has failed. -/
def status (c : Context) : Status := c.lastStatus.getD .failInvalid

def addFee (c : Context) (amount : UInt64) : Context :=
  { c with feeCharged := addCapped c.feeCharged amount }

def trigger (c : Context) (txn : Envelope) : Context :=
  { c with scheduledId := some txn.id, triggered := some txn }

/-- Forgets a queued transaction, with the effects that led to it. -/
def clearTriggered (c : Context) : Context := { c with scheduledId := none, triggered := none }

/-- Takes out the queued transaction. Its identifier stays on the receipt. -/
def takeTriggered (c : Context) : Option Envelope × Context :=
  (c.triggered, { c with triggered := none })

def receipt (c : Context) : Receipt := ⟨c.status, c.created, c.scheduledId⟩

end Context

/-- What a transition reads and changes. -/
structure Handling where
  ledger : Ledger
  schedules : ScheduleStore
  freezeWindow : Option FreezeWindow
  context : Context
  notices : List Notice

namespace Handling

def note (h : Handling) (n : Notice) : Handling := { h with notices := h.notices ++ [n] }

def setStatus (h : Handling) (status : Status) : Handling :=
  { h with context := h.context.setStatus status }

end Handling

/-- The business logic of a kind of transaction. -/
structure Transition where
  /-- A finer match than the kind, for logics that share one. -/
  applies : TransactionBody → Bool
  syntaxCheck : TransactionBody → Status
  /-- Makes the change and sets the code of the handling. What was done before an error stands. -/
  run : Envelope → Option ScheduledScope → Handling → Except ProcessingError Unit × Handling

end ConsensusLedger
