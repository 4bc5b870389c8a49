import ConsensusLedger.Pipeline.Rules

/-!
Charging within a handling, and the dispatch of a transaction to its transition.
-/

namespace ConsensusLedger

/-- The occasions on which fees are charged. -/
inductive ChargeKind where
  | standard
  | duplicate
  | ignoredDueDiligence
  deriving DecidableEq, Repr

namespace ChargeKind

def apply (fee : Fee) (c : Charging) :
    ChargeKind → Status × Charging × Option Charging.ServiceShortfall
  | standard => c.applyAll fee
  | duplicate =>
    let (status, c) := c.applyForDuplicate fee
    (status, c, none)
  | ignoredDueDiligence =>
    let (status, c) := c.applyForIgnoredDueDiligence fee
    (status, c, none)

end ChargeKind

namespace Charging

/-- What is noticed about a service fee that could not be charged. -/
def ServiceShortfall.notice (c : Charging) : ServiceShortfall → Notice
  | offer => .feeBeyondOffer c.payer c.offered
  | balance => .feeBeyondBalance c.payer

end Charging

namespace Handling

/-- The handling once the signatures of its transaction are known. -/
def identified (h : Handling) (r : Rationalization) : Handling :=
  { h with
    context := { h.context with payerKnownActive := r.payerActive, payerKey := r.payerKey }
    notices := h.notices ++ r.notices }

def keyed (h : Handling) (key : Option Key) : Handling :=
  { h with context := { h.context with payerKey := key } }

/-- The accounts that a transaction's fees move among. -/
def charging (h : Handling) (funding : AccountId) (txn : Envelope) : Charging where
  ledger := h.ledger
  payer := txn.payer
  nodeAccount := h.context.nodeAccount.getD txn.body.nodeAccount
  submitting := h.context.nodeAccount
  funding := funding
  offered := txn.body.offeredFee

def charge (h : Handling) (funding : AccountId) (kind : ChargeKind) (txn : Envelope) (fee : Fee) :
    Status × Handling :=
  let (status, c, shortfall) := kind.apply fee (h.charging funding txn)
  (status,
    { h with
      ledger := c.ledger
      context := h.context.addFee c.totalCharged
      notices := h.notices ++ (shortfall.map (·.notice c)).toList })

/-- Runs the transition of a transaction, unless a policy or its syntax forbids it. The answer says
whether the transition ran. -/
def dispatch (h : Handling) (transitions : TransitionRegistry) (txn : Envelope)
    (scope : Option ScheduledScope) : Except ProcessingError Bool × Handling :=
  match Gate.policy txn with
  | .ok =>
    match transitions.find? txn.function txn.body with
    | none => (.ok false, (h.note (.noTransition txn)).setStatus .failInvalid)
    | some t =>
      match t.syntaxCheck txn.body with
      | .ok =>
        match t.run txn scope h with
        | (.error e, h) => (.error e, h)
        | (.ok (), h) => (.ok true, h)
      | status => (.ok false, h.setStatus status)
  | status => (.ok false, h.setStatus status)

end Handling

end ConsensusLedger
