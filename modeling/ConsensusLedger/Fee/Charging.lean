import ConsensusLedger.Fee.Schedule
import ConsensusLedger.Ledger.Basic

/-!
Charging of fees. The node fee goes to the node, the network and service fees go to the funding
account. A payer is charged the node and network fees only when the offer and the balance cover
both; a transaction that the node should not have submitted costs the node the network fee.
-/

namespace ConsensusLedger

/-- The accounts among which fees move, and what has moved so far. -/
structure Charging where
  ledger : Ledger
  payer : AccountId
  nodeAccount : AccountId
  /-- The account of the submitting member, which answers for ignored due diligence. -/
  submitting : Option AccountId
  funding : AccountId
  /-- The most that the payer agrees to be charged. -/
  offered : UInt64 := 0xffffffffffffffff
  chargedToPayer : UInt64 := 0
  totalCharged : UInt64 := 0

namespace Charging

def payerBalance (c : Charging) : UInt64 := (c.ledger.balance? c.payer).getD 0

/-- Moves a fee from the payer to another account. -/
def chargePayer (c : Charging) (target : AccountId) (amount : UInt64) :
    Except LedgerError Unit × Charging :=
  match c.ledger.transfer c.payer target amount with
  | (.error e, ledger) => (.error e, { c with ledger := ledger })
  | (.ok (), ledger) =>
    (.ok (), { c with
      ledger := ledger
      chargedToPayer := addCapped c.chargedToPayer amount
      totalCharged := addCapped c.totalCharged amount })

def payerToNode (c : Charging) (amount : UInt64) : Except LedgerError Unit × Charging :=
  c.chargePayer c.nodeAccount amount

def payerToFunding (c : Charging) (amount : UInt64) : Except LedgerError Unit × Charging :=
  c.chargePayer c.funding amount

/-- Moves a fee from the submitting member's account to the funding account. -/
def nodeToFunding (c : Charging) (amount : UInt64) : Except Status Unit × Charging :=
  match c.submitting with
  | none => (.error .invalidNodeAccount, c)
  | some node =>
    match c.ledger.transfer node c.funding amount with
    | (.error e, ledger) => (.error e.status, { c with ledger := ledger })
    | (.ok (), ledger) =>
      (.ok (), { c with ledger := ledger, totalCharged := addCapped c.totalCharged amount })

/-- Charges the payer the node and network fees, or reports why not. -/
def applyNodeAndNetwork (c : Charging) (fee : Fee) : Status × Charging :=
  if c.offered < fee.nodeAndNetwork then (.insufficientTxFee, c)
  else if c.payerBalance < fee.nodeAndNetwork then (.insufficientPayerBalance, c)
  else
    match c.payerToNode fee.node with
    | (.error e, c) => (e.status, c)
    | (.ok (), c) =>
      match c.payerToFunding fee.network with
      | (.error e, c) => (e.status, c)
      | (.ok (), c) => (.ok, c)

/-- What stopped the service fee of a payer who was charged the other two. -/
inductive ServiceShortfall where
  | offer
  | balance
  deriving DecidableEq, Repr

/-- Whether the service fee cannot be charged after the other two. -/
def serviceShortfall? (c : Charging) (fee : Fee) : Option ServiceShortfall :=
  if c.offered < fee.total then some .offer
  else if c.payerBalance < fee.service then some .balance
  else none

/-- Charges the payer the whole fee. The third part of the answer is set when the service fee could
not be charged. -/
def applyAll (c : Charging) (fee : Fee) : Status × Charging × Option ServiceShortfall :=
  match c.applyNodeAndNetwork fee with
  | (.ok, c) =>
    match c.serviceShortfall? fee with
    | some .offer => (.insufficientTxFee, c, some .offer)
    | some .balance => (.insufficientPayerBalance, c, some .balance)
    | none =>
      match c.payerToFunding fee.service with
      | (.error e, c) => (e.status, c, none)
      | (.ok (), c) => (.ok, c, none)
  | (status, c) => (status, c, none)

/-- Charges for a duplicate of a transaction that was handled before. -/
def applyForDuplicate (c : Charging) (fee : Fee) : Status × Charging := c.applyNodeAndNetwork fee

/-- Charges the submitting member for a transaction that it should not have submitted. -/
def applyForIgnoredDueDiligence (c : Charging) (fee : Fee) : Status × Charging :=
  match c.nodeToFunding fee.network with
  | (.error status, c) => (status, c)
  | (.ok (), c) => (.ok, c)

end Charging

end ConsensusLedger
