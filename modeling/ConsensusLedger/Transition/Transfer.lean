import ConsensusLedger.Handling.Context

/-!
Transfers between accounts: every adjustment applies, or none does.
-/

namespace ConsensusLedger.Transition

def netAmount (transfers : List AccountAmount) : Int :=
  transfers.foldr (fun a sum => a.amount.toInt + sum) 0

/-- The amounts cancel out, and each account occurs once. -/
def transferSyntax (transfers : List AccountAmount) : Status :=
  if transfers.isEmpty then .emptyTransferList
  else if netAmount transfers ≠ 0 then .invalidAccountAmounts
  else if (transfers.map (·.account)).Nodup then .ok
  else .accountRepeatedInAccountAmounts

/-- The first reason why an account cannot take its adjustment. -/
def transferFailure (ledger : Ledger) : List AccountAmount → Option Status
  | [] => none
  | a :: rest =>
    match ledger.balance? a.account with
    | none => some .invalidAccountId
    | some balance =>
      if (balance.toNat : Int) + a.amount.toInt < 0 then some .insufficientAccountBalance
      else transferFailure ledger rest

def adjustAll (ledger : Ledger) : List AccountAmount → Except LedgerError Unit × Ledger
  | [] => (.ok (), ledger)
  | a :: rest =>
    match ledger.adjust a.account a.amount with
    | .error e => (.error e, ledger)
    | .ok ledger => adjustAll ledger rest

def runTransfer (transfers : List AccountAmount) (h : Handling) :
    Except ProcessingError Unit × Handling :=
  match transferFailure h.ledger transfers with
  | some code => (.ok (), h.setStatus code)
  | none =>
    match adjustAll h.ledger transfers with
    | (.error e, ledger) => (.error (.ledger e), { h with ledger := ledger })
    | (.ok (), ledger) => (.ok (), { h with ledger := ledger }.setStatus .ok)

def cryptoTransfer : Transition where
  applies body := body.function = .cryptoTransfer
  syntaxCheck body :=
    match body.data with
    | .cryptoTransfer transfers => transferSyntax transfers
    | _ => .failInvalid
  run txn _ h :=
    match txn.body.data with
    | .cryptoTransfer transfers => runTransfer transfers h
    | _ => (.ok (), h.setStatus .failInvalid)

end ConsensusLedger.Transition
