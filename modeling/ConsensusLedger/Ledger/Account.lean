import ConsensusLedger.Status
import ConsensusLedger.Transaction.Basic
import ConsensusLedger.Wire.Entities

/-!
Accounts, and why a change of balances is refused.
-/

namespace ConsensusLedger

structure Account where
  balance : UInt64
  key : Key
  deleted : Bool
  deriving DecidableEq, Repr

def Account.codec : Wire.Codec Account :=
  (Wire.Codec.u64.pair (Key.codec.pair Wire.Codec.bool)).imap
    (fun (balance, key, deleted) => ⟨balance, key, deleted⟩)
    (fun a => (a.balance, a.key, a.deleted))

inductive LedgerError where
  | missingAccount (account : AccountId)
  | insufficientBalance (account : AccountId) (balance : UInt64) (delta : Int64)
  | overflow (account : AccountId) (balance : UInt64) (delta : Int64)
  | noActiveTransaction
  | transactionAlreadyActive
  deriving DecidableEq, Repr

namespace LedgerError

def message : LedgerError → String
  | missingAccount a => s!"Account {a} does not exist"
  | insufficientBalance a balance delta =>
    s!"Account {a} cannot absorb {delta} with balance {balance}"
  | overflow a balance delta => s!"Account {a} with balance {balance} overflows applying {delta}"
  | noActiveTransaction => "No ledger transaction is active"
  | transactionAlreadyActive => "A ledger transaction is already active"

/-- The code reported when a charge or a transfer meets the error. -/
def status : LedgerError → Status
  | missingAccount _ => .invalidAccountId
  | insufficientBalance .. => .insufficientAccountBalance
  | overflow .. | noActiveTransaction | transactionAlreadyActive => .failInvalid

end LedgerError

end ConsensusLedger
