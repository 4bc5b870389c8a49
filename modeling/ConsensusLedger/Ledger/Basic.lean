import ConsensusLedger.Ledger.Account
import ConsensusLedger.Store.Collection

/-!
The account ledger. While a ledger transaction is open, changes of balances are gathered in a change
set; they reach the accounts when it is committed and are forgotten when it is rolled back.
-/

namespace ConsensusLedger

/-- The accumulated change of each account touched in the open transaction. -/
abbrev ChangeSet := Table AccountId Int64

namespace ChangeSet

def delta (c : ChangeSet) (id : AccountId) : Int64 := (c.get? id).getD 0

/-- The changes that are not zero, in account order. -/
def net (c : ChangeSet) : List AccountAmount :=
  (c.entries.filter fun e => e.2 ≠ 0).map fun e => ⟨e.1, e.2⟩

/-- An amount with its sign. -/
def signedText (n : Int64) : String := (if n < 0 then "" else "+") ++ toString n

def text (c : ChangeSet) : String :=
  let one (a : AccountAmount) := s!"{a.account} -> {signedText a.amount}"
  "\x7b" ++ ", ".intercalate (c.net.map one) ++ "\x7d"

end ChangeSet

structure Ledger where
  accounts : Collection AccountId Account
  /-- The change set of the open transaction. -/
  changes : Option ChangeSet

/-- A balance as a word, if the number is one. -/
def balanceOf? (n : Int) : Option UInt64 :=
  if 0 ≤ n ∧ n < 0x10000000000000000 then some (UInt64.ofNat n.toNat) else none

def amountOf? (n : Int) : Option Int64 :=
  if -0x8000000000000000 ≤ n ∧ n < 0x8000000000000000 then some (Int64.ofInt n) else none

namespace Ledger

def empty : Ledger := ⟨.empty, none⟩

/-- Installs an account, outside of any transaction. -/
def create (l : Ledger) (id : AccountId) (account : Account) : Ledger :=
  { l with accounts := l.accounts.put id account }

def ofAccounts (accounts : List (AccountId × Account)) : Ledger :=
  accounts.foldl (fun l a => l.create a.1 a.2) empty

/-- The account, unless it is deleted. -/
def account? (l : Ledger) (id : AccountId) : Option Account :=
  (l.accounts.get? id).filter fun a => !a.deleted

def contains (l : Ledger) (id : AccountId) : Bool := (l.account? id).isSome

def key? (l : Ledger) (id : AccountId) : Option Key := (l.account? id).map (·.key)

/-- What the open transaction has changed so far on an account. -/
def delta (l : Ledger) (id : AccountId) : Int64 :=
  match l.changes with
  | some c => c.delta id
  | none => 0

/-- The balance with the changes of the open transaction. -/
def balance? (l : Ledger) (id : AccountId) : Option UInt64 :=
  (l.account? id).bind fun a => balanceOf? (a.balance.toNat + (l.delta id).toInt)

def size (l : Ledger) : Nat := l.accounts.size

def inTransaction (l : Ledger) : Bool := l.changes.isSome

def begin (l : Ledger) : Except LedgerError Ledger :=
  if l.inTransaction then .error .transactionAlreadyActive
  else .ok { l with changes := some ∅ }

/-- Adds to an account's balance. The balance and the account's accumulated change have to stay in
range. -/
def adjust (l : Ledger) (id : AccountId) (amount : Int64) : Except LedgerError Ledger :=
  match l.balance? id with
  | none => .error (.missingAccount id)
  | some balance =>
    let updated := (balance.toNat : Int) + amount.toInt
    if updated < 0 then .error (.insufficientBalance id balance amount)
    else
      match l.changes with
      | none => .error .noActiveTransaction
      | some changes =>
        if 0x10000000000000000 ≤ updated then .error (.overflow id balance amount)
        else
          match amountOf? ((changes.delta id).toInt + amount.toInt) with
          | none => .error (.overflow id balance amount)
          | some total => .ok { l with changes := some (changes.insert id total) }

/-- Moves an amount from one account to another. When the second adjustment is refused, the first
one stands. -/
def transfer (l : Ledger) (source target : AccountId) (amount : UInt64) :
    Except LedgerError Unit × Ledger :=
  if amount = 0 then (.ok (), l)
  else
    match amountOf? amount.toNat with
    | none =>
      (.error (.insufficientBalance source ((l.balance? source).getD 0) Int64.minValue), l)
    | some delta =>
      if !l.contains target then (.error (.missingAccount target), l)
      else
        match l.adjust source (-delta) with
        | .error e => (.error e, l)
        | .ok l =>
          match l.adjust target delta with
          | .error e => (.error e, l)
          | .ok l => (.ok (), l)

/-- The changes of the open transaction that are not zero, in account order. -/
def netTransfers (l : Ledger) : List AccountAmount :=
  match l.changes with
  | some c => c.net
  | none => []

def changeText (l : Ledger) : String :=
  match l.changes with
  | some c => c.text
  | none => "<no active transaction>"

def settle (accounts : Collection AccountId Account) (id : AccountId) (amount : Int64) :
    Except LedgerError (Collection AccountId Account) :=
  if amount = 0 then .ok accounts
  else
    match accounts.get? id with
    | none => .error (.missingAccount id)
    | some a =>
      match balanceOf? (a.balance.toNat + amount.toInt) with
      | none => .error (.insufficientBalance id a.balance amount)
      | some balance => .ok (accounts.put id { a with balance := balance })

/-- Writes changes until one is refused. -/
def settleAll (accounts : Collection AccountId Account) :
    List (AccountId × Int64) → Except LedgerError Unit × Collection AccountId Account
  | [] => (.ok (), accounts)
  | (id, amount) :: rest =>
    match settle accounts id amount with
    | .error e => (.error e, accounts)
    | .ok accounts => settleAll accounts rest

/-- Closes the transaction and writes its changes. -/
def commit (l : Ledger) : Except LedgerError Unit × Ledger :=
  match l.changes with
  | none => (.error .noActiveTransaction, l)
  | some changes =>
    let (r, accounts) := settleAll l.accounts changes.entries
    (r, ⟨accounts, none⟩)

def rollback (l : Ledger) : Ledger := { l with changes := none }

def rootHash (l : Ledger) : Octets 32 := l.accounts.rootHash EntityId.codec Account.codec

end Ledger

end ConsensusLedger
