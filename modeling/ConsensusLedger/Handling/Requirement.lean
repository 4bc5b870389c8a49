import ConsensusLedger.Handling.Notice
import ConsensusLedger.Schedule.Store

/-!
Signature requirements. A transaction needs the signatures of its payer and of every account that it
debits, or of the admin key of the schedule it creates or deletes. Creating and signing a schedule
also bring signatures over the inner transaction, which is required to be signed by its own payer
and by the accounts that it debits.
-/

namespace ConsensusLedger

open Signing

/-- Verified signatures over a scheduled transaction. -/
structure ScheduledScope where
  attempts : Nat
  signatures : List ScopedSignature
  /-- The keys that have to be active for the scheduled transaction to run. -/
  required : List Key
  deriving DecidableEq, Repr

namespace ScheduledScope

def isSatisfied (s : ScheduledScope) (signed : PublicKey → Bool) : Bool :=
  Key.allActive signed s.required

end ScheduledScope

/-- What is known of a transaction's signatures. -/
structure Rationalization where
  /-- The first error met; asynchronous if any verification was. -/
  status : SignatureStatus
  payerKey : Option Key
  otherKeys : List Key
  outer : Verified
  scheduled : Option ScheduledScope
  /-- Signature maps that were ambiguous, with the number of their pairs. -/
  rejected : List (Status × Nat)

namespace Rationalization

def payerActive (r : Rationalization) : Bool :=
  match r.payerKey with
  | some k => k.isActive r.outer.hasValid
  | none => false

def othersActive (r : Rationalization) : Bool := Key.allActive r.outer.hasValid r.otherKeys

def notices (r : Rationalization) : List Notice :=
  r.rejected.map fun (status, pairs) => .signaturesRejected status pairs

end Rationalization

namespace Requirement

/-- The key of an account, or the code for a missing one. -/
def accountKey (ledger : Ledger) (missing : Status) (id : AccountId) : Except Status Key :=
  match ledger.key? id with
  | some k => .ok k
  | none => .error missing

/-- The keys that have to sign besides the payer's. `missing` is reported for an account that is
debited and does not exist. -/
def otherKeys (ledger : Ledger) (schedules : ScheduleStore) (missing : Status) :
    TransactionData → Except Status (List Key)
  | .cryptoTransfer transfers =>
    (transfers.filter fun a => a.amount < 0).mapM fun a => accountKey ledger missing a.account
  | .scheduleCreate _ _ adminKey _ _ => .ok adminKey.toList
  | .scheduleSign id _ => if schedules.contains id then .ok [] else .error .invalidScheduleId
  | .scheduleDelete id =>
    match schedules.get id with
    | .ok s => .ok s.adminKey.toList
    | .error _ => .error .invalidScheduleId
  | .freeze _ => .ok []

/-- The inner body of a schedule operation, its payer, and the signatures over it. -/
def scheduledParts (txn : Envelope) (schedules : ScheduleStore) :
    Except Status (Option (List UInt8 × AccountId × SignatureMap)) :=
  match txn.body.data with
  | .scheduleCreate body payer _ _ signatures =>
    .ok (some (body, payer.getD txn.payer, signatures))
  | .scheduleSign id signatures =>
    match schedules.get id with
    | .ok s => .ok (some (s.body, s.payer, signatures))
    | .error _ => .error .invalidScheduleId
  | _ => .ok none

/-- The keys that have to sign an inner transaction. -/
def innerKeys (ledger : Ledger) (schedules : ScheduleStore) (body : List UInt8)
    (payer : AccountId) : Except Status (List Key) :=
  match TransactionBody.ofBytes body with
  | .error _ => .error .unparseableScheduledTransaction
  | .ok inner =>
    if !inner.function.isSchedulable then .error .unschedulableTransaction
    else do
      let payerKey ← accountKey ledger .unresolvableRequiredSigners payer
      let others ← otherKeys ledger schedules .unresolvableRequiredSigners inner.data
      return payerKey :: others

def scheduledScope (txn : Envelope) (ledger : Ledger) (schedules : ScheduleStore)
    (config : VerifierConfig) : Except Status (Option (ScheduledScope × SignatureStatus)) :=
  match scheduledParts txn schedules with
  | .error code => .error code
  | .ok none => .ok none
  | .ok (some (body, payer, signatures)) =>
    match innerKeys ledger schedules body payer with
    | .error code => .error code
    | .ok required =>
      let verified := config.verifyMap body signatures (Key.leavesAll required)
      .ok (some (⟨signatures.length, verified.signatures, required⟩, verified.status))

/-- Of two codes, the first that is a failure. -/
def firstFailure (a b : Status) : Status := if a.isOk then b else a

end Requirement

open Requirement in
/-- Finds the keys that have to sign a transaction and verifies every signature that it carries. -/
def rationalize (txn : Envelope) (ledger : Ledger) (schedules : ScheduleStore)
    (config : VerifierConfig) : Rationalization :=
  let payerKey := ledger.key? txn.payer
  let (otherCode, others) :=
    match otherKeys ledger schedules .invalidAccountId txn.body.data with
    | .ok keys => (Status.ok, keys)
    | .error code => (code, [])
  let outer := config.verifyMap txn.bodyBytes txn.signatures
    (Key.leavesAll (payerKey.toList ++ others))
  let outerRejected := if outer.status.isError then [(outer.status.code, txn.signatures.length)] else []
  let (scopeStatus, scope) : SignatureStatus × Option ScheduledScope :=
    match scheduledScope txn ledger schedules config with
    | .ok (some (scope, status)) => (status, some scope)
    | .ok none => (⟨.ok, .sync⟩, none)
    | .error code => (⟨code, .sync⟩, none)
  let scopeRejected :=
    match scope with
    | some s => if scopeStatus.isError then [(scopeStatus.code, s.attempts)] else []
    | none => []
  { status :=
      ⟨firstFailure otherCode (firstFailure outer.status.code scopeStatus.code),
        if outer.status.mode = .async ∨ scopeStatus.mode = .async then .async else .sync⟩
    payerKey := payerKey
    otherKeys := others
    outer := outer
    scheduled := scope
    rejected := outerRejected ++ scopeRejected }

end ConsensusLedger
