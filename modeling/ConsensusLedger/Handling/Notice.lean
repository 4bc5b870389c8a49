import ConsensusLedger.Ledger.Basic
import ConsensusLedger.Record.Stream
import ConsensusLedger.Signing.Verification
import ConsensusLedger.Store.EntityStore
import ConsensusLedger.Transaction.Envelope

/-!
Unexpected failures while a transaction is handled, and notices: what the handling of transactions
reports to an operator. A notice is a domain event; its level, message and fields are given by
`Notice.entry`.
-/

namespace ConsensusLedger

/-- Why the handling of a transaction is given up and rolled back. -/
inductive ProcessingError where
  | store (error : StoreError)
  | ledger (error : LedgerError)
  | parse (error : ParseError)
  /-- A schedule operation came to its transition without verified scheduled signatures. -/
  | missingScheduledScope (function : Function)
  deriving DecidableEq, Repr

def ProcessingError.message : ProcessingError → String
  | store e => s!"Schedule store: {e.message}"
  | ledger e => s!"Ledger: {e.message}"
  | parse e => s!"Wire format: {e.message}"
  | missingScheduledScope f => s!"{f.name} handled without a scheduled signing scope"

inductive Level where
  | error
  | warn
  | info
  | debug
  deriving DecidableEq, Repr

namespace Level

def name : Level → String
  | error => "ERROR"
  | warn => "WARN"
  | info => "INFO"
  | debug => "DEBUG"

def rank : Level → Nat
  | error => 0
  | warn => 1
  | info => 2
  | debug => 3

def ofName? (name : String) : Option Level := [error, warn, info, debug].find? (·.name = name)

end Level

/-- A report of another replica whose signed state differs from the local one. -/
structure StateReport where
  round : UInt64
  self : MemberId
  other : MemberId
  time : Timestamp
  signature : List UInt8
  hash : List UInt8
  deriving DecidableEq, Repr

structure StateHashes where
  accounts : Octets 32
  schedules : Octets 32
  running : Octets 48
  deriving DecidableEq, Repr

inductive Notice where
  | scheduleCreated (id : ScheduleId)
  | scheduleCommitted (id : ScheduleId) (expiry : Int64)
  | scheduleRolledBack (id : ScheduleId)
  | scheduleDeleted (id : ScheduleId)
  | scheduleExecuted (id : ScheduleId)
  | scheduleExpired (id : ScheduleId) (now : Int64)
  | scheduleReused (id : ScheduleId)
  | scheduleDeleteHandled (id : ScheduleId) (status : Status)
  | scheduleNotExecuted (id : ScheduleId) (status : Status)
  | scheduledTriggered (id : ScheduleId) (scheduled : TransactionId)
  | signaturesRejected (status : Status) (pairs : Nat)
  | sinkRefused (error : StreamError) (id : TransactionId)
  | fileOpened (path : String)
  | recordAppended (id : TransactionId) (time : Timestamp) (status : Status) (head : Octets 48)
  | recordStreamed (id : TransactionId) (time : Timestamp) (status : Status) (fee : UInt64)
      (head : Octets 48)
  | recordNotStreamed (id : TransactionId) (time : Timestamp) (error : StreamError)
  | feeBeyondOffer (payer : AccountId) (offered : UInt64)
  | feeBeyondBalance (payer : AccountId)
  | timeNotIncreasing (time last : Timestamp) (txn : Envelope)
  | zeroStake (member : MemberId) (id : TransactionId)
  | foreignNode (member : MemberId) (designated : AccountId) (id : TransactionId)
  | ledgerLeftOpen (id : TransactionId)
  | noTransition (txn : Envelope)
  | newDay (time : Timestamp)
  | purged (time : Timestamp) (ids schedules : Nat)
  | alertRelaxed (time : Timestamp)
  | failure (context : String) (error : ProcessingError) (txn : Envelope) (changes : String)
  | unparseable (member : MemberId) (time : Timestamp) (error : ParseError)
  | freezeSet (window : FreezeWindow)
  | stateDiffers (report : StateReport) (hashes : StateHashes)
  | stateUnknown (report : StateReport) (error : ProcessingError)

structure NoticeEntry where
  level : Level
  message : String
  fields : List (String × String)

namespace Notice

private def reportFields (r : StateReport) : List (String × String) :=
  [("round", toString r.round), ("self_id", toString r.self), ("other_id", toString r.other)]

private def clockText (hour minute : UInt8) : String :=
  s!"{Date.padded 2 hour.toNat}:{Date.padded 2 minute.toNat}"

def entry : Notice → NoticeEntry
  | scheduleCreated id => ⟨.debug, "Schedule created provisionally", [("schedule_id", id.text)]⟩
  | scheduleCommitted id expiry =>
    ⟨.debug, "Schedule committed", [("schedule_id", id.text), ("expiry", toString expiry)]⟩
  | scheduleRolledBack id => ⟨.debug, "Schedule creation rolled back", [("schedule_id", id.text)]⟩
  | scheduleDeleted id => ⟨.debug, "Schedule deleted", [("schedule_id", id.text)]⟩
  | scheduleExecuted id => ⟨.debug, "Schedule executed", [("schedule_id", id.text)]⟩
  | scheduleExpired id now =>
    ⟨.debug, "Schedule expired", [("schedule_id", id.text), ("now_secs", toString now)]⟩
  | scheduleReused id => ⟨.debug, "Reusing identical schedule", [("schedule_id", id.text)]⟩
  | scheduleDeleteHandled id status =>
    ⟨.debug, "Schedule delete handled", [("schedule_id", id.text), ("status", status.name)]⟩
  | scheduleNotExecuted id status =>
    ⟨.warn, "Ready schedule could not be marked executed",
      [("schedule_id", id.text), ("status", status.name)]⟩
  | scheduledTriggered id scheduled =>
    ⟨.debug, "Scheduled transaction triggered",
      [("schedule_id", id.text), ("scheduled_txn_id", scheduled.text)]⟩
  | signaturesRejected status pairs =>
    ⟨.debug, "Signature map rejected", [("status", status.name), ("pairs", toString pairs)]⟩
  | sinkRefused e id =>
    ⟨.warn, "Record sink rejected record", [("error", e.message), ("txn_id", id.text)]⟩
  | fileOpened path => ⟨.debug, "Opened record file", [("path", path)]⟩
  | recordAppended id time status head =>
    ⟨.debug, "Record streamed",
      [("txn_id", id.text), ("consensus_time", time.text), ("status", status.name),
        ("running_hash", Text.hex (head.val.take 8))]⟩
  | recordStreamed id time status fee head =>
    ⟨.debug, "Record streamed",
      [("txn_id", id.text), ("consensus_time", time.text), ("status", status.name),
        ("fee", toString fee), ("running_hash", Text.hex head.val)]⟩
  | recordNotStreamed id time e =>
    ⟨.warn, "Record could not be streamed",
      [("txn_id", id.text), ("consensus_time", time.text), ("error", e.message)]⟩
  | feeBeyondOffer payer offered =>
    ⟨.debug, "Fee exceeds the payer's offer",
      [("payer", payer.text), ("offered", toString offered)]⟩
  | feeBeyondBalance payer =>
    ⟨.debug, "Payer cannot cover the service fee", [("payer", payer.text)]⟩
  | timeNotIncreasing time last txn =>
    ⟨.error, "Catastrophic invariant failure! Non-increasing consensus time",
      [("consensus_time", time.text), ("last_handled", last.text), ("txn", txn.summary)]⟩
  | zeroStake member id =>
    ⟨.warn, "Ignoring a transaction submitted by zero-stake node",
      [("member", toString member), ("txn_id", id.text)]⟩
  | foreignNode member designated id =>
    ⟨.warn, "Node submitted a transaction designated for another node account",
      [("member", toString member), ("designated", designated.text), ("txn_id", id.text)]⟩
  | ledgerLeftOpen id =>
    ⟨.warn, "Discarding a ledger transaction left open", [("txn_id", id.text)]⟩
  | noTransition txn =>
    ⟨.warn, "Transaction w/o applicable transition logic at consensus", [("txn", txn.summary)]⟩
  | newDay time =>
    ⟨.info, "New consensus day; midnight exchange rates updated", [("consensus_time", time.text)]⟩
  | purged time ids schedules =>
    ⟨.debug, "Purged expired records and entities",
      [("consensus_time", time.text), ("forgotten_txn_ids", toString ids),
        ("expired_schedules", toString schedules)]⟩
  | alertRelaxed time => ⟨.info, "ISS alert relaxed", [("consensus_time", time.text)]⟩
  | failure context e txn changes =>
    ⟨.warn, s!"Possibly CATASTROPHIC failure in {context}",
      [("error", e.message), ("txn", txn.summary), ("change_set", changes)]⟩
  | unparseable member time e =>
    ⟨.warn, "Consensus platform ordered an unparseable transaction",
      [("member", toString member), ("consensus_time", time.text), ("error", e.message)]⟩
  | freezeSet w =>
    ⟨.info, "Network freeze window set",
      [("start", clockText w.startHour w.startMinute), ("end", clockText w.endHour w.endMinute)]⟩
  | stateDiffers r h =>
    ⟨.error, "Received a signed state from a replica differing from the local signed state",
      reportFields r ++ [("sig", Text.hex r.signature), ("hash", Text.hex r.hash),
        ("accounts_root_hash", Text.hex h.accounts.val),
        ("schedules_root_hash", Text.hex h.schedules.val),
        ("running_hash", Text.hex h.running.val)]⟩
  | stateUnknown r e =>
    ⟨.warn, "Received a signed state differing from the local signed state; " ++
        "could not provide all details!",
      reportFields r ++ [("error", e.message)]⟩

end Notice

end ConsensusLedger
