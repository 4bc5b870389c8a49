import ConsensusLedger.Handling.Clock
import ConsensusLedger.Metrics
import ConsensusLedger.Pipeline.Charge

/-!
The processor. It takes transactions in consensus order and answers with one record for each that it
handles. Each handling is one ledger transaction; an unexpected failure rolls it back. A schedule
that becomes ready has its inner transaction handled right after the transaction that completed it,
which for that reason is handled one nanosecond before its consensus time.
-/

namespace ConsensusLedger

/-- The state of the ledger and everything that handling depends on. -/
structure Processor where
  clock : Clock
  rates : ExchangeRates
  histories : Histories
  ledger : Ledger
  schedules : ScheduleStore
  freezeWindow : Option FreezeWindow
  records : RecordStream
  metrics : Metrics

/-- What one call brings: records, and notices in order. -/
structure Handled (α : Type) where
  answer : α
  notices : List Notice
  processor : Processor

namespace Processor

def start (c : ProcessingConfig) (rates : ExchangeRates) (ledger : Ledger)
    (schedules : ScheduleStore) (records : RecordStream) : Processor where
  clock := .start rates c.alertRounds c.alertResetPeriod
  rates := rates
  histories := .empty c.historySeconds
  ledger := ledger
  schedules := schedules
  freezeWindow := none
  records := records
  metrics := .zero

/-- Moves the clock on: midnight rates, then the purge of histories and schedules, then the alert. -/
def advance (p : Processor) (now : Timestamp) : Handled Unit :=
  let (newDay, clock) := p.clock.advance now p.rates
  let (forgotten, histories) := p.histories.purge now
  let (expired, schedules) := p.schedules.purge now.seconds
  let (relaxed, clock) := clock.relaxIfDue now
  { answer := ()
    notices :=
      (if newDay then [.newDay now] else []) ++
      (expired.flatMap fun id => [.scheduleExecuted id, .scheduleExpired id now.seconds]) ++
      (if 0 < forgotten ∨ 0 < expired.length then [.purged now forgotten expired.length] else []) ++
      (if relaxed then [.alertRelaxed now] else [])
    processor := { p with clock := clock, histories := histories, schedules := schedules } }

/-- Opens a ledger transaction, after discarding one that was left open, and moves on to its time. -/
def opened (p : Processor) (now : Timestamp) : Handled (Except LedgerError Unit) :=
  let p := { p with ledger := p.ledger.rollback }
  match p.ledger.begin with
  | .error e => ⟨.error e, [], p⟩
  | .ok ledger =>
    let moved := { p with ledger := ledger }.advance now
    ⟨.ok (), moved.notices, moved.processor⟩

/-- The part of the state that a transition may change. -/
def handlingWith (p : Processor) (context : Context) : Handling :=
  ⟨p.ledger, p.schedules, p.freezeWindow, context, []⟩

def takeBack (p : Processor) (h : Handling) : Processor :=
  { p with ledger := h.ledger, schedules := h.schedules, freezeWindow := h.freezeWindow }

/-- Goes on with a handling that was charged; one that could not be charged ends with the code. -/
def onceCharged (next : Handling → Except ProcessingError Bool × Handling) :
    Status × Handling → Except ProcessingError Bool × Handling
  | (.ok, h) => next h
  | (code, h) => (.ok false, h.setStatus code)

/-- Goes on with a delivered transaction that has been paid for. -/
def runPaid (rules : Rules) (txn : Envelope) (r : Rationalization) (h : Handling) :
    Except ProcessingError Bool × Handling :=
  if r.status.code.endsHandling then (.ok false, h.setStatus r.status.code)
  else if !r.othersActive then (.ok false, h.setStatus .invalidSignature)
  else h.dispatch rules.transitions txn r.scheduled

/-- Handles a delivered transaction whose signatures are known, in an open ledger transaction. -/
def runDelivered (rules : Rules) (p : Processor) (txn : Envelope) (r : Rationalization)
    (h : Handling) : Except ProcessingError Bool × Handling :=
  let h := h.identified r
  let fee := rules.fees.fee txn r.payerKey p.rates
  let duplicity := p.histories.duplicity txn.id h.context.member
  match Gate.dueDiligenceFailure rules.durations h.ledger txn h.context duplicity with
  | some code =>
    let h := { h with notices := h.notices ++ Gate.dueDiligenceNotices h.ledger txn h.context }
    (.ok false, (h.charge rules.funding .ignoredDueDiligence txn fee).2.setStatus code)
  | none =>
    if duplicity = .duplicate then
      (.ok false,
        (h.charge rules.funding .duplicate txn fee).2.setStatus .duplicateTransaction)
    else
      onceCharged (runPaid rules txn r) (h.charge rules.funding .standard txn fee)

/-- Handles a triggered transaction, whose signers were checked when its schedule became ready. -/
def runTriggered (rules : Rules) (p : Processor) (txn : Envelope) (h : Handling) :
    Except ProcessingError Bool × Handling :=
  let payerKey := h.ledger.key? txn.payer
  let fee := rules.fees.fee txn payerKey p.rates
  onceCharged (fun h => h.dispatch rules.transitions txn none)
    ((h.keyed payerKey).charge rules.funding .standard txn fee)

/-- What handling a transaction in its own ledger transaction leaves: its context, and the changes of
balances that it committed, or the error for which it was rolled back. -/
structure Outcome where
  context : Context
  committed : Except ProcessingError (List AccountAmount)

def abandon (p : Processor) (txn : Envelope) (error : ProcessingError) (h : Handling) :
    Handled Outcome :=
  let h := h.note (.failure "handling" error txn h.ledger.changeText)
  let h := { h with ledger := h.ledger.rollback }.rollbackPending
  { answer := ⟨h.context.clearTriggered, .error error⟩
    notices := h.notices
    processor := { p.takeBack h with metrics := p.metrics.countFailure } }

def conclude (p : Processor) (txn : Envelope) (transitioned : Bool) (h : Handling) :
    Handled Outcome :=
  let p := if transitioned then { p with metrics := p.metrics.countHandled txn.function.name } else p
  let transfers := h.ledger.netTransfers
  match h.ledger.commit with
  | (.error e, ledger) => p.abandon txn (.ledger e) { h with ledger := ledger }
  | (.ok (), ledger) =>
    ⟨⟨h.context, .ok transfers⟩, h.notices, p.takeBack { h with ledger := ledger }⟩

/-- Commits a handling, or rolls it back if it failed. -/
def close (p : Processor) (txn : Envelope) :
    Except ProcessingError Bool × Handling → Handled Outcome
  | (.ok transitioned, h) => p.conclude txn transitioned h
  | (.error e, h) => p.abandon txn e h

def countVerification (p : Processor) (r : Rationalization) : Processor :=
  if r.status.isError then p
  else { p with metrics := p.metrics.countVerification r.status.mode }

/-- Handles one transaction in its own ledger transaction. -/
def handle (rules : Rules) (p : Processor) (txn : Envelope) (context : Context)
    (triggered : Bool) : Handled Outcome :=
  let leftOpen := if p.ledger.inTransaction then [Notice.ledgerLeftOpen txn.id] else []
  let opened := p.opened context.time
  let p := opened.processor
  let h := p.handlingWith context
  let done :=
    match opened.answer with
    | .error e => p.abandon txn (.ledger e) h
    | .ok () =>
      if triggered then p.close txn (p.runTriggered rules txn h)
      else
        let r := rationalize txn p.ledger p.schedules rules.verification
        (p.countVerification r).close txn (p.runDelivered rules txn r h)
  { done with notices := leftOpen ++ opened.notices ++ done.notices }

def recordOf (txn : Envelope) (outcome : Outcome) : Record where
  receipt := outcome.context.receipt
  hash := txn.hash
  time := outcome.context.time
  id := txn.id
  memo := txn.body.memo
  fee := if outcome.committed.isOk then outcome.context.feeCharged else 0
  transfers := outcome.committed.toOption.getD []
  scheduleRef := txn.schedule

/-- What is noticed about a record that the stream has taken. -/
def streamedNotices (r : Record) (head : Octets 48) (reports : List SinkReport) : List Notice :=
  (reports.flatMap fun
    | .ok (some path) => [.fileOpened path]
    | .ok none => []
    | .error e => [.sinkRefused e r.id]) ++
  [.recordAppended r.id r.time r.status head, .recordStreamed r.id r.time r.status r.fee head]

/-- Notes the handling in the histories and streams its record. -/
def finish (p : Processor) (txn : Envelope) (outcome : Outcome) : Handled Record :=
  let record := recordOf txn outcome
  let histories := p.histories.observe record.id outcome.context.member record.status record.time
  let p := { p with histories := histories }
  match p.records.append ⟨record, txn.signedBytes, record.time⟩ with
  | (.ok (head, reports), records) =>
    ⟨record, streamedNotices record head reports,
      { p with records := records, metrics := p.metrics.countStreamed }⟩
  | (.error e, records) =>
    ⟨record, [.recordNotStreamed record.id record.time e],
      { p with records := records, metrics := p.metrics.countFailure }⟩

/-- Handles a transaction and records it. The answer has the transaction that it triggered. -/
def handleAndRecord (rules : Rules) (p : Processor) (txn : Envelope) (time : Timestamp)
    (member : MemberId) (account : AccountId) (triggered : Bool) :
    Handled (Record × Option Envelope) :=
  let done := p.handle rules txn (.start time member (some account)) triggered
  let (next, context) := done.answer.context.takeTriggered
  let finished := done.processor.finish txn ⟨context, done.answer.committed⟩
  ⟨(finished.answer, next), done.notices ++ finished.notices, finished.processor⟩

/-- Handles a transaction that was triggered, and those that it triggers in turn, up to a number of
transactions. -/
def follow (rules : Rules) (time : Timestamp) (member : MemberId) (account : AccountId) :
    Nat → Processor → Option Envelope → Handled (List Record)
  | 0, p, _ => ⟨[], [], p⟩
  | _ + 1, p, none => ⟨[], [], p⟩
  | n + 1, p, some txn =>
    let first := p.handleAndRecord rules txn time member account true
    let rest := follow rules time member account n first.processor first.answer.2
    ⟨first.answer.1 :: rest.answer, first.notices ++ rest.notices, rest.processor⟩

def effectiveTime (txn : Envelope) (time : Timestamp) : Timestamp :=
  if txn.canTrigger then time.minusNanos 1 else time

/-- A bound on the transactions that follow one another by triggering: no more than a 64-bit count of
records can hold. A chain ends long before, with a transaction that triggers nothing, that its payer
cannot pay for, or whose transition fails. It need not be short, because a schedule whose creation is
provisional is not removed when it runs and may be triggered again. -/
def chainLimit : Nat := 0x10000000000000000

/-- Handles a transaction that passed the sanity check, and the transactions that it triggers. -/
def accept (rules : Rules) (p : Processor) (txn : Envelope) (time : Timestamp) (member : MemberId)
    (account : AccountId) : Handled (List Record) :=
  let first := p.handleAndRecord rules txn (effectiveTime txn time) member account false
  let rest := follow rules time member account chainLimit first.processor first.answer.2
  ⟨first.answer.1 :: rest.answer, first.notices ++ rest.notices, rest.processor⟩

/-- Takes in the bytes of a transaction, its consensus time and the member that submitted it. Bytes
that are no transaction, times that are not later than the last one, and members without stake bring
no record. -/
def incorporate (rules : Rules) (p : Processor) (bytes : List UInt8) (time : Timestamp)
    (member : MemberId) : Handled (List Record) :=
  match Envelope.ofSigned bytes with
  | .error e => ⟨[], [.unparseable member time e], p⟩
  | .ok txn =>
    match Gate.sanityCheck rules.book (effectiveTime txn time) p.clock.lastHandled member with
    | .error e => ⟨[], [e.notice txn], p⟩
    | .ok address => p.accept rules txn time member address.account

def stateHashes (p : Processor) : StateHashes :=
  ⟨p.ledger.rootHash, p.schedules.rootHash, p.records.head⟩

/-- Takes in a report of a differing state. The answer says whether the local hashes were given. -/
def receive (p : Processor) (report : StateReport) : Handled Bool :=
  let (dumped, notices, alert) := p.clock.alert.receive report (.ok p.stateHashes)
  ⟨dumped, notices, { p with clock := { p.clock with alert := alert } }⟩

end Processor

end ConsensusLedger
