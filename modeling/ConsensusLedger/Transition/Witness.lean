import ConsensusLedger.Handling.Context
import ConsensusLedger.Signing.Witness

/-!
Witnessing of signatures on schedules, and the execution of schedules that are ready.
-/

namespace ConsensusLedger

open Signing

namespace ScheduleStore

/-- Records signatories on a schedule, and says how many of them are new. -/
def witness (id : ScheduleId) (keys : List PublicKey) (s : ScheduleStore) :
    Except StoreError Nat × ScheduleStore :=
  s.apply id fun schedule =>
    let (news, schedule) := schedule.witnessAll keys
    (.ok (news.count true), schedule)

/-- The keys required by a scope are active over the signatories of a schedule. -/
def isReady (id : ScheduleId) (scope : ScheduledScope) (s : ScheduleStore) :
    Except StoreError Bool :=
  (s.get id).map fun schedule => scope.isSatisfied schedule.hasSigned

def witnessTarget (id : ScheduleId) (scope : ScheduledScope) :
    WitnessTarget ScheduleStore StoreError :=
  ⟨witness id, isReady id scope⟩

def witnessScope (s : ScheduleStore) (id : ScheduleId) (scope : ScheduledScope) :
    Except StoreError Outcome × ScheduleStore :=
  witnessInScope scope.attempts scope.signatures (witnessTarget id scope) s

end ScheduleStore

namespace Handling

/-- Removes a ready schedule and queues its inner transaction. -/
def executeReady (h : Handling) (id : ScheduleId) : Except ProcessingError Unit × Handling :=
  match h.schedules.get id with
  | .error e => (.error (.store e), h)
  | .ok schedule =>
    match Envelope.ofScheduled schedule.body schedule.scheduledId schedule.payer id with
    | .error e => (.error (.parse e), h)
    | .ok txn =>
      match h.schedules.markExecuted id with
      | (.ok, schedules) =>
        let h := { h with schedules := schedules }.note (.scheduleExecuted id)
        let h := h.note (.scheduledTriggered id txn.id)
        (.ok (), { h with context := h.context.trigger txn })
      | (status, schedules) =>
        (.error (.store (.notFound id)),
          { h with schedules := schedules }.note (.scheduleNotExecuted id status))

end Handling

end ConsensusLedger
