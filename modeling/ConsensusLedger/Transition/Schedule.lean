import ConsensusLedger.Transition.Witness

/-!
Creation, signing and deletion of schedules. A creation that repeats the fingerprint of an existing
schedule adds its signatures to that one.
-/

namespace ConsensusLedger

open Signing

namespace Handling

/-- Finds the schedule that a creation repeats, or creates one provisionally. Answers `none` when
the creation is refused with a code. -/
def findOrCreate (h : Handling) (request : NewSchedule) :
    Except ProcessingError (Option ScheduleId) × Handling :=
  let key := Fingerprint.of request.body request.payer request.adminKey request.memo
  match h.schedules.find? key with
  | some id => (.ok (some id), h.note (.scheduleReused id))
  | none =>
    match h.schedules.create h.ledger.contains request h.context.time with
    | .error e => (.error (.store e), h)
    | .ok (⟨.ok, some id⟩, schedules) =>
      (.ok (some id), { h with schedules := schedules }.note (.scheduleCreated id))
    | .ok (⟨status, _⟩, schedules) =>
      (.ok none, { h with schedules := schedules }.setStatus status)

def rollbackPending (h : Handling) : Handling :=
  match h.schedules.rollbackCreation with
  | .ok (p, schedules) => { h with schedules := schedules }.note (.scheduleRolledBack p.id)
  | .error _ => h

def commitPending (h : Handling) : Handling :=
  match h.schedules.commitCreation with
  | .ok (p, schedules) =>
    { h with schedules := schedules }.note (.scheduleCommitted p.id p.entity.expiry)
  | .error _ => h

/-- Executes the schedule if it is ready, and sets the code. -/
def conclude (h : Handling) (id : ScheduleId) (outcome : Outcome) :
    Except ProcessingError Unit × Handling :=
  if outcome.ready then
    match h.executeReady id with
    | (.error e, h) => (.error e, h)
    | (.ok (), h) => (.ok (), h.setStatus outcome.status)
  else (.ok (), h.setStatus outcome.status)

/-- Creates a schedule, or finds the one it repeats, and witnesses the signatures in scope. -/
def createSchedule (h : Handling) (request : NewSchedule) (scope : ScheduledScope) :
    Except ProcessingError Unit × Handling :=
  match h.findOrCreate request with
  | (.error e, h) => (.error e, h)
  | (.ok none, h) => (.ok (), h)
  | (.ok (some id), h) =>
    match h.schedules.witnessScope id scope with
    | (.error e, schedules) => (.error (.store e), { h with schedules := schedules })
    | (.ok outcome, schedules) =>
      let h := { h with schedules := schedules }
      if outcome.status = .someSignaturesWereInvalid then
        (.ok (), h.rollbackPending.setStatus outcome.status)
      else
        let h := h.commitPending
        { h with context := { h.context with created := some id } }.conclude id outcome

def signSchedule (h : Handling) (id : ScheduleId) (scope : ScheduledScope) :
    Except ProcessingError Unit × Handling :=
  if h.schedules.contains id then
    match h.schedules.witnessScope id scope with
    | (.error e, schedules) => (.error (.store e), { h with schedules := schedules })
    | (.ok outcome, schedules) => { h with schedules := schedules }.conclude id outcome
  else (.ok (), h.setStatus .invalidScheduleId)

def deleteSchedule (h : Handling) (id : ScheduleId) : Handling :=
  let (status, schedules) := h.schedules.delete id
  let h := { h with schedules := schedules }
  let h := if status.isOk then h.note (.scheduleDeleted id) else h
  (h.note (.scheduleDeleteHandled id status)).setStatus status

end Handling

namespace Transition

def scheduleCreate (maxMemoBytes : UInt64) : Transition where
  applies body := body.function = .scheduleCreate
  syntaxCheck body :=
    match body.data with
    | .scheduleCreate _ _ adminKey memo _ =>
      if maxMemoBytes.toNat < Text.utf8Length memo then .memoTooLong
      else if adminKey.any (!·.isValid) then .invalidAdminKey
      else .ok
    | _ => .failInvalid
  run txn scope h :=
    match txn.body.data with
    | .scheduleCreate body payer adminKey memo _ =>
      match scope with
      | none => (.error (.missingScheduledScope .scheduleCreate), h)
      | some scope =>
        h.createSchedule
          { body := body
            payer := payer.getD txn.payer
            schedulingAccount := txn.payer
            validStart := txn.id.validStart
            adminKey := adminKey
            memo := memo } scope
    | _ => (.ok (), h.setStatus .failInvalid)

def scheduleSign : Transition where
  applies body := body.function = .scheduleSign
  syntaxCheck body :=
    match body.data with
    | .scheduleSign id _ => if id.isMissing then .invalidScheduleId else .ok
    | _ => .failInvalid
  run txn scope h :=
    match txn.body.data with
    | .scheduleSign id _ =>
      match scope with
      | none => (.error (.missingScheduledScope .scheduleSign), h)
      | some scope => h.signSchedule id scope
    | _ => (.ok (), h.setStatus .failInvalid)

def scheduleDelete : Transition where
  applies body := body.function = .scheduleDelete
  syntaxCheck body :=
    match body.data with
    | .scheduleDelete id => if id.isMissing then .invalidScheduleId else .ok
    | _ => .failInvalid
  run txn _ h :=
    match txn.body.data with
    | .scheduleDelete id => (.ok (), h.deleteSchedule id)
    | _ => (.ok (), h.setStatus .failInvalid)

end Transition

end ConsensusLedger
