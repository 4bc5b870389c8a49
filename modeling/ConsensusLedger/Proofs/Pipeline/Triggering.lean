import ConsensusLedger.Proofs.Pipeline.Numbering

/-!
What a handling creates and triggers. A schedule that is committed or executed was committed before, or
is created by the handling, which takes the next number for it. The transaction that is triggered has
the identifier that the receipt gives, and its schedule is gone.
-/

namespace ConsensusLedger

open ScheduleStore
open ScheduleOperation (Settled)

/-- A handling creates a schedule: it takes the next number for it, and its receipt says so. -/
structure Creation (txn : Envelope) (s : ScheduleStore) (receipt : Receipt) (t : ScheduleStore)
    (id : ScheduleId) (scheduledId : TransactionId) : Prop where
  function : txn.function = .scheduleCreate
  number : id.num = s.nextNumber
  taken : t.nextNumber = s.nextNumber + 1
  receipted : receipt.schedule = some id
  scheduledId : scheduledId = ⟨txn.payer, txn.id.validStart, true⟩

/-- The schedule under an identifier, which runs under some transaction identifier, was committed before
a handling or is created by it. -/
def Sourced (txn : Envelope) (s : ScheduleStore) (receipt : Receipt) (t : ScheduleStore)
    (id : ScheduleId) (scheduledId : TransactionId) : Prop :=
  (∃ y, s.committed? id = some y ∧ y.scheduledId = scheduledId) ∨
    Creation txn s receipt t id scheduledId

/-- The transaction brings signatures for a schedule: it creates the schedule or repeats its creation,
so that its receipt names it, or it signs it. -/
def Envelope.Names (txn : Envelope) (receipt : Receipt) (id : ScheduleId) : Prop :=
  (txn.function = .scheduleCreate ∧ receipt.schedule = some id) ∨
    ∃ signatures, txn.body.data = .scheduleSign id signatures

variable {txn inner : Envelope} {scope : Option ScheduledScope} {now : Int64} {s t : ScheduleStore}
  {receipt : Receipt} {next : Option Envelope} {id : ScheduleId}

namespace ScheduleOperation

variable {op : ScheduleOperation}

/-- The request of a creation is made from the delivered transaction. -/
theorem request_eq {request : NewSchedule} (hop : ofEnvelope? txn = some (.create request)) :
    txn.function = .scheduleCreate ∧ request.schedulingAccount = txn.payer ∧
      request.validStart = txn.id.validStart := by
  unfold ofEnvelope? at hop
  split at hop
  · rename_i hdata
    cases hop
    refine ⟨?_, rfl, rfl⟩
    rw [Envelope.function, TransactionBody.function, hdata]
    rfl
  · cases hop
  · cases hop

/-- Only creations and signings of schedules bring signatures for one, and only they can trigger. -/
theorem canTrigger_of_ofEnvelope? (hop : ofEnvelope? txn = some op) : txn.canTrigger = true := by
  rw [Envelope.canTrigger, Envelope.function, TransactionBody.function]
  unfold ofEnvelope? at hop
  split at hop
  · rename_i hdata
    rw [hdata]
    rfl
  · rename_i hdata
    rw [hdata]
    rfl
  · cases hop

theorem Settled.names {expiry : Int64} {inScope : ScheduledScope} {outcome : Signing.Outcome}
    {x : Schedule} (h : Settled s expiry op inScope id outcome x t) (hop : ofEnvelope? txn = some op)
    (hreceipt : receipt.schedule = op.receipted id none) : txn.Names receipt id := by
  cases op with
  | create request => exact .inl ⟨(request_eq hop).1, hreceipt⟩
  | sign id' =>
    have htarget : id' = id := by
      cases h with
      | found htarget => exact Option.some.inj htarget
      | admitted request hcreate => cases hcreate
    subst htarget
    unfold ofEnvelope? at hop
    split at hop
    · cases hop
    · rename_i hdata
      cases hop
      exact .inr ⟨_, hdata⟩
    · cases hop

theorem Settled.sourced {expiry : Int64} {inScope : ScheduledScope} {outcome : Signing.Outcome}
    {x : Schedule} {t' : ScheduleStore} (h : Settled s expiry op inScope id outcome x t)
    (hop : ofEnvelope? txn = some op) (hreceipt : receipt.schedule = op.receipted id none)
    (hnext : t'.nextNumber = t.nextNumber) : Sourced txn s receipt t' id x.scheduledId := by
  rcases h.origin with ⟨y, hy, hx⟩ | ⟨request, rfl, hid, htaken, hx⟩
  · exact .inl ⟨y, hy, (congrArg Schedule.scheduledId hx).symm⟩
  · obtain ⟨hfunction, haccount, hstart⟩ := request_eq hop
    refine .inr ⟨hfunction, congrArg EntityId.num hid, hnext.trans htaken, hreceipt, ?_⟩
    rw [← haccount, ← hstart]
    exact congrArg Schedule.scheduledId hx

end ScheduleOperation

namespace Attended

theorem scheduledId_eq (h : Attended txn scope now s (receipt, next, t)) :
    receipt.scheduledId = next.map (·.id) := by
  cases h <;> rfl

/-- A schedule that is committed after a handling has its source in it. -/
theorem sourced (h : Attended txn scope now s (receipt, next, t)) {x : Schedule}
    (hx : t.committed? id = some x) : Sourced txn s receipt t id x.scheduledId := by
  have hsettles {op : ScheduleOperation} {inScope : ScheduledScope} {id' : ScheduleId}
      {outcome : Signing.Outcome} {x' : Schedule} {t t' : ScheduleStore}
      (hop : ScheduleOperation.ofEnvelope? txn = some op)
      (hsettled : Settled s (now + s.lifetime) op inScope id' outcome x' t)
      (hreceipt : receipt.schedule = op.receipted id' none) (hnext : t'.nextNumber = t.nextNumber)
      (hx : t.committed? id = some x) : Sourced txn s receipt t' id x.scheduledId := by
    rw [hsettled.committed] at hx
    split at hx
    · rename_i hid
      subst hid
      cases hx
      exact hsettled.sourced hop hreceipt hnext
    · exact .inl ⟨x, hx, rfl⟩
  cases h with
  | aside => exact .inl ⟨x, hx, rfl⟩
  | deleted => exact .inl ⟨x, without_within _ _ _ _ _ hx, rfl⟩
  | waiting hop _ hsettled => exact hsettles hop hsettled rfl rfl hx
  | executed hop _ hsettled =>
    exact hsettles hop hsettled rfl rfl (without_within _ _ _ _ _ hx)
  | unreadable _ _ hop _ hsettled => exact hsettles hop hsettled rfl rfl hx

/-- The schedule that a receipt names has its source in the handling. -/
theorem sourced_of_receipted (h : Attended txn scope now s (receipt, next, t))
    (hreceipt : receipt.schedule = some id) : ∃ scheduledId, Sourced txn s receipt t id scheduledId := by
  have hsettles {op : ScheduleOperation} {inScope : ScheduledScope} {id' : ScheduleId}
      {outcome : Signing.Outcome} {x' : Schedule} {t t' : ScheduleStore}
      (hop : ScheduleOperation.ofEnvelope? txn = some op)
      (hsettled : Settled s (now + s.lifetime) op inScope id' outcome x' t)
      (hnamed : receipt.schedule = op.receipted id' none) (hnext : t'.nextNumber = t.nextNumber) :
      ∃ scheduledId, Sourced txn s receipt t' id scheduledId := by
    have hid : id = id' := by
      rw [hreceipt] at hnamed
      cases op with
      | create => exact Option.some.inj hnamed
      | sign => cases hnamed
    subst hid
    exact ⟨_, hsettled.sourced hop hnamed hnext⟩
  cases h with
  | aside => cases hreceipt
  | deleted => cases hreceipt
  | waiting hop _ hsettled => exact hsettles hop hsettled rfl rfl
  | executed hop _ hsettled => exact hsettles hop hsettled rfl rfl
  | unreadable _ _ hop _ hsettled => exact hsettles hop hsettled rfl rfl

/-- A handling that triggers a transaction succeeds and takes out the schedule that it completed, under
whose transaction identifier the triggered one runs. -/
theorem triggers (h : Attended txn scope now s (receipt, some inner, t)) :
    ∃ id, inner.schedule = some id ∧ txn.canTrigger = true ∧
      txn.Names receipt id ∧ receipt.status = .ok ∧
      receipt.scheduledId = some inner.id ∧ t.committed? id = none ∧
      Sourced txn s receipt t id inner.id := by
  cases h with
  | executed hop _ hsettled _ hinner =>
    obtain ⟨hid, -, hschedule⟩ := Envelope.origin_of_ofScheduled hinner
    refine ⟨_, hschedule, ScheduleOperation.canTrigger_of_ofEnvelope? hop,
      hsettled.names hop rfl, rfl, rfl, ?_, ?_⟩
    · rw [committed?_without, if_pos rfl]
    · rw [hid]
      exact hsettled.sourced hop rfl rfl

/-- A handling that triggers a transaction leaves no schedule as anything but what it was. -/
theorem within_of_triggers (h : Attended txn scope now s (receipt, some inner, t)) : Within t s := by
  intro id x hx
  cases h with
  | executed _ _ hsettled =>
    rw [committed?_without] at hx
    split at hx
    · cases hx
    · rename_i hid
      rw [hsettled.committed, if_neg hid] at hx
      exact hx

end Attended

end ConsensusLedger
