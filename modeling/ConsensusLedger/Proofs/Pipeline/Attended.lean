import ConsensusLedger.Proofs.Pipeline.Recorded
import ConsensusLedger.Proofs.Transition.Operation

/-!
What one handling does to the schedules. It leaves them aside, deletes one, or settles on one that
then waits or is executed; the receipt, the transaction that is triggered and the schedules left all
follow from which of these it was. Only what a delivered transaction brings with all its signatures
can touch a schedule, apart from those that have expired.
-/

namespace ConsensusLedger

open ScheduleStore
open ScheduleOperation (Settled)

/-- The receipt that a handling writes, the transaction that it triggers, and the schedules that it
leaves, starting from the given ones. -/
inductive Attended (txn : Envelope) (scope : Option ScheduledScope) (now : Int64)
    (s : ScheduleStore) : Receipt × Option Envelope × ScheduleStore → Prop
  | aside (status : Status) : Attended txn scope now s (⟨status, none, none⟩, none, s)
  | deleted {id : ScheduleId} {x : Schedule} (hdata : txn.body.data = .scheduleDelete id)
      (hx : s.committed? id = some x) (hadmin : x.adminKey.isNone = false) :
      Attended txn scope now s (⟨.ok, none, none⟩, none, s.without id x)
  | waiting {op : ScheduleOperation} {inScope : ScheduledScope} {id : ScheduleId}
      {outcome : Signing.Outcome} {x : Schedule} {t : ScheduleStore}
      (hop : ScheduleOperation.ofEnvelope? txn = some op) (hscope : scope = some inScope)
      (hsettled : Settled s (now + s.lifetime) op inScope id outcome x t)
      (hready : outcome.ready = false) :
      Attended txn scope now s (⟨outcome.status, op.receipted id none, none⟩, none, t)
  | executed {op : ScheduleOperation} {inScope : ScheduledScope} {id : ScheduleId}
      {outcome : Signing.Outcome} {x : Schedule} {t : ScheduleStore} {inner : Envelope}
      (hop : ScheduleOperation.ofEnvelope? txn = some op) (hscope : scope = some inScope)
      (hsettled : Settled s (now + s.lifetime) op inScope id outcome x t)
      (hready : outcome.ready = true)
      (hinner : Envelope.ofScheduled x.body x.scheduledId x.payer id = .ok inner) :
      Attended txn scope now s
        (⟨.ok, op.receipted id none, some inner.id⟩, some inner, t.without id x)
  | unreadable {op : ScheduleOperation} {inScope : ScheduledScope} {id : ScheduleId}
      {outcome : Signing.Outcome} {x : Schedule} {t : ScheduleStore} (status : Status)
      (e : ParseError) (hop : ScheduleOperation.ofEnvelope? txn = some op)
      (hscope : scope = some inScope)
      (hsettled : Settled s (now + s.lifetime) op inScope id outcome x t)
      (hready : outcome.ready = true)
      (hinner : Envelope.ofScheduled x.body x.scheduledId x.payer id = .error e) :
      Attended txn scope now s (⟨status, op.receipted id none, none⟩, none, t)

namespace ScheduleOperation.Settled

variable {s t : ScheduleStore} {expiry : Int64} {op : ScheduleOperation} {scope : ScheduledScope}
  {id : ScheduleId} {outcome : Signing.Outcome} {x : Schedule}

theorem committed (h : Settled s expiry op scope id outcome x t) (id' : ScheduleId) :
    t.committed? id' = if id' = id then some x else s.committed? id' := by
  cases h with
  | found _ _ _ ht => exact ht.committed id'
  | admitted => exact committed?_admitting s id x id'

theorem pending (h : Settled s expiry op scope id outcome x t)
    (hpending : s.store.pending = none) : t.store.pending = none := by
  cases h with
  | found _ _ _ ht => exact ht.pending.trans hpending
  | admitted => rfl

/-- The schedule that an operation settles on was committed before, or is new and takes the next
number; but for its signatories it is as it was committed or requested. -/
theorem origin (h : Settled s expiry op scope id outcome x t) :
    (∃ y, s.committed? id = some y ∧ x = { y with signatories := x.signatories }) ∨
      ∃ request, op = .create request ∧ id = s.nextId request ∧ t.nextNumber = s.nextNumber + 1 ∧
        x = { request.schedule expiry with signatories := x.signatories } := by
  cases h with
  | found _ hy hwitnessed => exact .inl ⟨_, hy, hwitnessed.extends_signatories.1⟩
  | admitted request hop hnew hid hwitnessed =>
    exact .inr ⟨request, hop, hid, rfl, hwitnessed.extends_signatories.1⟩

/-- The schedule as it was before the signatures in scope. -/
theorem witnessed (h : Settled s expiry op scope id outcome x t) :
    ∃ y : Schedule, y.Witnessed scope outcome x := by
  cases h with
  | found _ _ hwitnessed => exact ⟨_, hwitnessed⟩
  | admitted _ _ _ _ hwitnessed _ => exact ⟨_, hwitnessed⟩

end ScheduleOperation.Settled

namespace Attended

variable {txn : Envelope} {scope : Option ScheduledScope} {now : Int64} {s t : ScheduleStore}
  {receipt : Receipt} {next : Option Envelope}

/-- What holds of the schedules before, of those with one revised or admitted, and of those without
one of which it holds, holds of the schedules that are left. -/
theorem store_induction {P : ScheduleStore → Prop}
    (h : Attended txn scope now s (receipt, next, t)) (hs : P s)
    (hrevised : ∀ {id x y t}, s.committed? id = some x →
      y = { x with signatories := y.signatories } → Revised s id y t → P t)
    (hadmitted : ∀ {request x}, ScheduleOperation.ofEnvelope? txn = some (.create request) →
      s.find? request.fingerprint = none →
      x = { request.schedule (now + s.lifetime) with signatories := x.signatories } →
      P (s.admitting (s.nextId request) x))
    (hwithout : ∀ {t id x}, t.committed? id = some x → P t → P (t.without id x)) : P t := by
  have hsettles {op : ScheduleOperation} {inScope : ScheduledScope} {id : ScheduleId}
      {outcome : Signing.Outcome} {x : Schedule} {t : ScheduleStore}
      (hop : ScheduleOperation.ofEnvelope? txn = some op)
      (hsettled : Settled s (now + s.lifetime) op inScope id outcome x t) : P t := by
    cases hsettled with
    | found _ hy hwitnessed ht => exact hrevised hy hwitnessed.extends_signatories.1 ht
    | admitted request hcreate hnew hid hwitnessed =>
      rw [hid]
      exact hadmitted (hop.trans (congrArg some hcreate)) hnew hwitnessed.extends_signatories.1
  cases h with
  | aside => exact hs
  | deleted _ hx => exact hwithout hx hs
  | waiting hop _ hsettled => exact hsettles hop hsettled
  | executed hop _ hsettled =>
    exact hwithout ((hsettled.committed _).trans (if_pos rfl)) (hsettles hop hsettled)
  | unreadable _ _ hop _ hsettled => exact hsettles hop hsettled

/-- No creation is left pending. -/
theorem pending (h : Attended txn scope now s (receipt, next, t))
    (hpending : s.store.pending = none) : t.store.pending = none :=
  h.store_induction (P := fun t => t.store.pending = none) hpending
    (fun _ _ ht => ht.pending.trans hpending) (fun _ _ _ => rfl) (fun _ ht => ht)

/-- Without signatures in scope no schedule is created or executed; at most one is deleted. -/
theorem of_unscoped (h : Attended txn none now s (receipt, next, t)) :
    receipt.schedule = none ∧ receipt.scheduledId = none ∧ next = none ∧
      (t = s ∨ ∃ id x, s.committed? id = some x ∧ t = s.without id x) := by
  cases h with
  | aside => exact ⟨rfl, rfl, rfl, .inl rfl⟩
  | deleted _ hx => exact ⟨rfl, rfl, rfl, .inr ⟨_, _, hx, rfl⟩⟩
  | waiting _ hscope => cases hscope
  | executed _ hscope => cases hscope
  | unreadable _ _ _ hscope => cases hscope

end Attended

/-- Nothing has been created or triggered yet. -/
structure Context.Fresh (c : Context) : Prop where
  created : c.created = none
  scheduledId : c.scheduledId = none
  triggered : c.triggered = none

namespace Handling

open Processor (issue)

variable {h : Handling} {txn : Envelope} {scope : Option ScheduledScope} {now : Int64}
  {s : ScheduleStore}

theorem attended_of_ok (hfresh : h.context.Fresh) (b : Bool) :
    Attended txn scope now h.schedules (issue (.ok b, h)) := by
  have hissue : issue (.ok b, h) = (⟨h.context.status, none, none⟩, none, h.schedules) := by
    simp only [issue, Context.receipt, hfresh.created, hfresh.scheduledId, hfresh.triggered]
  rw [hissue]
  exact .aside h.context.status

theorem attended_of_error (hpending : h.schedules.store.pending = none)
    (hfresh : h.context.Fresh) (e : ProcessingError) :
    Attended txn scope now h.schedules (issue (.error e, h)) := by
  have hissue : issue (.error e, h) = (⟨h.context.status, none, none⟩, none, h.schedules) := by
    simp only [issue, Context.receipt, Context.clearTriggered, hfresh.created,
      rollbackPending_eq hpending]
    rfl
  rw [hissue]
  exact .aside h.context.status

theorem runTransfer_frame (h : Handling) (transfers : List AccountAmount) :
    (Transition.runTransfer transfers h).2.schedules = h.schedules ∧
      (h.context.Fresh → (Transition.runTransfer transfers h).2.context.Fresh) := by
  unfold Transition.runTransfer
  split
  · exact ⟨rfl, fun hf => ⟨hf.created, hf.scheduledId, hf.triggered⟩⟩
  · split <;> exact ⟨rfl, fun hf => ⟨hf.created, hf.scheduledId, hf.triggered⟩⟩

/-- An operation that brings signatures, seen from its receipt. -/
theorem run_attended (hpending : h.schedules.store.pending = none) (hfresh : h.context.Fresh)
    {op : ScheduleOperation} {inScope : ScheduledScope}
    (hop : ScheduleOperation.ofEnvelope? txn = some op) (hscope : scope = some inScope) :
    Attended txn scope h.context.time.seconds h.schedules
      (issue (transitioned (op.run h inScope))) := by
  have hoperated := run_operated hpending op inScope
  generalize op.run h inScope = result at hoperated
  cases hoperated with
  | refused code notices =>
    exact attended_of_ok (h := { h with notices := notices }.setStatus code)
      ⟨hfresh.created, hfresh.scheduledId, hfresh.triggered⟩ true
  | lost id notices =>
    exact attended_of_error (h := { h with notices := notices }) hpending hfresh _
  | settled notices hsettled hconcluded =>
    rw [hfresh.created] at hconcluded
    cases hconcluded with
    | waiting hready =>
      rename_i id outcome x t
      have hissue : issue (transitioned (.ok (), Handling.setStatus
          { h with
            schedules := t
            context := { h.context with created := op.receipted id none }
            notices := notices } outcome.status)) =
          (⟨outcome.status, op.receipted id none, none⟩, none, t) := by
        have hscheduledId := hfresh.scheduledId
        have htriggered := hfresh.triggered
        simp only [issue, transitioned, Except.map, setStatus, Context.setStatus, Context.receipt,
          hscheduledId, htriggered]
        rfl
      rw [hissue]
      exact .waiting hop hscope hsettled hready
    | executed inner notices' hready hinner =>
      obtain ⟨y, hwitnessed⟩ := hsettled.witnessed
      rw [(hwitnessed.status_of_ready hready).1]
      exact .executed hop hscope hsettled hready hinner
    | unreadable e hready hinner =>
      have hpending' := hsettled.pending hpending
      simp only [transitioned, Except.map, issue, rollbackPending_eq (h := Handling.mk _ _ _ _ _) hpending']
      exact .unreadable _ e hop hscope hsettled hready hinner

theorem deleteSchedule_attended (hpending : h.schedules.store.pending = none)
    (hfresh : h.context.Fresh) {id : ScheduleId} (hdata : txn.body.data = .scheduleDelete id) :
    Attended txn scope now h.schedules (issue (.ok true, h.deleteSchedule id)) := by
  rcases deleteSchedule_eq hpending id with ⟨code, notices, heq⟩ | ⟨x, notices, hx, hadmin, heq⟩
  · rw [heq]
    exact attended_of_ok (h := { h with notices := notices }.setStatus code)
      ⟨hfresh.created, hfresh.scheduledId, hfresh.triggered⟩ true
  · have hissue : issue (.ok true, h.deleteSchedule id) =
        (⟨.ok, none, none⟩, none, h.schedules.without id x) := by
      simp only [heq, issue, setStatus, Context.setStatus, Context.receipt, hfresh.created,
        hfresh.scheduledId, hfresh.triggered]
      rfl
    rw [hissue]
    exact .deleted hdata hx hadmin

/-- Every dispatch among the standard transitions, seen from its receipt. -/
theorem dispatch_attended (hpending : h.schedules.store.pending = none) (hfresh : h.context.Fresh)
    (maxMemoBytes : UInt64) (txn : Envelope) (scope : Option ScheduledScope) :
    Attended txn scope h.context.time.seconds h.schedules
      (issue (h.dispatch (.standard maxMemoBytes) txn scope)) := by
  have hdispatched := h.dispatch_standard maxMemoBytes txn scope
  generalize h.dispatch (.standard maxMemoBytes) txn scope = result at hdispatched
  cases hdispatched with
  | refused code =>
    exact attended_of_ok (h := h.setStatus code)
      ⟨hfresh.created, hfresh.scheduledId, hfresh.triggered⟩ false
  | transferred transfers =>
    obtain ⟨hsame, hfresh'⟩ := h.runTransfer_frame transfers
    generalize Transition.runTransfer transfers h = ran at hsame hfresh'
    obtain ⟨result, h'⟩ := ran
    rw [← hsame]
    cases result with
    | ok => exact attended_of_ok (hfresh' hfresh) true
    | error e => exact attended_of_error (hsame.symm ▸ hpending) (hfresh' hfresh) e
  | created body payer adminKey memo signatures inScope hdata hmemo hadmin hscope =>
    have hop : ScheduleOperation.ofEnvelope? txn = some (.create
        ⟨body, payer.getD txn.payer, txn.payer, txn.id.validStart, adminKey, memo⟩) := by
      simp only [ScheduleOperation.ofEnvelope?, hdata]
    exact run_attended hpending hfresh hop hscope
  | signed id signatures inScope hdata hid hscope =>
    have hop : ScheduleOperation.ofEnvelope? txn = some (.sign id) := by
      simp only [ScheduleOperation.ofEnvelope?, hdata]
    exact run_attended hpending hfresh hop hscope
  | unscoped function => exact attended_of_error hpending hfresh _
  | deleted id hdata => exact deleteSchedule_attended hpending hfresh hdata
  | frozen window =>
    exact attended_of_ok
      (h := ({ h with freezeWindow := some window }.note (.freezeSet window)).setStatus .ok)
      ⟨hfresh.created, hfresh.scheduledId, hfresh.triggered⟩ true

end Handling

namespace Processor

open Handling

variable {rules : Rules} {maxMemoBytes : UInt64}
  (hstandard : rules.transitions = .standard maxMemoBytes)

include hstandard

/-- A delivered transaction leaves the schedules aside unless its signatures were resolved and those
who have to sign it besides the payer have signed. -/
theorem runDelivered_attended (p : Processor) (txn : Envelope) (r : Rationalization) {h : Handling}
    (hpending : h.schedules.store.pending = none) (hfresh : h.context.Fresh) :
    (∃ status, issue (p.runDelivered rules txn r h) = (⟨status, none, none⟩, none, h.schedules)) ∨
      (r.status.code.endsHandling = false ∧ r.othersActive = true ∧
        Attended txn r.scheduled h.context.time.seconds h.schedules
          (issue (p.runDelivered rules txn r h))) := by
  have haside (h' : Handling) (code : Status) (hsame : h'.schedules = h.schedules)
      (hcontext : h'.context.Fresh) : ∃ status,
        issue (.ok false, h'.setStatus code) = (⟨status, none, none⟩, none, h.schedules) := by
    refine ⟨code, ?_⟩
    simp only [issue, setStatus, Context.setStatus, Context.receipt, hcontext.created,
      hcontext.scheduledId, hcontext.triggered, hsame]
    rfl
  have hcontext : ∀ c : Context, c.created = h.context.created →
      c.scheduledId = h.context.scheduledId → c.triggered = h.context.triggered → c.Fresh :=
    fun c hc hs ht => ⟨hc.trans hfresh.created, hs.trans hfresh.scheduledId, ht.trans hfresh.triggered⟩
  have hdelivered := p.runDelivered_delivered rules txn r h
  generalize p.runDelivered rules txn r h = result at hdelivered
  cases hdelivered with
  | blamed => exact .inl (haside _ _ rfl (hcontext _ rfl rfl rfl))
  | duplicate => exact .inl (haside _ _ rfl (hcontext _ rfl rfl rfl))
  | unpaid => exact .inl (haside _ _ rfl (hcontext _ rfl rfl rfl))
  | unresolved => exact .inl (haside _ _ rfl (hcontext _ rfl rfl rfl))
  | unsigned => exact .inl (haside _ _ rfl (hcontext _ rfl rfl rfl))
  | dispatched hdue hseen hpaid hends hothers =>
    refine .inr ⟨hends, hothers, ?_⟩
    rw [hstandard]
    exact dispatch_attended (h := (paid rules p txn r h).2) hpending (hcontext _ rfl rfl rfl)
      maxMemoBytes txn r.scheduled

/-- A triggered transaction brings no signatures for a schedule. -/
theorem runTriggered_attended (p : Processor) (txn : Envelope) {h : Handling}
    (hpending : h.schedules.store.pending = none) (hfresh : h.context.Fresh) :
    Attended txn none h.context.time.seconds h.schedules (issue (p.runTriggered rules txn h)) := by
  rw [runTriggered, onceCharged_eq, hstandard]
  have hcharged (c : Status × Handling) (hsame : c.2.schedules = h.schedules)
      (htime : c.2.context.time = h.context.time) (hcontext : c.2.context.Fresh) :
      Attended txn none h.context.time.seconds h.schedules (issue (if c.1 = .ok then
        c.2.dispatch (.standard maxMemoBytes) txn none else (.ok false, c.2.setStatus c.1))) := by
    rw [← hsame, ← htime]
    split
    · exact dispatch_attended (hsame.symm ▸ hpending) hcontext maxMemoBytes txn none
    · exact attended_of_ok (h := c.2.setStatus c.1)
        ⟨hcontext.created, hcontext.scheduledId, hcontext.triggered⟩ false
  exact hcharged _ rfl rfl ⟨hfresh.created, hfresh.scheduledId, hfresh.triggered⟩

namespace Recorded

variable {p q : Processor} {txn : Envelope} {time : Timestamp} {member : MemberId}
  {account : AccountId} {r : Record} {next : Option Envelope}

theorem attended_of_delivered
    (h : Recorded rules p txn (.start time member (some account)) false r next q)
    (hpending : p.schedules.store.pending = none) :
    let s := (p.schedules.purge time.seconds).2
    let known := p.rationalized rules txn time
    (∃ status, r.receipt = ⟨status, none, none⟩ ∧ next = none ∧ q.schedules = s) ∨
      (known.status.code.endsHandling = false ∧ known.othersActive = true ∧
        Attended txn known.scheduled time.seconds s (r.receipt, next, q.schedules)) := by
  intro s known
  have hissued : (r.receipt, next, q.schedules) = issue ((p.opened time).processor.runDelivered
      rules txn known (p.opening (.start time member (some account)))) := h.issued
  rcases runDelivered_attended hstandard _ txn known
    (h := p.opening (.start time member (some account))) (purge_pending hpending time.seconds)
    ⟨rfl, rfl, rfl⟩ with ⟨status, haside⟩ | hattended
  · have hreceipt := hissued.trans haside
    simp only [Prod.mk.injEq] at hreceipt
    exact .inl ⟨status, hreceipt⟩
  · rw [hissued]
    exact .inr hattended

theorem attended_of_triggered
    (h : Recorded rules p txn (.start time member (some account)) true r next q)
    (hpending : p.schedules.store.pending = none) :
    Attended txn none time.seconds (p.schedules.purge time.seconds).2
      (r.receipt, next, q.schedules) := by
  rw [h.issued]
  exact runTriggered_attended hstandard _ txn (h := p.opening (.start time member (some account)))
    (purge_pending hpending time.seconds) ⟨rfl, rfl, rfl⟩

/-- What a handling does to the schedules that have not expired. -/
theorem attended {triggered : Bool}
    (h : Recorded rules p txn (.start time member (some account)) triggered r next q)
    (hpending : p.schedules.store.pending = none) :
    Attended txn (if triggered then none else (p.rationalized rules txn time).scheduled) time.seconds
      (p.schedules.purge time.seconds).2 (r.receipt, next, q.schedules) := by
  cases triggered with
  | true => exact h.attended_of_triggered hstandard hpending
  | false =>
    rcases h.attended_of_delivered hstandard hpending with
      ⟨status, hreceipt, hnext, hschedules⟩ | ⟨-, -, hattended⟩
    · rw [hreceipt, hnext, hschedules]
      exact .aside status
    · exact hattended

/-- No creation is left pending. -/
theorem pending {triggered : Bool}
    (h : Recorded rules p txn (.start time member (some account)) triggered r next q)
    (hpending : p.schedules.store.pending = none) : q.schedules.store.pending = none :=
  (h.attended hstandard hpending).pending (purge_pending hpending time.seconds)

end Recorded

end Processor

end ConsensusLedger
