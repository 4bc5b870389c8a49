import ConsensusLedger.Proofs.Pipeline.Triggering
import ConsensusLedger.Proofs.WaitingSchedules
import Mathlib.Data.List.Basic

/-!
The trigger protocol. A call handles the delivered transaction and, if that one completed a schedule,
the transaction that the schedule holds, one nanosecond later; the inner transaction runs under the
identifier that the creation of its schedule laid down, and triggers nothing.
-/

namespace ConsensusLedger

open ScheduleStore

namespace Processor

/-- The transaction of a call creates a schedule: it is the one creation that takes the number of the
schedule, and the record names it. -/
structure Creates (p : Processor) (d : Delivery) (records : List Record) (q : Processor)
    (id : ScheduleId) (txn : Envelope) : Prop where
  parsed : Envelope.ofSigned d.bytes = .ok txn
  function : txn.function = .scheduleCreate
  number : id.num = p.schedules.nextNumber
  taken : q.schedules.nextNumber = p.schedules.nextNumber + 1
  receipted : ∃ r ∈ records, r.receipt.schedule = some id

/-- The schedule under an identifier, which runs under some transaction identifier, was committed
before a call, or is created by it and runs under the payer and the valid start of its creation. -/
def Rooted (p : Processor) (d : Delivery) (records : List Record) (q : Processor) (id : ScheduleId)
    (scheduledId : TransactionId) : Prop :=
  (∃ x, p.schedules.committed? id = some x ∧ x.scheduledId = scheduledId) ∨
    ∃ txn, Creates p d records q id txn ∧ scheduledId = ⟨txn.id.payer, txn.id.validStart, true⟩

/-- The second record of a call is of the transaction that the first one triggered, by which the
schedule is executed. -/
structure Triggered (d : Delivery) (r s : Record) (q : Processor) (id : ScheduleId) : Prop where
  operation : ∃ txn, Envelope.ofSigned d.bytes = .ok txn ∧ r.id = txn.id ∧ txn.Names r.receipt id
  delivered : r.scheduleRef = none
  status : r.status = .ok
  earlier : r.time = d.time.minusNanos 1
  time : s.time = d.time
  scheduledId : r.receipt.scheduledId = some s.id
  scheduleRef : s.scheduleRef = some id
  gone : q.schedules.committed? id = none
  last : s.receipt.scheduledId = none

variable {rules : Rules} {maxMemoBytes : UInt64}
  (hstandard : rules.transitions = .standard maxMemoBytes) {p q : Processor} {d : Delivery}
  {executed : Envelope → Prop} {records : List Record} {id : ScheduleId}

/-- What a handling tells of the source of a schedule holds for the call. -/
theorem Rooted.of_sourced {txn : Envelope} {now : Int64} {t : ScheduleStore} {r : Record}
    {scheduledId : TransactionId} (hpending : p.schedules.store.pending = none)
    (hparse : Envelope.ofSigned d.bytes = .ok txn)
    (h : Sourced txn (p.schedules.purge now).2 r.receipt t id scheduledId) (hr : r ∈ records)
    (hnext : q.schedules.nextNumber = t.nextNumber) : Rooted p d records q id scheduledId := by
  rcases h with ⟨x, hx, hscheduledId⟩ | hcreation
  · exact .inl ⟨x, purge_within hpending now id x hx, hscheduledId⟩
  · have hnumber := p.schedules.purge_nextNumber now
    refine .inr ⟨txn, ⟨hparse, hcreation.function, hcreation.number.trans hnumber, ?_,
      r, hr, hcreation.receipted⟩, ?_⟩
    · rw [hnext, hcreation.taken, hnumber]
    · rw [hcreation.scheduledId, Envelope.payer_of_ofSigned hparse]

include hstandard

/-- Every schedule that is committed after a call has its root in it. -/
theorem BriefCall.rooted (h : BriefCall executed rules p d records q)
    (hpending : p.schedules.store.pending = none) {x : Schedule}
    (hx : q.schedules.committed? id = some x) : Rooted p d records q id x.scheduledId := by
  cases h with
  | dropped => exact .inl ⟨x, hx, rfl⟩
  | delivered hparse hsane hfirst =>
    exact .of_sourced hpending hparse ((hfirst.attended hstandard hpending).sourced hx)
      (List.mem_singleton.2 rfl) rfl
  | triggered hparse hsane hfirst hexecuted hsecond =>
    rename_i q
    have hpending' := hfirst.pending hstandard hpending
    have hx' : q.schedules.committed? id = some x :=
      hsecond.triggered_induction hstandard hpending'
        (P := fun s => s.committed? id = some x → q.schedules.committed? id = some x) (fun hx => hx)
        (fun s id' y _ hkept hx => hkept (without_within s id' y id x hx)) hx
    exact .of_sourced hpending hparse ((hfirst.attended hstandard hpending).sourced hx')
      List.mem_cons_self (hsecond.nextNumber_of_triggered hstandard hpending')

/-- A call brings no record, one that triggered nothing, or two. -/
theorem BriefCall.triggers (h : BriefCall executed rules p d records q)
    (hpending : p.schedules.store.pending = none) :
    records = [] ∨ (∃ r, records = [r] ∧ r.scheduleRef = none ∧ r.receipt.scheduledId = none) ∨
      ∃ r s id, records = [r, s] ∧ Triggered d r s q id ∧ Rooted p d records q id s.id := by
  cases h with
  | dropped => exact .inl rfl
  | delivered hparse hsane hfirst =>
    exact .inr (.inl ⟨_, rfl, hfirst.scheduleRef.trans (Envelope.schedule_of_ofSigned hparse),
      (hfirst.attended hstandard hpending).scheduledId_eq⟩)
  | triggered hparse hsane hfirst hexecuted hsecond =>
    rename_i txn inner address r s q
    have hpending' := hfirst.pending hstandard hpending
    obtain ⟨id, hschedule, hcan, hnames, hstatus, hscheduledId, hgone, hsourced⟩ :=
      (hfirst.attended hstandard hpending).triggers
    have hsid : s.id = inner.id := hsecond.id
    have hnext := hsecond.nextNumber_of_triggered hstandard hpending'
    refine .inr (.inr ⟨r, s, id, rfl, ?_, ?_⟩)
    · constructor
      · exact ⟨txn, hparse, hfirst.id, hnames⟩
      · exact hfirst.scheduleRef.trans (Envelope.schedule_of_ofSigned hparse)
      · exact hstatus
      · have htime : effectiveTime txn d.time = d.time.minusNanos 1 := if_pos hcan
        exact hfirst.time.trans htime
      · exact hsecond.time
      · rw [hscheduledId, hsid]
      · exact hsecond.scheduleRef.trans hschedule
      · exact hsecond.committed?_eq_none hstandard hpending' hgone
      · obtain ⟨-, hlast, -, -⟩ := (hsecond.attended_of_triggered hstandard hpending').of_unscoped
        exact hlast
    · rw [hsid]
      exact .of_sourced hpending hparse hsourced List.mem_cons_self hnext

/-- A record that names an executed schedule is the second one of its call. -/
theorem BriefCall.of_executed (h : BriefCall executed rules p d records q)
    (hpending : p.schedules.store.pending = none) {s : Record} (hs : s ∈ records)
    (hid : s.scheduleRef = some id) :
    ∃ r, records = [r, s] ∧ Triggered d r s q id ∧ Rooted p d records q id s.id := by
  rcases h.triggers hstandard hpending with
    rfl | ⟨r, rfl, hnone, -⟩ | ⟨r, s', id', rfl, htriggered, hrooted⟩
  · cases hs
  · cases List.mem_singleton.1 hs
    cases hnone.symm.trans hid
  · rcases List.mem_cons.1 hs with rfl | hs
    · cases htriggered.delivered.symm.trans hid
    · cases List.mem_singleton.1 hs
      cases htriggered.scheduleRef.symm.trans hid
      exact ⟨r, rfl, htriggered, hrooted⟩

/-- A schedule that a record names has its root in the call. -/
theorem BriefCall.rooted_of_named (h : BriefCall executed rules p d records q)
    (hpending : p.schedules.store.pending = none) {r : Record} (hr : r ∈ records)
    (hnamed : r.receipt.schedule = some id ∨ r.scheduleRef = some id) :
    ∃ scheduledId, Rooted p d records q id scheduledId := by
  rcases hnamed with hreceipt | hid
  · cases h with
    | dropped => cases hr
    | delivered hparse hsane hfirst =>
      cases List.mem_singleton.1 hr
      obtain ⟨scheduledId, hsourced⟩ :=
        (hfirst.attended hstandard hpending).sourced_of_receipted hreceipt
      exact ⟨scheduledId, .of_sourced hpending hparse hsourced hr rfl⟩
    | triggered hparse hsane hfirst hexecuted hsecond =>
      have hpending' := hfirst.pending hstandard hpending
      rcases List.mem_cons.1 hr with rfl | hlast
      · obtain ⟨scheduledId, hsourced⟩ :=
          (hfirst.attended hstandard hpending).sourced_of_receipted hreceipt
        exact ⟨scheduledId, .of_sourced hpending hparse hsourced hr
          (hsecond.nextNumber_of_triggered hstandard hpending')⟩
      · cases List.mem_singleton.1 hlast
        obtain ⟨hnone, -⟩ := (hsecond.attended_of_triggered hstandard hpending').of_unscoped
        cases hnone.symm.trans hreceipt
  · obtain ⟨-, -, -, hrooted⟩ := h.of_executed hstandard hpending hr hid
    exact ⟨r.id, hrooted⟩

end Processor

namespace Node

/-- A schedule runs under the payer and the valid start of the transaction of the run that created it,
flagged as scheduled. -/
def Origin (n : Node) (ds : List Delivery) (id : ScheduleId) (scheduledId : TransactionId) : Prop :=
  ∃ es d txn, es ++ [d] <+: ds ∧
    Processor.Creates (n.after es).processor d ((n.after es).deliver d).answer
      (n.after (es ++ [d])).processor id txn ∧
    scheduledId = ⟨txn.id.payer, txn.id.validStart, true⟩

variable (c : ProcessingConfig) (book : AddressBook) (verification : Signing.VerifierConfig)
  (fees : FeeSchedule) {start : Processor} {lifetime : Int64} {first : UInt64}

theorem origin_of_rooted {n : Node} {ds : List Delivery} {d : Delivery} {id : ScheduleId}
    {scheduledId : TransactionId}
    (hbefore : ∀ id x, (n.after ds).processor.schedules.committed? id = some x →
      n.Origin ds id x.scheduledId)
    (h : Processor.Rooted (n.after ds).processor d ((n.after ds).deliver d).answer
      (n.after (ds ++ [d])).processor id scheduledId) : n.Origin (ds ++ [d]) id scheduledId := by
  rcases h with ⟨x, hx, rfl⟩ | ⟨txn, hcreates, hscheduledId⟩
  · obtain ⟨es, e, txn, hinitial, hcreates⟩ := hbefore id x hx
    exact ⟨es, e, txn, hinitial.trans (List.prefix_append ds [d]), hcreates⟩
  · exact ⟨ds, d, txn, List.prefix_rfl, hcreates, hscheduledId⟩

/-- Along a run that starts without schedules no creation stays pending, and every committed schedule
has its origin in the run. -/
theorem committed_origin (hempty : start.schedules = .empty lifetime first) (ds : List Delivery) :
    let n := standard c book verification fees start
    (n.after ds).processor.schedules.store.pending = none ∧
      ∀ id x, (n.after ds).processor.schedules.committed? id = some x →
        n.Origin ds id x.scheduledId := by
  intro n
  induction ds using List.reverseRecOn with
  | nil =>
    have hschedules : (n.after []).processor.schedules = .empty lifetime first := hempty
    rw [hschedules]
    exact ⟨rfl, nofun⟩
  | append_singleton ds d ih =>
    obtain ⟨hpending, hbefore⟩ := ih
    have hbrief := deliver_brief c book verification fees start ds d hpending
    exact ⟨hbrief.pending rfl hpending,
      fun id x hx => origin_of_rooted hbefore (hbrief.rooted rfl hpending hx)⟩

/-- From no schedules, every call completes by itself and brings at most two records, the second just
when the first one's receipt has the identifier of a triggered transaction. Then the first record is of
a successful creation or signing of a schedule, a nanosecond before the consensus time, and the second
one is of the transaction that the schedule holds, at the consensus time: it has the identifier that the
receipt gives, with payer and valid start of the transaction that created the schedule, and it triggers
nothing. The schedule is no longer in the store. -/
theorem calls_trigger_once (hempty : start.schedules = .empty lifetime first) (ds : List Delivery)
    (d : Delivery) :
    let n := standard c book verification fees start
    let done := (n.after ds).deliver d
    Processor.Completed n.rules (n.after ds).processor d done ∧ done.answer.length ≤ 2 ∧
      (done.answer.length = 2 ↔ ∃ r rest, done.answer = r :: rest ∧ r.receipt.scheduledId ≠ none) ∧
      ∀ r s, done.answer = [r, s] → ∃ id,
        Processor.Triggered d r s done.processor id ∧ n.Origin (ds ++ [d]) id s.id := by
  intro n done
  obtain ⟨hpending, hbefore⟩ := committed_origin c book verification fees hempty ds
  have hcompleted : Processor.Completed n.rules (n.after ds).processor d done := by
    rw [show done = _ from deliver_after n ds d]
    exact Processor.incorporate_completed rfl hpending d
  have htriggers := (deliver_brief c book verification fees start ds d hpending).triggers rfl hpending
  refine ⟨hcompleted, ?_⟩
  rcases htriggers with hnone | ⟨r, hone, -, hquiet⟩ | ⟨r, s, id, htwo, htriggered, hrooted⟩
  · have hanswer : done.answer = [] := hnone
    rw [hanswer]
    refine ⟨Nat.zero_le 2, ⟨fun hlength => ?_, ?_⟩, fun r s hsame => ?_⟩
    · cases hlength
    · rintro ⟨r, rest, hcons, -⟩
      cases hcons
    · cases hsame
  · have hanswer : done.answer = [r] := hone
    rw [hanswer]
    refine ⟨Nat.le_succ 1, ⟨fun hlength => ?_, ?_⟩, fun r' s hsame => ?_⟩
    · cases hlength
    · rintro ⟨r', rest, hcons, htriggers⟩
      cases hcons
      exact absurd hquiet htriggers
    · cases hsame
  · have hanswer : done.answer = [r, s] := htwo
    have horigin := origin_of_rooted hbefore hrooted
    rw [processor_after_concat] at htriggered
    rw [hanswer]
    refine ⟨Nat.le_refl 2, ⟨fun _ => ⟨r, [s], rfl, ?_⟩, fun _ => rfl⟩, fun r' s' hsame => ?_⟩
    · rw [htriggered.scheduledId]
      exact nofun
    · cases hsame
      exact ⟨id, htriggered, horigin⟩

/-- The approval of account 0.0.4 executes the schedule that the creation of account 0.0.2 made. -/
theorem calls_trigger_once_approval :
    let n := standard {} Sample.book Sample.verification {} Sample.start
    ∃ r s id, ((n.after [Sample.creation]).deliver Sample.approval).answer = [r, s] ∧
      Processor.Triggered Sample.approval r s
        ((n.after [Sample.creation]).deliver Sample.approval).processor id ∧
      n.Origin [Sample.creation, Sample.approval] id s.id := by
  intro n
  have hlength : ((n.after [Sample.creation]).deliver Sample.approval).answer.length = 2 := by
    decide +kernel
  obtain ⟨r, s, hanswer⟩ := List.length_eq_two.1 hlength
  have hempty : Sample.start.schedules = .empty 1800 1000 := rfl
  obtain ⟨-, -, -, htriggers⟩ := calls_trigger_once {} Sample.book Sample.verification {} hempty
    [Sample.creation] Sample.approval
  obtain ⟨id, htriggered, horigin⟩ := htriggers r s hanswer
  exact ⟨r, s, id, hanswer, htriggered, horigin⟩

end Node

end ConsensusLedger
