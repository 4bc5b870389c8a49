import ConsensusLedger.Proofs.Handling.History
import ConsensusLedger.Proofs.Pipeline.Closing

/-!
One handling and its record. Under the standard transitions the record lists exactly the changes of
balances that the handling commits, and takes only from those who can be made to pay.
-/

namespace ConsensusLedger

namespace Processor

variable (rules : Rules) (p : Processor) (txn : Envelope) (context : Context) (triggered : Bool)

/-- The accounts that the handling of a transaction can take from. -/
def Debtor (id : AccountId) : Prop :=
  if triggered then id ∈ txn.payer :: txn.body.data.debits
  else DeliveredDebtor txn (p.rationalized rules txn context.time) (p.opening context) id

theorem running_course {maxMemoBytes : UInt64}
    (hstandard : rules.transitions = .standard maxMemoBytes) :
    Handling.Course (Debtor rules p txn context triggered) (p.opening context)
      (p.running rules txn context triggered).2 := by
  cases triggered with
  | true => exact runTriggered_course rules _ txn _ hstandard
  | false => exact runDelivered_course rules _ txn _ _ hstandard

section Handle

variable {rules : Rules} {maxMemoBytes : UInt64}
  (hstandard : rules.transitions = .standard maxMemoBytes)

include hstandard

theorem handle_closed_of_standard :
    Closed (p.opened context.time).processor (p.running rules txn context triggered)
      (p.handle rules txn context triggered) := by
  have hcourse := running_course rules p txn context triggered hstandard
  exact handle_closed rules p txn context triggered
    (hcourse.ledger.settleable (Ledger.settleable_opened p.ledger.accounts))
    (hcourse.ledger.inTransaction rfl)

/-- A handling is given up for the error of its run only: a ledger transaction is begun and committed
without one. -/
theorem handle_committed :
    (p.handle rules txn context triggered).answer.committed =
      (p.running rules txn context triggered).1.map fun _ =>
        (p.running rules txn context triggered).2.ledger.netTransfers := by
  have hclosed := handle_closed_of_standard p txn context triggered hstandard
  cases hrun : (p.running rules txn context triggered).1 with
  | ok b => exact (hclosed.committed b hrun).1
  | error e => exact (hclosed.abandoned e hrun).1

theorem raised?_eq :
    p.raised? rules txn context triggered = match (p.running rules txn context triggered).1 with
      | .error e => some e
      | .ok _ => none := by
  rw [raised?, handle_committed p txn context triggered hstandard]
  cases (p.running rules txn context triggered).1 <;> rfl

theorem handle_reported : Reported txn (p.handle rules txn context triggered) := by
  have hcourse := running_course rules p txn context triggered hstandard
  have hquiet (n : Notice) (hn : n ∈ (p.running rules txn context triggered).2.notices) :
      n.isFailure = false := by
    refine Bool.eq_false_iff.2 fun hfailure => ?_
    cases hcourse.failures n hn hfailure
  have hearlier : ∀ n ∈ (if p.ledger.inTransaction then [Notice.ledgerLeftOpen txn.id] else []) ++
      (p.opened context.time).notices, n.isFailure = false := by
    intro n hn
    rcases List.mem_append.1 hn with hleft | hopened
    · split at hleft
      · rw [List.mem_singleton.1 hleft]
        rfl
      · cases hleft
    · exact p.opened_notices context.time n hopened
  cases triggered with
  | true => exact (close_reported _ txn hquiet).after hearlier
  | false => exact (close_reported _ txn hquiet).after hearlier

end Handle

/-- What a handling and its recording leave, by how the run turned out. -/
structure Recorded (r : Record) (next : Option Envelope) (q : Processor) : Prop where
  id : r.id = txn.id
  time : r.time = context.time
  status : r.status = (p.running rules txn context triggered).2.context.status
  scheduleRef : r.scheduleRef = txn.schedule
  histories : q.histories =
    (p.histories.purge context.time).2.observe txn.id context.member r.status context.time
  lastHandled : q.clock.lastHandled = some context.time
  changes : q.ledger.changes = none
  freezeWindow : q.freezeWindow = (p.running rules txn context triggered).2.freezeWindow
  /-- The fees of a handling that is rolled back are not recorded. -/
  fee : r.fee = match (p.running rules txn context triggered).1 with
    | .ok _ => (p.running rules txn context triggered).2.context.feeCharged
    | .error _ => 0
  committed : ∀ b, (p.running rules txn context triggered).1 = .ok b →
    r.transfers = (p.running rules txn context triggered).2.ledger.netTransfers ∧
    (∀ id, q.ledger.accounts.get? id = (p.ledger.accounts.get? id).map
      (·.shift ((p.running rules txn context triggered).2.ledger.delta id))) ∧
    q.schedules = (p.running rules txn context triggered).2.schedules ∧
    next = (p.running rules txn context triggered).2.context.triggered
  abandoned : ∀ e, (p.running rules txn context triggered).1 = .error e →
    r.transfers = [] ∧ q.ledger.accounts = p.ledger.accounts ∧
    q.schedules = (p.running rules txn context triggered).2.rollbackPending.schedules ∧ next = none
  issued : (r.receipt, next, q.schedules) = issue (p.running rules txn context triggered)

/-- Recording touches the stream and the histories only. -/
theorem finish_frame (q : Processor) (outcome : Outcome) :
    (q.finish txn outcome).answer = recordOf txn outcome ∧
      (q.finish txn outcome).processor.histories =
        q.histories.observe txn.id outcome.context.member outcome.context.status
          outcome.context.time ∧
      (q.finish txn outcome).processor.ledger = q.ledger ∧
      (q.finish txn outcome).processor.schedules = q.schedules ∧
      (q.finish txn outcome).processor.clock = q.clock ∧
      (q.finish txn outcome).processor.freezeWindow = q.freezeWindow := by
  unfold finish
  simp only
  split <;> exact ⟨rfl, rfl, rfl, rfl, rfl, rfl⟩

theorem handleAndRecord_recorded {maxMemoBytes : UInt64}
    (hstandard : rules.transitions = .standard maxMemoBytes) (time : Timestamp) (member : MemberId)
    (account : AccountId) :
    Recorded rules p txn (.start time member (some account)) triggered
      (p.handleAndRecord rules txn time member account triggered).answer.1
      (p.handleAndRecord rules txn time member account triggered).answer.2
      (p.handleAndRecord rules txn time member account triggered).processor := by
  have hcourse := running_course rules p txn (.start time member (some account)) triggered hstandard
  have haccounts := hcourse.ledger.accounts_eq
  have hclosed := handle_closed_of_standard p txn (.start time member (some account)) triggered
    hstandard
  obtain ⟨hanswer, hhistories, hledger, hschedules, hclock, hfreeze⟩ := finish_frame txn
    (p.handle rules txn (.start time member (some account)) triggered).processor
    ⟨(p.handle rules txn (.start time member (some account)) triggered).answer.context.takeTriggered.2,
      (p.handle rules txn (.start time member (some account)) triggered).answer.committed⟩
  have htime := hclosed.time.trans hcourse.time
  have hmember := hclosed.member.trans hcourse.member
  constructor
  · exact congrArg Record.id hanswer
  · exact (congrArg Record.time hanswer).trans htime
  · exact (congrArg Record.status hanswer).trans hclosed.status
  · exact congrArg Record.scheduleRef hanswer
  · refine hhistories.trans ?_
    rw [hclosed.histories]
    have hstatus := congrArg Record.status hanswer
    exact congr (congr (congrArg _ hmember) hstatus.symm) htime
  · exact (congrArg Clock.lastHandled (hclock.trans hclosed.clock)).trans (opened_lastHandled p time)
  · exact (congrArg Ledger.changes hledger).trans hclosed.changes
  · exact hfreeze.trans hclosed.freezeWindow
  · refine (congrArg Record.fee hanswer).trans ?_
    have hfee := hclosed.fee
    cases hrun : (p.running rules txn (.start time member (some account)) triggered).1 with
    | ok b =>
      obtain ⟨hcommitted, -, -, -⟩ := hclosed.committed b hrun
      simp only [recordOf, hcommitted]
      exact hfee
    | error e =>
      obtain ⟨hcommitted, -, -, -⟩ := hclosed.abandoned e hrun
      simp only [recordOf, hcommitted]
      rfl
  · intro b hb
    obtain ⟨htransfers, hview, hsched, hnext⟩ := hclosed.committed b hb
    refine ⟨?_, ?_, hschedules.trans hsched, hnext⟩
    · refine (congrArg Record.transfers hanswer).trans ?_
      exact congrArg (Option.getD ·.toOption []) htransfers
    · intro id
      rw [← haccounts.trans (congrArg Ledger.accounts (opened_ledger p time))]
      exact (congrArg (fun l => Collection.get? (Ledger.accounts l) id) hledger).trans (hview id)
  · intro e he
    obtain ⟨htransfers, hkept, hsched, hnext⟩ := hclosed.abandoned e he
    refine ⟨?_, ?_, hschedules.trans hsched, hnext⟩
    · refine (congrArg Record.transfers hanswer).trans ?_
      exact congrArg (Option.getD ·.toOption []) htransfers
    · exact (congrArg Ledger.accounts hledger).trans (hkept.trans haccounts)
  · rw [← hclosed.issued]
    have hreceipt := congrArg Record.receipt hanswer
    exact congr (congrArg Prod.mk hreceipt) (congrArg (Prod.mk _) hschedules)

namespace Recorded

variable {rules : Rules} {p : Processor} {txn : Envelope} {context : Context} {triggered : Bool}
  {r : Record} {next : Option Envelope} {q : Processor}

/-- The accounts after a handling: each balance has moved by what the run gathered for it, or none
has moved and the record has no transfers. -/
theorem accounts (h : Recorded rules p txn context triggered r next q) :
    ∃ l : Ledger, r.transfers = l.netTransfers ∧
      (∀ id, q.ledger.accounts.get? id = (p.ledger.accounts.get? id).map (·.shift (l.delta id))) ∧
      (l = (p.running rules txn context triggered).2.ledger ∨ l = ⟨p.ledger.accounts, none⟩) := by
  cases hrun : (p.running rules txn context triggered).1 with
  | ok b =>
    obtain ⟨htransfers, hview, -, -⟩ := h.committed b hrun
    exact ⟨_, htransfers, hview, .inl rfl⟩
  | error e =>
    obtain ⟨htransfers, hkept, -, -⟩ := h.abandoned e hrun
    refine ⟨⟨p.ledger.accounts, none⟩, htransfers, fun id => ?_, .inr rfl⟩
    simp only [hkept, Ledger.delta, Account.shift_zero, Option.map_id']

variable {maxMemoBytes : UInt64} (hstandard : rules.transitions = .standard maxMemoBytes)

theorem increasing (h : Recorded rules p txn context triggered r next q) :
    r.transfers.Pairwise fun a b => compare a.account b.account = .lt := by
  obtain ⟨l, htransfers, -, -⟩ := h.accounts
  rw [htransfers]
  exact l.netTransfers_increasing

theorem ne_zero (h : Recorded rules p txn context triggered r next q) :
    ∀ a ∈ r.transfers, a.amount ≠ 0 := by
  obtain ⟨l, htransfers, -, -⟩ := h.accounts
  rw [htransfers]
  exact l.netTransfers_ne_zero

include hstandard in
/-- Every balance moves by what the record says. -/
theorem committedBalance? (h : Recorded rules p txn context triggered r next q) (id : AccountId) :
    q.ledger.committedBalance? id =
      (p.ledger.committedBalance? id).map (· + AccountAmount.sumFor id r.transfers) := by
  obtain ⟨l, htransfers, hview, hl⟩ := h.accounts
  have hcourse := running_course rules p txn context triggered hstandard
  rw [htransfers]
  rcases hl with rfl | rfl
  · have hsettleable := hcourse.ledger.settleable (Ledger.settleable_opened p.ledger.accounts)
    have haccounts := hcourse.ledger.accounts_eq
    have hview' := Ledger.committedBalance?_commit q.ledger hsettleable
      (by rw [haccounts]; exact hview) id
    simp only [Ledger.committedBalance?, haccounts] at hview' ⊢
    exact hview'
  · have hsettleable : (Ledger.mk p.ledger.accounts none).Settleable := by
      intro c hchanges
      cases hchanges
    exact Ledger.committedBalance?_commit q.ledger hsettleable hview id

/-- Handling neither makes nor removes accounts, and leaves their keys alone. -/
theorem account_frame (h : Recorded rules p txn context triggered r next q) (id : AccountId) :
    q.ledger.key? id = p.ledger.key? id ∧ q.ledger.contains id = p.ledger.contains id := by
  obtain ⟨l, -, hview, -⟩ := h.accounts
  simp only [Ledger.key?, Ledger.contains, Ledger.account?, hview]
  cases p.ledger.accounts.get? id with
  | none => exact ⟨rfl, rfl⟩
  | some a =>
    cases hdeleted : a.deleted with
    | true => simp only [Option.map_some, Option.filter, Account.shift_deleted, hdeleted]; exact ⟨rfl, rfl⟩
    | false => simp only [Option.map_some, Option.filter, Account.shift_deleted, hdeleted]; exact ⟨rfl, rfl⟩

include hstandard in
/-- Who loses by a handling can be made to pay. -/
theorem debtor (h : Recorded rules p txn context triggered r next q) {a : AccountAmount}
    (ha : a ∈ r.transfers) (hneg : a.amount < 0) : Debtor rules p txn context triggered a.account := by
  obtain ⟨l, htransfers, -, hl⟩ := h.accounts
  rw [htransfers] at ha
  rcases hl with rfl | rfl
  · have hcourse := running_course rules p txn context triggered hstandard
    apply hcourse.ledger.debitsOnly (Ledger.debitsOnly_opened p.ledger.accounts _)
    rw [Ledger.delta_of_mem_netTransfers ha, ← Int64.toInt_zero]
    exact Int64.lt_iff_toInt_lt.1 hneg
  · cases ha

include hstandard in
/-- What is triggered comes from a schedule. -/
theorem schedule_of_triggered (h : Recorded rules p txn context triggered r next q)
    (htriggered : context.triggered = none) {inner : Envelope} (hnext : next = some inner) :
    inner.schedule.isSome = true := by
  have hcourse := running_course rules p txn context triggered hstandard
  cases hrun : (p.running rules txn context triggered).1 with
  | ok b =>
    obtain ⟨-, -, -, hqueued⟩ := h.committed b hrun
    rcases hcourse.triggered inner (hqueued.symm.trans hnext) with hold | hschedule
    · cases htriggered.symm.trans hold
    · exact hschedule
  | error e =>
    obtain ⟨-, -, -, hqueued⟩ := h.abandoned e hrun
    cases hqueued.symm.trans hnext

/-- A delivered transaction that succeeds was not remembered, has an allowed valid duration, and is
within it. -/
theorem admitted (h : Recorded rules p txn context false r next q) (hok : r.status = .ok) :
    (p.histories.purge context.time).2.duplicity txn.id context.member = .believedUnique ∧
      rules.durations.contains txn.body.validDuration = true ∧
      Gate.chronology txn.body context.time = .ok := by
  have hunique (hdue : dueFailure rules (p.opened context.time).processor txn
        (p.rationalized rules txn context.time) (p.opening context) = none)
      (hseen : (p.opened context.time).processor.histories.duplicity txn.id context.member ≠
        .duplicate) :
      (p.opened context.time).processor.histories.duplicity txn.id context.member =
          .believedUnique ∧
        rules.durations.contains txn.body.validDuration = true ∧
        Gate.chronology txn.body context.time = .ok := by
    have hnode := duplicity_of_dueFailure rules _ txn _ _ hdue
    have hchronology := chronology_of_dueFailure rules _ txn _ _ hdue
    exact ⟨Duplicity.eq_believedUnique hseen hnode, hchronology⟩
  rw [← opened_histories]
  have hstatus := h.status.symm.trans hok
  have hdelivered := runDelivered_delivered rules (p.opened context.time).processor txn
    (p.rationalized rules txn context.time) (p.opening context)
  change Delivered rules _ txn _ _ (p.running rules txn context false) at hdelivered
  generalize p.running rules txn context false = run at hdelivered hstatus
  cases hdelivered with
  | blamed code notices hdue => exact absurd hstatus (dueFailure_ne_ok rules _ txn _ _ hdue)
  | duplicate => cases hstatus
  | unpaid hdue hseen => exact hunique hdue hseen
  | unresolved hdue hseen => exact hunique hdue hseen
  | unsigned hdue hseen => exact hunique hdue hseen
  | dispatched hdue hseen => exact hunique hdue hseen

end Recorded

end Processor

end ConsensusLedger
