import ConsensusLedger.Proofs.Ledger.Settlement
import ConsensusLedger.Proofs.Pipeline.Gates

/-!
What one handling leaves. Its run ends in a commit, which cannot fail and writes the net transfers
of the record, or in a rollback, which leaves every balance alone; in both cases the handling is
noted in the histories and no ledger transaction stays open. A failure is noticed exactly when there
was a rollback, with the error that led to it.
-/

namespace ConsensusLedger

namespace Processor

section Opened

variable (p : Processor) (now : Timestamp)

@[simp] theorem opened_ledger : (p.opened now).processor.ledger = ⟨p.ledger.accounts, some ∅⟩ := rfl

@[simp] theorem opened_histories :
    (p.opened now).processor.histories = (p.histories.purge now).2 := rfl

@[simp] theorem opened_schedules :
    (p.opened now).processor.schedules = (p.schedules.purge now.seconds).2 := rfl

@[simp] theorem opened_rates : (p.opened now).processor.rates = p.rates := rfl

@[simp] theorem opened_lastHandled : (p.opened now).processor.clock.lastHandled = some now := by
  have hadvanced : (p.clock.advance now p.rates).2.lastHandled = some now := by
    unfold Clock.advance
    split <;> rfl
  change ((p.clock.advance now p.rates).2.relaxIfDue now).2.lastHandled = some now
  unfold Clock.relaxIfDue
  split <;> exact hadvanced

theorem opened_notices : ∀ n ∈ (p.opened now).notices, n.isFailure = false := by
  intro n hn
  change n ∈ (advance { p with ledger := ⟨p.ledger.accounts, some ∅⟩ } now).notices at hn
  simp only [advance, List.mem_append] at hn
  obtain ((hday | hexpired) | hpurged) | hrelaxed := hn
  · split at hday
    · rw [List.mem_singleton.1 hday]
      rfl
    · cases hday
  · obtain ⟨id, -, hid⟩ := List.mem_flatMap.1 hexpired
    rcases List.mem_pair.1 hid with rfl | rfl <;> rfl
  · split at hpurged
    · rw [List.mem_singleton.1 hpurged]
      rfl
    · cases hpurged
  · split at hrelaxed
    · rw [List.mem_singleton.1 hrelaxed]
      rfl
    · cases hrelaxed

end Opened

/-- What is known of the signatures of a delivered transaction when it is handled. -/
def rationalized (rules : Rules) (p : Processor) (txn : Envelope) (now : Timestamp) :
    Rationalization :=
  rationalize txn (p.opened now).processor.ledger (p.opened now).processor.schedules
    rules.verification

/-- The handling of a transaction before its run. -/
def opening (p : Processor) (context : Context) : Handling :=
  (p.opened context.time).processor.handlingWith context

/-- The run of a handling, in its open ledger transaction. -/
def running (rules : Rules) (p : Processor) (txn : Envelope) (context : Context)
    (triggered : Bool) : Except ProcessingError Bool × Handling :=
  if triggered then
    (p.opened context.time).processor.runTriggered rules txn (p.opening context)
  else
    (p.opened context.time).processor.runDelivered rules txn
      (p.rationalized rules txn context.time) (p.opening context)

/-- The receipt that a run ends with, the transaction that it triggers, and the schedules that it
leaves: a run that failed triggers nothing, and a creation that it left pending is rolled back. -/
def issue (run : Except ProcessingError Bool × Handling) :
    Receipt × Option Envelope × ScheduleStore :=
  match run.1 with
  | .ok _ => (run.2.context.receipt, run.2.context.triggered, run.2.schedules)
  | .error _ => (run.2.context.clearTriggered.receipt, none, run.2.rollbackPending.schedules)

/-- What the end of a handling does to the processor, and what it leaves to be recorded. -/
structure Closed (p : Processor) (run : Except ProcessingError Bool × Handling)
    (done : Handled Outcome) : Prop where
  status : done.answer.context.status = run.2.context.status
  time : done.answer.context.time = run.2.context.time
  member : done.answer.context.member = run.2.context.member
  histories : done.processor.histories = p.histories
  clock : done.processor.clock = p.clock
  rates : done.processor.rates = p.rates
  changes : done.processor.ledger.changes = none
  freezeWindow : done.processor.freezeWindow = run.2.freezeWindow
  fee : done.answer.context.feeCharged = run.2.context.feeCharged
  /-- A run that went through is committed. -/
  committed : ∀ b, run.1 = .ok b →
    done.answer.committed = .ok run.2.ledger.netTransfers ∧
    (∀ id, done.processor.ledger.accounts.get? id =
      (run.2.ledger.accounts.get? id).map (·.shift (run.2.ledger.delta id))) ∧
    done.processor.schedules = run.2.schedules ∧
    done.answer.context.triggered = run.2.context.triggered
  /-- A run that failed is rolled back. -/
  abandoned : ∀ e, run.1 = .error e →
    done.answer.committed = .error e ∧ done.processor.ledger.accounts = run.2.ledger.accounts ∧
    done.processor.schedules = run.2.rollbackPending.schedules ∧
    done.answer.context.triggered = none
  issued : (done.answer.context.receipt, done.answer.context.triggered, done.processor.schedules) =
    issue run

theorem close_closed (p : Processor) (txn : Envelope)
    (run : Except ProcessingError Bool × Handling) (hsettleable : run.2.ledger.Settleable)
    (hopen : run.2.ledger.inTransaction = true) : Closed p run (p.close txn run) := by
  obtain ⟨result, h⟩ := run
  cases result with
  | ok b =>
    obtain ⟨accounts, hcommit, hview⟩ := Ledger.commit_eq_ok hsettleable hopen
    simp only [close, conclude, hcommit]
    constructor
    · rfl
    · rfl
    · rfl
    · cases b <;> rfl
    · cases b <;> rfl
    · cases b <;> rfl
    · rfl
    · rfl
    · rfl
    · exact fun _ _ => ⟨rfl, hview, rfl, rfl⟩
    · intro e herror
      cases herror
    · rfl
  | error e =>
    simp only [close, abandon]
    constructor
    · simp only [Handling.rollbackPending_context]; rfl
    · simp only [Handling.rollbackPending_context]; rfl
    · simp only [Handling.rollbackPending_context]; rfl
    · rfl
    · rfl
    · rfl
    · simp only [takeBack, Handling.rollbackPending_ledger]; rfl
    · simp only [takeBack, Handling.rollbackPending_freezeWindow]; rfl
    · simp only [Handling.rollbackPending_context]; rfl
    · intro b hran
      cases hran
    · intro e' he
      cases he
      refine ⟨rfl, ?_, ?_, rfl⟩
      · simp only [takeBack, Handling.rollbackPending_ledger]; rfl
      · exact Handling.rollbackPending_schedules rfl
    · simp only [issue, takeBack, Handling.rollbackPending_context]
      refine Prod.ext rfl (Prod.ext rfl ?_)
      exact Handling.rollbackPending_schedules rfl

namespace Closed

variable {p : Processor} {run : Except ProcessingError Bool × Handling} {done : Handled Outcome}

theorem noticed (h : Closed p run done) (notices : List Notice) :
    Closed p run { done with notices := notices } :=
  ⟨h.status, h.time, h.member, h.histories, h.clock, h.rates, h.changes, h.freezeWindow, h.fee,
    h.committed, h.abandoned, h.issued⟩

/-- The count of verifications is not looked at. -/
theorem counted {r : Rationalization} (h : Closed (p.countVerification r) run done) :
    Closed p run done := by
  have hcounted : (p.countVerification r).histories = p.histories ∧
      (p.countVerification r).clock = p.clock ∧ (p.countVerification r).rates = p.rates := by
    unfold countVerification
    split <;> exact ⟨rfl, rfl, rfl⟩
  obtain ⟨hhistories, hclock, hrates⟩ := hcounted
  exact ⟨h.status, h.time, h.member, h.histories.trans hhistories, h.clock.trans hclock,
    h.rates.trans hrates, h.changes, h.freezeWindow, h.fee, h.committed, h.abandoned,
    h.issued⟩

end Closed

/-- A handling closes the run of its transaction in the opened processor. -/
theorem handle_closed (rules : Rules) (p : Processor) (txn : Envelope) (context : Context)
    (triggered : Bool)
    (hsettleable : (p.running rules txn context triggered).2.ledger.Settleable)
    (hopen : (p.running rules txn context triggered).2.ledger.inTransaction = true) :
    Closed (p.opened context.time).processor (p.running rules txn context triggered)
      (p.handle rules txn context triggered) := by
  unfold handle
  cases triggered with
  | true => exact (close_closed _ txn _ hsettleable hopen).noticed _
  | false => exact (close_closed _ txn _ hsettleable hopen).counted.noticed _

/-- The failures that are noticed report the error for which a handling was rolled back. -/
structure Reported (txn : Envelope) (done : Handled Outcome) : Prop where
  noticed : ∀ e, done.answer.committed = .error e →
    ∃ changes, .failure "handling" e txn changes ∈ done.notices
  failures : ∀ n ∈ done.notices, n.isFailure = true →
    ∃ e changes, done.answer.committed = .error e ∧ n = .failure "handling" e txn changes

theorem Reported.after {txn : Envelope} {done : Handled Outcome} (h : Reported txn done)
    {earlier : List Notice} (hearlier : ∀ n ∈ earlier, n.isFailure = false) :
    Reported txn { done with notices := earlier ++ done.notices } := by
  constructor
  · intro e he
    obtain ⟨changes, hmem⟩ := h.noticed e he
    exact ⟨changes, List.mem_append_right earlier hmem⟩
  · intro n hn hfailure
    rcases List.mem_append.1 hn with hold | hnew
    · cases (hearlier n hold).symm.trans hfailure
    · exact h.failures n hnew hfailure

theorem abandon_reported (p : Processor) (txn : Envelope) (e : ProcessingError) {h : Handling}
    (hquiet : ∀ n ∈ h.notices, n.isFailure = false) : Reported txn (p.abandon txn e h) := by
  have hnoted : Notice.failure "handling" e txn h.ledger.changeText ∈
      (h.note (.failure "handling" e txn h.ledger.changeText)).notices := List.mem_concat_self
  constructor
  · intro e' he
    cases he
    refine ⟨h.ledger.changeText, ?_⟩
    simp only [abandon, Handling.rollbackPending]
    split
    · exact List.mem_append_left _ hnoted
    · exact hnoted
  · intro n hn hfailure
    have hbefore := (Handling.rollbackPending_course _ fun _ => True).failures n hn hfailure
    rcases List.mem_append.1 hbefore with hold | hnew
    · cases (hquiet n hold).symm.trans hfailure
    · exact ⟨e, h.ledger.changeText, rfl, List.mem_singleton.1 hnew⟩

/-- A run that has noticed no failure is closed with a report of its error only. -/
theorem close_reported (p : Processor) (txn : Envelope)
    {run : Except ProcessingError Bool × Handling}
    (hquiet : ∀ n ∈ run.2.notices, n.isFailure = false) : Reported txn (p.close txn run) := by
  obtain ⟨result, h⟩ := run
  cases result with
  | error e => exact p.abandon_reported txn e hquiet
  | ok transitioned =>
    simp only [close, conclude]
    split
    · exact abandon_reported _ txn _ hquiet
    · constructor
      · intro e he
        cases he
      · intro n hn hfailure
        cases (hquiet n hn).symm.trans hfailure

/-- The error for which the handling of a transaction is given up. -/
def raised? (rules : Rules) (p : Processor) (txn : Envelope) (context : Context)
    (triggered : Bool) : Option ProcessingError :=
  match (p.handle rules txn context triggered).answer.committed with
  | .error e => some e
  | .ok _ => none

end Processor

end ConsensusLedger
