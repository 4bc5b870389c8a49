import ConsensusLedger.Proofs.Ledger.Overflow
import ConsensusLedger.Proofs.Pipeline.Scheduling

/-!
Errors of a run. While every schedule waits, an operation that brings signatures cannot fail: its scope
was made when its signatures were resolved, the index leads to a committed schedule, and the body of a
schedule that is executed can be read. What is left is a transfer by which an account overflows, and the
rollback undoes all that such a run has done.
-/

namespace ConsensusLedger

open Signing ScheduleStore

namespace Handling

/-- A run fails because an amount of a transfer list makes an account overflow. Up to then it has set
no code, and has changed neither the schedules nor the freeze window. -/
structure Overflows (txn : Envelope) (h : Handling) (e : ProcessingError) (h' : Handling) : Prop where
  cause : ∃ transfers, txn.body.data = .cryptoTransfer transfers ∧
    ∃ x ∈ transfers, ∃ balance, e = .ledger (.overflow x.account balance x.amount)
  lastStatus : h'.context.lastStatus = h.context.lastStatus
  schedules : h'.schedules = h.schedules
  freezeWindow : h'.freezeWindow = h.freezeWindow

variable {h : Handling} {txn : Envelope} {scope : Option ScheduledScope} {e : ProcessingError}

theorem runTransfer_overflows {transfers : List AccountAmount}
    (hdata : txn.body.data = .cryptoTransfer transfers)
    (hchecked : Transition.transferSyntax transfers = .ok) (hopen : h.ledger.inTransaction = true)
    (he : (Transition.runTransfer transfers h).1 = .error e) :
    Overflows txn h e (Transition.runTransfer transfers h).2 := by
  have hdistinct := (Ledger.transferSyntax_eq_ok hchecked).2
  unfold Transition.runTransfer at he ⊢
  split at he
  · cases he
  · rename_i hfailure
    split at he
    · rename_i error ledger hadjust
      cases he
      obtain ⟨x, hx, balance, rfl⟩ :=
        Ledger.adjustAll_overflows hopen hdistinct hfailure (congrArg Prod.fst hadjust)
      exact ⟨⟨transfers, hdata, x, hx, balance, rfl⟩, rfl, rfl, rfl⟩
    · cases he

/-- Only operations that bring signatures look at the scope. -/
theorem dispatch_scope (maxMemoBytes : UInt64) (hop : ScheduleOperation.ofEnvelope? txn = none)
    (scope scope' : Option ScheduledScope) :
    h.dispatch (.standard maxMemoBytes) txn scope = h.dispatch (.standard maxMemoBytes) txn scope' := by
  have hfind := TransitionRegistry.find?_standard maxMemoBytes txn.body
  unfold dispatch
  rw [Envelope.function, hfind]
  unfold ScheduleOperation.ofEnvelope? at hop
  cases hdata : txn.body.data with
  | cryptoTransfer => rfl
  | scheduleCreate =>
    rw [hdata] at hop
    cases hop
  | scheduleSign =>
    rw [hdata] at hop
    cases hop
  | scheduleDelete => rfl
  | freeze => rfl

/-- A dispatch fails for an overflow only, if operations that bring signatures do not fail. -/
theorem dispatch_overflows (maxMemoBytes : UInt64) (hopen : h.ledger.inTransaction = true)
    (hoperation : ∀ op, ScheduleOperation.ofEnvelope? txn = some op →
      ∃ inScope, scope = some inScope ∧ (op.run h inScope).1 = .ok ())
    (he : (h.dispatch (.standard maxMemoBytes) txn scope).1 = .error e) :
    Overflows txn h e (h.dispatch (.standard maxMemoBytes) txn scope).2 := by
  -- A scope is at hand where one is looked at, and elsewhere any will do.
  obtain ⟨inScope, hscoped, hok⟩ : ∃ inScope, h.dispatch (.standard maxMemoBytes) txn scope =
      h.dispatch (.standard maxMemoBytes) txn (some inScope) ∧
      ∀ op, ScheduleOperation.ofEnvelope? txn = some op → (op.run h inScope).1 = .ok () := by
    cases hop : ScheduleOperation.ofEnvelope? txn with
    | none =>
      refine ⟨⟨0, [], []⟩, dispatch_scope maxMemoBytes hop _ _, fun op hsome => ?_⟩
      cases hsome
    | some op =>
      obtain ⟨inScope, rfl, hok⟩ := hoperation op hop
      refine ⟨inScope, rfl, fun op' hop' => ?_⟩
      cases hop'
      exact hok
  rw [hscoped] at he ⊢
  have hdispatched := h.dispatch_standard maxMemoBytes txn (some inScope)
  generalize h.dispatch (.standard maxMemoBytes) txn (some inScope) = run at hdispatched he
  have hfails (op : ScheduleOperation) (hop : ScheduleOperation.ofEnvelope? txn = some op) :
      (transitioned (op.run h inScope)).1 ≠ .error e := by
    intro herror
    rw [transitioned, hok op hop] at herror
    cases herror
  cases hdispatched with
  | refused => cases he
  | transferred transfers hdata hchecked =>
    refine runTransfer_overflows hdata hchecked hopen ?_
    generalize Transition.runTransfer transfers h = ran at he
    obtain ⟨result, h'⟩ := ran
    cases result with
    | ok => cases he
    | error e' => exact congrArg Except.error (Except.error.inj he)
  | created body payer adminKey memo signatures inScope' hdata hmemo hadmin hscope =>
    cases hscope
    refine absurd he (hfails (.create _) ?_)
    simp only [ScheduleOperation.ofEnvelope?, hdata]
  | signed id signatures inScope' hdata hid hscope =>
    cases hscope
    refine absurd he (hfails (.sign id) ?_)
    simp only [ScheduleOperation.ofEnvelope?, hdata]
  | unscoped function hscope => cases hscope
  | deleted => cases he
  | frozen => cases he

end Handling

/-- While every schedule waits, an operation whose signatures are resolved has a scope and does not
fail. -/
theorem ScheduleOperation.run_ok {s : ScheduleStore} {txn : Envelope} {op : ScheduleOperation}
    {ledger : Ledger} {config : VerifierConfig} {pairs : SignatureMap} {bodies : List (List UInt8)}
    {first : UInt64} {n : Nat} (hop : ScheduleOperation.ofEnvelope? txn = some op)
    (hends : (rationalize txn ledger s config).status.code.endsHandling = false)
    (hkept : Kept ledger.key? config.verifier pairs bodies first n s)
    (hpairs : ∀ pair ∈ txn.body.data.scheduledSignatures, pair ∈ pairs)
    (hbodies : ∀ body, txn.body.data.scheduledBody? = some body → body ∈ bodies)
    (hdistinct : ∀ a ∈ bodies, ∀ b ∈ bodies, Digest.blake3 a = Digest.blake3 b → a = b)
    {h : Handling} (hschedules : h.schedules = s) :
    ∃ inScope, (rationalize txn ledger s config).scheduled = some inScope ∧
      (op.run h inScope).1 = .ok () := by
  subst hschedules
  obtain ⟨inScope, hscope, body, payer, habout, hover⟩ := op.scope_resolved hop hends
  refine ⟨inScope, hscope, ?_⟩
  have hoperated := Handling.run_operated hkept.tidy.pending op inScope
  generalize op.run h inScope = result at hoperated
  cases hoperated with
  | refused => rfl
  | lost id notices htarget hx =>
    -- The index, or the resolution of the signatures, has led to a committed schedule.
    cases op with
    | create request =>
      obtain ⟨x, hfound, -⟩ := hkept.tidy.find?_eq_some_iff.1 htarget
      cases hx.symm.trans hfound
    | sign id' =>
      obtain ⟨x, hfound, -⟩ := habout
      cases htarget
      cases hx.symm.trans (committed?_of_get hkept.tidy.pending hfound)
  | settled notices hsettled hconcluded =>
    cases hconcluded with
    | waiting => rfl
    | executed => rfl
    | unreadable e hready hinner =>
      rename_i id outcome x t
      have hbrought : ∀ request, op = .create request → request.body ∈ bodies := by
        rintro request rfl
        exact hbodies request.body (ScheduleOperation.scheduledBody?_eq hop)
      obtain ⟨required, hvetted, -⟩ :=
        hsettled.vetted hkept habout hover hpairs hbrought hdistinct
      obtain ⟨inner, hexecutable⟩ := hvetted.executable id
      cases hexecutable.symm.trans hinner

namespace Processor

open Handling

variable {rules : Rules} {maxMemoBytes : UInt64} {txn : Envelope} {e : ProcessingError}
  {p q : Processor} {time : Timestamp} {member : MemberId} {account : AccountId}

/-- The record says that the handling has failed and moved nothing; and all is as it was before the
handling, except that what is due has expired and that no ledger transaction is left open. -/
structure RolledBack (p : Processor) (time : Timestamp) (r : Record) (q : Processor) : Prop where
  status : r.status = .failInvalid
  fee : r.fee = 0
  transfers : r.transfers = []
  ledger : q.ledger = p.ledger.rollback
  schedules : q.schedules = (p.schedules.purge time.seconds).2
  pending : q.schedules.store.pending = p.schedules.store.pending
  freezeWindow : q.freezeWindow = p.freezeWindow

theorem Recorded.rolledBack {triggered : Bool} {r : Record} {next : Option Envelope}
    (h : Recorded rules p txn (.start time member (some account)) triggered r next q)
    (hpending : p.schedules.store.pending = none)
    (he : (p.running rules txn (.start time member (some account)) triggered).1 = .error e)
    (hoverflows : Overflows txn (p.opening (.start time member (some account))) e
      (p.running rules txn (.start time member (some account)) triggered).2) :
    RolledBack p time r q := by
  have hpurged : (p.schedules.purge time.seconds).2.store.pending = none :=
    purge_pending hpending time.seconds
  obtain ⟨htransfers, haccounts, hschedules, -⟩ := h.abandoned e he
  have hkept : q.schedules = (p.schedules.purge time.seconds).2 := by
    rw [hschedules, rollbackPending_eq (hoverflows.schedules ▸ hpurged)]
    exact hoverflows.schedules
  refine ⟨?_, ?_, htransfers, ?_, hkept, ?_, ?_⟩
  · rw [h.status, Context.status, hoverflows.lastStatus]
    rfl
  · rw [h.fee, he]
  · have hledger : q.ledger = ⟨q.ledger.accounts, q.ledger.changes⟩ := rfl
    rw [hledger, haccounts, h.changes]
    rfl
  · rw [hkept, hpurged, hpending]
  · exact h.freezeWindow.trans hoverflows.freezeWindow

variable (hstandard : rules.transitions = .standard maxMemoBytes)

include hstandard

theorem runDelivered_overflows (p : Processor) (r : Rationalization) {h : Handling}
    (hopen : h.ledger.inTransaction = true)
    (hoperation : r.status.code.endsHandling = false →
      ∀ op, ScheduleOperation.ofEnvelope? txn = some op →
        ∃ inScope, r.scheduled = some inScope ∧
          (op.run (paid rules p txn r h).2 inScope).1 = .ok ())
    (he : (p.runDelivered rules txn r h).1 = .error e) :
    Overflows txn h e (p.runDelivered rules txn r h).2 := by
  have hdelivered := p.runDelivered_delivered rules txn r h
  generalize p.runDelivered rules txn r h = run at hdelivered he
  cases hdelivered with
  | blamed => cases he
  | duplicate => cases he
  | unpaid => cases he
  | unresolved => cases he
  | unsigned => cases he
  | dispatched hdue hseen hpaid hends hothers =>
    have hcourse := paid_course rules p txn r h (payerActive_of_dueFailure rules p txn r h hdue)
    rw [hstandard] at he ⊢
    obtain ⟨hcause, hstatus, hschedules, hfreeze⟩ := dispatch_overflows maxMemoBytes
      (hcourse.ledger.inTransaction hopen) (hoperation hends) he
    exact ⟨hcause, hstatus, hschedules, hfreeze⟩

theorem runTriggered_overflows (p : Processor) {h : Handling}
    (hopen : h.ledger.inTransaction = true) (hop : ScheduleOperation.ofEnvelope? txn = none)
    (he : (p.runTriggered rules txn h).1 = .error e) :
    Overflows txn h e (p.runTriggered rules txn h).2 := by
  rw [runTriggered, onceCharged_eq, hstandard] at he ⊢
  have hcourse : Course (fun _ => True) (h.keyed (h.ledger.key? txn.payer)) _ :=
    charge_course _ rules.funding .standard txn
      (rules.fees.fee txn (h.ledger.key? txn.payer) p.rates) (fun _ => trivial)
      (fun _ _ _ => trivial)
  split at he
  · rename_i hpaid
    rw [if_pos hpaid]
    obtain ⟨hcause, hstatus, hschedules, hfreeze⟩ := dispatch_overflows maxMemoBytes
      (hcourse.ledger.inTransaction hopen) (fun op hsome => by cases hop.symm.trans hsome) he
    exact ⟨hcause, hstatus, hschedules, hfreeze⟩
  · cases he

/-- While every schedule waits, the run of a delivered transaction fails for an overflow only. -/
theorem running_overflows {pairs : SignatureMap} {bodies : List (List UInt8)} {first : UInt64}
    {n : Nat}
    (hkept : Kept p.ledger.key? rules.verification.verifier pairs bodies first n p.schedules)
    (hpairs : ∀ pair ∈ txn.body.data.scheduledSignatures, pair ∈ pairs)
    (hbodies : ∀ body, txn.body.data.scheduledBody? = some body → body ∈ bodies)
    (hdistinct : ∀ a ∈ bodies, ∀ b ∈ bodies, Digest.blake3 a = Digest.blake3 b → a = b)
    (he : (p.running rules txn (.start time member (some account)) false).1 = .error e) :
    Overflows txn (p.opening (.start time member (some account))) e
      (p.running rules txn (.start time member (some account)) false).2 := by
  have hpurged := hkept.within (hkept.tidy.purge time.seconds)
    (purge_within hkept.tidy.pending time.seconds)
  refine runDelivered_overflows hstandard _ _ rfl (fun hends op hop => ?_) he
  exact ScheduleOperation.run_ok hop hends hpurged hpairs hbodies hdistinct rfl

theorem running_overflows_of_schedulable (hschedulable : txn.function.isSchedulable = true)
    (he : (p.running rules txn (.start time member (some account)) true).1 = .error e) :
    Overflows txn (p.opening (.start time member (some account))) e
      (p.running rules txn (.start time member (some account)) true).2 :=
  runTriggered_overflows hstandard _ rfl
    (ScheduleOperation.ofEnvelope?_of_schedulable hschedulable) he

end Processor

end ConsensusLedger
