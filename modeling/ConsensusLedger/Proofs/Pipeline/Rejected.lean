import ConsensusLedger.Proofs.Pipeline.Recorded
import ConsensusLedger.Proofs.Transition.Operation

/-!
Charges of handlings that are rejected. Whatever a handling had done when it was rejected, the
accounts show no more of it than the one charge that was made for it, and nothing when it is rolled
back.
-/

namespace ConsensusLedger

open ScheduleStore

namespace Handling

/-- A run that has left the freeze window and the fees alone, and the balances too unless it failed
and will be rolled back. -/
structure Spared (h : Handling) (done : Except ProcessingError Bool × Handling) : Prop where
  freezeWindow : done.2.freezeWindow = h.freezeWindow
  fee : done.2.context.feeCharged = h.context.feeCharged
  ledger : ∀ b, done.1 = .ok b → done.2.ledger = h.ledger

variable {h : Handling}

theorem spared_of_eq {done : Except ProcessingError Bool × Handling}
    (hfreeze : done.2.freezeWindow = h.freezeWindow)
    (hfee : done.2.context.feeCharged = h.context.feeCharged)
    (hledger : done.2.ledger = h.ledger) : Spared h done :=
  ⟨hfreeze, hfee, fun _ _ => hledger⟩

/-- An operation that brings signatures moves no balance. -/
theorem run_spared (hpending : h.schedules.store.pending = none) (op : ScheduleOperation)
    (scope : ScheduledScope) : Spared h (transitioned (op.run h scope)) := by
  have hoperated := run_operated hpending op scope
  generalize op.run h scope = result at hoperated
  cases hoperated with
  | refused => exact spared_of_eq rfl rfl rfl
  | lost => exact spared_of_eq rfl rfl rfl
  | settled notices hsettled hconcluded => cases hconcluded <;> exact spared_of_eq rfl rfl rfl

theorem deleteSchedule_spared (id : ScheduleId) : Spared h (.ok true, h.deleteSchedule id) := by
  simp only [deleteSchedule]
  split <;> exact spared_of_eq rfl rfl rfl

/-- A transfer that does not succeed has moved nothing, or is rolled back. -/
theorem runTransfer_spared {transfers : List AccountAmount}
    (hstatus : (Transition.runTransfer transfers h).2.context.status ≠ .ok) :
    Spared h (transitioned (Transition.runTransfer transfers h)) := by
  unfold Transition.runTransfer at hstatus ⊢
  split at hstatus
  · exact spared_of_eq rfl rfl rfl
  · split at hstatus
    · exact ⟨rfl, rfl, nofun⟩
    · exact absurd rfl hstatus

/-- A dispatch that does not succeed spares the state. -/
theorem dispatch_spared (hpending : h.schedules.store.pending = none) {maxMemoBytes : UInt64}
    {txn : Envelope} {scope : Option ScheduledScope}
    (hstatus : (h.dispatch (.standard maxMemoBytes) txn scope).2.context.status ≠ .ok) :
    Spared h (h.dispatch (.standard maxMemoBytes) txn scope) := by
  have hdispatched := h.dispatch_standard maxMemoBytes txn scope
  generalize h.dispatch (.standard maxMemoBytes) txn scope = done at hdispatched hstatus
  cases hdispatched with
  | refused => exact spared_of_eq rfl rfl rfl
  | transferred => exact runTransfer_spared hstatus
  | created body payer adminKey memo => exact run_spared hpending (.create _) _
  | signed id => exact run_spared hpending (.sign id) _
  | unscoped => exact spared_of_eq rfl rfl rfl
  | deleted id => exact deleteSchedule_spared id
  | frozen => exact absurd rfl hstatus

/-- The handling after a charge. -/
def paidFor (h : Handling) (c : Charging) : Handling :=
  { h with ledger := c.ledger, context := h.context.addFee c.totalCharged }

theorem charge_spared {h' : Handling} (funding : AccountId) (kind : ChargeKind) (txn : Envelope)
    (fee : Fee) (code : Status) (hfreeze : h'.freezeWindow = h.freezeWindow)
    (hfee : h'.context.feeCharged = h.context.feeCharged)
    (hcharging : h'.charging funding txn = h.charging funding txn) :
    Spared (h.paidFor (kind.apply fee (h.charging funding txn)).2.1)
      (.ok false, (h'.charge funding kind txn fee).2.setStatus code) := by
  rw [← hcharging]
  exact spared_of_eq hfreeze (congrArg (addCapped · _) hfee) rfl

end Handling

namespace Processor

variable (rules : Rules) (p : Processor) (txn : Envelope) (r : Rationalization) (h : Handling)

/-- What a delivered transaction is charged for. -/
def chargeKind : ChargeKind :=
  if (dueFailure rules p txn r h).isSome then .ignoredDueDiligence
  else if p.histories.duplicity txn.id h.context.member = .duplicate then .duplicate
  else .standard

/-- The one charge of a delivered transaction. -/
def charged : Charging :=
  ((chargeKind rules p txn r h).apply (rules.fees.fee txn r.payerKey p.rates)
    (h.charging rules.funding txn)).2.1

variable {rules p txn r h}

theorem chargeKind_of_blamed {code : Status} (hdue : dueFailure rules p txn r h = some code) :
    chargeKind rules p txn r h = .ignoredDueDiligence := by
  rw [chargeKind, hdue]
  rfl

theorem chargeKind_of_seen (hdue : dueFailure rules p txn r h = none)
    (hseen : p.histories.duplicity txn.id h.context.member = .duplicate) :
    chargeKind rules p txn r h = .duplicate := by
  rw [chargeKind, hdue, if_neg (by exact nofun), if_pos hseen]

theorem chargeKind_of_passed (hdue : dueFailure rules p txn r h = none)
    (hseen : p.histories.duplicity txn.id h.context.member ≠ .duplicate) :
    chargeKind rules p txn r h = .standard := by
  rw [chargeKind, hdue, if_neg (by exact nofun), if_neg hseen]

/-- A delivered transaction that does not succeed leaves its charge, unless it is rolled back. -/
theorem runDelivered_spared {maxMemoBytes : UInt64}
    (hstandard : rules.transitions = .standard maxMemoBytes)
    (hpending : h.schedules.store.pending = none)
    (hstatus : (p.runDelivered rules txn r h).2.context.status ≠ .ok) :
    Handling.Spared (h.paidFor (charged rules p txn r h)) (p.runDelivered rules txn r h) := by
  have hdelivered := p.runDelivered_delivered rules txn r h
  generalize p.runDelivered rules txn r h = done at hdelivered hstatus
  cases hdelivered with
  | blamed code notices hdue =>
    rw [charged, chargeKind_of_blamed hdue]
    exact Handling.charge_spared _ _ _ _ _ rfl rfl rfl
  | duplicate hdue hseen =>
    rw [charged, chargeKind_of_seen hdue hseen]
    exact Handling.charge_spared _ _ _ _ _ rfl rfl rfl
  | unpaid hdue hseen =>
    rw [charged, chargeKind_of_passed hdue hseen]
    exact Handling.charge_spared _ _ _ _ _ rfl rfl rfl
  | unresolved hdue hseen =>
    rw [charged, chargeKind_of_passed hdue hseen]
    exact Handling.charge_spared _ _ _ _ _ rfl rfl rfl
  | unsigned hdue hseen =>
    rw [charged, chargeKind_of_passed hdue hseen]
    exact Handling.charge_spared _ _ _ _ _ rfl rfl rfl
  | dispatched hdue hseen =>
    rw [charged, chargeKind_of_passed hdue hseen]
    rw [hstandard] at hstatus ⊢
    have hspared := Handling.dispatch_spared (h := (paid rules p txn r h).2) hpending hstatus
    exact ⟨hspared.freezeWindow, hspared.fee, hspared.ledger⟩

/-- What due diligence stops has the code of what was neglected, and is not rolled back. -/
theorem runDelivered_of_dueFailure {code : Status} (hdue : dueFailure rules p txn r h = some code) :
    (p.runDelivered rules txn r h).1 = .ok false ∧
      (p.runDelivered rules txn r h).2.context.status = code := by
  have hdelivered := p.runDelivered_delivered rules txn r h
  generalize p.runDelivered rules txn r h = done at hdelivered
  cases hdelivered with
  | blamed code' notices hdue' =>
    cases hdue.symm.trans hdue'
    exact ⟨rfl, rfl⟩
  | duplicate hdue' => cases hdue.symm.trans hdue'
  | unpaid hdue' => cases hdue.symm.trans hdue'
  | unresolved hdue' => cases hdue.symm.trans hdue'
  | unsigned hdue' => cases hdue.symm.trans hdue'
  | dispatched hdue' => cases hdue.symm.trans hdue'

section Recorded

variable (rules : Rules) (p : Processor) (txn : Envelope) (context : Context)

/-- What due diligence finds neglected in a transaction that is delivered to the processor. -/
def neglect? : Option Status :=
  dueFailure rules (p.opened context.time).processor txn (p.rationalized rules txn context.time)
    (p.opening context)

/-- What a transaction that is delivered to the processor costs. -/
def deliveryFee : Fee := rules.fees.fee txn (p.rationalized rules txn context.time).payerKey p.rates

/-- The charge for a transaction that is delivered to the processor, on its ledger as it is. -/
def deliveryCharge : Charging :=
  charged rules (p.opened context.time).processor txn (p.rationalized rules txn context.time)
    (p.opening context)

/-- The accounts have changed by what the charge gathered, and the record lists just this. -/
structure Charges (c : Charging) (p : Processor) (r : Record) (q : Processor) : Prop where
  transfers : r.transfers = c.ledger.netTransfers
  fee : r.fee = c.totalCharged
  balances : ∀ id, q.ledger.committedBalance? id =
    (p.ledger.committedBalance? id).map (· + (c.ledger.delta id).toInt)
  accounts : ∀ id, c.ledger.delta id = 0 → q.ledger.accounts.get? id = p.ledger.accounts.get? id

/-- The accounts are as they were, and the record lists nothing. -/
structure RollsBack (p : Processor) (r : Record) (q : Processor) : Prop where
  transfers : r.transfers = []
  fee : r.fee = 0
  accounts : q.ledger.accounts = p.ledger.accounts

variable {rules p txn context}

/-- Neglect is charged to the submitting member, with no more than the network fee. -/
theorem deliveryCharge_of_neglect {code : Status} (hdue : p.neglect? rules txn context = some code)
    {node : AccountId} (hnode : context.nodeAccount = some node) :
    (∀ id, id ≠ node → id ≠ rules.funding →
      (p.deliveryCharge rules txn context).ledger.delta id = 0) ∧
    -((p.deliveryFee rules txn context).network.toNat : Int) ≤
      ((p.deliveryCharge rules txn context).ledger.delta node).toInt := by
  have hframe := ((p.opening context).charging rules.funding txn).applyForIgnoredDueDiligence_delta
    hnode (p.deliveryFee rules txn context)
  rw [deliveryCharge, charged, chargeKind_of_blamed hdue]
  refine ⟨hframe.1, ?_⟩
  have hloss := hframe.2
  have hnone : (((p.opening context).charging rules.funding txn).ledger.delta node).toInt = 0 := rfl
  rw [hnone, Int.zero_sub] at hloss
  exact hloss

namespace Recorded

variable {r : Record} {next : Option Envelope} {q : Processor} {triggered : Bool}

/-- A run that failed leaves nothing. -/
theorem rollsBack (h : Recorded rules p txn context triggered r next q) {e : ProcessingError}
    (hrun : (p.running rules txn context triggered).1 = .error e) : RollsBack p r q := by
  obtain ⟨htransfers, haccounts, -, -⟩ := h.abandoned e hrun
  have hfee := h.fee
  rw [hrun] at hfee
  exact ⟨htransfers, hfee, haccounts⟩

variable {maxMemoBytes : UInt64} (hstandard : rules.transitions = .standard maxMemoBytes)

include hstandard

/-- A run that stopped at its charge leaves the charge. -/
theorem charges_of_run (h : Recorded rules p txn context triggered r next q) {c : Charging} {b : Bool}
    (hrun : (p.running rules txn context triggered).1 = .ok b)
    (hledger : (p.running rules txn context triggered).2.ledger = c.ledger)
    (hfee : (p.running rules txn context triggered).2.context.feeCharged = c.totalCharged) :
    Charges c p r q := by
  obtain ⟨htransfers, hview, -, -⟩ := h.committed b hrun
  have hrecorded := h.fee
  rw [hrun, hfee] at hrecorded
  rw [hledger] at htransfers hview
  refine ⟨htransfers, hrecorded, fun id => ?_, fun id hid => ?_⟩
  · rw [h.committedBalance? hstandard, htransfers, Ledger.sumFor_netTransfers]
  · simp only [hview, hid, Account.shift_zero, Option.map_id']

theorem spared (h : Recorded rules p txn context false r next q)
    (hpending : p.schedules.store.pending = none) (hstatus : r.status ≠ .ok) :
    Handling.Spared ((p.opening context).paidFor (p.deliveryCharge rules txn context))
      (p.running rules txn context false) := by
  rw [h.status] at hstatus
  exact runDelivered_spared hstandard (purge_pending hpending context.time.seconds) hstatus

/-- A rejected transaction that is not rolled back leaves its charge. -/
theorem charges (h : Recorded rules p txn context false r next q)
    (hpending : p.schedules.store.pending = none) (hfresh : context.feeCharged = 0)
    (hstatus : r.status ≠ .ok) {b : Bool} (hrun : (p.running rules txn context false).1 = .ok b) :
    Charges (p.deliveryCharge rules txn context) p r q := by
  have hspared := h.spared hstandard hpending hstatus
  refine h.charges_of_run hstandard hrun (hspared.ledger b hrun) (hspared.fee.trans ?_)
  exact (congrArg (addCapped · _) hfresh).trans (addCapped_zero _)

/-- A rejected transaction leaves the freeze window alone. It leaves its charge, unless an error was
raised and it was rolled back. -/
theorem rejected (h : Recorded rules p txn context false r next q)
    (hpending : p.schedules.store.pending = none) (hfresh : context.feeCharged = 0)
    (hstatus : r.status ≠ .ok) :
    q.freezeWindow = p.freezeWindow ∧
      ((p.raised? rules txn context false = none ∧
          Charges (p.deliveryCharge rules txn context) p r q) ∨
        ((p.raised? rules txn context false).isSome ∧ RollsBack p r q)) := by
  have hfreeze := h.freezeWindow.trans (h.spared hstandard hpending hstatus).freezeWindow
  refine ⟨hfreeze, ?_⟩
  rw [raised?_eq p txn context false hstandard]
  cases hrun : (p.running rules txn context false).1 with
  | ok b => exact .inl ⟨rfl, h.charges hstandard hpending hfresh hstatus hrun⟩
  | error e => exact .inr ⟨rfl, h.rollsBack hrun⟩

/-- A neglect is recorded under its code, and is not rolled back. -/
theorem neglected (h : Recorded rules p txn context false r next q)
    (hpending : p.schedules.store.pending = none) (hfresh : context.feeCharged = 0) {code : Status}
    (hdue : p.neglect? rules txn context = some code) :
    r.status = code ∧ Charges (p.deliveryCharge rules txn context) p r q := by
  obtain ⟨hrun, hcode⟩ := runDelivered_of_dueFailure hdue
  have hstatus : r.status = code := h.status.trans hcode
  have hne := dueFailure_ne_ok rules (p.opened context.time).processor txn
    (p.rationalized rules txn context.time) (p.opening context) hdue
  exact ⟨hstatus, h.charges hstandard hpending hfresh (hstatus ▸ hne) hrun⟩

end Recorded

end Recorded

end Processor

end ConsensusLedger
