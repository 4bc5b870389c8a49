import ConsensusLedger.Proofs.Ledger.Solvency
import ConsensusLedger.Proofs.Pipeline.Rejected

/-!
The handling of a transfer list. Once its charge is made, the run stops there with a code other than OK,
fails, or applies every adjustment and only then sets the code OK; it never stops among the adjustments.
-/

namespace ConsensusLedger

open Transition (transferSyntax transferFailure adjustAll runTransfer netAmount)

theorem Transition.transferSyntax_ne_nil {xs : List AccountAmount} (h : transferSyntax xs = .ok) :
    xs ≠ [] := by
  rintro rfl
  cases h

theorem Transition.transferFailure_ne_ok {l : Ledger} {xs : List AccountAmount} {code : Status}
    (h : transferFailure l xs = some code) : code ≠ .ok := by
  induction xs with
  | nil => cases h
  | cons x xs ih =>
    rw [transferFailure] at h
    split at h
    · cases h
      decide
    · split at h
      · cases h
        decide
      · exact ih h

/-- Adjustments that all apply add to each account what is listed for it. -/
theorem Ledger.delta_adjustAll {l m : Ledger} {xs : List AccountAmount}
    (h : adjustAll l xs = (.ok (), m)) (id : AccountId) :
    (m.delta id).toInt = (l.delta id).toInt + AccountAmount.sumFor id xs := by
  induction xs generalizing l with
  | nil =>
    cases h
    simp [AccountAmount.sumFor]
  | cons x xs ih =>
    rw [adjustAll] at h
    cases hadjust : l.adjust x.account x.amount with
    | error e =>
      rw [hadjust] at h
      cases h
    | ok l' =>
      rw [hadjust] at h
      rw [ih h, delta_adjust hadjust, AccountAmount.sumFor, Int.add_assoc]
      by_cases hid : id = x.account
      · simp [hid]
      · simp [hid, Ne.symm hid]

namespace Handling

/-- What a run on a transfer list can come to after the charge: it stops with the ledger as the charge
left it, it fails, or it applies the whole list. Only the last sets the code OK. -/
inductive Attempted (charged : Ledger) (fee : UInt64) (xs : List AccountAmount) :
    Except ProcessingError Bool × Handling → Prop
  | stopped {b : Bool} {h : Handling} (hledger : h.ledger = charged)
      (hfee : h.context.feeCharged = fee) (hstatus : h.context.status ≠ .ok) :
      Attempted charged fee xs (.ok b, h)
  | failed {e : ProcessingError} {h : Handling} (hstatus : h.context.status ≠ .ok) :
      Attempted charged fee xs (.error e, h)
  | applied {h : Handling} (hchecked : transferSyntax xs = .ok)
      (hadjusted : adjustAll charged xs = (.ok (), h.ledger)) (hfee : h.context.feeCharged = fee)
      (hstatus : h.context.status = .ok) : Attempted charged fee xs (.ok true, h)

variable {h : Handling} {txn : Envelope} {xs : List AccountAmount} {maxMemoBytes : UInt64}

/-- The transition looks at every account before it adjusts one. -/
theorem runTransfer_attempted (hchecked : transferSyntax xs = .ok)
    (hfresh : h.context.lastStatus = none) :
    Attempted h.ledger h.context.feeCharged xs (transitioned (runTransfer xs h)) := by
  unfold runTransfer
  split
  · rename_i code hfailure
    exact .stopped rfl rfl (Transition.transferFailure_ne_ok hfailure)
  · split
    · refine .failed ?_
      rw [Context.status, hfresh]
      decide
    · rename_i ledger hadjusted
      exact .applied hchecked hadjusted rfl rfl

theorem dispatch_attempted (hdata : txn.body.data = .cryptoTransfer xs)
    (hfresh : h.context.lastStatus = none) (scope : Option ScheduledScope) :
    Attempted h.ledger h.context.feeCharged xs
      (h.dispatch (.standard maxMemoBytes) txn scope) := by
  have hdispatched := h.dispatch_standard maxMemoBytes txn scope
  generalize h.dispatch (.standard maxMemoBytes) txn scope = done at hdispatched
  cases hdispatched with
  | refused code hcode => exact .stopped rfl rfl hcode
  | transferred ys hys hchecked =>
    cases hdata.symm.trans hys
    exact runTransfer_attempted hchecked hfresh
  | created _ _ _ _ _ _ hcreate => cases hdata.symm.trans hcreate
  | signed _ _ _ hsign => cases hdata.symm.trans hsign
  | unscoped function =>
    refine .failed ?_
    rw [Context.status, hfresh]
    decide
  | deleted _ hdelete => cases hdata.symm.trans hdelete
  | frozen _ hfreeze => cases hdata.symm.trans hfreeze

section Charged

variable (h' : Handling) (funding : AccountId) (kind : ChargeKind) (fee : Fee)
  (hfee : h'.context.feeCharged = h.context.feeCharged)
  (hcharging : h'.charging funding txn = h.charging funding txn)

include hfee hcharging

/-- A run that ends with the charge. -/
theorem charge_stopped {code : Status} (hcode : code ≠ .ok) :
    Attempted (kind.apply fee (h.charging funding txn)).2.1.ledger
      (addCapped h.context.feeCharged (kind.apply fee (h.charging funding txn)).2.1.totalCharged) xs
      (.ok false, (h'.charge funding kind txn fee).2.setStatus code) := by
  rw [← hcharging, ← hfee]
  exact .stopped rfl rfl hcode

/-- A run that goes on to the transition. -/
theorem charge_dispatched (hdata : txn.body.data = .cryptoTransfer xs)
    (hfresh : h'.context.lastStatus = none) (scope : Option ScheduledScope) :
    Attempted (kind.apply fee (h.charging funding txn)).2.1.ledger
      (addCapped h.context.feeCharged (kind.apply fee (h.charging funding txn)).2.1.totalCharged) xs
      ((h'.charge funding kind txn fee).2.dispatch (.standard maxMemoBytes) txn scope) := by
  rw [← hcharging, ← hfee]
  exact dispatch_attempted (h := (h'.charge funding kind txn fee).2) hdata hfresh scope

end Charged

end Handling

namespace Processor

open Handling

variable {rules : Rules} {maxMemoBytes : UInt64} {txn : Envelope} {xs : List AccountAmount}

/-- The one charge of a triggered transaction. -/
def triggeredCharge (rules : Rules) (p : Processor) (txn : Envelope) (h : Handling) : Charging :=
  (ChargeKind.standard.apply (rules.fees.fee txn (h.ledger.key? txn.payer) p.rates)
    (h.charging rules.funding txn)).2.1

/-- The charge for a transaction, on the processor's ledger as it is. -/
def chargeFor (rules : Rules) (p : Processor) (txn : Envelope) (context : Context)
    (triggered : Bool) : Charging :=
  if triggered then triggeredCharge rules (p.opened context.time).processor txn (p.opening context)
  else p.deliveryCharge rules txn context

variable (hstandard : rules.transitions = .standard maxMemoBytes)
  (hdata : txn.body.data = .cryptoTransfer xs)

include hstandard hdata

theorem runDelivered_attempted (p : Processor) (r : Rationalization) {h : Handling}
    (hfresh : h.context.lastStatus = none) :
    Attempted (charged rules p txn r h).ledger
      (addCapped h.context.feeCharged (charged rules p txn r h).totalCharged) xs
      (p.runDelivered rules txn r h) := by
  have hdelivered := p.runDelivered_delivered rules txn r h
  generalize p.runDelivered rules txn r h = done at hdelivered
  cases hdelivered with
  | blamed code notices hdue =>
    rw [charged, chargeKind_of_blamed hdue]
    exact charge_stopped { h.identified r with notices := notices } _ _ _ rfl rfl
      (dueFailure_ne_ok rules p txn r h hdue)
  | duplicate hdue hseen =>
    rw [charged, chargeKind_of_seen hdue hseen]
    exact charge_stopped (h.identified r) _ _ _ rfl rfl (by decide)
  | unpaid hdue hseen hpaid =>
    rw [charged, chargeKind_of_passed hdue hseen]
    exact charge_stopped (h.identified r) _ _ _ rfl rfl hpaid
  | unresolved hdue hseen hends =>
    have hne : r.status.code ≠ .ok := by
      intro hok
      rw [hok] at hends
      cases hends
    rw [charged, chargeKind_of_passed hdue hseen]
    exact charge_stopped (h.identified r) _ _ _ rfl rfl hne
  | unsigned hdue hseen =>
    rw [charged, chargeKind_of_passed hdue hseen]
    exact charge_stopped (h.identified r) _ _ _ rfl rfl (by decide)
  | dispatched hdue hseen =>
    rw [charged, chargeKind_of_passed hdue hseen, hstandard]
    exact charge_dispatched (h.identified r) _ _ _ rfl rfl hdata hfresh r.scheduled

theorem runTriggered_attempted (p : Processor) {h : Handling} (hfresh : h.context.lastStatus = none) :
    Attempted (triggeredCharge rules p txn h).ledger
      (addCapped h.context.feeCharged (triggeredCharge rules p txn h).totalCharged) xs
      (p.runTriggered rules txn h) := by
  rw [runTriggered, onceCharged_eq, hstandard, triggeredCharge]
  split
  · exact charge_dispatched (h.keyed (h.ledger.key? txn.payer)) _ _ _ rfl rfl hdata hfresh none
  · rename_i hunpaid
    exact charge_stopped (h.keyed (h.ledger.key? txn.payer)) _ _ _ rfl rfl hunpaid

/-- A run on a transfer list, whether it was delivered or triggered. -/
theorem running_attempted (p : Processor) {context : Context} (triggered : Bool)
    (hfresh : context.lastStatus = none) :
    Attempted (p.chargeFor rules txn context triggered).ledger
      (addCapped context.feeCharged (p.chargeFor rules txn context triggered).totalCharged) xs
      (p.running rules txn context triggered) := by
  cases triggered with
  | true =>
    simp only [chargeFor, running, ↓reduceIte]
    exact runTriggered_attempted hstandard hdata _ hfresh
  | false =>
    simp only [chargeFor, running, Bool.false_eq_true, ↓reduceIte]
    exact runDelivered_attempted hstandard hdata _ _ hfresh

end Processor

end ConsensusLedger
