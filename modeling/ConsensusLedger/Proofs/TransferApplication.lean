import ConsensusLedger.Proofs.Pipeline.Transfer
import ConsensusLedger.Proofs.Pipeline.Turn
import ConsensusLedger.Proofs.WaitingSchedules

/-!
Transfer lists in the pipeline. Whether it is delivered or triggered, a transfer list that is recorded
as OK has been applied as a whole on top of its charge, and one recorded under any other code has had no
effect: its charge stands alone, or its handling was rolled back with the charge.
-/

namespace ConsensusLedger

open Transition (netAmount)

namespace Turn

open Processor Handling

/-- The charge of a turn, on the ledger that the turn finds. -/
def charge (rules : Rules) (t : Turn) : Charging :=
  t.processor.chargeFor rules t.txn t.context t.triggered

/-- A well-formed transfer list has been applied after a charge: each balance has changed by the charge
and by what is listed for its account. -/
structure Applies (c : Charging) (xs : List AccountAmount) (p : Processor) (r : Record)
    (q : Processor) : Prop where
  nonempty : xs ≠ []
  net : netAmount xs = 0
  distinct : (xs.map (·.account)).Nodup
  fee : r.fee = c.totalCharged
  balances : ∀ id, q.ledger.committedBalance? id = (p.ledger.committedBalance? id).map
    (· + ((c.ledger.delta id).toInt + AccountAmount.sumFor id xs))

variable {rules : Rules} {maxMemoBytes : UInt64}
  (hstandard : rules.transitions = .standard maxMemoBytes) {xs : List AccountAmount}

include hstandard

/-- A turn applies its transfer list if and only if its record says OK. -/
theorem applies_or_spares (t : Turn) (hdata : t.txn.body.data = .cryptoTransfer xs) :
    let r := (t.taken rules).answer.1
    let q := (t.taken rules).processor
    (r.status = .ok → Applies (t.charge rules) xs t.processor r q) ∧
    (r.status ≠ .ok →
      (t.raised? rules = none ∧ Charges (t.charge rules) t.processor r q) ∨
      ((t.raised? rules).isSome ∧ RollsBack t.processor r q)) := by
  intro r q
  have hrecorded : Recorded rules t.processor t.txn t.context t.triggered r _ q :=
    t.recorded hstandard
  have hraised := raised?_eq t.processor t.txn t.context t.triggered hstandard
  have hrun := running_attempted hstandard hdata t.processor t.triggered
    (rfl : t.context.lastStatus = none)
  have hzero (c : Charging) : addCapped t.context.feeCharged c.totalCharged = c.totalCharged :=
    addCapped_zero _
  rw [hzero] at hrun
  have hstatus := hrecorded.status
  -- How far the run has come decides the code, and how the turn ends decides the balances.
  generalize hdone : t.processor.running rules t.txn t.context t.triggered = done
    at hrun hraised hstatus
  cases hrun with
  | stopped hledger hfee hne =>
    refine ⟨fun hok => (hne (hstatus.symm.trans hok)).elim, fun _ => .inl ⟨hraised, ?_⟩⟩
    refine hrecorded.charges_of_run hstandard (congrArg Prod.fst hdone) ?_ ?_
    · rw [hdone]
      exact hledger
    · rw [hdone]
      exact hfee
  | failed hne =>
    refine ⟨fun hok => (hne (hstatus.symm.trans hok)).elim, fun _ => .inr ⟨?_, ?_⟩⟩
    · rw [Turn.raised?, hraised]
      rfl
    · exact hrecorded.rollsBack (congrArg Prod.fst hdone)
  | applied hchecked hadjusted hfee hok =>
    refine ⟨fun _ => ?_, fun hne => (hne (hstatus.trans hok)).elim⟩
    obtain ⟨hnet, hdistinct⟩ := Ledger.transferSyntax_eq_ok hchecked
    obtain ⟨htransfers, -⟩ := hrecorded.committed true (congrArg Prod.fst hdone)
    have hpaid := hrecorded.fee
    rw [hdone] at htransfers hpaid
    refine ⟨Transition.transferSyntax_ne_nil hchecked, hnet, hdistinct, hpaid.trans hfee,
      fun id => ?_⟩
    rw [hrecorded.committedBalance? hstandard, htransfers, Ledger.sumFor_netTransfers,
      Ledger.delta_adjustAll hadjusted]
    rfl

end Turn

namespace Sample

/-- A payment of account 0.0.2 to account 0.0.4. -/
def payment : Delivery := delivery 100 (.cryptoTransfer [⟨.ofNum 4, 7⟩, ⟨.ofNum 2, -7⟩])

end Sample

namespace Node

variable (c : ProcessingConfig) (book : AddressBook) (verification : Signing.VerifierConfig)
  (fees : FeeSchedule) (start : Processor)

/-- Along any run, every record of a call comes of one of its turns, delivered or triggered. If a turn
on a transfer list is recorded as OK, the list is not empty, sums to zero and names each account once,
and each balance has changed by the charge and by what is listed for its account. If it is recorded
under any other code, the balances have changed by the charge alone, or the turn has raised an error
and left the balances as they were, with no fee recorded. -/
theorem transfer_lists_atomic (ds : List Delivery) (d : Delivery) :
    let n := (standard c book verification fees start).after ds
    (∀ r ∈ (n.deliver d).answer,
      ∃ t, Turn.Of n.rules n.processor d t ∧ (t.taken n.rules).answer.1 = r) ∧
    ∀ t, Turn.Of n.rules n.processor d t → ∀ xs, t.txn.body.data = .cryptoTransfer xs →
      let r := (t.taken n.rules).answer.1
      let q := (t.taken n.rules).processor
      (r.status = .ok → Turn.Applies (t.charge n.rules) xs t.processor r q) ∧
      (r.status ≠ .ok →
        (t.raised? n.rules = none ∧ Processor.Charges (t.charge n.rules) t.processor r q) ∨
        ((t.raised? n.rules).isSome ∧ Processor.RollsBack t.processor r q)) := by
  intro n
  have hstandard : n.rules.transitions = .standard c.maxMemoBytes := by
    rw [show n.rules = (standard c book verification fees start).rules from rules_after _ ds]
    rfl
  exact ⟨Turn.of_incorporate n.rules n.processor d,
    fun t _ xs hdata => t.applies_or_spares hstandard hdata⟩

/-- The payment is recorded as OK, and has been applied on top of its charge. -/
theorem transfer_lists_atomic_payment :
    let n := (standard {} Sample.book Sample.verification {} Sample.start).after []
    ∃ t, Turn.Of n.rules n.processor Sample.payment t ∧ (t.taken n.rules).answer.1.status = .ok ∧
      Turn.Applies (t.charge n.rules) [⟨.ofNum 4, 7⟩, ⟨.ofNum 2, -7⟩] t.processor
        (t.taken n.rules).answer.1 (t.taken n.rules).processor := by
  intro n
  have hruns : (Envelope.ofSigned Sample.payment.bytes).toOption.any (fun txn =>
      txn.body.data = .cryptoTransfer [⟨.ofNum 4, 7⟩, ⟨.ofNum 2, -7⟩] &&
      (Gate.sanityCheck n.rules.book (Processor.effectiveTime txn Sample.payment.time)
        n.processor.clock.lastHandled Sample.payment.member).toOption.any fun address =>
        (Turn.taken n.rules ⟨n.processor, txn, Processor.effectiveTime txn Sample.payment.time,
          Sample.payment.member, address.account, false⟩).answer.1.status = .ok) = true := by
    decide +kernel
  obtain ⟨txn, hparse, hruns⟩ := (Option.any_eq_true _ _).1 hruns
  obtain ⟨hdata, hruns⟩ := Bool.and_eq_true_iff.1 hruns
  obtain ⟨address, hsane, hok⟩ := (Option.any_eq_true _ _).1 hruns
  have hturn : Turn.Of n.rules n.processor Sample.payment _ :=
    .delivered (eq_ok_of_toOption hparse) (eq_ok_of_toOption hsane)
  obtain ⟨-, hatomic⟩ := transfer_lists_atomic {} Sample.book Sample.verification {} Sample.start []
    Sample.payment
  exact ⟨_, hturn, of_decide_eq_true hok,
    (hatomic _ hturn _ (of_decide_eq_true hdata)).1 (of_decide_eq_true hok)⟩

end Node

end ConsensusLedger
