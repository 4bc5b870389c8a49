import ConsensusLedger.Proofs.Departure
import ConsensusLedger.Proofs.Pipeline.Overflow
import ConsensusLedger.Proofs.Pipeline.Turn

/-!
Internal errors along a run that starts with no schedules. The pipeline provides for many: a scope that
is missing, a schedule that is not found or cannot be read, an account that is missing or short, a
ledger transaction that does not begin or is not committed. Only one is ever met: a transfer that would
take an account beyond the largest balance. All that its handling has done is taken back then.
-/

namespace ConsensusLedger

open Signing ScheduleStore

namespace Turn

open Processor

variable {rules : Rules} {maxMemoBytes : UInt64}
  (hstandard : rules.transitions = .standard maxMemoBytes) {p : Processor} {d : Delivery} {t : Turn}
  {pairs : SignatureMap} {bodies : List (List UInt8)} {first : UInt64} {n : Nat}

include hstandard

/-- The first turn of a call is that of the delivered transaction, from the processor that the call
finds; any other runs a transaction that can be scheduled. The schedules wait before each. -/
theorem Of.kept (h : Of rules p d t)
    (hkept : Kept p.ledger.key? rules.verification.verifier pairs bodies first n p.schedules)
    (hpairs : ∀ pair ∈ d.scheduledSignatures, pair ∈ pairs)
    (hbodies : ∀ body, d.scheduledBody? = some body → body ∈ bodies ∧ n < 0x10000000000000000)
    (hdistinct : Digest.CollisionFree bodies) :
    (t.triggered = false ∧ t.processor = p ∧ Envelope.ofSigned d.bytes = .ok t.txn) ∨
      (t.triggered = true ∧ t.txn.function.isSchedulable = true ∧
        ∃ n', Kept t.processor.ledger.key? rules.verification.verifier pairs bodies first n'
          t.processor.schedules) := by
  induction h with
  | delivered hparse hsane => exact .inl ⟨rfl, rfl, hparse⟩
  | @triggered t inner hbefore hnext ih =>
    have hrecorded := t.recorded hstandard
    rcases ih with ⟨hfirst, hfrom, hparse⟩ | ⟨hlater, hschedulable, n', hkept'⟩
    · rw [hfirst, hfrom] at hrecorded
      rw [Delivery.scheduledSignatures_eq hparse] at hpairs
      rw [Delivery.scheduledBody?_eq hparse] at hbodies
      obtain ⟨⟨n', -, hkept'⟩, hexecuted⟩ :=
        hrecorded.kept hstandard hkept hpairs hbodies hdistinct
      obtain ⟨-, -, hschedulable, -⟩ := (hexecuted inner hnext).attested hkept.tidy
      exact .inr ⟨rfl, hschedulable, n', hkept'⟩
    · rw [hlater] at hrecorded
      obtain ⟨-, hnone⟩ := hrecorded.kept_of_schedulable hstandard hkept' hschedulable
      cases hnone.symm.trans hnext

/-- While every schedule waits, a turn of a call is given up for an overflow only, and is rolled back
then. -/
theorem Of.overflow (h : Of rules p d t) {e : ProcessingError}
    (hkept : Kept p.ledger.key? rules.verification.verifier pairs bodies first n p.schedules)
    (hpairs : ∀ pair ∈ d.scheduledSignatures, pair ∈ pairs)
    (hbodies : ∀ body, d.scheduledBody? = some body → body ∈ bodies ∧ n < 0x10000000000000000)
    (hdistinct : Digest.CollisionFree bodies)
    (he : (t.handling rules).answer.committed = .error e) :
    (∃ transfers, t.txn.body.data = .cryptoTransfer transfers ∧
      ∃ x ∈ transfers, ∃ balance, e = .ledger (.overflow x.account balance x.amount)) ∧
    t.processor.RolledBack t.time (t.taken rules).answer.1 (t.taken rules).processor := by
  have hrecorded := t.recorded hstandard
  have hfailed : (t.processor.running rules t.txn t.context t.triggered).1 = .error e := by
    have hcommitted := handle_committed t.processor t.txn t.context t.triggered hstandard
    cases hrun : (t.processor.running rules t.txn t.context t.triggered).1 with
    | ok b =>
      rw [hrun] at hcommitted
      cases he.symm.trans hcommitted
    | error e' =>
      rw [hrun] at hcommitted
      cases he.symm.trans hcommitted
      rfl
  rcases h.kept hstandard hkept hpairs hbodies hdistinct with
    ⟨hfirst, hfrom, hparse⟩ | ⟨hlater, hschedulable, n', hkept'⟩
  · rw [Delivery.scheduledSignatures_eq hparse] at hpairs
    rw [Delivery.scheduledBody?_eq hparse] at hbodies
    rw [hfirst] at hrecorded hfailed
    rw [← hfrom] at hkept
    have hoverflows := running_overflows hstandard hkept hpairs
      (fun body hbody => (hbodies body hbody).1) hdistinct hfailed
    exact ⟨hoverflows.cause, hrecorded.rolledBack hkept.tidy.pending hfailed hoverflows⟩
  · rw [hlater] at hrecorded hfailed
    have hoverflows := running_overflows_of_schedulable hstandard hschedulable hfailed
    exact ⟨hoverflows.cause, hrecorded.rolledBack hkept'.tidy.pending hfailed hoverflows⟩

end Turn

/-!
An account that has the largest balance there is cannot be given anything.
-/

namespace Sample

/-- The network with an account 0.0.5 that has the largest balance. -/
def brimming : Processor :=
  { start with
    ledger := start.ledger.create (.ofNum 5) ⟨0xffffffffffffffff, .ed25519 (key 5), false⟩ }

/-- A gift of account 0.0.2 to account 0.0.5. -/
def gift : Delivery := delivery 100 (.cryptoTransfer [⟨.ofNum 2, -7⟩, ⟨.ofNum 5, 7⟩])

end Sample

namespace Node

variable (c : ProcessingConfig) (book : AddressBook) (verification : VerifierConfig)
  (fees : FeeSchedule) {start : Processor} {lifetime : Int64} {first : UInt64}

/-- Along a run from no schedules whose inner bodies have different digests and whose numbers do not
wrap, every record of a call comes of one of its turns. A failure is noticed in a turn exactly when its
handling is given up, and with the error for which it is; and the only such error is an overflow, by an
amount that the turn's transfer lists. The record then says that the handling has failed, with no fee
and no transfers, and the ledger, the schedules but for those that have expired, the pending creation
and the freeze window are as they were before the turn. -/
theorem turns_raise_overflows_only (hempty : start.schedules = .empty lifetime first)
    (ds : List Delivery) (d : Delivery)
    (hdistinct : Digest.CollisionFree (scheduledBodies (ds ++ [d])))
    (hgrow : (standard c book verification fees start).NumbersGrow ds) :
    let n := (standard c book verification fees start).after ds
    (∀ r ∈ (n.deliver d).answer,
      ∃ t, Turn.Of n.rules n.processor d t ∧ (t.taken n.rules).answer.1 = r) ∧
    ∀ t, Turn.Of n.rules n.processor d t →
      Processor.Reported t.txn (t.handling n.rules) ∧
      ∀ e, (t.handling n.rules).answer.committed = .error e →
        (∃ transfers, t.txn.body.data = .cryptoTransfer transfers ∧
          ∃ x ∈ transfers, ∃ balance, e = .ledger (.overflow x.account balance x.amount)) ∧
        t.processor.RolledBack t.time (t.taken n.rules).answer.1 (t.taken n.rules).processor := by
  intro n
  have hrules : n.rules = (standard c book verification fees start).rules := rules_after _ ds
  have hstandard : n.rules.transitions = .standard c.maxMemoBytes := by
    rw [hrules]
    rfl
  obtain ⟨hold, hnew⟩ := mem_scheduledSignatures_concat ds d
  obtain ⟨hearlier, hbody⟩ := mem_scheduledBodies_concat ds d
  have hkept : Kept n.processor.ledger.key? n.rules.verification.verifier
      (scheduledSignatures (ds ++ [d])) (scheduledBodies (ds ++ [d])) 0
      n.processor.schedules.nextNumber.toNat n.processor.schedules := by
    rw [hrules]
    exact (schedules_kept_of_numbersGrow c book verification fees hempty
      (hdistinct.of_subset hearlier) hgrow).mono hold hearlier
  have hbrought : ∀ body, d.scheduledBody? = some body → body ∈ scheduledBodies (ds ++ [d]) ∧
      n.processor.schedules.nextNumber.toNat < 0x10000000000000000 :=
    fun body hsome => ⟨hbody body hsome, UInt64.toNat_lt _⟩
  refine ⟨Turn.of_incorporate n.rules n.processor d, fun t hturn => ⟨?_, fun e he => ?_⟩⟩
  · exact Processor.handle_reported t.processor t.txn t.context t.triggered hstandard
  · exact hturn.overflow hstandard hkept hnew hbrought hdistinct he

/-- The gift makes its receiver overflow, which is noticed, and is rolled back. -/
theorem turns_raise_overflows_only_gift :
    let n := standard {} Sample.book Sample.verification {} Sample.brimming
    ∃ t, Turn.Of n.rules n.processor Sample.gift t ∧
      (t.handling n.rules).answer.committed =
        .error (.ledger (.overflow (.ofNum 5) 0xffffffffffffffff 7)) ∧
      (∃ changes, .failure "handling" (.ledger (.overflow (.ofNum 5) 0xffffffffffffffff 7)) t.txn
        changes ∈ (t.handling n.rules).notices) ∧
      t.processor.RolledBack t.time (t.taken n.rules).answer.1 (t.taken n.rules).processor := by
  intro n
  have hempty : Sample.brimming.schedules = .empty 1800 1000 := rfl
  have hdistinct : Digest.CollisionFree (scheduledBodies ([] ++ [Sample.gift])) := by
    have hbodies : scheduledBodies ([] ++ [Sample.gift]) = [] := by decide +kernel
    rw [hbodies]
    exact fun _ hmem => absurd hmem List.not_mem_nil
  have hraises : (Envelope.ofSigned Sample.gift.bytes).toOption.any (fun txn =>
      (Gate.sanityCheck n.rules.book (Processor.effectiveTime txn Sample.gift.time)
        n.processor.clock.lastHandled Sample.gift.member).toOption.any fun address =>
        (Turn.handling n.rules ⟨n.processor, txn, Processor.effectiveTime txn Sample.gift.time,
          Sample.gift.member, address.account, false⟩).answer.committed =
            .error (.ledger (.overflow (.ofNum 5) 0xffffffffffffffff 7))) = true := by
    decide +kernel
  obtain ⟨txn, hparse, hraises⟩ := (Option.any_eq_true _ _).1 hraises
  obtain ⟨address, hsane, hraises⟩ := (Option.any_eq_true _ _).1 hraises
  have hturn : Turn.Of n.rules n.processor Sample.gift _ :=
    .delivered (eq_ok_of_toOption hparse) (eq_ok_of_toOption hsane)
  have hgivenUp := of_decide_eq_true hraises
  obtain ⟨-, honly⟩ := turns_raise_overflows_only {} Sample.book Sample.verification {} hempty []
    Sample.gift hdistinct (numbersGrow_nil _)
  obtain ⟨hreported, hoverflow⟩ := honly _ hturn
  exact ⟨_, hturn, hgivenUp, hreported.noticed _ hgivenUp, (hoverflow _ hgivenUp).2⟩

end Node

end ConsensusLedger
