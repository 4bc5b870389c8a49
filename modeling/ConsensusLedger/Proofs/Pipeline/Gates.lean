import ConsensusLedger.Proofs.Pipeline.Course

/-!
The gates of a handling. A delivered transaction is stopped at the first gate that it does not pass,
and charged according to which one that is; only one that passes them all reaches its transition.
-/

namespace ConsensusLedger

namespace Handling

theorem identified_course (debtor : AccountId → Prop) (h : Handling) (r : Rationalization) :
    Course debtor h (h.identified r) := by
  have hknown : Course debtor h
      { h with context := { h.context with payerKnownActive := r.payerActive, payerKey := r.payerKey } } :=
    { Course.refl debtor h with }
  refine hknown.noting fun n hn => ?_
  obtain ⟨rejected, -, rfl⟩ := List.mem_map.1 hn
  rfl

end Handling

namespace Processor

/-- What stops a delivered transaction before its fee is charged in full. -/
def dueFailure (rules : Rules) (p : Processor) (txn : Envelope) (r : Rationalization)
    (h : Handling) : Option Status :=
  Gate.dueDiligenceFailure rules.durations h.ledger txn (h.identified r).context
    (p.histories.duplicity txn.id h.context.member)

/-- A delivered transaction after it was charged its fee. -/
def paid (rules : Rules) (p : Processor) (txn : Envelope) (r : Rationalization) (h : Handling) :
    Status × Handling :=
  (h.identified r).charge rules.funding .standard txn (rules.fees.fee txn r.payerKey p.rates)

/-- What the handling of a delivered transaction can come to. -/
inductive Delivered (rules : Rules) (p : Processor) (txn : Envelope) (r : Rationalization)
    (h : Handling) : Except ProcessingError Bool × Handling → Prop
  | blamed (code : Status) (notices : List Notice)
      (hdue : dueFailure rules p txn r h = some code)
      (hnotices : notices = (h.identified r).notices ++
        Gate.dueDiligenceNotices (h.identified r).ledger txn (h.identified r).context) :
      Delivered rules p txn r h (.ok false,
        ({ h.identified r with notices := notices }.charge rules.funding .ignoredDueDiligence txn
          (rules.fees.fee txn r.payerKey p.rates)).2.setStatus code)
  | duplicate (hdue : dueFailure rules p txn r h = none)
      (hseen : p.histories.duplicity txn.id h.context.member = .duplicate) :
      Delivered rules p txn r h (.ok false,
        ((h.identified r).charge rules.funding .duplicate txn
          (rules.fees.fee txn r.payerKey p.rates)).2.setStatus .duplicateTransaction)
  | unpaid (hdue : dueFailure rules p txn r h = none)
      (hseen : p.histories.duplicity txn.id h.context.member ≠ .duplicate)
      (hpaid : (paid rules p txn r h).1 ≠ .ok) :
      Delivered rules p txn r h
        (.ok false, (paid rules p txn r h).2.setStatus (paid rules p txn r h).1)
  | unresolved (hdue : dueFailure rules p txn r h = none)
      (hseen : p.histories.duplicity txn.id h.context.member ≠ .duplicate)
      (hends : r.status.code.endsHandling = true) :
      Delivered rules p txn r h (.ok false, (paid rules p txn r h).2.setStatus r.status.code)
  | unsigned (hdue : dueFailure rules p txn r h = none)
      (hseen : p.histories.duplicity txn.id h.context.member ≠ .duplicate)
      (hothers : r.othersActive = false) :
      Delivered rules p txn r h (.ok false, (paid rules p txn r h).2.setStatus .invalidSignature)
  | dispatched (hdue : dueFailure rules p txn r h = none)
      (hseen : p.histories.duplicity txn.id h.context.member ≠ .duplicate)
      (hpaid : (paid rules p txn r h).1 = .ok) (hends : r.status.code.endsHandling = false)
      (hothers : r.othersActive = true) :
      Delivered rules p txn r h
        ((paid rules p txn r h).2.dispatch rules.transitions txn r.scheduled)

variable (rules : Rules) (p : Processor) (txn : Envelope) (r : Rationalization) (h : Handling)

/-- Going on once charged, by the code of the charge. -/
theorem onceCharged_eq (next : Handling → Except ProcessingError Bool × Handling)
    (charged : Status × Handling) :
    onceCharged next charged =
      if charged.1 = .ok then next charged.2 else (.ok false, charged.2.setStatus charged.1) := by
  obtain ⟨code, h⟩ := charged
  cases code <;> rfl

/-- Every handling of a delivered transaction is one of the listed ones. -/
theorem runDelivered_delivered : Delivered rules p txn r h (p.runDelivered rules txn r h) := by
  rw [runDelivered]
  cases hdue : dueFailure rules p txn r h with
  | some code =>
    have heq : Gate.dueDiligenceFailure rules.durations (h.identified r).ledger txn
        (h.identified r).context (p.histories.duplicity txn.id (h.identified r).context.member) =
        some code := hdue
    rw [heq]
    exact .blamed code _ hdue rfl
  | none =>
    have heq : Gate.dueDiligenceFailure rules.durations (h.identified r).ledger txn
        (h.identified r).context (p.histories.duplicity txn.id (h.identified r).context.member) =
        none := hdue
    rw [heq]
    change Delivered rules p txn r h
      (if p.histories.duplicity txn.id h.context.member = .duplicate then _
        else onceCharged (runPaid rules txn r) (paid rules p txn r h))
    by_cases hseen : p.histories.duplicity txn.id h.context.member = .duplicate
    · rw [if_pos hseen]
      exact .duplicate hdue hseen
    · rw [if_neg hseen, onceCharged_eq]
      by_cases hpaid : (paid rules p txn r h).1 = .ok
      · rw [if_pos hpaid, runPaid]
        cases hends : r.status.code.endsHandling with
        | true => exact .unresolved hdue hseen hends
        | false =>
          cases hothers : r.othersActive with
          | false => exact .unsigned hdue hseen hothers
          | true => exact .dispatched hdue hseen hpaid hends hothers
      · rw [if_neg hpaid]
        exact .unpaid hdue hseen hpaid

/-- A transaction that is not stopped by due diligence has the signature of its payer. -/
theorem payerActive_of_dueFailure (hdue : dueFailure rules p txn r h = none) :
    r.payerActive = true := by
  unfold dueFailure Gate.dueDiligenceFailure at hdue
  split at hdue
  · cases hdue
  · split at hdue
    · cases hdue
    · rename_i hpayer
      have hactive : ¬(!r.payerActive) = true := hpayer
      simpa only [Bool.not_eq_true', Bool.not_eq_false] using hactive

theorem duplicity_of_dueFailure (hdue : dueFailure rules p txn r h = none) :
    p.histories.duplicity txn.id h.context.member ≠ .nodeDuplicate := by
  intro hnode
  unfold dueFailure Gate.dueDiligenceFailure at hdue
  rw [hnode] at hdue
  split at hdue
  · cases hdue
  · split at hdue <;> cases hdue

/-- What due diligence stops is not called a success. -/
theorem dueFailure_ne_ok {code : Status} (hdue : dueFailure rules p txn r h = some code) :
    code ≠ .ok := by
  unfold dueFailure Gate.dueDiligenceFailure at hdue
  split at hdue
  · cases hdue
    intro hok
    cases hok
  · split at hdue
    · cases hdue
      intro hok
      cases hok
    · split at hdue
      · cases hdue
        intro hok
        cases hok
      · split at hdue
        · cases hdue
          intro hok
          cases hok
        · split at hdue
          · cases hdue
          · rename_i hchronology
            cases hdue
            exact hchronology

/-- What due diligence lets pass is within its valid duration, and the duration is allowed. -/
theorem chronology_of_dueFailure (hdue : dueFailure rules p txn r h = none) :
    rules.durations.contains txn.body.validDuration = true ∧
      Gate.chronology txn.body h.context.time = .ok := by
  unfold dueFailure Gate.dueDiligenceFailure at hdue
  split at hdue
  · cases hdue
  · split at hdue
    · cases hdue
    · split at hdue
      · cases hdue
      · split at hdue
        · cases hdue
        · rename_i hduration
          refine ⟨by simpa only [Bool.not_eq_true', Bool.not_eq_false] using hduration, ?_⟩
          split at hdue
          · assumption
          · cases hdue

/-- Due diligence lets a transaction pass that meets all its conditions. -/
theorem dueFailure_eq_none (hnode : Gate.nodeAccountMatches h.ledger txn h.context = true)
    (hpayer : r.payerActive = true)
    (hseen : p.histories.duplicity txn.id h.context.member ≠ .nodeDuplicate)
    (hduration : rules.durations.contains txn.body.validDuration = true)
    (hchronology : Gate.chronology txn.body h.context.time = .ok) :
    dueFailure rules p txn r h = none := by
  have hmatches : Gate.nodeAccountMatches h.ledger txn (h.identified r).context = true := hnode
  have hactive : (h.identified r).context.payerKnownActive = true := hpayer
  have htime : Gate.chronology txn.body (h.identified r).context.time = .ok := hchronology
  simp only [dueFailure, Gate.dueDiligenceFailure, hmatches, hactive, hseen, hduration, htime,
    Bool.not_true, Bool.false_eq_true, ↓reduceIte]

/-- The accounts that a delivered transaction can take from: the submitting member's, the payer's if
it has signed, and those that the transaction debits if everyone who has to has signed. -/
def DeliveredDebtor (txn : Envelope) (r : Rationalization) (h : Handling) (id : AccountId) : Prop :=
  h.context.nodeAccount = some id ∨ (r.payerActive = true ∧ id = txn.payer) ∨
    (r.status.code.endsHandling = false ∧ r.othersActive = true ∧ id ∈ txn.body.data.debits)

theorem paid_course (hpayer : r.payerActive = true) :
    Handling.Course (DeliveredDebtor txn r h) h (paid rules p txn r h).2 :=
  (h.identified_course _ r).trans ((h.identified r).charge_course rules.funding .standard txn _
    (fun _ => .inr (.inl ⟨hpayer, rfl⟩)) nofun)

theorem runDelivered_course {maxMemoBytes : UInt64}
    (hstandard : rules.transitions = .standard maxMemoBytes) :
    Handling.Course (DeliveredDebtor txn r h) h (p.runDelivered rules txn r h).2 := by
  have hdelivered := p.runDelivered_delivered rules txn r h
  generalize p.runDelivered rules txn r h = result at hdelivered
  cases hdelivered with
  | blamed code notices hdue hnotices =>
    have hnoted : Handling.Course (DeliveredDebtor txn r h) h
        { h.identified r with notices := notices } := by
      rw [hnotices]
      refine (h.identified_course _ r).noting fun n hn => ?_
      unfold Gate.dueDiligenceNotices at hn
      split at hn
      · cases hn
      · rw [List.mem_singleton.1 hn]
        rfl
    exact (hnoted.trans (Handling.charge_course _ rules.funding .ignoredDueDiligence txn _
      (fun hkind => absurd rfl hkind) (fun _ _ hnode => .inl hnode))).setStatus code
  | duplicate hdue hseen =>
    have hpayer := payerActive_of_dueFailure rules p txn r h hdue
    exact ((h.identified_course _ r).trans ((h.identified r).charge_course rules.funding .duplicate
      txn _ (fun _ => .inr (.inl ⟨hpayer, rfl⟩)) nofun)).setStatus _
  | unpaid hdue =>
    exact (paid_course rules p txn r h (payerActive_of_dueFailure rules p txn r h hdue)).setStatus _
  | unresolved hdue =>
    exact (paid_course rules p txn r h (payerActive_of_dueFailure rules p txn r h hdue)).setStatus _
  | unsigned hdue =>
    exact (paid_course rules p txn r h (payerActive_of_dueFailure rules p txn r h hdue)).setStatus _
  | dispatched hdue hseen hpaid hends hothers =>
    have hpaid := paid_course rules p txn r h (payerActive_of_dueFailure rules p txn r h hdue)
    rw [hstandard]
    exact hpaid.trans ((Handling.dispatch_course _ maxMemoBytes txn r.scheduled).mono
      fun id hid => .inr (.inr ⟨hends, hothers, hid⟩))

/-- A triggered transaction takes from its payer and the accounts that it debits. -/
theorem runTriggered_course {maxMemoBytes : UInt64}
    (hstandard : rules.transitions = .standard maxMemoBytes) :
    Handling.Course (· ∈ txn.payer :: txn.body.data.debits) h (p.runTriggered rules txn h).2 := by
  have hkeyed : Handling.Course (· ∈ txn.payer :: txn.body.data.debits) h
      (h.keyed (h.ledger.key? txn.payer)) := { Handling.Course.refl _ h with }
  have hcharged := hkeyed.trans (Handling.charge_course _ rules.funding .standard txn
    (rules.fees.fee txn (h.ledger.key? txn.payer) p.rates) (fun _ => List.mem_cons_self) nofun)
  rw [runTriggered, onceCharged_eq]
  refine hcharged.trans ?_
  split
  · rw [hstandard]
    exact (Handling.dispatch_course _ maxMemoBytes txn none).mono
      fun id hid => List.mem_cons_of_mem _ hid
  · exact (Handling.Course.refl _ _).setStatus _

end Processor

end ConsensusLedger
