import ConsensusLedger.Transaction.Envelope

/-!
Where a transaction comes from: a delivered one has no schedule, an inner one has the schedule that it
was made for.
-/

namespace ConsensusLedger.Envelope

theorem ofSigned_eq_ok {bytes : List UInt8} {txn : Envelope} (h : ofSigned bytes = .ok txn) :
    ∃ signed body, SignedTransaction.ofBytes bytes = .ok signed ∧
      TransactionBody.ofBytes signed.bodyBytes = .ok body ∧
      txn = ⟨bytes, signed.bodyBytes, body, signed.signatures, Digest.sha384 bytes, body.id.payer,
        none⟩ := by
  unfold ofSigned at h
  cases hsigned : SignedTransaction.ofBytes bytes with
  | error e =>
    rw [hsigned] at h
    cases h
  | ok signed =>
    rw [hsigned] at h
    cases hbody : TransactionBody.ofBytes signed.bodyBytes with
    | error e =>
      simp only [bind, Except.bind, hbody] at h
      cases h
    | ok body =>
      simp only [bind, Except.bind, hbody] at h
      cases h
      exact ⟨signed, body, rfl, hbody, rfl⟩

theorem schedule_of_ofSigned {bytes : List UInt8} {txn : Envelope} (h : ofSigned bytes = .ok txn) :
    txn.schedule = none := by
  obtain ⟨signed, body, -, -, rfl⟩ := ofSigned_eq_ok h
  rfl

theorem payer_of_ofSigned {bytes : List UInt8} {txn : Envelope} (h : ofSigned bytes = .ok txn) :
    txn.payer = txn.id.payer := by
  obtain ⟨signed, body, -, -, rfl⟩ := ofSigned_eq_ok h
  rfl

/-- A body that can be read makes an inner transaction, with the data of the body. -/
theorem ofScheduled_eq_ok {body : List UInt8} {inner : TransactionBody}
    (hinner : TransactionBody.ofBytes body = .ok inner) (id : TransactionId) (payer : AccountId)
    (schedule : ScheduleId) :
    ∃ txn, ofScheduled body id payer schedule = .ok txn ∧ txn.payer = payer ∧
      txn.body.data = inner.data ∧ txn.schedule = some schedule := by
  unfold ofScheduled
  rw [hinner]
  exact ⟨_, rfl, rfl, rfl, rfl⟩

/-- An inner transaction runs under the scheduled form of the identifier, for the payer and the
schedule that it was made for. -/
theorem origin_of_ofScheduled {body : List UInt8} {id : TransactionId} {payer : AccountId}
    {schedule : ScheduleId} {txn : Envelope} (h : ofScheduled body id payer schedule = .ok txn) :
    txn.id = id.asScheduled ∧ txn.payer = payer ∧ txn.schedule = some schedule := by
  unfold ofScheduled at h
  cases hbody : TransactionBody.ofBytes body with
  | error e =>
    rw [hbody] at h
    cases h
  | ok inner =>
    rw [hbody] at h
    cases h
    exact ⟨rfl, rfl, rfl⟩

end ConsensusLedger.Envelope
