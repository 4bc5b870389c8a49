import ConsensusLedger.Proofs.Signing.Expansion

/-!
Signing operations by cases: rejected for their signatures, without an attempt, or decided by what
the two calls on their target answer.
-/

namespace ConsensusLedger.Signing

/-- The keys with a valid signature, each once and in the order of first occurrence. -/
def signers (sigs : List ScopedSignature) : List PublicKey :=
  ((sigs.filter (·.valid)).map (·.key)).eraseDups

theorem mem_signers {key : PublicKey} {sigs : List ScopedSignature} :
    key ∈ signers sigs ↔ ⟨key, true⟩ ∈ sigs := by
  rw [signers, List.mem_eraseDups]
  constructor
  · intro h
    obtain ⟨⟨key, valid⟩, hs, rfl⟩ := List.mem_map.1 h
    obtain ⟨hmem, rfl⟩ := List.mem_filter.1 hs
    exact hmem
  · intro h
    exact List.mem_map.2 ⟨_, List.mem_filter.2 ⟨h, rfl⟩, rfl⟩

/-- Fewer distinct keys are valid than were attempted, and some signature is invalid. -/
def Rejects (attempts : Nat) (sigs : List ScopedSignature) : Prop :=
  0 < attempts ∧ (signers sigs).length < attempts ∧ 0 < sigs.countP (!·.valid)

theorem validKeys_eq_signers (sigs : List ScopedSignature) : validKeys sigs = signers sigs :=
  distinct_eq_eraseDups _

theorem isRejected_eq_true_iff {attempts : Nat} {sigs : List ScopedSignature} :
    isRejected attempts sigs = true ↔ Rejects attempts sigs := by
  simp [isRejected, Rejects, validKeys_eq_signers, List.countP_pos_iff, and_assoc]

instance (attempts : Nat) (sigs : List ScopedSignature) : Decidable (Rejects attempts sigs) :=
  inferInstanceAs (Decidable (_ ∧ _ ∧ _))

namespace TargetCalls

variable {σ ε : Type} {calls : TargetCalls σ ε} {attempts : Nat} {sigs : List ScopedSignature} {s : σ}

/-- Readiness is asked for once, and an error of the question is the answer. -/
theorem settle_eq (calls : TargetCalls σ ε) (status : Status) (s : σ) :
    calls.settle status s =
      ((calls.isReady s).1.map fun ready => ⟨if ready then .ok else status, ready⟩,
        (calls.isReady s).2) := by
  unfold settle
  split <;> rename_i heq <;> simp [heq, Except.map]

theorem witnessInScope_of_rejects (h : Rejects attempts sigs) :
    calls.witnessInScope attempts sigs s = (.ok ⟨.someSignaturesWereInvalid, false⟩, s) :=
  if_pos (isRejected_eq_true_iff.2 h)

theorem witnessInScope_zero (calls : TargetCalls σ ε) (sigs : List ScopedSignature) (s : σ) :
    calls.witnessInScope 0 sigs s =
      ((calls.isReady s).1.map fun ready => ⟨.ok, ready⟩, (calls.isReady s).2) := by
  simp [witnessInScope, isRejected, settle_eq]

theorem witnessInScope_of_witness_error {e : ε} {t : σ} (hattempts : 0 < attempts)
    (h : ¬Rejects attempts sigs) (he : calls.witness (signers sigs) s = (.error e, t)) :
    calls.witnessInScope attempts sigs s = (.error e, t) := by
  rw [← isRejected_eq_true_iff] at h
  rw [witnessInScope, if_neg h, if_neg (Nat.ne_of_gt hattempts), validKeys_eq_signers, he]

theorem witnessInScope_of_witness_ok {new : Nat} {t : σ} (hattempts : 0 < attempts)
    (h : ¬Rejects attempts sigs) (hnew : calls.witness (signers sigs) s = (.ok new, t)) :
    calls.witnessInScope attempts sigs s =
      ((calls.isReady t).1.map fun ready =>
        ⟨if ready ∨ 0 < new then .ok else .noNewValidSignatures, ready⟩, (calls.isReady t).2) := by
  rw [← isRejected_eq_true_iff] at h
  have hstatus (ready : Bool) :
      (if ready then .ok else if new = 0 then .noNewValidSignatures else .ok : Status) =
        if ready ∨ 0 < new then .ok else .noNewValidSignatures := by
    cases ready <;> cases new <;> simp
  rw [witnessInScope, if_neg h, if_neg (Nat.ne_of_gt hattempts), validKeys_eq_signers, hnew]
  simp only [settle_eq, hstatus]

/-- An operation that is not rejected is answered by its calls, and never as a rejected one. -/
theorem status_ne_of_not_rejects {outcome : Outcome} (h : ¬Rejects attempts sigs)
    (hok : (calls.witnessInScope attempts sigs s).1 = .ok outcome) :
    outcome.status ≠ .someSignaturesWereInvalid ∧ (outcome.ready = true → outcome.status = .ok) := by
  have hmap {answer : Except ε Bool} {status : Bool → Status}
      (hstatus : ∀ ready, status ready ≠ .someSignaturesWereInvalid)
      (hready : status true = .ok)
      (hanswer : answer.map (fun ready => Outcome.mk (status ready) ready) = .ok outcome) :
      outcome.status ≠ .someSignaturesWereInvalid ∧
        (outcome.ready = true → outcome.status = .ok) := by
    cases answer with
    | error e => cases hanswer
    | ok ready =>
      cases hanswer
      exact ⟨hstatus ready, fun htrue => (congrArg status htrue).trans hready⟩
  rcases Nat.eq_zero_or_pos attempts with rfl | hattempts
  · rw [witnessInScope_zero] at hok
    exact hmap (fun _ => by simp) rfl hok
  · match hwitness : calls.witness (signers sigs) s with
    | (.error e, t) =>
      rw [witnessInScope_of_witness_error hattempts h hwitness] at hok
      cases hok
    | (.ok new, t) =>
      rw [witnessInScope_of_witness_ok hattempts h hwitness] at hok
      exact hmap (fun ready => by split <;> simp) (by simp) hok

end TargetCalls

end ConsensusLedger.Signing
