import ConsensusLedger.Proofs.Schedule.Witness
import ConsensusLedger.Proofs.Signing.Rule

/-!
A schedule under the operations that sign it. Each operation brings attempts and verified signatures.
The keys that it contributes do not depend on the schedule, the schedule has signed what has been
contributed so far, and the answer depends on the schedule after the operation.
-/

namespace ConsensusLedger

open Signing

/-- What one operation brings for the signing of a schedule. -/
structure SignatureBatch where
  attempts : Nat
  signatures : List ScopedSignature
  deriving DecidableEq, Repr

namespace SignatureBatch

variable {b c : SignatureBatch}

def scope (required : List Key) (b : SignatureBatch) : ScheduledScope :=
  ⟨b.attempts, b.signatures, required⟩

/-- The operation is rejected for its signatures. -/
def Rejected (b : SignatureBatch) : Prop := Rejects b.attempts b.signatures

instance (b : SignatureBatch) : Decidable b.Rejected :=
  inferInstanceAs (Decidable (Rejects _ _))

/-- The valid keys, unless nothing was attempted or the operation is rejected. -/
def contributed (b : SignatureBatch) : List PublicKey :=
  if b.attempts = 0 ∨ b.Rejected then [] else signers b.signatures

theorem mem_contributed {k : PublicKey} :
    k ∈ b.contributed ↔ 0 < b.attempts ∧ ¬b.Rejected ∧ ⟨k, true⟩ ∈ b.signatures := by
  unfold contributed
  by_cases h : b.attempts = 0 ∨ b.Rejected
  · rw [if_pos h]
    rcases h with h | h <;> simp [h]
  · rw [if_neg h, mem_signers]
    simp only [not_or] at h
    simp [h, Nat.pos_of_ne_zero]

/-- The same attempts with the same signatures in any order. -/
def Rearranged (b c : SignatureBatch) : Prop :=
  b.attempts = c.attempts ∧ b.signatures.Perm c.signatures

theorem Rearranged.rejected_iff (h : b.Rearranged c) : b.Rejected ↔ c.Rejected := by
  obtain ⟨hattempts, hperm⟩ := h
  have hkeys : (signers b.signatures).length = (signers c.signatures).length := by
    rw [← validKeys_eq_signers, ← validKeys_eq_signers]
    exact (distinct_perm fun _ => ((hperm.filter _).map _).mem_iff).length_eq
  rw [Rejected, Rejected, Rejects, Rejects, hattempts, hkeys, hperm.countP_eq]

theorem Rearranged.mem_contributed (h : b.Rearranged c) {k : PublicKey} :
    k ∈ b.contributed ↔ k ∈ c.contributed := by
  rw [SignatureBatch.mem_contributed, SignatureBatch.mem_contributed, h.rejected_iff, h.1,
    h.2.mem_iff]

end SignatureBatch

namespace Schedule

variable {x : Schedule} {required : List Key} {b : SignatureBatch}

/-- The schedule after an operation. -/
def signedBy (x : Schedule) (b : SignatureBatch) : Schedule := (x.witnessAll b.contributed).2

/-- The answer to an operation on the schedule. -/
def verdict (x : Schedule) (required : List Key) (b : SignatureBatch) : Outcome :=
  if b.Rejected then ⟨.someSignaturesWereInvalid, false⟩
  else
    let ready := Key.allActive (x.signedBy b).hasSigned required
    let new := (x.witnessAll b.contributed).1.count true
    ⟨if ready ∨ b.attempts = 0 ∨ 0 < new then .ok else .noNewValidSignatures, ready⟩

theorem mem_signedBy {k : PublicKey} :
    k ∈ (x.signedBy b).signatories ↔ k ∈ x.signatories ∨ k ∈ b.contributed := by
  obtain ⟨signatories, heq, -, hmem⟩ := x.witnessAll_eq b.contributed
  rw [signedBy, heq]
  exact hmem k

theorem verdict_rejected_iff :
    (x.verdict required b).status = .someSignaturesWereInvalid ↔ b.Rejected := by
  unfold verdict
  split
  · simp [*]
  · simp only [*]
    split <;> simp

end Schedule

namespace EntityStore

variable {ν ρ : Type} {s : EntityStore ν} {id : EntityId} {e : ν}

/-- A change of an entity is made where the entity is found. -/
theorem apply_of_get? (h : s.get? id = some e) (change : ν → Except String ρ × ν) :
    (s.apply id change).1 = (change e).1.mapError (.changeFailed id) ∧
      (s.apply id change).2.get? id = some (change e).2 := by
  unfold get? at h
  split at h
  · rename_i p hpending
    split at h
    · rename_i hid
      cases h
      simp [apply, hpending, Option.filter_some, hid, get?]
    · rename_i hid
      simp [apply, hpending, Option.filter_some, hid, h, get?, Collection.get?_put]
  · rename_i hpending
    simp [apply, hpending, h, get?, Collection.get?_put]

end EntityStore

namespace ScheduleStore

variable {s : ScheduleStore} {id : ScheduleId} {x : Schedule}

theorem get_eq_ok_iff : s.get id = .ok x ↔ s.store.get? id = some x := by
  unfold get EntityStore.get
  split <;> simp [*]

theorem witness_of_get (hx : s.get id = .ok x) (keys : List PublicKey) :
    ∃ t, witness id keys s = (.ok ((x.witnessAll keys).1.count true), t) ∧
      t.get id = .ok (x.witnessAll keys).2 := by
  let change (schedule : Schedule) : Except String Nat × Schedule :=
    (.ok ((schedule.witnessAll keys).1.count true), (schedule.witnessAll keys).2)
  obtain ⟨happly, hget⟩ := EntityStore.apply_of_get? (get_eq_ok_iff.1 hx) change
  exact ⟨_, Prod.ext happly rfl, get_eq_ok_iff.2 hget⟩

theorem isReady_of_get (hx : s.get id = .ok x) (scope : ScheduledScope) :
    isReady id scope s = .ok (Key.allActive x.hasSigned scope.required) := by
  rw [isReady, hx]
  rfl

/-- An operation on a schedule in the store is answered, and signs that schedule. -/
theorem witnessScope_of_get (hx : s.get id = .ok x) (required : List Key) (b : SignatureBatch) :
    ∃ t, s.witnessScope id (b.scope required) = (.ok (x.verdict required b), t) ∧
      t.get id = .ok (x.signedBy b) := by
  have hready (t : ScheduleStore) (ht : t.get id = .ok (x.signedBy b)) :
      (witnessTarget id (b.scope required)).calls.isReady t =
        (.ok (Key.allActive (x.signedBy b).hasSigned required), t) :=
    Prod.ext (isReady_of_get ht _) rfl
  by_cases hrejected : b.Rejected
  · have hkept : x.signedBy b = x := by
      rw [Schedule.signedBy, SignatureBatch.contributed, if_pos (.inr hrejected)]
      rfl
    refine ⟨s, ?_, by rw [hkept, hx]⟩
    rw [Schedule.verdict, if_pos hrejected]
    exact TargetCalls.witnessInScope_of_rejects hrejected
  · rcases Nat.eq_zero_or_pos b.attempts with hattempts | hattempts
    · have hkept : x.signedBy b = x := by
        rw [Schedule.signedBy, SignatureBatch.contributed, if_pos (.inl hattempts)]
        rfl
      have hs : s.get id = .ok (x.signedBy b) := by rw [hkept, hx]
      have hrun := TargetCalls.witnessInScope_zero (witnessTarget id (b.scope required)).calls
        b.signatures s
      refine ⟨s, ?_, hs⟩
      rw [← hattempts, hready s hs] at hrun
      rw [witnessScope, witnessInScope, Schedule.verdict, if_neg hrejected]
      exact hrun.trans (by simp [hattempts, Except.map])
    · have hkeys : b.contributed = signers b.signatures :=
        if_neg (not_or.2 ⟨Nat.ne_of_gt hattempts, hrejected⟩)
      obtain ⟨t, hwitness, ht⟩ := witness_of_get hx b.contributed
      have hcall : (witnessTarget id (b.scope required)).calls.witness (signers b.signatures) s =
          (.ok ((x.witnessAll b.contributed).1.count true), t) := by
        rw [← hkeys]
        exact hwitness
      have hrun := TargetCalls.witnessInScope_of_witness_ok hattempts hrejected hcall
      refine ⟨t, ?_, ht⟩
      rw [hready t ht] at hrun
      rw [witnessScope, witnessInScope, Schedule.verdict, if_neg hrejected]
      exact hrun.trans (by simp [Nat.ne_of_gt hattempts, hkeys, Except.map])

end ScheduleStore

end ConsensusLedger
