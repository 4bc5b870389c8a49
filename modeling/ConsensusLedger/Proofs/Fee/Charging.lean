import ConsensusLedger.Fee.Charging
import ConsensusLedger.Proofs.Ledger.Transfer

/-!
Charges as transfers within the ledger. Every fee that a charge moves is taken from the payer, or
from the submitting member when due diligence was ignored, also when the charge is broken off.
-/

namespace ConsensusLedger

theorem addCapped_zero (amount : UInt64) : addCapped 0 amount = amount := by
  have hbound := amount.toNat_lt
  have hzero : (0 : UInt64).toNat = 0 := rfl
  rw [addCapped, hzero, Nat.zero_add, Nat.min_eq_left (by omega), UInt64.ofNat_toNat]

namespace Ledger

variable {debtor : AccountId → Prop} {l l' m : Ledger}

/-- The ledgers reached by transfers from the sources only, each completed or broken off. -/
inductive Transferred (source : AccountId → Prop) (l : Ledger) : Ledger → Prop
  | same : Transferred source l l
  | transfer {m : Ledger} {id : AccountId} (target : AccountId) (amount : UInt64) :
      Transferred source l m → source id → Transferred source l (m.transfer id target amount).2

/-- A transfer takes from its source only. -/
theorem transfer_adjusted (l : Ledger) {source : AccountId} (target : AccountId) (amount : UInt64)
    (hsource : debtor source) : Adjusted debtor l (l.transfer source target amount).2 := by
  have hconveyed := l.transfer_conveyed source target amount
  generalize l.transfer source target amount = done at hconveyed
  cases hconveyed with
  | idle => exact .same
  | refused => exact .same
  | halfway _ _ _ htaken => exact .adjust .same (fun _ => hsource) htaken
  | paid _ hamount _ htaken hgiven =>
    have hsign := toInt_neg_of_amountOf? hamount
    exact .adjust (.adjust .same (fun _ => hsource) htaken) (fun hneg => by omega) hgiven

/-- A transfer leaves all but two accounts alone, and takes no more from its source than the amount,
also when it is broken off. -/
theorem transfer_delta (l : Ledger) (source target : AccountId) (amount : UInt64) :
    (∀ id, id ≠ source → id ≠ target → (l.transfer source target amount).2.delta id = l.delta id) ∧
      (l.delta source).toInt - amount.toNat ≤
        ((l.transfer source target amount).2.delta source).toInt := by
  have hconveyed := l.transfer_conveyed source target amount
  generalize l.transfer source target amount = done at hconveyed
  cases hconveyed with
  | idle => exact ⟨fun _ _ _ => rfl, Int.sub_le_self _ (Int.natCast_nonneg _)⟩
  | refused => exact ⟨fun _ _ _ => rfl, Int.sub_le_self _ (Int.natCast_nonneg _)⟩
  | halfway _ hamount _ htaken =>
    obtain ⟨hothers, hsource⟩ := delta_debit hamount htaken
    exact ⟨fun id hne _ => hothers id hne, Int.le_of_eq hsource.symm⟩
  | paid _ hamount _ htaken hgiven =>
    obtain ⟨hothers, hsource⟩ := delta_debit hamount htaken
    have hcredit := delta_adjust hgiven
    have hpositive := (toInt_neg_of_amountOf? hamount).1
    refine ⟨fun id hne hne' => ?_, ?_⟩
    · rw [← hothers id hne, ← Int64.toInt_inj, hcredit, if_neg hne', Int.add_zero]
    · rw [hcredit]
      split <;> omega

namespace Transferred

theorem trans (h : Transferred debtor l m) (h' : Transferred debtor m l') :
    Transferred debtor l l' := by
  induction h' with
  | same => exact h
  | transfer target amount _ hsource ih => exact .transfer target amount ih hsource

theorem adjusted (h : Transferred debtor l l') : Adjusted debtor l l' := by
  induction h with
  | same => exact .same
  | transfer target amount _ hsource ih =>
    exact ih.trans (transfer_adjusted _ target amount hsource)

end Transferred

end Ledger

namespace Charging

open Ledger

variable {debtor : AccountId → Prop} (c : Charging)

@[simp] theorem chargePayer_payer (target : AccountId) (amount : UInt64) :
    (c.chargePayer target amount).2.payer = c.payer := by
  unfold chargePayer
  split <;> rfl

theorem chargePayer_transferred (hpayer : debtor c.payer) (target : AccountId) (amount : UInt64) :
    Transferred debtor c.ledger (c.chargePayer target amount).2.ledger := by
  have h : Transferred debtor c.ledger (c.ledger.transfer c.payer target amount).2 :=
    .transfer target amount .same hpayer
  unfold chargePayer
  split <;> rename_i heq <;> rw [heq] at h <;> exact h

theorem nodeToFunding_transferred (hnode : ∀ node, c.submitting = some node → debtor node)
    (amount : UInt64) : Transferred debtor c.ledger (c.nodeToFunding amount).2.ledger := by
  unfold nodeToFunding
  split
  · exact .same
  · rename_i node hsubmitting
    have h : Transferred debtor c.ledger (c.ledger.transfer node c.funding amount).2 :=
      .transfer c.funding amount .same (hnode node hsubmitting)
    split <;> rename_i heq <;> rw [heq] at h <;> exact h

theorem applyNodeAndNetwork_transferred (hpayer : debtor c.payer) (fee : Fee) :
    Transferred debtor c.ledger (c.applyNodeAndNetwork fee).2.ledger ∧
      (c.applyNodeAndNetwork fee).2.payer = c.payer := by
  unfold applyNodeAndNetwork payerToNode payerToFunding
  split
  · exact ⟨.same, rfl⟩
  split
  · exact ⟨.same, rfl⟩
  have hfirst := chargePayer_transferred c hpayer c.nodeAccount fee.node
  have hkept := chargePayer_payer c c.nodeAccount fee.node
  split
  · rename_i heq
    rw [heq] at hfirst hkept
    exact ⟨hfirst, hkept⟩
  · rename_i c' heq
    rw [heq] at hfirst hkept
    have hsecond := chargePayer_transferred c' (hkept ▸ hpayer) c'.funding fee.network
    have hkept' := (chargePayer_payer c' c'.funding fee.network).trans hkept
    split <;> rename_i heq' <;> rw [heq'] at hsecond hkept' <;>
      exact ⟨hfirst.trans hsecond, hkept'⟩

theorem applyAll_transferred (hpayer : debtor c.payer) (fee : Fee) :
    Transferred debtor c.ledger (c.applyAll fee).2.1.ledger := by
  obtain ⟨hfirst, hkept⟩ := applyNodeAndNetwork_transferred c hpayer fee
  unfold applyAll payerToFunding
  split
  · rename_i c' heq
    rw [heq] at hfirst hkept
    split
    · exact hfirst
    · exact hfirst
    · have hsecond := chargePayer_transferred c' (hkept ▸ hpayer) c'.funding fee.service
      split <;> rename_i heq' <;> rw [heq'] at hsecond <;> exact hfirst.trans hsecond
  · rename_i heq
    rw [heq] at hfirst
    exact hfirst

theorem applyForDuplicate_transferred (hpayer : debtor c.payer) (fee : Fee) :
    Transferred debtor c.ledger (c.applyForDuplicate fee).2.ledger :=
  (applyNodeAndNetwork_transferred c hpayer fee).1

theorem applyForIgnoredDueDiligence_eq (fee : Fee) :
    (c.applyForIgnoredDueDiligence fee).2 = (c.nodeToFunding fee.network).2 := by
  unfold applyForIgnoredDueDiligence
  split <;> rename_i heq <;> rw [heq]

theorem applyForIgnoredDueDiligence_transferred
    (hnode : ∀ node, c.submitting = some node → debtor node) (fee : Fee) :
    Transferred debtor c.ledger (c.applyForIgnoredDueDiligence fee).2.ledger := by
  rw [applyForIgnoredDueDiligence_eq]
  exact nodeToFunding_transferred c hnode fee.network

/-- Ignored due diligence concerns the submitting member and the funding account only, and costs the
member no more than the network fee. -/
theorem applyForIgnoredDueDiligence_delta {node : AccountId} (hnode : c.submitting = some node)
    (fee : Fee) :
    (∀ id, id ≠ node → id ≠ c.funding →
      (c.applyForIgnoredDueDiligence fee).2.ledger.delta id = c.ledger.delta id) ∧
    (c.ledger.delta node).toInt - fee.network.toNat ≤
      ((c.applyForIgnoredDueDiligence fee).2.ledger.delta node).toInt := by
  have h := c.ledger.transfer_delta node c.funding fee.network
  rw [applyForIgnoredDueDiligence_eq]
  simp only [nodeToFunding, hnode]
  split <;> rename_i heq <;> rw [heq] at h <;> exact h

end Charging

end ConsensusLedger
