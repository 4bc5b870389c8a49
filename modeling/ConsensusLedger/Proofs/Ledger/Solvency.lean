import ConsensusLedger.Proofs.Ledger.Supply
import ConsensusLedger.Proofs.Ledger.Transfer

/-!
Solvency of an open transaction: no balance is negative, and all of them add up to the supply, which
is an amount. No balance can then exceed the supply, so what moves coins from account to account
never overflows: a transfer is refused before it has taken anything, or goes through, and the
adjustments of a checked transfer list all apply, in whatever order the accounts are listed.
-/

namespace ConsensusLedger

open Transition (netAmount transferFailure adjustAll transferSyntax)

namespace Ledger

/-- The open transaction leaves every balance non-negative and their sum the supply, an amount. -/
structure Solvent (l : Ledger) : Prop where
  inTransaction : l.inTransaction = true
  nonneg : ∀ id ∈ l.holders, 0 ≤ l.afloat id
  balanced : l.circulation = l.supply
  bounded : l.supply ≤ AccountAmount.maximum

variable {l m : Ledger} {id : AccountId} {amount : Int64}

theorem solvent_opened (accounts : Collection AccountId Account)
    (h : (Ledger.mk accounts none).supply ≤ AccountAmount.maximum) :
    Solvent ⟨accounts, some ∅⟩ := by
  have hafloat (id : AccountId) : (Ledger.mk accounts (some ∅)).afloat id =
      ((Ledger.mk accounts none).committedBalance? id).getD 0 := by
    simp only [afloat, delta, ChangeSet.delta_empty, Int64.toInt_zero, Int.add_zero]
    rfl
  refine ⟨rfl, fun id _ => ?_, ?_, h⟩
  · rw [hafloat, committedBalance?]
    cases accounts.get? id with
    | none => exact Int.le_refl 0
    | some a => exact Int.natCast_nonneg a.balance.toNat
  · rw [circulation, Finset.sum_congr rfl fun id _ => hafloat id]
    exact (supply_eq ⟨accounts, none⟩).symm

theorem mem_holders_of_account? {a : Account} (h : l.account? id = some a) : id ∈ l.holders :=
  mem_holders.2 ⟨a, (Option.filter_eq_some_iff.1 h).1⟩

/-- The balance of an account that can be used, as a number. -/
theorem afloat_of_account? {a : Account} (h : l.account? id = some a) :
    l.afloat id = a.balance.toNat + (l.delta id).toInt := by
  rw [afloat, committedBalance?, (Option.filter_eq_some_iff.1 h).1]
  rfl

theorem afloat_of_balance? {b : UInt64} (h : l.balance? id = some b) :
    (∃ a, l.account? id = some a) ∧ l.afloat id = b.toNat := by
  obtain ⟨a, ha, hrange⟩ := Option.bind_eq_some_iff.1 h
  exact ⟨⟨a, ha⟩, (afloat_of_account? ha).trans (balanceOf?_eq_some_iff.1 hrange).symm⟩

/-- A committed balance is no larger than the supply. -/
theorem balance_le_supply {a : Account} (h : l.account? id = some a) :
    a.balance.toNat ≤ l.supply := by
  have hfound := l.accounts.table.get?_eq_some_iff.1 (Option.filter_eq_some_iff.1 h).1
  exact List.single_le_sum (by simp) _ (List.mem_map.2 ⟨(id, a), hfound, rfl⟩)

/-- An adjustment applies when the balance is an amount before and after. -/
theorem adjust_of_range {a : Account} (hopen : l.inTransaction = true)
    (ha : l.account? id = some a) (hsupply : l.supply ≤ AccountAmount.maximum)
    (hbefore : 0 ≤ l.afloat id ∧ l.afloat id ≤ AccountAmount.maximum)
    (hafter : 0 ≤ l.afloat id + amount.toInt ∧
      l.afloat id + amount.toInt ≤ AccountAmount.maximum) :
    ∃ m, l.adjust id amount = .ok m := by
  have hcommitted := (balance_le_supply ha).trans hsupply
  have hafloat := afloat_of_account? ha
  unfold AccountAmount.maximum at hbefore hafter hcommitted
  have hfunds := funds?_of_account? ha (by omega) (by omega)
  exact adjust_eq_ok_iff.2 ⟨hopen, ⟨_, hfunds, by omega, by omega⟩, by omega, by omega⟩

/-- No balance exceeds the sum of all, where none is negative. -/
theorem afloat_le_circulation (h : ∀ id ∈ l.holders, 0 ≤ l.afloat id) (hid : id ∈ l.holders) :
    l.afloat id ≤ l.circulation :=
  Finset.single_le_sum h hid

theorem holders_congr (h : m.accounts = l.accounts) : m.holders = l.holders := by
  rw [holders, h, holders]

theorem supply_congr (h : m.accounts = l.accounts) : m.supply = l.supply := by
  rw [supply, h, supply]

/-- After an adjustment no balance is negative, if none was. -/
theorem nonneg_adjust (h : l.adjust id amount = .ok m) (hl : ∀ id ∈ l.holders, 0 ≤ l.afloat id) :
    ∀ id ∈ m.holders, 0 ≤ m.afloat id := by
  intro id' hid'
  rw [holders_congr (accounts_of_adjust h)] at hid'
  rw [afloat_adjust h]
  split
  · rename_i heq
    subst heq
    obtain ⟨c, a, total, hc, ha, hlow, -⟩ := adjust_eq_ok h
    rw [afloat_of_account? ha, delta, hc]
    exact hlow
  · rw [Int.add_zero]
    exact hl id' hid'

/-- A transfer within a solvent ledger leaves it solvent: once the source has paid, the target can
take what is moved. -/
theorem Solvent.transfer (hl : l.Solvent) (source target : AccountId) (amount : UInt64) :
    (l.transfer source target amount).2.Solvent := by
  have hcredit {d : Int64} {m : Ledger} (hamount : amountOf? amount.toNat = some d)
      (htaken : l.adjust source (-d) = .ok m) (hcontains : l.contains target = true) :
      ∃ l', m.adjust target d = .ok l' := by
    obtain ⟨hpositive, hneg⟩ := toInt_neg_of_amountOf? hamount
    have haccounts := accounts_of_adjust htaken
    obtain ⟨a, ha⟩ : ∃ a, m.account? target = some a := by
      rw [account?_congr haccounts, ← Option.isSome_iff_exists]
      exact hcontains
    have hnonneg := nonneg_adjust htaken hl.nonneg
    have hcirculation := circulation_adjust htaken
    rw [hl.balanced, hneg] at hcirculation
    have hsupply : m.supply = l.supply := supply_congr haccounts
    have hbounded := hl.bounded
    have htarget := mem_holders_of_account? ha
    have hlow := hnonneg target htarget
    have hhigh := afloat_le_circulation hnonneg htarget
    exact adjust_of_range (inTransaction_of_adjust htaken) ha (hsupply ▸ hbounded)
      ⟨hlow, by omega⟩ (by omega)
  have hconveyed := l.transfer_conveyed source target amount
  generalize l.transfer source target amount = done at hconveyed
  cases hconveyed with
  | idle => exact hl
  | refused => exact hl
  | halfway _ hamount hcontains htaken hrefused =>
    obtain ⟨l', hl'⟩ := hcredit hamount htaken hcontains
    cases hrefused.symm.trans hl'
  | paid _ hamount _ htaken hgiven =>
    have haccounts := accounts_of_adjust htaken
    have haccounts' := accounts_of_adjust hgiven
    have hneg := (toInt_neg_of_amountOf? hamount).2
    have hnonneg := nonneg_adjust htaken hl.nonneg
    refine ⟨inTransaction_of_adjust hgiven, nonneg_adjust hgiven hnonneg, ?_, ?_⟩
    · rw [circulation_adjust hgiven, circulation_adjust htaken, hl.balanced,
        supply_congr haccounts', supply_congr haccounts, hneg]
      omega
    · rw [supply_congr haccounts', supply_congr haccounts]
      exact hl.bounded

/-- Adjustments of different accounts all apply when each balance is an amount before and after. -/
theorem adjustAll_of_range {xs : List AccountAmount} (hdistinct : (xs.map (·.account)).Nodup)
    (hopen : l.inTransaction = true) (hsupply : l.supply ≤ AccountAmount.maximum)
    (h : ∀ x ∈ xs, (∃ a, l.account? x.account = some a) ∧
      (0 ≤ l.afloat x.account ∧ l.afloat x.account ≤ AccountAmount.maximum) ∧
      0 ≤ l.afloat x.account + x.amount.toInt ∧
      l.afloat x.account + x.amount.toInt ≤ AccountAmount.maximum) :
    ∃ m, adjustAll l xs = (.ok (), m) ∧ m.accounts = l.accounts ∧ m.inTransaction = true ∧
      ∀ id, m.afloat id = l.afloat id + AccountAmount.sumFor id xs := by
  induction xs generalizing l with
  | nil => exact ⟨l, rfl, rfl, hopen, fun id => (Int.add_zero _).symm⟩
  | cons x xs ih =>
    obtain ⟨hx, hxs⟩ := List.nodup_cons.1 hdistinct
    obtain ⟨⟨a, ha⟩, hbefore, hafter⟩ := h x List.mem_cons_self
    obtain ⟨m, hm⟩ := adjust_of_range hopen ha hsupply hbefore hafter
    have haccounts := accounts_of_adjust hm
    obtain ⟨m', hm', haccounts', hopen', hafloat'⟩ := ih hxs (inTransaction_of_adjust hm)
      (supply_congr haccounts ▸ hsupply) (by
        intro y hy
        have hne : y.account ≠ x.account := by
          intro heq
          exact hx (List.mem_map.2 ⟨y, hy, heq⟩)
        rw [afloat_adjust hm, if_neg hne, Int.add_zero, account?_congr haccounts]
        exact h y (List.mem_cons_of_mem x hy))
    refine ⟨m', by simp only [adjustAll, hm, hm'], haccounts'.trans haccounts, hopen',
      fun id => ?_⟩
    rw [hafloat', afloat_adjust hm, AccountAmount.sumFor, Int.add_assoc]
    by_cases hid : id = x.account
    · rw [if_pos hid, if_pos hid.symm]
    · rw [if_neg hid, if_neg (Ne.symm hid)]

/-- What the check of a transfer list makes sure of. -/
theorem balance_of_transferFailure {xs : List AccountAmount} (h : transferFailure l xs = none) :
    ∀ x ∈ xs, (∃ a, l.account? x.account = some a) ∧ 0 ≤ l.afloat x.account ∧
      0 ≤ l.afloat x.account + x.amount.toInt := by
  induction xs with
  | nil =>
    intro x hx
    cases hx
  | cons y ys ih =>
    rw [transferFailure] at h
    split at h
    · cases h
    · rename_i balance hbalance
      obtain ⟨ha, hafloat⟩ := afloat_of_balance? hbalance
      split at h
      · cases h
      · intro x hx
        rcases List.mem_cons.1 hx with rfl | hx
        · exact ⟨ha, by omega, by omega⟩
        · exact ih h x hx

/-- The amounts of a well-formed transfer list cancel out, and no account is listed twice. -/
theorem transferSyntax_eq_ok {xs : List AccountAmount} (h : transferSyntax xs = .ok) :
    netAmount xs = 0 ∧ (xs.map (·.account)).Nodup := by
  unfold transferSyntax at h
  split at h
  · cases h
  · split at h
    · cases h
    · rename_i hnet
      split at h
      · rename_i hdistinct
        exact ⟨not_not.1 hnet, hdistinct⟩
      · cases h

/-- The adjustments of a checked transfer list all apply to a solvent ledger and leave it solvent. A
credit can come before the debit that covers it: what bounds it is the sum of the final balances. -/
theorem Solvent.adjustAll (hl : l.Solvent) {xs : List AccountAmount}
    (hform : transferSyntax xs = .ok) (hfailure : transferFailure l xs = none) :
    ∃ m, Transition.adjustAll l xs = (.ok (), m) ∧ m.Solvent := by
  obtain ⟨hnet, hdistinct⟩ := transferSyntax_eq_ok hform
  have hchecked := balance_of_transferFailure hfailure
  have hholders : ∀ x ∈ xs, x.account ∈ l.holders := by
    intro x hx
    obtain ⟨a, ha⟩ := (hchecked x hx).1
    exact mem_holders_of_account? ha
  have hbounded := hl.bounded
  have hfinal : ∀ id ∈ l.holders, 0 ≤ l.afloat id + AccountAmount.sumFor id xs := by
    intro id hid
    by_cases hlisted : ∃ x ∈ xs, x.account = id
    · obtain ⟨x, hx, rfl⟩ := hlisted
      rw [AccountAmount.sumFor_of_nodup hdistinct hx]
      exact (hchecked x hx).2.2
    · rw [AccountAmount.sumFor_eq_zero fun x hx heq => hlisted ⟨x, hx, heq⟩, Int.add_zero]
      exact hl.nonneg id hid
  have htotal : ∑ id ∈ l.holders, (l.afloat id + AccountAmount.sumFor id xs) = l.supply := by
    rw [Finset.sum_add_distrib, AccountAmount.sum_sumFor hholders, hnet, Int.add_zero]
    exact hl.balanced
  obtain ⟨m, hm, haccounts, hopen, hafloat⟩ := adjustAll_of_range hdistinct hl.inTransaction
    hbounded (by
      intro x hx
      have hbefore := afloat_le_circulation hl.nonneg (hholders x hx)
      have hafter := Finset.single_le_sum hfinal (hholders x hx)
      rw [htotal, AccountAmount.sumFor_of_nodup hdistinct hx] at hafter
      rw [hl.balanced] at hbefore
      exact ⟨(hchecked x hx).1, ⟨(hchecked x hx).2.1, by omega⟩, (hchecked x hx).2.2, by omega⟩)
  refine ⟨m, hm, hopen, ?_, ?_, supply_congr haccounts ▸ hbounded⟩
  · intro id hid
    rw [hafloat]
    exact hfinal id (holders_congr haccounts ▸ hid)
  · rw [circulation, holders_congr haccounts, supply_congr haccounts, ← htotal]
    exact Finset.sum_congr rfl fun id _ => hafloat id

/-- The net transfers of a solvent ledger cancel out. -/
theorem Solvent.netTransfers (hl : l.Solvent) (hsettleable : l.Settleable) :
    netAmount l.netTransfers = 0 ∧ ∀ x ∈ l.netTransfers, x.account ∈ l.holders := by
  have hholders : ∀ x ∈ l.netTransfers, x.account ∈ l.holders := by
    intro x hx
    obtain ⟨c, hc⟩ := Option.isSome_iff_exists.1 hl.inTransaction
    rw [Ledger.netTransfers, hc] at hx
    obtain ⟨a, ha, -⟩ := hsettleable c hc _ _ (c.mem_net.1 hx).2
    exact mem_holders.2 ⟨a, ha⟩
  refine ⟨?_, hholders⟩
  have hbalanced := hl.balanced
  rw [circulation] at hbalanced
  simp only [afloat, Finset.sum_add_distrib, ← supply_eq] at hbalanced
  rw [← AccountAmount.sum_sumFor hholders]
  simp only [sumFor_netTransfers]
  omega

end Ledger

end ConsensusLedger
