import ConsensusLedger.Proofs.Ledger.Operation
import ConsensusLedger.Proofs.Ledger.Overflow
import ConsensusLedger.Proofs.Ledger.Payment

/-!
Transfers within a bounded total. While the balances of an open transaction add up to an amount, a
transfer between usable accounts goes through if and only if its source has the amount and its
accumulated change can take the debit, and otherwise leaves the ledger as it was; and the total stays
the same. So the bound holds all through a transaction that consists of transfers, if it holds when
this begins.
-/

namespace ConsensusLedger.Ledger

/-- The sum of all balances, with the changes of the open transaction. -/
def total (l : Ledger) : Int := ∑ id ∈ l.holders, (l.funds? id).getD 0

/-- An open transaction whose balances add up to an amount. -/
structure Bounded (l : Ledger) : Prop where
  inTransaction : l.inTransaction = true
  total : l.total ≤ AccountAmount.maximum

variable {l m : Ledger} {id source target : AccountId}

theorem mem_holders_of_funds? {n : Int} (h : l.funds? id = some n) : id ∈ l.holders := by
  obtain ⟨a, ha, -⟩ := account?_of_funds? h
  exact mem_holders_of_account? ha

theorem getD_funds?_nonneg (l : Ledger) (id : AccountId) : 0 ≤ (l.funds? id).getD 0 := by
  cases h : l.funds? id with
  | none => simp
  | some n => exact (funds?_range h).1

/-- One balance is no larger than all of them together. -/
theorem funds_le_total {n : Int} (h : l.funds? id = some n) : n ≤ l.total := by
  have hle := Finset.single_le_sum (fun id _ => l.getD_funds?_nonneg id) (mem_holders_of_funds? h)
  rwa [h] at hle

/-- Nor are the balances of two accounts. -/
theorem funds_add_le_total {n t : Int} (hn : l.funds? source = some n)
    (ht : l.funds? target = some t) (hne : source ≠ target) : n + t ≤ l.total := by
  have hsubset : {source, target} ⊆ l.holders := by
    intro id hid
    rcases Finset.mem_insert.1 hid with rfl | hid
    · exact mem_holders_of_funds? hn
    · rw [Finset.mem_singleton.1 hid]
      exact mem_holders_of_funds? ht
  have hle := Finset.sum_le_sum_of_subset_of_nonneg hsubset
    fun id _ _ => l.getD_funds?_nonneg id
  rwa [Finset.sum_pair hne, hn, ht] at hle

/-- What payments among some accounts add to these cancels out. -/
theorem sum_effects {accounts : Finset AccountId} {ps : List Payment}
    (h : ∀ p ∈ ps, p.source ∈ accounts ∧ p.target ∈ accounts) :
    ∑ id ∈ accounts, Payment.effects id ps = 0 := by
  induction ps with
  | nil => simp [Payment.effects]
  | cons p ps ih =>
    obtain ⟨⟨hsource, htarget⟩, hrest⟩ := List.forall_mem_cons.1 h
    simp [Payment.effects, Payment.effect, Finset.sum_add_distrib, hsource, htarget, ih hrest]

/-- Payments among usable accounts leave the total. -/
theorem Pays.total_eq {ps : List Payment} (h : l.Pays ps m)
    (hknown : ∀ p ∈ ps, (l.funds? p.source).isSome ∧ (l.funds? p.target).isSome) :
    m.total = l.total := by
  -- Accounts that cannot be used have no part in the payments.
  have hidle {id : AccountId} (hnone : l.funds? id = none) : Payment.effects id ps = 0 := by
    clear h
    induction ps with
    | nil => rfl
    | cons p ps ih =>
      obtain ⟨⟨hsource, htarget⟩, hrest⟩ := List.forall_mem_cons.1 hknown
      have hsource : id ≠ p.source := by rintro rfl; simp [hnone] at hsource
      have htarget : id ≠ p.target := by rintro rfl; simp [hnone] at htarget
      simp [Payment.effects, Payment.effect, hsource, htarget, ih hrest]
  have hmoved (id : AccountId) :
      (m.funds? id).getD 0 = (l.funds? id).getD 0 + Payment.effects id ps := by
    rw [h.funds]
    cases hfunds : l.funds? id with
    | none => simp [hidle hfunds]
    | some n => rfl
  have hamong : ∀ p ∈ ps, p.source ∈ l.holders ∧ p.target ∈ l.holders := by
    intro p hp
    obtain ⟨hsource, htarget⟩ := hknown p hp
    obtain ⟨n, hn⟩ := Option.isSome_iff_exists.1 hsource
    obtain ⟨t, ht⟩ := Option.isSome_iff_exists.1 htarget
    exact ⟨mem_holders_of_funds? hn, mem_holders_of_funds? ht⟩
  rw [total, total, holders_congr h.accounts]
  simp only [hmoved, Finset.sum_add_distrib, sum_effects hamong, add_zero]

namespace Bounded

variable (hl : l.Bounded)
include hl

theorem pays {ps : List Payment} (h : l.Pays ps m)
    (hknown : ∀ p ∈ ps, (l.funds? p.source).isSome ∧ (l.funds? p.target).isSome) : m.Bounded := by
  refine ⟨h.inTransaction.trans hl.inTransaction, ?_⟩
  rw [h.total_eq hknown]
  exact hl.total

/-- What the source of a transfer has, its target can take. -/
theorem takes {n t : Int} (hn : l.funds? source = some n) (ht : l.funds? target = some t)
    {amount : UInt64} (hcovered : (amount.toNat : Int) ≤ n) :
    source = target ∨ l.Absorbs target amount.toNat := by
  by_cases hsame : source = target
  · exact .inl hsame
  · obtain ⟨a, -, hsum⟩ := account?_of_funds? ht
    have hboth := funds_add_le_total hn ht hsame
    have htotal := hl.total
    have hlow := (l.delta target).le_toInt
    have hrange := funds?_range ht
    unfold AccountAmount.maximum at htotal
    exact .inr ⟨⟨t, ht, by omega, by omega⟩, by omega, by omega⟩

/-- A transfer goes through when its source has the amount and its change bears the debit. -/
theorem transfer_covered {n t : Int} (hn : l.funds? source = some n) (ht : l.funds? target = some t)
    {amount : UInt64} (hcovered : (amount.toNat : Int) ≤ n)
    (hbears : Payment.Bears (l.delta source).toInt amount.toNat) :
    (l.transfer source target amount).1 = .ok () := by
  refine (l.transfer_conveyed source target amount).ok_iff.2 ?_
  rcases hbears with hzero | hlow
  · exact .inl (UInt64.toNat_inj.1 hzero)
  · have hsource := funds_le_total hn
    have htotal := hl.total
    have hrange := funds?_range hn
    have hhigh := (l.delta source).toInt_lt
    obtain ⟨a, ha, -⟩ := account?_of_funds? ht
    refine .inr ⟨⟨hl.inTransaction, by omega, by simp [contains, ha], ?_⟩, hl.takes hn ht hcovered⟩
    exact ⟨⟨n, hn, by omega, by omega⟩, by omega, by omega⟩

/-- And it is refused outright, as an overflow, when the change does not bear the debit. -/
theorem transfer_unborne {n t : Int} (hn : l.funds? source = some n)
    (ht : l.funds? target = some t) {amount : UInt64} (hcovered : (amount.toNat : Int) ≤ n)
    (hunborne : ¬ Payment.Bears (l.delta source).toInt amount.toNat) :
    ∃ e, l.transfer source target amount = (.error e, l) ∧ e.status = .failInvalid := by
  obtain ⟨hnonzero, hlow⟩ := not_or.1 hunborne
  have hsource := funds_le_total hn
  have htotal := hl.total
  unfold AccountAmount.maximum at htotal
  obtain ⟨d, hd⟩ := amountOf?_of_range (n := (amount.toNat : Int)) (by omega) (by omega)
  obtain ⟨-, hneg⟩ := toInt_neg_of_amountOf? hd
  have hvalue := amountOf?_eq_some_iff.1 hd
  obtain ⟨a, ha, -⟩ := account?_of_funds? ht
  have hknown : l.contains target = true := by simp [contains, ha]
  have hamount : amount ≠ 0 := fun hzero => hnonzero (congrArg UInt64.toNat hzero)
  obtain ⟨balance, hbalance, hfunds⟩ := funds?_eq_some_iff.1 hn
  cases hdebit : l.adjust source (-d) with
  | ok m =>
    obtain ⟨-, -, hleast, -⟩ := adjust_eq_ok_iff.1 ⟨m, hdebit⟩
    omega
  | error e =>
    have hoverflow := adjust_overflows hl.inTransaction hbalance (by omega) hdebit
    refine ⟨e, by simp [Ledger.transfer, hamount, hd, hknown, hdebit], ?_⟩
    rw [hoverflow]
    rfl

end Bounded

/-- A transfer is refused outright when its source does not have the amount. -/
theorem transfer_uncovered (target : AccountId) {amount : UInt64} (hnonzero : amount ≠ 0)
    (hshort : ∀ n, l.funds? source = some n → n < (amount.toNat : Int)) :
    (∃ e, (l.transfer source target amount).1 = .error e) ∧
      (l.transfer source target amount).2 = l := by
  have hconveyed := l.transfer_conveyed source target amount
  have hpoor : ¬ l.Affords source target amount := by
    rintro ⟨-, -, -, ⟨n, hn, hlow, -⟩, -⟩
    have hless := hshort n hn
    omega
  have hfails : ∃ e, (l.transfer source target amount).1 = .error e := by
    cases hresult : (l.transfer source target amount).1 with
    | error e => exact ⟨e, rfl⟩
    | ok =>
      rcases hconveyed.ok_iff.1 hresult with hzero | ⟨haffords, -⟩
      · exact (hnonzero hzero).elim
      · exact (hpoor haffords).elim
  refine ⟨hfails, ?_⟩
  by_contra hchanged
  exact hpoor (hconveyed.changes_iff.1 ⟨hfails, hchanged⟩).affords

/-- Every transfer keeps the bound, whether it goes through or not. -/
theorem Bounded.transfer (hl : l.Bounded) (hsettleable : l.Settleable) (source target : AccountId)
    (amount : UInt64) : (l.transfer source target amount).2.Bounded := by
  have hconveyed := l.transfer_conveyed source target amount
  cases hresult : (l.transfer source target amount).1 with
  | ok =>
    rcases hconveyed.ok_iff.1 hresult with rfl | ⟨⟨-, -, hknown, hcovered⟩, -⟩
    · simpa [Ledger.transfer] using hl
    · have htarget : (l.funds? target).isSome := by
        rw [funds?, Option.isSome_map, hsettleable.isSome_balance?, hknown]
      obtain ⟨n, hn, -⟩ := hcovered.balance
      exact hl.pays (hconveyed.pays hresult) (by simp [hn, htarget])
  | error e =>
    by_cases hsame : (l.transfer source target amount).2 = l
    · rw [hsame]
      exact hl
    -- Only an overfilled target leaves a change behind, and no target can be overfilled.
    · have hoverfills := hconveyed.changes_iff.1 ⟨⟨e, hresult⟩, hsame⟩
      have haffords := hoverfills.affords
      have htarget : (l.funds? target).isSome := by
        rw [funds?, Option.isSome_map, hsettleable.isSome_balance?, haffords.known]
      obtain ⟨n, hn, hlow, -⟩ := haffords.covered.balance
      obtain ⟨t, ht⟩ := Option.isSome_iff_exists.1 htarget
      exact ((hl.takes hn ht (by omega)).elim hoverfills.moves.2 hoverfills.excess).elim

/-- A transaction that begins over balances that add up to an amount. -/
theorem bounded_opened (hclosed : l.changes = none) (htotal : l.total ≤ AccountAmount.maximum) :
    Bounded ⟨l.accounts, some ∅⟩ := by
  have hfunds (id : AccountId) : (Ledger.mk l.accounts (some ∅)).funds? id = l.funds? id := by
    have hdelta : (Ledger.mk l.accounts (some ∅)).delta id = l.delta id := by
      simp only [delta, hclosed]
      rfl
    rw [(settleable_opened _).funds?_eq, (settleable_of_closed hclosed).funds?_eq, hdelta]
    rfl
  refine ⟨rfl, ?_⟩
  simpa only [total, holders, hfunds] using htotal

/-- The bound holds all through a transaction that consists of transfers. -/
theorem bounded_standing {ops : List Operation} (hclosed : l.changes = none)
    (htotal : l.total ≤ AccountAmount.maximum)
    (htransfers : ∀ op ∈ ops, ∃ source target amount, op = .transfer source target amount) :
    (l.standing (.begin :: ops)).current.Bounded := by
  induction ops using List.reverseRecOn with
  | nil =>
    have hbegun : (l.standing [.begin]).current = ⟨l.accounts, some ∅⟩ := by
      simp [standing, Standing.step, Standing.follow, perform, begin, inTransaction, hclosed, orKeep]
    rw [hbegun]
    exact bounded_opened hclosed htotal
  | append_singleton ops op ih =>
    obtain ⟨source, target, amount, rfl⟩ := htransfers op (by simp)
    have hbounded := ih fun op hop => htransfers op (by simp [hop])
    have hsettleable := (standing_sound hclosed (.begin :: ops)).settleable
    rw [← List.cons_append, standing_concat]
    exact hbounded.transfer hsettleable source target amount

end ConsensusLedger.Ledger
