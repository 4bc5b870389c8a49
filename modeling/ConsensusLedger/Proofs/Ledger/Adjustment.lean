import ConsensusLedger.Ledger.Basic
import ConsensusLedger.Proofs.Table

/-!
Adjustments of balances. Whatever is done to a ledger while a transaction is handled is a sequence
of successful adjustments that take from certain debtors only. Such a sequence leaves the accounts
alone, keeps every gathered change writable, and lowers no balance but a debtor's.
-/

namespace ConsensusLedger

theorem balanceOf?_eq_some_iff {n : Int} {b : UInt64} :
    balanceOf? n = some b ↔ (b.toNat : Int) = n := by
  have hb := b.toNat_lt
  unfold balanceOf?
  split
  · rename_i hn
    constructor
    · intro h
      rw [← Option.some.inj h, UInt64.toNat_ofNat']
      omega
    · rintro rfl
      rw [Int.toNat_natCast, UInt64.ofNat_toNat]
  · rename_i hn
    constructor
    · intro hnone
      cases hnone
    · intro h
      omega

theorem amountOf?_eq_some_iff {n : Int} {d : Int64} : amountOf? n = some d ↔ d.toInt = n := by
  have hlow := d.le_toInt
  have hhigh := d.toInt_lt
  unfold amountOf?
  split
  · rename_i hn
    have hround : (Int64.ofInt n).toInt = n := Int64.toInt_ofInt_of_le hn.1 hn.2
    constructor
    · intro h
      rw [← Option.some.inj h, hround]
    · intro h
      rw [← h, Int64.ofInt_toInt]
  · rename_i hn
    constructor
    · intro hnone
      cases hnone
    · intro h
      omega

theorem balanceOf?_of_range {n : Int} (hlow : 0 ≤ n) (hhigh : n < 0x10000000000000000) :
    ∃ b, balanceOf? n = some b := by
  rw [balanceOf?, if_pos ⟨hlow, hhigh⟩]
  exact ⟨_, rfl⟩

theorem amountOf?_of_range {n : Int} (hlow : -0x8000000000000000 ≤ n)
    (hhigh : n < 0x8000000000000000) : ∃ d, amountOf? n = some d := by
  rw [amountOf?, if_pos ⟨hlow, hhigh⟩]
  exact ⟨_, rfl⟩

/-- The sign of an amount can be turned around. -/
theorem toInt_neg_of_amountOf? {n : Nat} {d : Int64} (h : amountOf? (n : Int) = some d) :
    0 ≤ d.toInt ∧ (-d).toInt = -d.toInt := by
  have hd := amountOf?_eq_some_iff.1 h
  have hbound := d.toInt_lt
  refine ⟨by omega, ?_⟩
  rw [Int64.toInt_neg]
  exact Int.bmod_eq_of_le (by omega) (by omega)

namespace ChangeSet

@[simp] theorem delta_empty (id : AccountId) : delta ∅ id = 0 := rfl

theorem delta_insert (c : ChangeSet) (id : AccountId) (total : Int64) (id' : AccountId) :
    delta (c.insert id total) id' = if id' = id then total else c.delta id' := by
  unfold delta
  rw [Table.get?_insert_of_eq]
  split <;> rfl

end ChangeSet

namespace Ledger

variable {l l' m : Ledger} {id : AccountId} {amount : Int64}

/-- What a successful adjustment takes for granted, and what it leaves. -/
theorem adjust_eq_ok (h : l.adjust id amount = .ok l') :
    ∃ c a total, l.changes = some c ∧ l.account? id = some a ∧
      0 ≤ (a.balance.toNat : Int) + (c.delta id).toInt + amount.toInt ∧
      (a.balance.toNat : Int) + (c.delta id).toInt + amount.toInt < 0x10000000000000000 ∧
      total.toInt = (c.delta id).toInt + amount.toInt ∧
      l' = { l with changes := some (c.insert id total) } := by
  unfold adjust at h
  split at h
  · cases h
  · rename_i balance hbalance
    obtain ⟨a, ha, hrange⟩ := Option.bind_eq_some_iff.1 hbalance
    have hbalance := balanceOf?_eq_some_iff.1 hrange
    simp only at h
    split at h
    · cases h
    · rename_i hlow
      split at h
      · cases h
      · rename_i c hc
        simp only [delta, hc] at hbalance
        split at h
        · cases h
        · rename_i hhigh
          split at h
          · cases h
          · rename_i total htotal
            refine ⟨c, a, total, hc, ha, by omega, by omega, amountOf?_eq_some_iff.1 htotal, ?_⟩
            exact (Except.ok.inj h).symm

/-- An adjustment adds to what its account has changed by, and to no other. -/
theorem delta_adjust (h : l.adjust id amount = .ok l') (id' : AccountId) :
    (l'.delta id').toInt = (l.delta id').toInt + if id' = id then amount.toInt else 0 := by
  obtain ⟨c, a, total, hc, -, -, -, htotal, rfl⟩ := adjust_eq_ok h
  simp only [delta, hc, ChangeSet.delta_insert]
  by_cases hid : id' = id
  · rw [if_pos hid, if_pos hid, hid, htotal]
  · rw [if_neg hid, if_neg hid, Int.add_zero]

theorem accounts_of_adjust (h : l.adjust id amount = .ok l') : l'.accounts = l.accounts := by
  obtain ⟨c, a, total, -, -, -, -, -, rfl⟩ := adjust_eq_ok h
  rfl

theorem inTransaction_of_adjust (h : l.adjust id amount = .ok l') : l'.inTransaction = true := by
  obtain ⟨c, a, total, -, -, -, -, -, rfl⟩ := adjust_eq_ok h
  rfl

theorem account?_congr (h : m.accounts = l.accounts) : m.account? = l.account? := by
  funext id
  rw [account?, h, account?]

/-- Adjusting one account leaves the balances of the others. -/
theorem balance?_adjust_of_ne (h : l.adjust id amount = .ok m) {id' : AccountId} (hne : id' ≠ id) :
    m.balance? id' = l.balance? id' := by
  have hdelta := delta_adjust h id'
  rw [if_neg hne, Int.add_zero] at hdelta
  rw [balance?, balance?, account?_congr (accounts_of_adjust h), hdelta]

/-- The ledgers reached by successful adjustments that take from the debtors only. -/
inductive Adjusted (debtor : AccountId → Prop) (l : Ledger) : Ledger → Prop
  | same : Adjusted debtor l l
  | adjust {m l' : Ledger} {id : AccountId} {amount : Int64} :
      Adjusted debtor l m → (amount.toInt < 0 → debtor id) → m.adjust id amount = .ok l' →
      Adjusted debtor l l'

namespace Adjusted

variable {debtor debtor' : AccountId → Prop}

theorem mono (h : Adjusted debtor l l') (hdebtor : ∀ id, debtor id → debtor' id) :
    Adjusted debtor' l l' := by
  induction h with
  | same => exact .same
  | adjust _ hr ha ih => exact .adjust ih (fun hneg => hdebtor _ (hr hneg)) ha

theorem trans (h : Adjusted debtor l m) (h' : Adjusted debtor m l') : Adjusted debtor l l' := by
  induction h' with
  | same => exact h
  | adjust _ hr ha ih => exact .adjust ih hr ha

theorem accounts_eq (h : Adjusted debtor l l') : l'.accounts = l.accounts := by
  induction h with
  | same => rfl
  | adjust _ _ ha ih => exact (accounts_of_adjust ha).trans ih

theorem inTransaction (h : Adjusted debtor l l') (hl : l.inTransaction = true) :
    l'.inTransaction = true := by
  induction h with
  | same => exact hl
  | adjust _ _ ha _ => exact inTransaction_of_adjust ha

end Adjusted

/-- Every change that the open transaction has gathered can be written: its account exists, and the
balance stays in range. -/
def Settleable (l : Ledger) : Prop :=
  ∀ c, l.changes = some c → ∀ id amount, c.get? id = some amount →
    ∃ a, l.accounts.get? id = some a ∧ 0 ≤ (a.balance.toNat : Int) + amount.toInt ∧
      (a.balance.toNat : Int) + amount.toInt < 0x10000000000000000

/-- Where every gathered change can be written, all balances with their changes are in range. -/
theorem Settleable.range (h : l.Settleable) {a : Account} (ha : l.accounts.get? id = some a) :
    0 ≤ (a.balance.toNat : Int) + (l.delta id).toInt ∧
      (a.balance.toNat : Int) + (l.delta id).toInt < 0x10000000000000000 := by
  have hword := a.balance.toNat_lt
  unfold delta
  cases hc : l.changes with
  | none => simp only [Int64.toInt_zero]; omega
  | some c =>
    simp only [ChangeSet.delta]
    cases hd : c.get? id with
    | none => simp only [Option.getD_none, Int64.toInt_zero]; omega
    | some amount =>
      obtain ⟨b, hb, hrange⟩ := h c hc id amount hd
      cases ha.symm.trans hb
      exact hrange

/-- Only the accounts in question have lost anything in the open transaction. -/
def DebitsOnly (debtor : AccountId → Prop) (l : Ledger) : Prop :=
  ∀ id, (l.delta id).toInt < 0 → debtor id

theorem settleable_opened (accounts : Collection AccountId Account) :
    Settleable ⟨accounts, some ∅⟩ := by
  rintro c ⟨⟩ id amount h
  cases h

theorem debitsOnly_opened (accounts : Collection AccountId Account) (debtor : AccountId → Prop) :
    DebitsOnly debtor ⟨accounts, some ∅⟩ := by
  intro id h
  simp only [delta, ChangeSet.delta_empty] at h
  exact absurd h (by decide)

theorem Settleable.adjust (hl : l.Settleable) (h : l.adjust id amount = .ok l') :
    l'.Settleable := by
  obtain ⟨c, a, total, hc, ha, hlow, hhigh, htotal, rfl⟩ := adjust_eq_ok h
  rintro c' ⟨⟩ id' amount' h'
  rw [Table.get?_insert_of_eq] at h'
  split at h'
  · rename_i heq
    subst heq
    cases h'
    exact ⟨a, (Option.filter_eq_some_iff.1 ha).1, by omega, by omega⟩
  · exact hl c hc id' amount' h'

theorem Adjusted.settleable {debtor : AccountId → Prop} (h : Adjusted debtor l l')
    (hl : l.Settleable) : l'.Settleable := by
  induction h with
  | same => exact hl
  | adjust _ _ ha ih => exact ih.adjust ha

theorem Adjusted.debitsOnly {debtor : AccountId → Prop} (h : Adjusted debtor l l')
    (hl : l.DebitsOnly debtor) : l'.DebitsOnly debtor := by
  induction h with
  | same => exact hl
  | adjust _ hr ha ih =>
    rename_i m l' id amount _
    obtain ⟨c, a, total, hc, -, -, -, htotal, rfl⟩ := adjust_eq_ok ha
    intro id' hneg
    simp only [delta, ChangeSet.delta_insert] at hneg
    split at hneg
    · rename_i heq
      subst heq
      by_cases hamount : amount.toInt < 0
      · exact hr hamount
      · apply ih id'
        simp only [delta, hc]
        omega
    · apply ih id'
      simpa only [delta, hc] using hneg

end Ledger

end ConsensusLedger
