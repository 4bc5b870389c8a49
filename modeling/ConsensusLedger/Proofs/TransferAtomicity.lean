import ConsensusLedger.Proofs.Ledger.Operation
import ConsensusLedger.Proofs.Ledger.Overflow
import ConsensusLedger.Proofs.Ledger.Payment

/-!
Atomicity of transfers. A transfer moves its amount or is refused, and a refusal leaves the ledger as it
was with one exception: the credit is refused after the debit, and nothing gives the debit back.
-/

namespace ConsensusLedger.Ledger

/-- The ledger with an amount taken from an account and given to none. -/
structure Takes (l : Ledger) (source : AccountId) (amount : Nat) (m : Ledger) : Prop where
  accounts : m.accounts = l.accounts
  delta : ∀ id, (m.delta id).toInt = (l.delta id).toInt - if id = source then (amount : Int) else 0
  funds : ∀ id, m.funds? id = (l.funds? id).map (· - if id = source then (amount : Int) else 0)

variable {l m : Ledger} {source target : AccountId} {amount : UInt64}

theorem takes_of_debit {d : Int64} (hamount : amountOf? amount.toNat = some d)
    (h : l.adjust source (-d) = .ok m) : l.Takes source amount.toNat m := by
  have hvalue : (-d).toInt = -amount.toNat := by
    rw [(toInt_neg_of_amountOf? hamount).2, amountOf?_eq_some_iff.1 hamount]
  refine ⟨accounts_of_adjust h, fun id => ?_, fun id => ?_⟩
  · rw [delta_adjust h, hvalue]
    split <;> omega
  · rw [funds?_adjust h, hvalue]
    refine congrArg (Option.map · (l.funds? id)) (funext fun n => ?_)
    split <;> omega

/-- A transfer whose target alone cannot take the amount stops after the debit, with an overflow. -/
theorem Overfills.stops (h : l.Overfills source target amount)
    {done : Except LedgerError Unit × Ledger} (hconveyed : Conveyed l source target amount done) :
    l.Takes source amount.toNat done.2 ∧ ∀ b, l.balance? target = some b →
      done.1 = .error (.overflow target b (Int64.ofInt amount.toNat)) := by
  obtain ⟨⟨hpositive, hne⟩, haffords, hexcess⟩ := h
  cases hconveyed with
  | idle hzero => simp [hzero] at hpositive
  | refused hnonzero hrefused =>
    exact (not_affords_of_refused hrefused haffords).elim
  | halfway hnonzero hamount hcontains htaken hrefused =>
    refine ⟨takes_of_debit hamount htaken, fun b hb => ?_⟩
    have hvalue := amountOf?_eq_some_iff.1 hamount
    rw [← balance?_adjust_of_ne htaken hne.symm] at hb
    have hoverflow := adjust_overflows (inTransaction_of_adjust htaken) hb (by omega) hrefused
    rw [hoverflow, ← hvalue, Int64.ofInt_toInt]
  | paid hnonzero hamount hcontains htaken hgiven =>
    exact (((credit_eq_ok_iff hamount htaken).1 ⟨_, hgiven⟩).elim hne hexcess).elim

/-- A transfer that goes through moves its amount and leaves all else. A transfer that is refused
changes the ledger exactly when its source can pay and only its target cannot take the amount; the
debit is made then, and the answer is an overflow of the target. -/
theorem transfer_atomic_unless_overfilled (l : Ledger) (source target : AccountId)
    (amount : UInt64) :
    let done := l.transfer source target amount
    (done.1 = .ok () → l.Pays [⟨source, target, amount.toNat⟩] done.2) ∧
    (((∃ e, done.1 = .error e) ∧ done.2 ≠ l) ↔ l.Overfills source target amount) ∧
    (l.Overfills source target amount → l.Takes source amount.toNat done.2 ∧
      ∀ b, l.balance? target = some b →
        done.1 = .error (.overflow target b (Int64.ofInt amount.toNat))) := by
  have hconveyed := l.transfer_conveyed source target amount
  exact ⟨hconveyed.pays, hconveyed.changes_iff, fun hoverfills => hoverfills.stops hconveyed⟩

/-- A transfer to an account that has the largest balance there is fails, and its source is debited. -/
theorem refused_transfer_debits :
    let l := ((ofAccounts [(.ofNum 2, ⟨100, default, false⟩),
      (.ofNum 3, ⟨0xffffffffffffffff, default, false⟩)]).standing [.begin]).current
    let done := l.transfer (.ofNum 2) (.ofNum 3) 40
    done.1 = .error (.overflow (.ofNum 3) 0xffffffffffffffff 40) ∧
      l.balance? (.ofNum 2) = some 100 ∧ l.netTransfers = [] ∧
      done.2.balance? (.ofNum 2) = some 60 ∧ done.2.netTransfers = [⟨.ofNum 2, -40⟩] := by
  decide +kernel

end ConsensusLedger.Ledger
