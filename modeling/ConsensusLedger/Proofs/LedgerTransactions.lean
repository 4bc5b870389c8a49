import ConsensusLedger.Proofs.Ledger.Operation

/-!
Transactions of a ledger. Whatever a ledger has been asked, an open transaction is a view of the
balances that the commit makes permanent, all of it and without fail, and that the rollback forgets.
-/

namespace ConsensusLedger.Ledger

/-- After any operations on any accounts, exactly the usable accounts have a balance. While a
transaction is open, an adjustment of a balance applies if and only if the balance stays a word and the
accumulated change an amount; the commit succeeds and leaves every balance as it is, which is the
balance last committed with the net transfers; the rollback restores the ledger last committed; and
another transaction is refused. -/
theorem commit_publishes_balances (accounts : List (AccountId × Account)) (ops : List Operation) :
    let s := (ofAccounts accounts).standing ops
    let l := s.current
    (∀ id, (l.balance? id).isSome = true ↔
      ∃ a, accounts.reverse.lookup id = some a ∧ a.deleted = false) ∧
    (l.inTransaction = true →
      (∀ id amount b, l.balance? id = some b →
        ((l.perform (.adjust id amount)).1 = .ok () ↔
          (0 ≤ (b.toNat : Int) + amount.toInt ∧
            (b.toNat : Int) + amount.toInt ≤ 0xffffffffffffffff) ∧
          -0x8000000000000000 ≤ (l.delta id).toInt + amount.toInt ∧
            (l.delta id).toInt + amount.toInt ≤ 0x7fffffffffffffff)) ∧
      (∃ m, l.perform .commit = (.ok (), m) ∧ m.inTransaction = false ∧
        ∀ id, m.balance? id = l.balance? id ∧
          m.funds? id =
            (s.committed.funds? id).map (· + AccountAmount.sumFor id l.netTransfers)) ∧
      l.perform .rollback = (.ok (), s.committed) ∧
      l.perform .begin = (.error .transactionAlreadyActive, l)) := by
  intro s l
  have hsound : s.Sound (ofAccounts accounts) := standing_sound (changes_ofAccounts accounts) ops
  refine ⟨fun id => ?_, fun hopen => ⟨fun id amount b hb => ?_, ?_, ?_, ?_⟩⟩
  · rw [hsound.settleable.isSome_balance?, hsound.contains, contains_iff, get?_ofAccounts]
  · have hfunds : l.funds? id = some (b.toNat : Int) := funds?_eq_some_iff.2 ⟨b, hb, rfl⟩
    rw [perform, orKeep_eq_ok, adjust_eq_ok_iff]
    constructor
    · rintro ⟨-, ⟨n, hn, hbalance⟩, hchange⟩
      cases hfunds.symm.trans hn
      exact ⟨hbalance, hchange⟩
    · rintro ⟨hbalance, hchange⟩
      exact ⟨hopen, ⟨_, hfunds, hbalance⟩, hchange⟩
  · obtain ⟨m, hcommit, hclosed, hview, -⟩ := hsound.commit_eq hopen
    refine ⟨m, hcommit, by simp [inTransaction, hclosed], fun id => ?_⟩
    refine ⟨balance?_inj.2 (hview id), ?_⟩
    have hnone : s.committed.delta id = 0 := by simp [delta, hsound.closed]
    rw [hview, hsound.settleable.funds?_eq, (settleable_of_closed hsound.closed).funds?_eq, hnone,
      account?_congr hsound.accounts, sumFor_netTransfers]
    simp [Function.comp_def, l]
  · rw [perform, hsound.rollback_eq]
  · simp only [perform, begin, hopen]
    rfl

/-- Some coins are moved, more is asked for than there is, and some coins are added. -/
theorem commit_publishes_balances_moved :
    let s := (ofAccounts [(.ofNum 2, ⟨100, default, false⟩), (.ofNum 3, ⟨5, default, false⟩)]).standing
      [.begin, .transfer (.ofNum 2) (.ofNum 3) 40, .transfer (.ofNum 3) (.ofNum 2) 1000,
        .adjust (.ofNum 2) 7]
    s.current.netTransfers = [⟨.ofNum 2, -33⟩, ⟨.ofNum 3, 40⟩] ∧
      s.current.perform .rollback = (.ok (), s.committed) ∧
      ∃ m, s.current.perform .commit = (.ok (), m) ∧ m.balance? (.ofNum 2) = some 67 ∧
        m.balance? (.ofNum 3) = some 45 := by
  intro s
  have hopen : s.current.inTransaction = true := by decide +kernel
  obtain ⟨-, hpublishes⟩ := commit_publishes_balances
    [(.ofNum 2, ⟨100, default, false⟩), (.ofNum 3, ⟨5, default, false⟩)]
    [.begin, .transfer (.ofNum 2) (.ofNum 3) 40, .transfer (.ofNum 3) (.ofNum 2) 1000,
      .adjust (.ofNum 2) 7]
  obtain ⟨-, ⟨m, hcommit, -, hview⟩, hrollback, -⟩ := hpublishes hopen
  refine ⟨by decide +kernel, hrollback, m, hcommit, ?_, ?_⟩
  · rw [(hview _).1]
    decide +kernel
  · rw [(hview _).1]
    decide +kernel

end ConsensusLedger.Ledger
