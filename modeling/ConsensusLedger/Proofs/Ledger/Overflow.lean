import ConsensusLedger.Proofs.Ledger.Solvency

/-!
How a checked transfer list can fail. The check has looked at each account before any was adjusted, and
as no account is listed twice the adjustments of the others leave what it has seen; so only an overflow
can refuse one.
-/

namespace ConsensusLedger.Ledger

open Transition (transferFailure adjustAll)

variable {l m : Ledger} {id : AccountId} {amount : Int64} {xs : List AccountAmount} {e : LedgerError}

/-- An adjustment that leaves a balance, in an open transaction, is refused for an overflow only. -/
theorem adjust_overflows {balance : UInt64} (hopen : l.inTransaction = true)
    (hbalance : l.balance? id = some balance) (henough : 0 ≤ (balance.toNat : Int) + amount.toInt)
    (h : l.adjust id amount = .error e) : e = .overflow id balance amount := by
  obtain ⟨c, hc⟩ := Option.isSome_iff_exists.1 hopen
  simp only [adjust, hbalance, hc, Int.not_lt.2 henough, ↓reduceIte] at h
  split at h
  · exact (Except.error.inj h).symm
  · split at h
    · exact (Except.error.inj h).symm
    · cases h

/-- The check of a transfer list reads the listed balances only. -/
theorem transferFailure_congr (h : ∀ x ∈ xs, m.balance? x.account = l.balance? x.account) :
    transferFailure m xs = transferFailure l xs := by
  induction xs with
  | nil => rfl
  | cons x xs ih =>
    obtain ⟨hx, hxs⟩ := List.forall_mem_cons.1 h
    simp only [transferFailure, hx, ih hxs]

/-- The adjustments of a checked list of different accounts fail for an overflow only. -/
theorem adjustAll_overflows (hopen : l.inTransaction = true)
    (hdistinct : (xs.map (·.account)).Nodup) (hfailure : transferFailure l xs = none)
    (h : (adjustAll l xs).1 = .error e) :
    ∃ x ∈ xs, ∃ balance, e = .overflow x.account balance x.amount := by
  induction xs generalizing l with
  | nil => cases h
  | cons x xs ih =>
    obtain ⟨hx, hxs⟩ := List.nodup_cons.1 hdistinct
    rw [transferFailure] at hfailure
    split at hfailure
    · cases hfailure
    · rename_i balance hbalance
      split at hfailure
      · cases hfailure
      · rename_i henough
        rw [adjustAll] at h
        cases hadjust : l.adjust x.account x.amount with
        | error e' =>
          rw [hadjust] at h
          cases h
          exact ⟨x, List.mem_cons_self, balance,
            adjust_overflows hopen hbalance (Int.not_lt.1 henough) hadjust⟩
        | ok m =>
          rw [hadjust] at h
          have hothers : ∀ y ∈ xs, m.balance? y.account = l.balance? y.account := by
            intro y hy
            refine balance?_adjust_of_ne hadjust fun hsame => ?_
            exact hx (List.mem_map.2 ⟨y, hy, hsame⟩)
          obtain ⟨y, hy, hoverflow⟩ := ih (inTransaction_of_adjust hadjust) hxs
            ((transferFailure_congr hothers).trans hfailure) h
          exact ⟨y, List.mem_cons_of_mem x hy, hoverflow⟩

end ConsensusLedger.Ledger
