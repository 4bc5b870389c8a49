import ConsensusLedger.Proofs.Ledger.Settlement
import ConsensusLedger.Transition.Transfer
import Mathlib.Algebra.BigOperators.Ring.Finset
import Mathlib.Algebra.Order.BigOperators.Group.Finset

/-!
The supply of a ledger. While every balance in the open transaction is non-negative and they add up
to what is committed, no balance exceeds the supply; so as long as the supply is an amount, nothing
that moves coins from account to account overflows, and nothing is lost half-way.
-/

namespace ConsensusLedger

open Transition (netAmount transferFailure adjustAll transferSyntax)

/-- The largest amount. -/
def AccountAmount.maximum : Nat := 0x7fffffffffffffff

namespace AccountAmount

/-- What is listed for all accounts adds up to the net amount. -/
theorem sum_sumFor {accounts : Finset AccountId} {xs : List AccountAmount}
    (h : ∀ x ∈ xs, x.account ∈ accounts) :
    ∑ id ∈ accounts, sumFor id xs = netAmount xs := by
  induction xs with
  | nil => simp only [sumFor, netAmount, List.foldr_nil, Finset.sum_const_zero]
  | cons x xs ih =>
    have hrest := ih fun y hy => h y (List.mem_cons_of_mem x hy)
    have hx := h x List.mem_cons_self
    simp only [sumFor, Finset.sum_add_distrib, Finset.sum_ite_eq, hx, ↓reduceIte, hrest]
    rfl

/-- Where no account is listed twice, each is listed with one amount. -/
theorem sumFor_of_nodup {xs : List AccountAmount} (h : (xs.map (·.account)).Nodup)
    {x : AccountAmount} (hx : x ∈ xs) : sumFor x.account xs = x.amount.toInt := by
  induction xs with
  | nil => cases hx
  | cons y ys ih =>
    obtain ⟨hy, hys⟩ := List.nodup_cons.1 h
    rw [sumFor]
    rcases List.mem_cons.1 hx with rfl | hx
    · have hothers : sumFor x.account ys = 0 := by
        apply sumFor_eq_zero
        intro z hz heq
        exact hy (List.mem_map.2 ⟨z, hz, heq⟩)
      rw [if_pos rfl, hothers, Int.add_zero]
    · have hne : y.account ≠ x.account := by
        intro heq
        exact hy (List.mem_map.2 ⟨x, hx, heq.symm⟩)
      rw [if_neg hne, ih hys hx, Int.zero_add]

end AccountAmount

namespace Ledger

/-- The accounts of a ledger, deleted ones included. -/
def holders (l : Ledger) : Finset AccountId := (l.accounts.entries.map (·.1)).toFinset

/-- The sum of all committed balances. -/
def supply (l : Ledger) : Nat := (l.accounts.entries.map fun e => e.2.balance.toNat).sum

/-- The balance of an account with what the open transaction has changed. -/
def afloat (l : Ledger) (id : AccountId) : Int :=
  (l.committedBalance? id).getD 0 + (l.delta id).toInt

/-- The sum of all balances with what the open transaction has changed. -/
def circulation (l : Ledger) : Int := ∑ id ∈ l.holders, l.afloat id

variable {l m : Ledger} {id : AccountId} {amount : Int64}

theorem mem_holders : id ∈ l.holders ↔ ∃ a, l.accounts.get? id = some a := by
  simp only [holders, List.mem_toFinset, List.mem_map]
  constructor
  · rintro ⟨e, he, rfl⟩
    exact ⟨e.2, l.accounts.table.get?_eq_some_iff.2 he⟩
  · rintro ⟨a, ha⟩
    exact ⟨(id, a), l.accounts.table.get?_eq_some_iff.1 ha, rfl⟩

theorem mem_holders_of_committedBalance? : id ∈ l.holders ↔ (l.committedBalance? id).isSome := by
  rw [mem_holders, committedBalance?, Option.isSome_map, Option.isSome_iff_exists]

/-- The supply as a sum over the accounts. -/
theorem supply_eq (l : Ledger) :
    (l.supply : Int) = ∑ id ∈ l.holders, (l.committedBalance? id).getD 0 := by
  have hdistinct : (l.accounts.entries.map (·.1)).Nodup :=
    List.pairwise_map.2 (l.accounts.table.ascending.imp fun h => Table.ne_of_compare_lt h)
  have hvalues : l.accounts.entries.map (fun e => (e.2.balance.toNat : Int)) =
      (l.accounts.entries.map (·.1)).map fun id => (l.committedBalance? id).getD 0 := by
    rw [List.map_map]
    refine List.map_congr_left fun e he => ?_
    have hfound : l.accounts.get? e.1 = some e.2 := l.accounts.table.get?_eq_some_iff.2 he
    simp only [Function.comp_apply, committedBalance?, hfound, Option.map_some, Option.getD_some]
  rw [holders, List.sum_toFinset _ hdistinct, ← hvalues, supply, Nat.cast_list_sum, List.map_map]
  rfl

/-- A ledger whose balances have moved by what is listed has moved its supply by the net amount. -/
theorem supply_of_committedBalance? {xs : List AccountAmount}
    (h : ∀ id, m.committedBalance? id =
      (l.committedBalance? id).map (· + AccountAmount.sumFor id xs))
    (hxs : ∀ x ∈ xs, x.account ∈ l.holders) : (m.supply : Int) = l.supply + netAmount xs := by
  have hholders : m.holders = l.holders := by
    ext id
    rw [mem_holders_of_committedBalance?, mem_holders_of_committedBalance?, h, Option.isSome_map]
  rw [supply_eq, supply_eq, hholders, ← AccountAmount.sum_sumFor hxs, ← Finset.sum_add_distrib]
  refine Finset.sum_congr rfl fun id hid => ?_
  obtain ⟨b, hb⟩ := Option.isSome_iff_exists.1 (mem_holders_of_committedBalance?.1 hid)
  rw [h, hb, Option.map_some, Option.getD_some, Option.getD_some]

/-- What an adjustment does to the balances afloat. -/
theorem afloat_adjust (h : l.adjust id amount = .ok m) (id' : AccountId) :
    m.afloat id' = l.afloat id' + if id' = id then amount.toInt else 0 := by
  obtain ⟨c, a, total, hc, -, -, -, htotal, rfl⟩ := adjust_eq_ok h
  simp only [afloat, committedBalance?, delta, hc, ChangeSet.delta_insert]
  split
  · rename_i heq
    rw [heq, htotal]
    omega
  · omega

theorem circulation_adjust (h : l.adjust id amount = .ok m) :
    m.circulation = l.circulation + amount.toInt := by
  have hid : id ∈ l.holders := by
    obtain ⟨c, a, total, -, ha, -⟩ := adjust_eq_ok h
    exact mem_holders.2 ⟨a, (Option.filter_eq_some_iff.1 ha).1⟩
  have hholders : m.holders = l.holders := by
    obtain ⟨c, a, total, -, -, -, -, -, rfl⟩ := adjust_eq_ok h
    rfl
  rw [circulation, hholders, circulation]
  simp only [afloat_adjust h, Finset.sum_add_distrib, Finset.sum_ite_eq', hid, ↓reduceIte]

end Ledger

end ConsensusLedger
