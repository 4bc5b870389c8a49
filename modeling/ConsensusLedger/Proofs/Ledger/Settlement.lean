import ConsensusLedger.Proofs.Ledger.Adjustment

/-!
Settlement. The commit of gathered changes that can all be written writes every one of them and
nothing else, and the net transfers list the same changes: in account order, without zeros, and with
each account's entries adding up to its change.
-/

namespace ConsensusLedger

/-- The account once a change of its balance is written. -/
def Account.shift (a : Account) (amount : Int64) : Account :=
  { a with balance := (balanceOf? (a.balance.toNat + amount.toInt)).getD a.balance }

namespace Account

@[simp] theorem shift_key (a : Account) (amount : Int64) : (a.shift amount).key = a.key := rfl

@[simp] theorem shift_deleted (a : Account) (amount : Int64) :
    (a.shift amount).deleted = a.deleted := rfl

@[simp] theorem shift_zero (a : Account) : a.shift 0 = a := by
  have h : balanceOf? (a.balance.toNat + (0 : Int64).toInt) = some a.balance := by
    rw [balanceOf?_eq_some_iff, Int64.toInt_zero]
    omega
  rw [shift, h, Option.getD_some]

theorem shift_balance {a : Account} {amount : Int64}
    (hlow : 0 ≤ (a.balance.toNat : Int) + amount.toInt)
    (hhigh : (a.balance.toNat : Int) + amount.toInt < 0x10000000000000000) :
    ((a.shift amount).balance.toNat : Int) = a.balance.toNat + amount.toInt := by
  obtain ⟨b, hb⟩ := balanceOf?_of_range hlow hhigh
  rw [shift, hb, Option.getD_some]
  exact balanceOf?_eq_some_iff.1 hb

end Account

/-- What the entries for an account add up to. -/
def AccountAmount.sumFor (id : AccountId) : List AccountAmount → Int
  | [] => 0
  | a :: rest => (if a.account = id then a.amount.toInt else 0) + sumFor id rest

namespace AccountAmount

theorem sumFor_append (id : AccountId) (xs ys : List AccountAmount) :
    sumFor id (xs ++ ys) = sumFor id xs + sumFor id ys := by
  induction xs with
  | nil => simp only [List.nil_append, sumFor, Int.zero_add]
  | cons x xs ih => simp only [List.cons_append, sumFor, ih, Int.add_assoc]

theorem sumFor_eq_zero {id : AccountId} {xs : List AccountAmount}
    (h : ∀ x ∈ xs, x.account ≠ id) : sumFor id xs = 0 := by
  induction xs with
  | nil => rfl
  | cons x xs ih =>
    rw [sumFor, if_neg (h x List.mem_cons_self), ih fun y hy => h y (List.mem_cons_of_mem x hy),
      Int.add_zero]

end AccountAmount

namespace ChangeSet

variable (c : ChangeSet)

theorem mem_net {a : AccountAmount} : a ∈ c.net ↔ a.amount ≠ 0 ∧ c.get? a.account = some a.amount := by
  rw [Table.get?_eq_some_iff]
  simp only [net, List.mem_map, List.mem_filter, decide_eq_true_eq]
  constructor
  · rintro ⟨e, ⟨he, hne⟩, rfl⟩
    exact ⟨hne, he⟩
  · rintro ⟨hne, ha⟩
    exact ⟨(a.account, a.amount), ⟨ha, hne⟩, rfl⟩

theorem net_increasing : c.net.Pairwise fun a b => compare a.account b.account = .lt :=
  List.pairwise_map.2 (c.ascending.filter _)

theorem delta_of_mem_net {a : AccountAmount} (h : a ∈ c.net) : c.delta a.account = a.amount := by
  rw [delta, (c.mem_net.1 h).2, Option.getD_some]

/-- The net entries for an account add up to its change. -/
theorem sumFor_net (id : AccountId) : AccountAmount.sumFor id c.net = (c.delta id).toInt := by
  obtain ⟨entries, ascending⟩ := c
  simp only [net, delta, Table.get?]
  induction entries with
  | nil => rfl
  | cons e rest ih =>
    obtain ⟨hhead, hrest⟩ := List.pairwise_cons.1 ascending
    specialize ih hrest
    simp only [Table.lookup, Std.LawfulEqCmp.compare_eq_iff_eq]
    by_cases hid : id = e.1
    · subst hid
      -- Later entries are for other accounts, because the accounts ascend.
      have hothers : AccountAmount.sumFor e.1
          ((rest.filter fun e => e.2 ≠ 0).map fun e => ⟨e.1, e.2⟩) = 0 := by
        apply AccountAmount.sumFor_eq_zero
        intro x hx heq
        obtain ⟨f, hf, rfl⟩ := List.mem_map.1 hx
        exact Table.ne_of_compare_lt (hhead f (List.mem_filter.1 hf).1) heq.symm
      rw [if_pos rfl, Option.getD_some]
      by_cases hzero : e.2 = 0
      · rw [List.filter_cons_of_neg (by simpa using hzero), hothers, hzero, Int64.toInt_zero]
      · rw [List.filter_cons_of_pos (by simpa using hzero), List.map_cons, AccountAmount.sumFor,
          hothers, if_pos rfl, Int.add_zero]
    · rw [if_neg hid]
      by_cases hzero : e.2 = 0
      · rw [List.filter_cons_of_neg (by simpa using hzero), ih]
      · rw [List.filter_cons_of_pos (by simpa using hzero), List.map_cons, AccountAmount.sumFor,
          if_neg (Ne.symm hid), Int.zero_add, ih]

end ChangeSet

namespace Ledger

variable {l : Ledger}

/-- Writing changes for distinct accounts, each of which can be written, writes them all. -/
theorem settleAll_eq_ok {entries : List (AccountId × Int64)}
    (hdistinct : entries.Pairwise fun a b => compare a.1 b.1 = .lt)
    (accounts : Collection AccountId Account)
    (h : ∀ e ∈ entries, ∃ a, accounts.get? e.1 = some a ∧
      0 ≤ (a.balance.toNat : Int) + e.2.toInt ∧
      (a.balance.toNat : Int) + e.2.toInt < 0x10000000000000000) :
    ∃ settled, settleAll accounts entries = (.ok (), settled) ∧ ∀ id, settled.get? id =
      (accounts.get? id).map (·.shift ((Table.lookup id entries).getD 0)) := by
  induction entries generalizing accounts with
  | nil =>
    refine ⟨accounts, rfl, fun id => ?_⟩
    simp only [Table.lookup, Option.getD_none, Account.shift_zero, Option.map_id']
  | cons e rest ih =>
    obtain ⟨hhead, hrest⟩ := List.pairwise_cons.1 hdistinct
    obtain ⟨a, ha, hlow, hhigh⟩ := h e List.mem_cons_self
    obtain ⟨written, hwritten, hview⟩ : ∃ written, settle accounts e.1 e.2 = .ok written ∧
        ∀ id, written.get? id = if id = e.1 then some (a.shift e.2) else accounts.get? id := by
      unfold settle
      by_cases hzero : e.2 = 0
      · refine ⟨accounts, if_pos hzero, fun id => ?_⟩
        split
        · rename_i hid
          rw [hid, ha, hzero, Account.shift_zero]
        · rfl
      · rw [if_neg hzero, ha]
        have hshift : balanceOf? (a.balance.toNat + e.2.toInt) = some (a.shift e.2).balance :=
          balanceOf?_eq_some_iff.2 (Account.shift_balance hlow hhigh)
        simp only [hshift]
        exact ⟨_, rfl, fun id => Collection.get?_put accounts e.1 _ id⟩
    obtain ⟨settled, hsettled, hafter⟩ := ih hrest written (by
      intro f hf
      have hne : f.1 ≠ e.1 := (Table.ne_of_compare_lt (hhead f hf)).symm
      rw [hview, if_neg hne]
      exact h f (List.mem_cons_of_mem e hf))
    refine ⟨settled, ?_, fun id => ?_⟩
    · simp only [settleAll, hwritten, hsettled]
    · rw [hafter, hview]
      simp only [Table.lookup, Std.LawfulEqCmp.compare_eq_iff_eq]
      split
      · rename_i hid
        subst hid
        have hnone : Table.lookup e.1 rest = none := by
          rw [Option.eq_none_iff_forall_not_mem]
          intro v hv
          exact Table.ne_of_compare_lt (hhead _ ((Table.lookup_eq_some_iff hrest).1 hv)) rfl
        rw [hnone, ha, Option.getD_none, Option.getD_some, Option.map_some, Option.map_some,
          Account.shift_zero]
      · rfl

/-- The commit of a settleable ledger writes each account's change and closes the transaction. -/
theorem commit_eq_ok (h : l.Settleable) (hopen : l.inTransaction = true) :
    ∃ accounts, l.commit = (.ok (), ⟨accounts, none⟩) ∧
      ∀ id, accounts.get? id = (l.accounts.get? id).map (·.shift (l.delta id)) := by
  obtain ⟨c, hc⟩ := Option.isSome_iff_exists.1 hopen
  obtain ⟨settled, hsettled, hview⟩ := settleAll_eq_ok c.ascending l.accounts (by
    rintro ⟨id, amount⟩ he
    exact h c hc id amount ((c.get?_eq_some_iff).2 he))
  refine ⟨settled, ?_, fun id => ?_⟩
  · simp only [commit, hc, hsettled]
  · rw [hview, delta, hc]
    rfl

/-- An account's balance as the ledger has committed it. -/
def committedBalance? (l : Ledger) (id : AccountId) : Option Int :=
  (l.accounts.get? id).map fun a => (a.balance.toNat : Int)

theorem netTransfers_increasing (l : Ledger) :
    l.netTransfers.Pairwise fun a b => compare a.account b.account = .lt := by
  unfold netTransfers
  split
  · exact ChangeSet.net_increasing _
  · exact .nil

theorem netTransfers_ne_zero (l : Ledger) : ∀ a ∈ l.netTransfers, a.amount ≠ 0 := by
  intro a ha
  unfold netTransfers at ha
  split at ha
  · exact ((ChangeSet.mem_net _).1 ha).1
  · cases ha

theorem delta_of_mem_netTransfers {a : AccountAmount} (ha : a ∈ l.netTransfers) :
    l.delta a.account = a.amount := by
  unfold netTransfers at ha
  unfold delta
  split at ha
  · rename_i c hc
    exact c.delta_of_mem_net ha
  · cases ha

theorem sumFor_netTransfers (l : Ledger) (id : AccountId) :
    AccountAmount.sumFor id l.netTransfers = (l.delta id).toInt := by
  unfold netTransfers delta
  split
  · exact ChangeSet.sumFor_net _ id
  · rfl

/-- The commit of a settleable ledger changes every balance by what the net transfers say. -/
theorem committedBalance?_commit (m : Ledger) (h : l.Settleable)
    (hview : ∀ id, m.accounts.get? id = (l.accounts.get? id).map (·.shift (l.delta id)))
    (id : AccountId) :
    m.committedBalance? id =
      (l.committedBalance? id).map (· + AccountAmount.sumFor id l.netTransfers) := by
  rw [sumFor_netTransfers]
  simp only [committedBalance?, hview, Option.map_map]
  cases ha : l.accounts.get? id with
  | none => rfl
  | some a =>
    obtain ⟨hlow, hhigh⟩ := h.range ha
    simp only [Option.map_some, Function.comp_apply, Option.some.injEq]
    exact Account.shift_balance hlow hhigh

end Ledger

end ConsensusLedger
