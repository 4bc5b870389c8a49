import ConsensusLedger.Proofs.Fee.Charging
import ConsensusLedger.Proofs.Ledger.Settlement
import Mathlib.Data.List.Induction

/-!
Operations on a ledger, in any order. Beside the ledger as it stands, a run keeps the ledger as it
stood when no transaction was last open: the two have the same accounts, and a transaction that is
open has gathered changes that can all be written.
-/

namespace ConsensusLedger.Ledger

/-- What can be asked of a ledger. -/
inductive Operation where
  | begin
  | adjust (id : AccountId) (amount : Int64)
  | transfer (source target : AccountId) (amount : UInt64)
  | commit
  | rollback
  deriving DecidableEq, Repr

/-- The answer to an operation that gives a ledger or an error, and the ledger after it. -/
def orKeep (l : Ledger) : Except LedgerError Ledger → Except LedgerError Unit × Ledger
  | .ok m => (.ok (), m)
  | .error e => (.error e, l)

/-- The answer to an operation, and the ledger after it. -/
def perform (l : Ledger) : Operation → Except LedgerError Unit × Ledger
  | .begin => l.orKeep l.begin
  | .adjust id amount => l.orKeep (l.adjust id amount)
  | .transfer source target amount => l.transfer source target amount
  | .commit => l.commit
  | .rollback => (.ok (), l.rollback)

/-- A ledger in the course of operations. -/
structure Standing where
  /-- The ledger as it was when no transaction was last open. -/
  committed : Ledger
  current : Ledger

/-- The ledger now stands as given. -/
def Standing.follow (s : Standing) (l : Ledger) : Standing :=
  ⟨if l.inTransaction then s.committed else l, l⟩

def Standing.step (s : Standing) (op : Operation) : Standing := s.follow (s.current.perform op).2

/-- What operations make of a ledger. -/
def standing (l : Ledger) (ops : List Operation) : Standing := ops.foldl .step ⟨l, l⟩

/-- The ledgers that operations can make of any accounts. -/
def Reached (l : Ledger) : Prop :=
  ∃ accounts ops, l = ((ofAccounts accounts).standing ops).current

variable {l m : Ledger} {id : AccountId}

theorem standing_concat (l : Ledger) (ops : List Operation) (op : Operation) :
    l.standing (ops ++ [op]) = (l.standing ops).step op := by
  simp [standing]

theorem orKeep_eq_ok {r : Except LedgerError Ledger} :
    (l.orKeep r).1 = .ok () ↔ ∃ m, r = .ok m := by
  cases r <;> simp [orKeep]

theorem contains_iff : l.contains id = true ↔
    ∃ a, l.accounts.get? id = some a ∧ a.deleted = false := by
  cases ha : l.accounts.get? id <;> simp [contains, account?, ha]

theorem table_ofAccounts (accounts : List (AccountId × Account)) :
    (ofAccounts accounts).accounts.table = Table.ofList accounts := by
  induction accounts using List.reverseRecOn with
  | nil => rfl
  | append_singleton accounts a ih =>
    simp only [ofAccounts, Table.ofList, List.foldl_append, List.foldl_cons, List.foldl_nil] at ih ⊢
    rw [create, Collection.put, ih]

/-- The last account listed under an identifier is the one that is installed. -/
theorem get?_ofAccounts (accounts : List (AccountId × Account)) (id : AccountId) :
    (ofAccounts accounts).accounts.get? id = accounts.reverse.lookup id := by
  rw [Collection.get?, table_ofAccounts, Table.get?_ofList]

theorem changes_ofAccounts (accounts : List (AccountId × Account)) :
    (ofAccounts accounts).changes = none := by
  induction accounts using List.reverseRecOn with
  | nil => rfl
  | append_singleton accounts a ih =>
    simp only [ofAccounts, List.foldl_append, List.foldl_cons, List.foldl_nil] at ih ⊢
    exact ih

/-- Nothing can be adjusted while no transaction is open. -/
theorem Adjusted.eq_of_closed {debtor : AccountId → Prop} (h : Adjusted debtor l m)
    (hclosed : l.inTransaction = false) : m = l := by
  induction h with
  | same => rfl
  | adjust _ _ ha ih =>
    obtain ⟨hopen, -⟩ := adjust_eq_ok_iff.1 ⟨_, ha⟩
    rw [ih, hclosed] at hopen
    cases hopen

theorem settleable_of_closed (h : l.changes = none) : l.Settleable := by
  intro c hc
  cases h.symm.trans hc

/-- The balance of an account can be told exactly if the account is usable. -/
theorem Settleable.funds?_eq (h : l.Settleable) (id : AccountId) :
    l.funds? id = (l.account? id).map fun a => (a.balance.toNat : Int) + (l.delta id).toInt := by
  cases ha : l.account? id with
  | none => simp [funds?, balance?, ha]
  | some a =>
    obtain ⟨hlow, hhigh⟩ := h.range (Option.filter_eq_some_iff.1 ha).1
    rw [funds?_of_account? ha hlow hhigh, Option.map_some]

theorem Settleable.isSome_balance? (h : l.Settleable) (id : AccountId) :
    (l.balance? id).isSome = l.contains id := by
  have hfunds := congrArg Option.isSome (h.funds?_eq id)
  simpa [funds?, contains] using hfunds

theorem balance?_inj : m.balance? id = l.balance? id ↔ m.funds? id = l.funds? id := by
  unfold funds?
  refine ⟨fun h => by rw [h], fun h => ?_⟩
  refine Option.map_injective (fun a b hab => ?_) h
  exact UInt64.toNat_inj.1 (Int.natCast_inj.1 hab)

/-- What an operation can do to a ledger. -/
inductive Performed (l : Ledger) : Ledger → Prop
  | adjusted {m : Ledger} (h : Adjusted (fun _ => True) l m) : Performed l m
  | begun : Performed l ⟨l.accounts, some ∅⟩
  | committed (hopen : l.inTransaction = true) : Performed l l.commit.2
  | discarded : Performed l l.rollback

theorem perform_performed (l : Ledger) (op : Operation) : Performed l (l.perform op).2 := by
  cases op with
  | begin =>
    simp only [perform, begin]
    split
    · exact .adjusted .same
    · exact .begun
  | adjust id amount =>
    simp only [perform]
    cases hadjust : l.adjust id amount with
    | error e => exact .adjusted .same
    | ok m => exact .adjusted (.adjust .same (fun _ => trivial) hadjust)
  | transfer source target amount =>
    simp only [perform]
    exact .adjusted (l.transfer_adjusted target amount trivial)
  | commit =>
    cases hopen : l.inTransaction with
    | true => exact .committed hopen
    | false =>
      have hnone : l.changes = none := by simpa [inTransaction] using hopen
      simp only [perform, commit, hnone]
      exact .adjusted .same
  | rollback => exact .discarded

namespace Standing

/-- The ledger has the accounts that were committed, with changes that can be written; and the usable
accounts are those of the start. -/
structure Sound (start : Ledger) (s : Standing) : Prop where
  closed : s.committed.changes = none
  accounts : s.current.accounts = s.committed.accounts
  settled : s.current.inTransaction = false → s.current = s.committed
  settleable : s.current.Settleable
  contains : ∀ id, s.current.contains id = start.contains id

variable {start : Ledger} {s : Standing}

/-- A ledger without a transaction is where a new transaction starts from. -/
theorem sound_closed (h : m.changes = none) (hcontains : ∀ id, m.contains id = start.contains id) :
    Sound start ⟨m, m⟩ :=
  ⟨h, rfl, fun _ => rfl, settleable_of_closed h, hcontains⟩

theorem follow_closed (hclosed : m.changes = none)
    (hcontains : ∀ id, m.contains id = start.contains id) : Sound start (s.follow m) := by
  have hdone : m.inTransaction = false := by simp [inTransaction, hclosed]
  simp only [follow, hdone]
  exact sound_closed hclosed hcontains

namespace Sound

variable (hs : Sound start s)
include hs

/-- The rollback restores what was committed. -/
theorem rollback_eq : s.current.rollback = s.committed := by
  have hclosed := hs.closed
  have haccounts := hs.accounts
  obtain ⟨⟨accounts, changes⟩, current⟩ := s
  simp_all [rollback]

/-- The commit writes the balances as they are. -/
theorem commit_eq (hopen : s.current.inTransaction = true) :
    ∃ m, s.current.commit = (.ok (), m) ∧ m.changes = none ∧
      (∀ id, m.funds? id = s.current.funds? id) ∧
      ∀ id, m.contains id = s.current.contains id := by
  obtain ⟨accounts, hcommit, hview⟩ := commit_eq_ok hs.settleable hopen
  have haccount (id : AccountId) : (Ledger.mk accounts none).account? id =
      (s.current.account? id).map (·.shift (s.current.delta id)) := by
    simp only [account?, hview]
    cases s.current.accounts.get? id with
    | none => rfl
    | some a => cases hdeleted : a.deleted <;> simp [Option.filter, hdeleted]
  refine ⟨_, hcommit, rfl, fun id => ?_, fun id => ?_⟩
  · rw [(settleable_of_closed rfl).funds?_eq, hs.settleable.funds?_eq, haccount, Option.map_map]
    cases ha : s.current.account? id with
    | none => rfl
    | some a =>
      obtain ⟨hlow, hhigh⟩ := hs.settleable.range (Option.filter_eq_some_iff.1 ha).1
      have hdelta : (Ledger.mk accounts none).delta id = 0 := rfl
      simp [hdelta, Account.shift_balance hlow hhigh]
  · simp [Ledger.contains, haccount]

theorem contains_committed (id : AccountId) : s.committed.contains id = start.contains id := by
  rw [← hs.contains, Ledger.contains, Ledger.contains, account?_congr hs.accounts]

/-- Adjustments. Without an open transaction there are none, and the ledger is the committed one. -/
theorem adjusted {debtor : AccountId → Prop} (h : Adjusted debtor s.current m) :
    Sound start (s.follow m) := by
  unfold follow
  cases hopen : s.current.inTransaction with
  | true =>
    have hkept := h.inTransaction hopen
    have hcontains (id : AccountId) : m.contains id = start.contains id := by
      rw [← hs.contains, Ledger.contains, Ledger.contains, account?_congr h.accounts_eq]
    rw [if_pos hkept]
    exact ⟨hs.closed, h.accounts_eq.trans hs.accounts, fun hclosed => by simp [hkept] at hclosed,
      h.settleable hs.settleable, hcontains⟩
  | false =>
    have hsame : m = s.committed := (h.eq_of_closed hopen).trans (hs.settled hopen)
    rw [hsame, ite_self]
    exact sound_closed hs.closed hs.contains_committed

/-- One operation. -/
theorem step (op : Operation) : Sound start (s.step op) := by
  have hperformed := s.current.perform_performed op
  unfold Standing.step
  generalize (s.current.perform op).2 = m at hperformed
  cases hperformed with
  | adjusted h => exact hs.adjusted h
  | begun =>
    refine ⟨hs.closed, hs.accounts, fun hclosed => ?_, settleable_opened _, hs.contains⟩
    cases hclosed
  | committed hopen =>
    obtain ⟨m, hcommit, hclosed, -, hcontains⟩ := hs.commit_eq hopen
    rw [hcommit]
    exact follow_closed hclosed fun id => (hcontains id).trans (hs.contains id)
  | discarded =>
    rw [hs.rollback_eq]
    exact follow_closed hs.closed hs.contains_committed

end Sound

end Standing

/-- Any number of operations. -/
theorem standing_sound {start : Ledger} (hclosed : start.changes = none) (ops : List Operation) :
    (start.standing ops).Sound start := by
  induction ops using List.reverseRecOn with
  | nil => exact Standing.sound_closed hclosed fun _ => rfl
  | append_singleton ops op ih =>
    rw [standing_concat]
    exact ih.step op

theorem Reached.settleable (h : l.Reached) : l.Settleable := by
  obtain ⟨accounts, ops, rfl⟩ := h
  exact (standing_sound (changes_ofAccounts accounts) ops).settleable

end ConsensusLedger.Ledger
