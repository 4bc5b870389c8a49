import ConsensusLedger.Proofs.Ledger.Adjustment

/-!
Adjustments and transfers. An adjustment applies exactly when its account absorbs it: the balance has
to stay a word, and the accumulated change an amount. A transfer is a debit followed by a credit. It
does nothing, or both, and where only the credit is refused the debit stands alone.
-/

namespace ConsensusLedger.Ledger

/-- The balance with the changes of the open transaction, as a number. -/
def funds? (l : Ledger) (id : AccountId) : Option Int := (l.balance? id).map fun b => (b.toNat : Int)

/-- The balance and the accumulated change of an account stay in range when the amount is added. -/
structure Absorbs (l : Ledger) (id : AccountId) (amount : Int) : Prop where
  balance : ∃ b, l.funds? id = some b ∧ 0 ≤ b + amount ∧ b + amount ≤ 0xffffffffffffffff
  change : -0x8000000000000000 ≤ (l.delta id).toInt + amount ∧
    (l.delta id).toInt + amount ≤ 0x7fffffffffffffff

variable {l m : Ledger} {id source target : AccountId}

theorem funds?_eq_some_iff {n : Int} :
    l.funds? id = some n ↔ ∃ b, l.balance? id = some b ∧ (b.toNat : Int) = n :=
  Option.map_eq_some_iff

theorem funds?_range {n : Int} (h : l.funds? id = some n) : 0 ≤ n ∧ n ≤ 0xffffffffffffffff := by
  obtain ⟨b, -, rfl⟩ := funds?_eq_some_iff.1 h
  have hb := b.toNat_lt
  omega

/-- What the funds of an account are made of. -/
theorem funds?_of_account? {a : Account} (h : l.account? id = some a)
    (hlow : 0 ≤ (a.balance.toNat : Int) + (l.delta id).toInt)
    (hhigh : (a.balance.toNat : Int) + (l.delta id).toInt < 0x10000000000000000) :
    l.funds? id = some (a.balance.toNat + (l.delta id).toInt) := by
  obtain ⟨b, hb⟩ := balanceOf?_of_range hlow hhigh
  rw [funds?, balance?, h, Option.bind_some, hb, Option.map_some, balanceOf?_eq_some_iff.1 hb]

theorem account?_of_funds? {n : Int} (h : l.funds? id = some n) :
    ∃ a, l.account? id = some a ∧ n = a.balance.toNat + (l.delta id).toInt := by
  obtain ⟨b, hb, rfl⟩ := funds?_eq_some_iff.1 h
  obtain ⟨a, ha, hrange⟩ := Option.bind_eq_some_iff.1 hb
  exact ⟨a, ha, balanceOf?_eq_some_iff.1 hrange⟩

/-- An adjustment applies exactly when its account absorbs it. -/
theorem adjust_eq_ok_iff {amount : Int64} :
    (∃ m, l.adjust id amount = .ok m) ↔ l.inTransaction = true ∧ l.Absorbs id amount.toInt := by
  constructor
  · rintro ⟨m, hm⟩
    obtain ⟨c, a, total, hc, ha, hlow, hhigh, htotal, rfl⟩ := adjust_eq_ok hm
    have hdelta : l.delta id = c.delta id := by rw [delta, hc]
    rw [← hdelta] at hlow hhigh htotal
    have htotalLow := total.le_toInt
    have htotalHigh := total.toInt_lt
    obtain ⟨b, hb⟩ : ∃ b, l.balance? id = some b := by
      cases hbalance : l.balance? id with
      | some b => exact ⟨b, rfl⟩
      | none => simp [adjust, hbalance] at hm
    have hfunds := funds?_eq_some_iff.2 ⟨b, hb, rfl⟩
    obtain ⟨a', ha', hsum⟩ := account?_of_funds? hfunds
    cases ha.symm.trans ha'
    exact ⟨by simp [inTransaction, hc], ⟨_, hfunds, by omega, by omega⟩, by omega, by omega⟩
  · rintro ⟨hopen, ⟨n, hn, hlow, hhigh⟩, hleast, hmost⟩
    obtain ⟨c, hc⟩ := Option.isSome_iff_exists.1 hopen
    obtain ⟨b, hb, rfl⟩ := funds?_eq_some_iff.1 hn
    have hdelta : l.delta id = c.delta id := by rw [delta, hc]
    rw [hdelta] at hleast hmost
    obtain ⟨total, htotal⟩ := amountOf?_of_range hleast (Int.lt_add_one_of_le hmost)
    refine ⟨{ l with changes := some (c.insert id total) }, ?_⟩
    simp only [adjust, hb, hc, htotal]
    rw [if_neg (by omega), if_neg (by omega)]

/-- An adjustment adds to the funds of its account, and of no other. -/
theorem funds?_adjust {amount : Int64} (h : l.adjust id amount = .ok m) (id' : AccountId) :
    m.funds? id' = (l.funds? id').map (· + if id' = id then amount.toInt else 0) := by
  by_cases hid : id' = id
  · subst hid
    obtain ⟨-, ⟨n, hn, hlow, hhigh⟩, -⟩ := adjust_eq_ok_iff.1 ⟨m, h⟩
    obtain ⟨a, ha, rfl⟩ := account?_of_funds? hn
    have hdelta := delta_adjust h id'
    rw [if_pos rfl] at hdelta
    rw [← account?_congr (accounts_of_adjust h)] at ha
    rw [funds?_of_account? ha (by omega) (by omega), hn, Option.map_some, if_pos rfl, hdelta,
      Int.add_assoc]
  · simp [funds?, balance?_adjust_of_ne h hid, hid, Function.comp_def]

/-- A debit takes its amount from one account. -/
theorem delta_debit {amount : UInt64} {d : Int64}
    (hamount : amountOf? amount.toNat = some d) (h : l.adjust source (-d) = .ok m) :
    (∀ id, id ≠ source → m.delta id = l.delta id) ∧
      (m.delta source).toInt = (l.delta source).toInt - amount.toNat := by
  have hdelta := delta_adjust h
  have hneg := (toInt_neg_of_amountOf? hamount).2
  have hvalue := amountOf?_eq_some_iff.1 hamount
  refine ⟨fun id hne => ?_, ?_⟩
  · rw [← Int64.toInt_inj, hdelta, if_neg hne, Int.add_zero]
  · rw [hdelta, if_pos rfl]
    omega

/-- Once the source has paid, the target absorbs what it did before; and the source can take back what
it has paid. -/
theorem absorbs_debit {amount : UInt64} {d : Int64} (hamount : amountOf? amount.toNat = some d)
    (h : l.adjust source (-d) = .ok m) :
    m.Absorbs target d.toInt ↔ source = target ∨ l.Absorbs target d.toInt := by
  have hneg := (toInt_neg_of_amountOf? hamount).2
  by_cases hsame : source = target
  · subst hsame
    obtain ⟨-, ⟨n, hn, hlow, -⟩, -⟩ := adjust_eq_ok_iff.1 ⟨m, h⟩
    have hfunds := funds?_adjust h source
    have hdelta := delta_adjust h source
    have hrange := funds?_range hn
    have hleast := (l.delta source).le_toInt
    have hmost := (l.delta source).toInt_lt
    rw [hn, Option.map_some, if_pos rfl, hneg] at hfunds
    rw [if_pos rfl, hneg] at hdelta
    -- Giving the amount back leads to the balance and the change from before the debit.
    simp only [true_or, iff_true]
    exact ⟨⟨_, hfunds, by omega, by omega⟩, by omega, by omega⟩
  · have hne : target ≠ source := fun heq => hsame heq.symm
    have hdelta : m.delta target = l.delta target := by
      simp [← Int64.toInt_inj, delta_adjust h, hne]
    have hfunds : m.funds? target = l.funds? target := by simp [funds?_adjust h, hne]
    simp only [hsame, false_or]
    constructor
    · rintro ⟨hbalance, hchange⟩
      exact ⟨hfunds ▸ hbalance, hdelta ▸ hchange⟩
    · rintro ⟨hbalance, hchange⟩
      exact ⟨hfunds ▸ hbalance, hdelta ▸ hchange⟩

/-- The ways in which a transfer can end. A transfer that is refused halfway keeps its debit. -/
inductive Conveyed (l : Ledger) (source target : AccountId) (amount : UInt64) :
    Except LedgerError Unit × Ledger → Prop
  | idle (hzero : amount = 0) : Conveyed l source target amount (.ok (), l)
  | refused {e : LedgerError} (hnonzero : amount ≠ 0)
      (hrefused : ∀ d, amountOf? amount.toNat = some d → l.contains target = true →
        ∃ e', l.adjust source (-d) = .error e') :
      Conveyed l source target amount (.error e, l)
  | halfway {d : Int64} {m : Ledger} {e : LedgerError} (hnonzero : amount ≠ 0)
      (hamount : amountOf? amount.toNat = some d) (hcontains : l.contains target = true)
      (htaken : l.adjust source (-d) = .ok m) (hrefused : m.adjust target d = .error e) :
      Conveyed l source target amount (.error e, m)
  | paid {d : Int64} {m l' : Ledger} (hnonzero : amount ≠ 0)
      (hamount : amountOf? amount.toNat = some d) (hcontains : l.contains target = true)
      (htaken : l.adjust source (-d) = .ok m) (hgiven : m.adjust target d = .ok l') :
      Conveyed l source target amount (.ok (), l')

theorem transfer_conveyed (l : Ledger) (source target : AccountId) (amount : UInt64) :
    Conveyed l source target amount (l.transfer source target amount) := by
  unfold transfer
  split
  · rename_i hzero
    exact .idle hzero
  · rename_i hnonzero
    split
    · rename_i hnone
      exact .refused hnonzero fun d hd => by cases hnone.symm.trans hd
    · rename_i d hd
      split
      · rename_i hmissing
        refine .refused hnonzero fun d' _ hcontains => ?_
        rw [hcontains] at hmissing
        cases hmissing
      · rename_i hknown
        have hcontains : l.contains target = true := by simpa using hknown
        split
        · rename_i e he
          refine .refused hnonzero fun d' hd' _ => ?_
          cases hd.symm.trans hd'
          exact ⟨e, he⟩
        · rename_i m hm
          split
          · rename_i e he
            exact .halfway hnonzero hd hcontains hm he
          · rename_i l' hl'
            exact .paid hnonzero hd hcontains hm hl'

end ConsensusLedger.Ledger
