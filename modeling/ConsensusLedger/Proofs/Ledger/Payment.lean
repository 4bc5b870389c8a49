import ConsensusLedger.Proofs.Ledger.Solvency

/-!
Payments within the open transaction. An adjustment applies exactly when its account absorbs it: the
balance has to stay a word, and the accumulated change an amount. A transfer whose source and target
both absorb it is a payment, and one whose target alone does not leaves the source short.
-/

namespace ConsensusLedger

/-- An amount that is moved from one account to another, possibly the same. -/
structure Payment where
  source : AccountId
  target : AccountId
  amount : Nat
  deriving DecidableEq, Repr

namespace Payment

/-- What a payment adds to an account. -/
def effect (p : Payment) (id : AccountId) : Int :=
  (if id = p.target then (p.amount : Int) else 0) - (if id = p.source then (p.amount : Int) else 0)

/-- What payments add to an account. -/
def effects (id : AccountId) : List Payment → Int
  | [] => 0
  | p :: ps => p.effect id + effects id ps

/-- What payments move in all. -/
def moved : List Payment → Nat
  | [] => 0
  | p :: ps => p.amount + moved ps

/-- An accumulated change can take a debit without falling below the lowest amount. It need not,
although the balance can: from a balance beyond an amount so much can have been taken that the change
is the lowest there is. -/
def Bears (change : Int) (debit : Nat) : Prop :=
  debit = 0 ∨ -0x8000000000000000 ≤ change - debit

instance (change : Int) (debit : Nat) : Decidable (Bears change debit) :=
  inferInstanceAs (Decidable (_ ∨ _))

/-- The payments can be made one after the other: the accumulated change of each source bears the
debit. -/
def Sustains (change : AccountId → Int) : List Payment → Prop
  | [] => True
  | p :: ps => Bears (change p.source) p.amount ∧ Sustains (fun id => change id + p.effect id) ps

/-- The payments up to the first that cannot be made. -/
def sustained (change : AccountId → Int) : List Payment → List Payment
  | [] => []
  | p :: ps =>
    if Bears (change p.source) p.amount then
      p :: sustained (fun id => change id + p.effect id) ps
    else []

theorem effects_append (id : AccountId) (ps qs : List Payment) :
    effects id (ps ++ qs) = effects id ps + effects id qs := by
  induction ps with
  | nil => simp [effects]
  | cons p ps ih => simp [effects, ih, Int.add_assoc]

theorem moved_append (ps qs : List Payment) : moved (ps ++ qs) = moved ps + moved qs := by
  induction ps with
  | nil => simp [moved]
  | cons p ps ih => simp [moved, ih, Nat.add_assoc]

theorem sustains_append (change : AccountId → Int) (ps qs : List Payment) :
    Sustains change (ps ++ qs) ↔
      Sustains change ps ∧ Sustains (fun id => change id + effects id ps) qs := by
  induction ps generalizing change with
  | nil => simp [Sustains, effects]
  | cons p ps ih => simp [Sustains, effects, ih, and_assoc, Int.add_assoc]

theorem sustained_append_of_sustains {change : AccountId → Int} {ps : List Payment}
    (h : Sustains change ps) (qs : List Payment) :
    sustained change (ps ++ qs) = ps ++ sustained (fun id => change id + effects id ps) qs := by
  induction ps generalizing change with
  | nil => simp [effects]
  | cons p ps ih =>
    obtain ⟨hbears, hrest⟩ := h
    simp [sustained, effects, hbears, ih hrest, Int.add_assoc]

/-- Payments that cannot all be made stop where they do, whatever comes after them. -/
theorem sustained_append_of_not_sustains {change : AccountId → Int} {ps : List Payment}
    (h : ¬ Sustains change ps) (qs : List Payment) :
    sustained change (ps ++ qs) = sustained change ps := by
  induction ps generalizing change with
  | nil => exact (h trivial).elim
  | cons p ps ih =>
    by_cases hbears : Bears (change p.source) p.amount
    · simp only [List.cons_append, sustained, if_pos hbears,
        ih fun hrest => h ⟨hbears, hrest⟩]
    · simp only [List.cons_append, sustained, if_neg hbears]

theorem moved_sustained_le (change : AccountId → Int) (ps : List Payment) :
    moved (sustained change ps) ≤ moved ps := by
  induction ps generalizing change with
  | nil => exact Nat.le_refl _
  | cons p ps ih =>
    rw [sustained]
    split
    · exact Nat.add_le_add_left (ih _) p.amount
    · exact Nat.zero_le _

end Payment

namespace Ledger

/-- The ledger after payments. -/
structure Pays (l : Ledger) (ps : List Payment) (m : Ledger) : Prop where
  accounts : m.accounts = l.accounts
  inTransaction : m.inTransaction = l.inTransaction
  funds : ∀ id, m.funds? id = (l.funds? id).map (· + Payment.effects id ps)
  change : ∀ id, (m.delta id).toInt = (l.delta id).toInt + Payment.effects id ps

/-- A transfer that its source can pay. -/
structure Affords (l : Ledger) (source target : AccountId) (amount : UInt64) : Prop where
  inTransaction : l.inTransaction = true
  fits : amount.toNat ≤ AccountAmount.maximum
  known : l.contains target = true
  covered : l.Absorbs source (-amount.toNat)

/-- A transfer to another account that the source can pay, but the target cannot take. -/
structure Overfills (l : Ledger) (source target : AccountId) (amount : UInt64) : Prop where
  moves : 0 < amount.toNat ∧ source ≠ target
  affords : l.Affords source target amount
  excess : ¬ l.Absorbs target amount.toNat

variable {l m l' : Ledger} {id source target : AccountId}

namespace Pays

theorem refl (l : Ledger) : l.Pays [] l :=
  ⟨rfl, rfl, fun id => by simp [Payment.effects], fun id => by simp [Payment.effects]⟩

theorem trans {ps qs : List Payment} (h : l.Pays ps m) (h' : m.Pays qs l') :
    l.Pays (ps ++ qs) l' := by
  refine ⟨h'.accounts.trans h.accounts, h'.inTransaction.trans h.inTransaction, fun id => ?_,
    fun id => ?_⟩
  · rw [h'.funds, h.funds, Payment.effects_append, Option.map_map]
    congr 1
    funext n
    simp [Int.add_assoc]
  · rw [h'.change, h.change, Payment.effects_append, Int.add_assoc]

end Pays

/-- The source can pay exactly when its debit applies. -/
theorem affords_iff {amount : UInt64} : l.Affords source target amount ↔
    l.contains target = true ∧
      ∃ d m, amountOf? amount.toNat = some d ∧ l.adjust source (-d) = .ok m := by
  constructor
  · rintro ⟨hopen, hfits, hknown, hcovered⟩
    unfold AccountAmount.maximum at hfits
    obtain ⟨d, hd⟩ : ∃ d, amountOf? amount.toNat = some d :=
      amountOf?_of_range (by omega) (by omega)
    rw [← amountOf?_eq_some_iff.1 hd, ← (toInt_neg_of_amountOf? hd).2] at hcovered
    obtain ⟨m, hm⟩ := adjust_eq_ok_iff.2 ⟨hopen, hcovered⟩
    exact ⟨hknown, d, m, hd, hm⟩
  · rintro ⟨hknown, d, m, hd, hm⟩
    obtain ⟨hopen, hcovered⟩ := adjust_eq_ok_iff.1 ⟨m, hm⟩
    rw [(toInt_neg_of_amountOf? hd).2, amountOf?_eq_some_iff.1 hd] at hcovered
    have hbound := d.toInt_lt
    rw [amountOf?_eq_some_iff.1 hd] at hbound
    exact ⟨hopen, by unfold AccountAmount.maximum; omega, hknown, hcovered⟩

theorem not_affords_of_refused {amount : UInt64}
    (hrefused : ∀ d, amountOf? amount.toNat = some d → l.contains target = true →
      ∃ e, l.adjust source (-d) = .error e) : ¬ l.Affords source target amount := by
  intro haffords
  obtain ⟨hknown, d, m, hd, hm⟩ := affords_iff.1 haffords
  obtain ⟨e, he⟩ := hrefused d hd hknown
  cases he.symm.trans hm

/-- Once the source has paid, the credit applies exactly when the target absorbs it or is the source. -/
theorem credit_eq_ok_iff {amount : UInt64} {d : Int64} (hamount : amountOf? amount.toNat = some d)
    (htaken : l.adjust source (-d) = .ok m) :
    (∃ l', m.adjust target d = .ok l') ↔ source = target ∨ l.Absorbs target amount.toNat := by
  rw [adjust_eq_ok_iff, absorbs_debit hamount htaken, amountOf?_eq_some_iff.1 hamount]
  simp [inTransaction_of_adjust htaken]

namespace Conveyed

variable {amount : UInt64} {done : Except LedgerError Unit × Ledger}

/-- A transfer goes through exactly when nothing is to be moved, or the source can pay it and the
target take it. -/
theorem ok_iff (h : Conveyed l source target amount done) :
    done.1 = .ok () ↔ amount = 0 ∨
      l.Affords source target amount ∧ (source = target ∨ l.Absorbs target amount.toNat) := by
  cases h with
  | idle hzero => simp [hzero]
  | refused hnonzero hrefused =>
    simp only [reduceCtorEq, hnonzero, false_or, false_iff, not_and]
    exact fun haffords => (not_affords_of_refused hrefused haffords).elim
  | halfway hnonzero hamount hcontains htaken hrefused =>
    simp only [reduceCtorEq, hnonzero, false_or, false_iff, not_and]
    intro _ hcredit
    obtain ⟨l', hl'⟩ := (credit_eq_ok_iff hamount htaken).2 hcredit
    cases hrefused.symm.trans hl'
  | paid hnonzero hamount hcontains htaken hgiven =>
    simp only [true_iff]
    exact .inr ⟨affords_iff.2 ⟨hcontains, _, _, hamount, htaken⟩,
      (credit_eq_ok_iff hamount htaken).1 ⟨_, hgiven⟩⟩

/-- A transfer that goes through is a payment. -/
theorem pays (h : Conveyed l source target amount done) (hok : done.1 = .ok ()) :
    l.Pays [⟨source, target, amount.toNat⟩] done.2 := by
  cases h with
  | idle hzero =>
    subst hzero
    exact ⟨rfl, rfl, fun id => by simp [Payment.effects, Payment.effect],
      fun id => by simp [Payment.effects, Payment.effect]⟩
  | refused => cases hok
  | halfway => cases hok
  | paid hnonzero hamount hcontains htaken hgiven =>
    refine ⟨(accounts_of_adjust hgiven).trans (accounts_of_adjust htaken), ?_, fun id => ?_,
      fun id => ?_⟩
    · exact (inTransaction_of_adjust hgiven).trans (adjust_eq_ok_iff.1 ⟨_, htaken⟩).1.symm
    · rw [funds?_adjust hgiven, funds?_adjust htaken, Option.map_map,
        (toInt_neg_of_amountOf? hamount).2, amountOf?_eq_some_iff.1 hamount]
      refine congrArg (Option.map · (l.funds? id)) (funext fun n => ?_)
      simp only [Function.comp_apply, Payment.effects, Payment.effect]
      split <;> split <;> omega
    · rw [delta_adjust hgiven, delta_adjust htaken, (toInt_neg_of_amountOf? hamount).2,
        amountOf?_eq_some_iff.1 hamount]
      simp only [Payment.effects, Payment.effect]
      split <;> split <;> omega

/-- A transfer that fails changes the ledger exactly when the source could pay and the target could
not take it. -/
theorem changes_iff (h : Conveyed l source target amount done) :
    ((∃ e, done.1 = .error e) ∧ done.2 ≠ l) ↔ l.Overfills source target amount := by
  have hok := h.ok_iff
  cases h with
  | idle hzero =>
    simp only [reduceCtorEq, exists_false, false_and, false_iff]
    rintro ⟨⟨hpositive, -⟩, -⟩
    simp [hzero] at hpositive
  | refused hnonzero hrefused =>
    simp only [ne_eq, not_true_eq_false, and_false, false_iff]
    exact fun hoverfills => not_affords_of_refused hrefused hoverfills.affords
  | @halfway d m e hnonzero hamount hcontains htaken hrefused =>
    have hpositive : 0 < amount.toNat :=
      Nat.pos_of_ne_zero fun hzero => hnonzero (UInt64.toNat_inj.1 hzero)
    have hchanged : m ≠ l := by
      rintro rfl
      have hdelta := (delta_debit hamount htaken).2
      omega
    have haffords := affords_iff.2 ⟨hcontains, d, m, hamount, htaken⟩
    simp only [reduceCtorEq, hnonzero, haffords, true_and, false_or, false_iff, not_or] at hok
    exact iff_of_true ⟨⟨e, rfl⟩, hchanged⟩ ⟨⟨hpositive, hok.1⟩, haffords, hok.2⟩
  | paid hnonzero hamount hcontains htaken hgiven =>
    simp only [reduceCtorEq, exists_false, false_and, false_iff]
    rintro ⟨⟨-, hne⟩, -, hexcess⟩
    exact ((credit_eq_ok_iff hamount htaken).1 ⟨_, hgiven⟩).elim hne hexcess

end Conveyed

end Ledger

end ConsensusLedger
