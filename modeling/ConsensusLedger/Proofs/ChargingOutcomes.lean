import ConsensusLedger.Proofs.Fee.Spending
import ConsensusLedger.Proofs.Ledger.Operation

/-!
What a charge can come to, over a bounded total: everything, the node and network fees, or nothing, as
the offer and the payer's balance allow; unless the payer's accumulated change cannot bear one of the
debits, at which the charge stops.
-/

namespace ConsensusLedger

open Ledger

theorem LedgerError.status_ne_ok (e : LedgerError) : e.status ≠ .ok := by
  cases e <;> simp [LedgerError.status]

namespace Charging

/-- A charge that has come to payments: they add up to what is recorded as charged, and the payer was
charged no more than it has offered. -/
structure Settles (c : Charging) (ps : List Payment) (c' : Charging) : Prop where
  payments : c.ledger.Pays ps c'.ledger
  total : c'.totalCharged.toNat = Payment.moved ps
  within : c'.chargedToPayer.toNat ≤ c.offered.toNat

/-- The code of a payer who has not offered, or does not have, what is to be charged. -/
def FallsShort (code : Status) : Prop :=
  code = .insufficientTxFee ∨ code = .insufficientPayerBalance

variable {c c' : Charging}

theorem FallsShort.ne_ok {code : Status} (h : FallsShort code) : code ≠ .ok := by
  rcases h with rfl | rfl <;> decide

/-- A first charge of no more than the offer. -/
theorem Spends.settles {ps : List Payment} (h : c.Spends ps c') (hcharged : c.chargedToPayer = 0)
    (htotal : c.totalCharged = 0) (hoffered : Payment.moved ps ≤ c.offered.toNat) :
    c.Settles ps c' := by
  have hoffer := c.offered.toNat_lt
  have hpayer := h.charged
  have hall := h.total
  rw [hcharged, UInt64.toNat_zero] at hpayer
  rw [htotal, UInt64.toNat_zero] at hall
  exact ⟨h.ledger, by omega, by omega⟩

/-- A charge of the whole fee: it is made in full, up to the network fee, or not at all. -/
structure ChargesAll (c : Charging) (funds : Int) (fee : Fee) (code : Status) (c' : Charging) :
    Prop where
  ok_iff : code = .ok ↔
    fee.node.toNat + fee.network.toNat + fee.service.toNat ≤ c.offered.toNat ∧
      (fee.node.toNat : Int) + fee.network.toNat ≤ funds ∧
      (fee.service.toNat : Int) ≤ funds + Payment.effects c.payer (c.firstStage fee)
  whole : code = .ok → c.Settles (c.firstStage fee ++ c.serviceStage fee) c'
  short : code ≠ .ok → FallsShort code
  partly : code ≠ .ok → c.Covers funds fee → c.Settles (c.firstStage fee) c'
  nothing : code ≠ .ok → ¬ c.Covers funds fee → c.Settles [] c'

/-- A charge of the node and network fees: it is made in full or not at all. -/
structure ChargesFirst (c : Charging) (funds : Int) (fee : Fee) (code : Status) (c' : Charging) :
    Prop where
  ok_iff : code = .ok ↔ c.Covers funds fee
  whole : code = .ok → c.Settles (c.firstStage fee) c'
  short : code ≠ .ok → FallsShort code
  nothing : code ≠ .ok → c.Settles [] c'

/-- A charge of the network fee to the submitting member: it is made in full or not at all. -/
structure ChargesMember (c : Charging) (fee : Fee) (code : Status) (c' : Charging) : Prop where
  ok_iff : code = .ok ↔ ∃ id, c.submitting = some id ∧ (fee.network = 0 ∨
    ∃ funds, c.ledger.funds? id = some funds ∧ (fee.network.toNat : Int) ≤ funds)
  whole : code = .ok → ∃ id, c.submitting = some id ∧
    c.Settles [⟨id, c.funding, fee.network.toNat⟩] c'
  nothing : code ≠ .ok → c.Settles [] c'

/-- The payments of the whole fee that the offer and the payer's funds allow. -/
def due (c : Charging) (funds : Int) (fee : Fee) : List Payment :=
  if c.Covers funds fee then
    if c.CoversService funds fee then c.firstStage fee ++ c.serviceStage fee else c.firstStage fee
  else []

/-- The payments of the node and network fees that they allow. -/
def dueFirst (c : Charging) (funds : Int) (fee : Fee) : List Payment :=
  if c.Covers funds fee then c.firstStage fee else []

/-- The payment of the network fee by the submitting member, if its account has so much. -/
def dueMember (c : Charging) (fee : Fee) : List Payment :=
  match c.submitting with
  | none => []
  | some id =>
    if fee.network = 0 ∨
        (c.ledger.funds? id).any (fun funds => decide ((fee.network.toNat : Int) ≤ funds)) then
      [⟨id, c.funding, fee.network.toNat⟩]
    else []

/-- What a charge comes to when payments are due. If accumulated changes bear all of them it is as
expected; otherwise it fails at the first that they do not bear, after the payments before it. -/
structure Concludes (c : Charging) (due : List Payment) (expected : Status → Charging → Prop)
    (code : Status) (c' : Charging) : Prop where
  sustained : c.ledger.Sustains due → expected code c'
  stopped : ¬ c.ledger.Sustains due → code = .failInvalid ∧ c.Settles (c.ledger.sustained due) c'

section Due

variable {b : Int} {fee : Fee}

theorem due_of_service (hcovers : c.Covers b fee) (hservice : c.CoversService b fee) :
    c.due b fee = c.firstStage fee ++ c.serviceStage fee := by
  rw [due, if_pos hcovers, if_pos hservice]

theorem due_of_first (hcovers : c.Covers b fee) (hshort : ¬ c.CoversService b fee) :
    c.due b fee = c.firstStage fee := by
  rw [due, if_pos hcovers, if_neg hshort]

theorem due_of_uncovered (huncovered : ¬ c.Covers b fee) : c.due b fee = [] := if_neg huncovered

/-- A payer whose committed balance is no more than can be taken bears all that is due. -/
theorem sustains_due (h : c.Ready b) {a : Account} (ha : c.ledger.account? c.payer = some a)
    (hlow : a.balance.toNat ≤ 0x8000000000000000) (fee : Fee) :
    c.ledger.Sustains (c.due b fee) ∧ c.ledger.Sustains (c.dueFirst b fee) := by
  obtain ⟨a', ha', hb⟩ := account?_of_funds? h.payer
  cases ha.symm.trans ha'
  have hfirst (hcovers : c.Covers b fee) : c.ledger.Sustains (c.firstStage fee) := by
    have hnode := hcovers.node
    have hnetwork := hcovers.network
    simp only [Payment.effects, Int.add_zero] at hnetwork
    exact ⟨.inr (by simp only; omega), .inr (by simp only; omega), trivial⟩
  constructor
  · by_cases hcovers : c.Covers b fee
    · by_cases hservice : c.CoversService b fee
      · have hrest := hservice.2
        rw [due_of_service hcovers hservice]
        refine (Payment.sustains_append _ _ _).2 ⟨hfirst hcovers, .inr ?_, trivial⟩
        simp only
        omega
      · rw [due_of_first hcovers hservice]
        exact hfirst hcovers
    · rw [due_of_uncovered hcovers]
      exact sustains_nil _
  · rw [dueFirst]
    split
    · rename_i hcovers
      exact hfirst hcovers
    · exact sustains_nil _

theorem sustains_dueMember {id : AccountId} (hid : c.submitting = some id) {a : Account}
    (ha : c.ledger.account? id = some a) (hlow : a.balance.toNat ≤ 0x8000000000000000) (fee : Fee) :
    c.ledger.Sustains (c.dueMember fee) := by
  simp only [dueMember, hid]
  split
  · rename_i hcovered
    refine sustains_singleton.2 ?_
    rcases hcovered with hzero | hfunds
    · exact .inl (congrArg UInt64.toNat hzero)
    · obtain ⟨n, hn, hle⟩ := (Option.any_eq_true _ _).1 hfunds
      obtain ⟨a', ha', hsum⟩ := account?_of_funds? hn
      cases ha.symm.trans ha'
      have hle := of_decide_eq_true hle
      exact .inr (by simp only; omega)
  · exact sustains_nil _

end Due

section Fresh

variable {b : Int} (hcharged : c.chargedToPayer = 0) (htotal : c.totalCharged = 0)
include hcharged htotal

theorem settles_nothing : c.Settles [] c :=
  (Spends.nil c).settles hcharged htotal (Nat.zero_le _)

/-- Payments that stop short of what is due. -/
theorem Spends.settles_sustained {ps : List Payment}
    (h : c.Spends (c.ledger.sustained ps) c') (hoffered : Payment.moved ps ≤ c.offered.toNat) :
    c.Settles (c.ledger.sustained ps) c' :=
  h.settles hcharged htotal (Nat.le_trans (Payment.moved_sustained_le _ ps) hoffered)

theorem applyAll_charges (h : c.Ready b) (fee : Fee) (hsustains : c.ledger.Sustains (c.due b fee)) :
    c.ChargesAll b fee (c.applyAll fee).1 (c.applyAll fee).2.1 := by
  by_cases hcovers : c.Covers b fee
  · by_cases hservice : c.CoversService b fee
    · rw [due_of_service hcovers hservice] at hsustains
      obtain ⟨c', hdone, hspends⟩ := applyAll_covered h hcovers hservice hsustains
      obtain ⟨hoffered, hrest⟩ := hservice
      rw [hdone]
      refine ⟨iff_of_true rfl ⟨hoffered, hcovers.2, hrest⟩, fun _ => ?_,
        fun hne => absurd rfl hne, fun hne => absurd rfl hne, fun hne => absurd rfl hne⟩
      refine hspends.settles hcharged htotal ?_
      rw [Payment.moved_append]
      exact hoffered
    · rw [due_of_first hcovers hservice] at hsustains
      obtain ⟨code, c', short, hdone, hshort, hspends⟩ :=
        applyAll_partly h hcovers hservice hsustains
      rw [hdone]
      have hne : code ≠ .ok := FallsShort.ne_ok hshort
      refine ⟨iff_of_false hne fun hall => hservice ⟨hall.1, hall.2.2⟩, fun hok => (hne hok).elim,
        fun _ => hshort, fun _ _ => ?_, fun _ hnot => (hnot hcovers).elim⟩
      exact hspends.settles hcharged htotal hcovers.1
  · have hpoor {code : Status} (hshort : FallsShort code) : c.ChargesAll b fee code c := by
      have hne := hshort.ne_ok
      refine ⟨iff_of_false hne fun hall => hcovers ⟨?_, hall.2.1⟩, fun hok => (hne hok).elim,
        fun _ => hshort, fun _ hyes => (hcovers hyes).elim,
        fun _ _ => settles_nothing hcharged htotal⟩
      omega
    rcases applyAll_uncovered h hcovers with hdone | hdone
    · rw [hdone]
      exact hpoor (.inl rfl)
    · rw [hdone]
      exact hpoor (.inr rfl)

theorem applyAll_stops (h : c.Ready b) (fee : Fee) (hnot : ¬ c.ledger.Sustains (c.due b fee)) :
    (c.applyAll fee).1 = .failInvalid ∧
      c.Settles (c.ledger.sustained (c.due b fee)) (c.applyAll fee).2.1 := by
  by_cases hcovers : c.Covers b fee
  · by_cases hservice : c.CoversService b fee
    · rw [due_of_service hcovers hservice] at hnot ⊢
      obtain ⟨c', hdone, hspends⟩ := applyAll_unsustained h hcovers hservice hnot
      rw [hdone]
      refine ⟨rfl, hspends.settles_sustained hcharged htotal ?_⟩
      rw [Payment.moved_append]
      exact hservice.1
    · rw [due_of_first hcovers hservice] at hnot ⊢
      obtain ⟨c', hdone, hspends⟩ := applyAll_unsustained_first h hcovers hnot
      rw [hdone]
      exact ⟨rfl, hspends.settles_sustained hcharged htotal hcovers.1⟩
  · rw [due_of_uncovered hcovers] at hnot
    exact (hnot (sustains_nil _)).elim

theorem applyForDuplicate_charges (h : c.Ready b) (fee : Fee) :
    c.Concludes (c.dueFirst b fee) (c.ChargesFirst b fee) (c.applyForDuplicate fee).1
      (c.applyForDuplicate fee).2 := by
  unfold applyForDuplicate
  by_cases hcovers : c.Covers b fee
  · rw [dueFirst, if_pos hcovers]
    refine ⟨fun hsustains => ?_, fun hnot => ?_⟩
    · obtain ⟨c', hdone, hspends, -⟩ := applyNodeAndNetwork_covered h hcovers hsustains
      rw [hdone]
      refine ⟨iff_of_true rfl hcovers, fun _ => ?_, fun hne => absurd rfl hne,
        fun hne => absurd rfl hne⟩
      exact hspends.settles hcharged htotal hcovers.1
    · obtain ⟨c', hdone, hspends⟩ := applyNodeAndNetwork_unsustained h hcovers hnot
      rw [hdone]
      exact ⟨rfl, hspends.settles_sustained hcharged htotal hcovers.1⟩
  · rw [dueFirst, if_neg hcovers]
    refine ⟨fun _ => ?_, fun hnot => (hnot (sustains_nil _)).elim⟩
    have hpoor {code : Status} (hshort : FallsShort code) : c.ChargesFirst b fee code c :=
      ⟨iff_of_false hshort.ne_ok hcovers, fun hok => (hshort.ne_ok hok).elim, fun _ => hshort,
        fun _ => settles_nothing hcharged htotal⟩
    rcases applyNodeAndNetwork_uncovered h hcovers with hdone | hdone
    · rw [hdone]
      exact hpoor (.inl rfl)
    · rw [hdone]
      exact hpoor (.inr rfl)

theorem applyForIgnoredDueDiligence_charges (hbounded : c.ledger.Bounded)
    (hfunding : (c.ledger.funds? c.funding).isSome) (fee : Fee) :
    c.Concludes (c.dueMember fee) (c.ChargesMember fee) (c.applyForIgnoredDueDiligence fee).1
      (c.applyForIgnoredDueDiligence fee).2 := by
  cases hnode : c.submitting with
  | none =>
    have hdone : c.applyForIgnoredDueDiligence fee = (.invalidNodeAccount, c) := by
      simp [applyForIgnoredDueDiligence, nodeToFunding, hnode]
    have hdue : c.dueMember fee = [] := by simp only [dueMember, hnode]
    rw [hdone, hdue]
    refine ⟨fun _ => ⟨by simp [hnode], fun hok => ?_, fun _ => settles_nothing hcharged htotal⟩,
      fun hnot => (hnot (sustains_nil _)).elim⟩
    cases hok
  | some node =>
    by_cases hcovered : fee.network = 0 ∨
        ∃ n, c.ledger.funds? node = some n ∧ (fee.network.toNat : Int) ≤ n
    · have hdue : c.dueMember fee = [⟨node, c.funding, fee.network.toNat⟩] := by
        simp only [dueMember, hnode, Option.any_eq_true, decide_eq_true_eq]
        exact if_pos hcovered
      rw [hdue]
      refine ⟨fun hsustains => ?_, fun hnot => ?_⟩
      · obtain ⟨c', hdone, hpays, hpayer, hall⟩ :=
          applyForIgnoredDueDiligence_covered hbounded hfunding hnode hcovered hsustains
        rw [hdone]
        refine ⟨iff_of_true rfl ⟨node, hnode, hcovered⟩,
          fun _ => ⟨node, hnode, hpays, ?_, ?_⟩, fun hne => absurd rfl hne⟩
        · rw [hall, htotal, addCapped_zero]
          simp [Payment.moved]
        · simp [hpayer, hcharged]
      · rw [sustained_singleton_of_not_sustains hnot]
        rcases hcovered with hzero | ⟨n, hn, hle⟩
        · exact (hnot (sustains_singleton.2 (.inl (congrArg UInt64.toNat hzero)))).elim
        · rw [applyForIgnoredDueDiligence_unsustained hbounded hfunding hnode hn hle hnot]
          exact ⟨rfl, settles_nothing hcharged htotal⟩
    · have hdue : c.dueMember fee = [] := by
        simp only [dueMember, hnode, Option.any_eq_true, decide_eq_true_eq]
        exact if_neg hcovered
      obtain ⟨e, hdone⟩ := applyForIgnoredDueDiligence_uncovered hnode
        (fun hzero => hcovered (.inl hzero))
        (fun n hn => Int.not_le.1 fun hle => hcovered (.inr ⟨n, hn, hle⟩))
      rw [hdone, hdue]
      refine ⟨fun _ => ⟨iff_of_false e.status_ne_ok ?_, fun hok => (e.status_ne_ok hok).elim,
        fun _ => settles_nothing hcharged htotal⟩, fun hnot => (hnot (sustains_nil _)).elim⟩
      rintro ⟨id, hid, hcovered'⟩
      cases hnode.symm.trans hid
      exact hcovered hcovered'

end Fresh

/-- Over a bounded total, with a payer, a node and a funding account that can be used, a charge is the
whole fee, the node and network fees, or nothing; for a duplicate it is the node and network fees or
nothing; and for ignored due diligence it is the network fee of the submitting member or nothing. It
fails before that, at a payment that would take the change of the payer's or the member's balance below
the lowest amount. This cannot be unless the account's committed balance is larger than the size of
that amount. -/
theorem charging_outcomes (hreached : c.ledger.Reached) (hbounded : c.ledger.Bounded)
    (hpayer : c.ledger.contains c.payer = true) (hnode : c.ledger.contains c.nodeAccount = true)
    (hfunding : c.ledger.contains c.funding = true)
    (hfresh : c.chargedToPayer = 0 ∧ c.totalCharged = 0) (fee : Fee) :
    ∃ funds, c.ledger.funds? c.payer = some funds ∧
      c.Concludes (c.due funds fee) (c.ChargesAll funds fee) (c.applyAll fee).1
        (c.applyAll fee).2.1 ∧
      c.Concludes (c.dueFirst funds fee) (c.ChargesFirst funds fee) (c.applyForDuplicate fee).1
        (c.applyForDuplicate fee).2 ∧
      c.Concludes (c.dueMember fee) (c.ChargesMember fee) (c.applyForIgnoredDueDiligence fee).1
        (c.applyForIgnoredDueDiligence fee).2 ∧
      (∀ a, c.ledger.account? c.payer = some a → a.balance.toNat ≤ 0x8000000000000000 →
        c.ledger.Sustains (c.due funds fee) ∧ c.ledger.Sustains (c.dueFirst funds fee)) ∧
      ∀ id a, c.submitting = some id → c.ledger.account? id = some a →
        a.balance.toNat ≤ 0x8000000000000000 → c.ledger.Sustains (c.dueMember fee) := by
  have hfunds {id : AccountId} (hid : c.ledger.contains id = true) :
      (c.ledger.funds? id).isSome := by
    rw [funds?, Option.isSome_map, hreached.settleable.isSome_balance?, hid]
  obtain ⟨funds, hsome⟩ := Option.isSome_iff_exists.1 (hfunds hpayer)
  obtain ⟨hcharged, htotal⟩ := hfresh
  have hready : c.Ready funds := ⟨hbounded, hsome, hfunds hnode, hfunds hfunding⟩
  exact ⟨funds, hsome,
    ⟨applyAll_charges hcharged htotal hready fee, applyAll_stops hcharged htotal hready fee⟩,
    applyForDuplicate_charges hcharged htotal hready fee,
    applyForIgnoredDueDiligence_charges hcharged htotal hbounded (hfunds hfunding) fee,
    fun a ha hlow => sustains_due hready ha hlow fee,
    fun id a hid ha hlow => sustains_dueMember hid ha hlow fee⟩

/-- A payer that has not offered the service fee pays the other two fees. -/
theorem charging_outcomes_short :
    let l := ((ofAccounts [(.ofNum 2, ⟨1000, default, false⟩), (.ofNum 3, ⟨0, default, false⟩),
      (.ofNum 98, ⟨0, default, false⟩)]).standing [.begin]).current
    let c : Charging := ⟨l, .ofNum 2, .ofNum 3, some (.ofNum 3), .ofNum 98, 600, 0, 0⟩
    (c.applyAll ⟨100, 50, 500⟩).1 = .insufficientTxFee ∧
      c.Settles [⟨.ofNum 2, .ofNum 3, 100⟩, ⟨.ofNum 2, .ofNum 98, 50⟩]
        (c.applyAll ⟨100, 50, 500⟩).2.1 := by
  intro l c
  have hbounded : c.ledger.Bounded :=
    bounded_standing (changes_ofAccounts _) (by decide +kernel) (by simp)
  obtain ⟨funds, hfunds, hall, -, -, hsustains, -⟩ := charging_outcomes (c := c) ⟨_, _, rfl⟩ hbounded
    (by decide +kernel) (by decide +kernel) (by decide +kernel) ⟨rfl, rfl⟩ ⟨100, 50, 500⟩
  have hcode : (c.applyAll ⟨100, 50, 500⟩).1 = .insufficientTxFee := by decide +kernel
  have hhas : c.ledger.funds? c.payer = some 1000 := by decide +kernel
  have hfunds : funds = 1000 := Option.some.inj (hfunds.symm.trans hhas)
  subst hfunds
  have haccount : c.ledger.account? c.payer = some ⟨1000, default, false⟩ := by decide +kernel
  have hcharges := hall.sustained (hsustains _ haccount (by decide)).1
  have hne : (c.applyAll ⟨100, 50, 500⟩).1 ≠ .ok := by
    rw [hcode]
    decide
  have hstage : c.firstStage ⟨100, 50, 500⟩ =
      [⟨.ofNum 2, .ofNum 3, 100⟩, ⟨.ofNum 2, .ofNum 98, 50⟩] := by decide +kernel
  exact ⟨hcode, hstage ▸ hcharges.partly hne ⟨by decide, by decide⟩⟩

/-- A payer from whose large balance as much has been taken as a change can hold cannot be charged a
fee, although the offer and what is left of the balance cover it. -/
theorem change_cannot_bear_fee :
    let l := ((ofAccounts [(.ofNum 2, ⟨0xffffffffffffffff, default, false⟩),
      (.ofNum 3, ⟨0, default, false⟩), (.ofNum 98, ⟨0, default, false⟩)]).standing
        [.begin, .adjust (.ofNum 2) Int64.minValue]).current
    let c : Charging :=
      ⟨l, .ofNum 2, .ofNum 3, some (.ofNum 3), .ofNum 98, 0xffffffffffffffff, 0, 0⟩
    c.ledger.Reached ∧ c.ledger.Bounded ∧ c.ledger.contains c.payer = true ∧
      c.ledger.contains c.nodeAccount = true ∧ c.ledger.contains c.funding = true ∧
      c.ledger.funds? c.payer = some 0x7fffffffffffffff ∧
      (c.applyAll ⟨1, 0, 0⟩).1 = .failInvalid ∧
      ¬ c.ChargesAll 0x7fffffffffffffff ⟨1, 0, 0⟩ (c.applyAll ⟨1, 0, 0⟩).1
        (c.applyAll ⟨1, 0, 0⟩).2.1 := by
  intro l c
  have hcode : (c.applyAll ⟨1, 0, 0⟩).1 = .failInvalid := by decide +kernel
  refine ⟨⟨_, _, rfl⟩, ⟨by decide +kernel, by decide +kernel⟩, by decide +kernel,
    by decide +kernel, by decide +kernel, by decide +kernel, hcode, fun hall => ?_⟩
  have hok := hall.ok_iff.2 ⟨by decide +kernel, by decide +kernel, by decide +kernel⟩
  cases hcode.symm.trans hok

end Charging

end ConsensusLedger
