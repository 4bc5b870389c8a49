import ConsensusLedger.Proofs.Fee.Charging
import ConsensusLedger.Proofs.Ledger.Total

/-!
Charges as payments. Over a bounded total, what the policy has checked against the offer and the balance
is enough for each transfer to go through, as long as the payer's accumulated change bears the debit. A
charge whose next payment it does not bear ends there.
-/

namespace ConsensusLedger

open Ledger

theorem toNat_addCapped (a b : UInt64) :
    (addCapped a b).toNat = min (a.toNat + b.toNat) 0xffffffffffffffff := by
  rw [addCapped, UInt64.toNat_ofNat']
  omega

namespace Ledger

variable {l m : Ledger} {ps : List Payment}

def Sustains (l : Ledger) (ps : List Payment) : Prop :=
  Payment.Sustains (fun id => (l.delta id).toInt) ps

def sustained (l : Ledger) (ps : List Payment) : List Payment :=
  Payment.sustained (fun id => (l.delta id).toInt) ps

theorem sustains_nil (l : Ledger) : l.Sustains [] := trivial

theorem sustains_singleton {p : Payment} :
    l.Sustains [p] ↔ Payment.Bears (l.delta p.source).toInt p.amount := by
  simp [Sustains, Payment.Sustains]

theorem sustained_append_of_not_sustains (h : ¬ l.Sustains ps) (qs : List Payment) :
    l.sustained (ps ++ qs) = l.sustained ps :=
  Payment.sustained_append_of_not_sustains h qs

theorem sustained_singleton_of_not_sustains {p : Payment} (h : ¬ l.Sustains [p]) :
    l.sustained [p] = [] := by
  rw [sustains_singleton] at h
  rw [sustained, Payment.sustained, if_neg h]

theorem Pays.sustains_append (h : l.Pays ps m) (qs : List Payment) :
    l.Sustains (ps ++ qs) ↔ l.Sustains ps ∧ m.Sustains qs := by
  simp only [Sustains, Payment.sustains_append, h.change]

theorem Pays.sustained_append (h : l.Pays ps m) (hsustains : l.Sustains ps) (qs : List Payment) :
    l.sustained (ps ++ qs) = ps ++ m.sustained qs := by
  simp only [sustained, Payment.sustained_append_of_sustains hsustains, h.change]

end Ledger

namespace Charging

/-- The charging after payments, with the same parties and the same offer. -/
structure Spends (c : Charging) (ps : List Payment) (c' : Charging) : Prop where
  ledger : c.ledger.Pays ps c'.ledger
  parties : c'.payer = c.payer ∧ c'.nodeAccount = c.nodeAccount ∧ c'.funding = c.funding
  offered : c'.offered = c.offered
  charged : c'.chargedToPayer.toNat =
    min (c.chargedToPayer.toNat + Payment.moved ps) 0xffffffffffffffff
  total : c'.totalCharged.toNat = min (c.totalCharged.toNat + Payment.moved ps) 0xffffffffffffffff

/-- The accounts of the charging can be used, and the payer has so much. -/
structure Ready (c : Charging) (funds : Int) : Prop where
  bounded : c.ledger.Bounded
  payer : c.ledger.funds? c.payer = some funds
  node : (c.ledger.funds? c.nodeAccount).isSome
  funding : (c.ledger.funds? c.funding).isSome

/-- The node and network fees as payments. -/
def firstStage (c : Charging) (fee : Fee) : List Payment :=
  [⟨c.payer, c.nodeAccount, fee.node.toNat⟩, ⟨c.payer, c.funding, fee.network.toNat⟩]

/-- The offer and the balance cover the node and network fees together. -/
def Covers (c : Charging) (funds : Int) (fee : Fee) : Prop :=
  fee.node.toNat + fee.network.toNat ≤ c.offered.toNat ∧
    (fee.node.toNat : Int) + fee.network.toNat ≤ funds

/-- The service fee as a payment. -/
def serviceStage (c : Charging) (fee : Fee) : List Payment :=
  [⟨c.payer, c.funding, fee.service.toNat⟩]

/-- The offer covers the whole fee, and the payer has the service fee left after the other two. -/
def CoversService (c : Charging) (funds : Int) (fee : Fee) : Prop :=
  fee.node.toNat + fee.network.toNat + fee.service.toNat ≤ c.offered.toNat ∧
    (fee.service.toNat : Int) ≤ funds + Payment.effects c.payer (c.firstStage fee)

instance (c : Charging) (funds : Int) (fee : Fee) : Decidable (c.Covers funds fee) :=
  inferInstanceAs (Decidable (_ ∧ _))

instance (c : Charging) (funds : Int) (fee : Fee) : Decidable (c.CoversService funds fee) :=
  inferInstanceAs (Decidable (_ ∧ _))

variable {c c' c'' : Charging} {b : Int}

theorem Spends.nil (c : Charging) : c.Spends [] c := by
  have hcharged := c.chargedToPayer.toNat_lt
  have htotal := c.totalCharged.toNat_lt
  refine ⟨.refl _, ⟨rfl, rfl, rfl⟩, rfl, ?_, ?_⟩ <;> simp only [Payment.moved] <;> omega

theorem Spends.append {ps qs : List Payment} (h : c.Spends ps c') (h' : c'.Spends qs c'') :
    c.Spends (ps ++ qs) c'' := by
  obtain ⟨hpayer, hnode, hfunding⟩ := h.parties
  obtain ⟨hpayer', hnode', hfunding'⟩ := h'.parties
  have hcharged := h.charged
  have htotal := h.total
  refine ⟨h.ledger.trans h'.ledger,
    ⟨hpayer'.trans hpayer, hnode'.trans hnode, hfunding'.trans hfunding⟩,
    h'.offered.trans h.offered, ?_, ?_⟩
  · rw [h'.charged, Payment.moved_append]
    omega
  · rw [h'.total, Payment.moved_append]
    omega

/-- Payments from the payer leave the charging ready, with what they leave to the payer. -/
theorem Ready.spends (h : c.Ready b) {ps : List Payment} (hspends : c.Spends ps c')
    (hparties : ∀ p ∈ ps, p.source = c.payer ∧ (c.ledger.funds? p.target).isSome) :
    c'.Ready (b + Payment.effects c.payer ps) := by
  obtain ⟨hpayer, hnode, hfunding⟩ := hspends.parties
  have hknown : ∀ p ∈ ps, (c.ledger.funds? p.source).isSome ∧ (c.ledger.funds? p.target).isSome := by
    intro p hp
    obtain ⟨hsource, htarget⟩ := hparties p hp
    exact ⟨by simp [hsource, h.payer], htarget⟩
  refine ⟨h.bounded.pays hspends.ledger hknown, ?_, ?_, ?_⟩
  · rw [hpayer, hspends.ledger.funds, h.payer, Option.map_some]
  · rw [hnode, hspends.ledger.funds, Option.isSome_map]
    exact h.node
  · rw [hfunding, hspends.ledger.funds, Option.isSome_map]
    exact h.funding

/-- The payer can be charged what it has, if its change bears the debit, and is ready for more. -/
theorem chargePayer_covered (h : c.Ready b) {target : AccountId}
    (htarget : (c.ledger.funds? target).isSome) {amount : UInt64}
    (hcovered : (amount.toNat : Int) ≤ b)
    (hsustains : c.ledger.Sustains [⟨c.payer, target, amount.toNat⟩]) :
    ∃ c', c.chargePayer target amount = (.ok (), c') ∧
      c.Spends [⟨c.payer, target, amount.toNat⟩] c' ∧
      c'.Ready (b + Payment.effects c.payer [⟨c.payer, target, amount.toNat⟩]) := by
  obtain ⟨t, ht⟩ := Option.isSome_iff_exists.1 htarget
  have hok := h.bounded.transfer_covered h.payer ht hcovered (sustains_singleton.1 hsustains)
  have hpays := (c.ledger.transfer_conveyed c.payer target amount).pays hok
  unfold chargePayer
  generalize c.ledger.transfer c.payer target amount = done at hok hpays
  obtain ⟨result, ledger⟩ := done
  cases hok
  refine ⟨_, rfl, ?spends, h.spends ?spends (by simpa using htarget)⟩
  exact ⟨hpays, ⟨rfl, rfl, rfl⟩, rfl, toNat_addCapped .., toNat_addCapped ..⟩

theorem chargePayer_unsustained (h : c.Ready b) {target : AccountId}
    (htarget : (c.ledger.funds? target).isSome) {amount : UInt64}
    (hcovered : (amount.toNat : Int) ≤ b)
    (hnot : ¬ c.ledger.Sustains [⟨c.payer, target, amount.toNat⟩]) :
    ∃ e, c.chargePayer target amount = (.error e, c) ∧ e.status = .failInvalid := by
  obtain ⟨t, ht⟩ := Option.isSome_iff_exists.1 htarget
  rw [sustains_singleton] at hnot
  obtain ⟨e, he, hstatus⟩ := h.bounded.transfer_unborne h.payer ht hcovered hnot
  exact ⟨e, by simp only [chargePayer, he], hstatus⟩

theorem Ready.toNat_payerBalance (h : c.Ready b) : (c.payerBalance.toNat : Int) = b := by
  obtain ⟨balance, hbalance, hb⟩ := funds?_eq_some_iff.1 h.payer
  rw [payerBalance, hbalance, Option.getD_some, hb]

theorem Ready.funds_le (h : c.Ready b) : 0 ≤ b ∧ b ≤ AccountAmount.maximum :=
  ⟨(funds?_range h.payer).1, (funds_le_total h.payer).trans h.bounded.total⟩

/-- Node and network fees that are covered together are charged one after the other. -/
theorem applyNodeAndNetwork_eq (h : c.Ready b) {fee : Fee} (hcovers : c.Covers b fee) :
    c.applyNodeAndNetwork fee = match c.payerToNode fee.node with
      | (.error e, c) => (e.status, c)
      | (.ok (), c) =>
        match c.payerToFunding fee.network with
        | (.error e, c) => (e.status, c)
        | (.ok (), c) => (.ok, c) := by
  obtain ⟨hoffered, hcovered⟩ := hcovers
  have hsum := toNat_addCapped fee.node fee.network
  have hbalance := h.toNat_payerBalance
  have hoffer := c.offered.toNat_lt
  have hallowed : ¬ c.offered < fee.nodeAndNetwork := by
    rw [Fee.nodeAndNetwork, UInt64.lt_iff_toNat_lt]
    omega
  have hfunded : ¬ c.payerBalance < fee.nodeAndNetwork := by
    rw [Fee.nodeAndNetwork, UInt64.lt_iff_toNat_lt]
    omega
  exact (if_neg hallowed).trans (if_neg hfunded)

/-- The network fee is left to the payer when the node fee has been paid. -/
theorem Covers.network {fee : Fee} (hcovers : c.Covers b fee) : (fee.network.toNat : Int) ≤
    b + Payment.effects c.payer [⟨c.payer, c.nodeAccount, fee.node.toNat⟩] := by
  obtain ⟨-, hcovered⟩ := hcovers
  -- If the payer is the node, it has got the node fee back by now.
  simp only [Payment.effects, Payment.effect]
  split <;> simp <;> omega

theorem Covers.node {fee : Fee} (hcovers : c.Covers b fee) : (fee.node.toNat : Int) ≤ b := by
  obtain ⟨-, hcovered⟩ := hcovers
  omega

/-- The node and network fees are both charged when the offer and the balance cover them together. -/
theorem applyNodeAndNetwork_covered (h : c.Ready b) {fee : Fee} (hcovers : c.Covers b fee)
    (hsustains : c.ledger.Sustains (c.firstStage fee)) :
    ∃ c', c.applyNodeAndNetwork fee = (.ok, c') ∧ c.Spends (c.firstStage fee) c' ∧
      c'.Ready (b + Payment.effects c.payer (c.firstStage fee)) := by
  have hfirst : c.ledger.Sustains [⟨c.payer, c.nodeAccount, fee.node.toNat⟩] :=
    sustains_singleton.2 hsustains.1
  obtain ⟨c', hnode, hspends, hready⟩ := chargePayer_covered h h.node hcovers.node hfirst
  obtain ⟨hpayer, -, hfunding⟩ := hspends.parties
  have hsecond : c'.ledger.Sustains [⟨c'.payer, c'.funding, fee.network.toNat⟩] := by
    rw [hpayer, hfunding]
    exact ((hspends.ledger.sustains_append _).1 hsustains).2
  obtain ⟨c'', hnetwork, hspends', -⟩ :=
    chargePayer_covered hready hready.funding hcovers.network hsecond
  rw [hpayer, hfunding] at hspends'
  have hboth : c.Spends (c.firstStage fee) c'' := hspends.append hspends'
  refine ⟨c'', ?_, hboth, h.spends hboth ?_⟩
  · simp only [applyNodeAndNetwork_eq h hcovers, payerToNode, payerToFunding, hnode, hnetwork]
  · simp [firstStage, h.node, h.funding]

/-- Or as far as the payer's change bears the debits. -/
theorem applyNodeAndNetwork_unsustained (h : c.Ready b) {fee : Fee} (hcovers : c.Covers b fee)
    (hnot : ¬ c.ledger.Sustains (c.firstStage fee)) :
    ∃ c', c.applyNodeAndNetwork fee = (.failInvalid, c') ∧
      c.Spends (c.ledger.sustained (c.firstStage fee)) c' := by
  rw [applyNodeAndNetwork_eq h hcovers]
  have hstage : c.firstStage fee = [⟨c.payer, c.nodeAccount, fee.node.toNat⟩] ++
      [⟨c.payer, c.funding, fee.network.toNat⟩] := rfl
  rw [hstage] at hnot ⊢
  by_cases hfirst : c.ledger.Sustains [⟨c.payer, c.nodeAccount, fee.node.toNat⟩]
  · obtain ⟨c', hnode, hspends, hready⟩ := chargePayer_covered h h.node hcovers.node hfirst
    obtain ⟨hpayer, -, hfunding⟩ := hspends.parties
    have hsecond : ¬ c'.ledger.Sustains [⟨c.payer, c.funding, fee.network.toNat⟩] :=
      fun hrest => hnot ((hspends.ledger.sustains_append _).2 ⟨hfirst, hrest⟩)
    rw [hspends.ledger.sustained_append hfirst, sustained_singleton_of_not_sustains hsecond,
      List.append_nil]
    rw [← hpayer, ← hfunding] at hsecond
    obtain ⟨e, hnetwork, hstatus⟩ :=
      chargePayer_unsustained hready hready.funding hcovers.network hsecond
    exact ⟨c', by simp only [payerToNode, payerToFunding, hnode, hnetwork, hstatus], hspends⟩
  · obtain ⟨e, hnode, hstatus⟩ := chargePayer_unsustained h h.node hcovers.node hfirst
    rw [sustained_append_of_not_sustains hfirst, sustained_singleton_of_not_sustains hfirst]
    exact ⟨c, by simp only [payerToNode, hnode, hstatus], .nil c⟩

/-- And neither is charged otherwise. -/
theorem applyNodeAndNetwork_uncovered (h : c.Ready b) {fee : Fee}
    (huncovered : ¬ c.Covers b fee) :
    c.applyNodeAndNetwork fee = (.insufficientTxFee, c) ∨
      c.applyNodeAndNetwork fee = (.insufficientPayerBalance, c) := by
  have hsum := toNat_addCapped fee.node fee.network
  have hbalance := h.toNat_payerBalance
  -- A balance is an amount, so that a sum that is capped at the largest word exceeds it as well.
  have hfunds := h.funds_le
  unfold AccountAmount.maximum at hfunds
  unfold Covers at huncovered
  simp only [applyNodeAndNetwork, Fee.nodeAndNetwork, UInt64.lt_iff_toNat_lt]
  split
  · exact .inl rfl
  · rename_i hoffered
    rw [if_pos (by omega)]
    exact .inr rfl

/-- When the offer and the balance cover the whole fee, the service fee follows on the other two. -/
theorem applyAll_eq {fee : Fee} (hservice : c.CoversService b fee)
    (hfirst : c.applyNodeAndNetwork fee = (.ok, c')) (hspends : c.Spends (c.firstStage fee) c')
    (hready : c'.Ready (b + Payment.effects c.payer (c.firstStage fee))) :
    c.applyAll fee = match c'.payerToFunding fee.service with
      | (.error e, c) => (e.status, c, none)
      | (.ok (), c) => (.ok, c, none) := by
  obtain ⟨hoffered, hrest⟩ := hservice
  have hoffer := hspends.offered
  have hbalance := hready.toNat_payerBalance
  have htotal := toNat_addCapped fee.nodeAndNetwork fee.service
  have hsum := toNat_addCapped fee.node fee.network
  have hword := c.offered.toNat_lt
  have hnone : c'.serviceShortfall? fee = none := by
    unfold serviceShortfall? Fee.total
    rw [hoffer, if_neg (by rw [UInt64.lt_iff_toNat_lt, htotal, Fee.nodeAndNetwork]; omega),
      if_neg (by rw [UInt64.lt_iff_toNat_lt]; omega)]
  rcases hpaid : c'.payerToFunding fee.service with ⟨_ | _, _⟩ <;>
    simp only [applyAll, hfirst, hnone, hpaid]

/-- The whole fee is charged when the offer covers it and the payer has the service fee left. -/
theorem applyAll_covered (h : c.Ready b) {fee : Fee} (hcovers : c.Covers b fee)
    (hservice : c.CoversService b fee)
    (hsustains : c.ledger.Sustains (c.firstStage fee ++ c.serviceStage fee)) :
    ∃ c', c.applyAll fee = (.ok, c', none) ∧
      c.Spends (c.firstStage fee ++ c.serviceStage fee) c' := by
  obtain ⟨c', hfirst, hspends, hready⟩ := applyNodeAndNetwork_covered h hcovers
    ((Payment.sustains_append _ _ _).1 hsustains).1
  obtain ⟨hpayer, -, hfunding⟩ := hspends.parties
  have hlast : c'.ledger.Sustains [⟨c'.payer, c'.funding, fee.service.toNat⟩] := by
    rw [hpayer, hfunding]
    exact ((hspends.ledger.sustains_append _).1 hsustains).2
  obtain ⟨c'', hcharged, hspends', -⟩ :=
    chargePayer_covered hready hready.funding hservice.2 hlast
  rw [hpayer, hfunding] at hspends'
  refine ⟨c'', ?_, hspends.append hspends'⟩
  simp only [applyAll_eq hservice hfirst hspends hready, payerToFunding, hcharged]

/-- Of node and network fees that the payer's change does not bear, the charge stops at the first. -/
theorem applyAll_unsustained_first (h : c.Ready b) {fee : Fee} (hcovers : c.Covers b fee)
    (hnot : ¬ c.ledger.Sustains (c.firstStage fee)) :
    ∃ c', c.applyAll fee = (.failInvalid, c', none) ∧
      c.Spends (c.ledger.sustained (c.firstStage fee)) c' := by
  obtain ⟨c', hfirst, hspends⟩ := applyNodeAndNetwork_unsustained h hcovers hnot
  exact ⟨c', by simp only [applyAll, hfirst], hspends⟩

/-- A whole fee is charged as far as the payer's change bears the debits. -/
theorem applyAll_unsustained (h : c.Ready b) {fee : Fee} (hcovers : c.Covers b fee)
    (hservice : c.CoversService b fee)
    (hnot : ¬ c.ledger.Sustains (c.firstStage fee ++ c.serviceStage fee)) :
    ∃ c', c.applyAll fee = (.failInvalid, c', none) ∧
      c.Spends (c.ledger.sustained (c.firstStage fee ++ c.serviceStage fee)) c' := by
  by_cases hsustains : c.ledger.Sustains (c.firstStage fee)
  · obtain ⟨c', hfirst, hspends, hready⟩ := applyNodeAndNetwork_covered h hcovers hsustains
    obtain ⟨hpayer, -, hfunding⟩ := hspends.parties
    have hlast : ¬ c'.ledger.Sustains (c.serviceStage fee) :=
      fun hrest => hnot ((hspends.ledger.sustains_append _).2 ⟨hsustains, hrest⟩)
    rw [hspends.ledger.sustained_append hsustains, serviceStage,
      sustained_singleton_of_not_sustains hlast, List.append_nil]
    rw [serviceStage, ← hpayer, ← hfunding] at hlast
    obtain ⟨e, hcharged, hstatus⟩ :=
      chargePayer_unsustained hready hready.funding hservice.2 hlast
    refine ⟨c', ?_, hspends⟩
    simp only [applyAll_eq hservice hfirst hspends hready, payerToFunding, hcharged, hstatus]
  · rw [sustained_append_of_not_sustains hsustains]
    exact applyAll_unsustained_first h hcovers hsustains

/-- Otherwise the first two fees are charged alone, when they are covered. -/
theorem applyAll_partly (h : c.Ready b) {fee : Fee} (hcovers : c.Covers b fee)
    (hshort : ¬ c.CoversService b fee) (hsustains : c.ledger.Sustains (c.firstStage fee)) :
    ∃ code c' short, c.applyAll fee = (code, c', short) ∧
      (code = .insufficientTxFee ∨ code = .insufficientPayerBalance) ∧
      c.Spends (c.firstStage fee) c' := by
  obtain ⟨c', hfirst, hspends, hready⟩ := applyNodeAndNetwork_covered h hcovers hsustains
  obtain ⟨-, hcovered⟩ := hcovers
  have hoffer := hspends.offered
  have hbalance := hready.toNat_payerBalance
  have htotal := toNat_addCapped fee.nodeAndNetwork fee.service
  have hsum := toNat_addCapped fee.node fee.network
  have hfunds := h.funds_le
  have hleft := hready.funds_le
  unfold AccountAmount.maximum at hfunds hleft
  unfold CoversService at hshort
  rw [Fee.nodeAndNetwork] at htotal
  simp only [applyAll, hfirst, serviceShortfall?, hoffer, Fee.total, Fee.nodeAndNetwork,
    UInt64.lt_iff_toNat_lt]
  by_cases hlow : c.offered.toNat < (addCapped (addCapped fee.node fee.network) fee.service).toNat
  · rw [if_pos hlow]
    exact ⟨_, _, _, rfl, .inl rfl, hspends⟩
  · rw [if_neg hlow, if_pos (by omega)]
    exact ⟨_, _, _, rfl, .inr rfl, hspends⟩

/-- And nothing is charged when they are not. -/
theorem applyAll_uncovered (h : c.Ready b) {fee : Fee}
    (huncovered : ¬ c.Covers b fee) :
    c.applyAll fee = (.insufficientTxFee, c, none) ∨
      c.applyAll fee = (.insufficientPayerBalance, c, none) := by
  rcases applyNodeAndNetwork_uncovered h huncovered with hfirst | hfirst
  · exact .inl (by simp only [applyAll, hfirst])
  · exact .inr (by simp only [applyAll, hfirst])

/-- Ignored due diligence costs the submitting member the network fee, if its account has so much. -/
theorem applyForIgnoredDueDiligence_covered (hbounded : c.ledger.Bounded)
    (hfunding : (c.ledger.funds? c.funding).isSome) {fee : Fee} {node : AccountId}
    (hnode : c.submitting = some node)
    (hcovered : fee.network = 0 ∨
      ∃ n, c.ledger.funds? node = some n ∧ (fee.network.toNat : Int) ≤ n)
    (hsustains : c.ledger.Sustains [⟨node, c.funding, fee.network.toNat⟩]) :
    ∃ c', c.applyForIgnoredDueDiligence fee = (.ok, c') ∧
      c.ledger.Pays [⟨node, c.funding, fee.network.toNat⟩] c'.ledger ∧
      c'.chargedToPayer = c.chargedToPayer ∧
      c'.totalCharged = addCapped c.totalCharged fee.network := by
  have hconveyed := c.ledger.transfer_conveyed node c.funding fee.network
  have hok : (c.ledger.transfer node c.funding fee.network).1 = .ok () := by
    rcases hcovered with hzero | ⟨n, hn, hcovered⟩
    · exact hconveyed.ok_iff.2 (.inl hzero)
    · obtain ⟨t, ht⟩ := Option.isSome_iff_exists.1 hfunding
      exact hbounded.transfer_covered hn ht hcovered (sustains_singleton.1 hsustains)
  have hpays := hconveyed.pays hok
  rcases hdone : c.ledger.transfer node c.funding fee.network with ⟨result, ledger⟩
  rw [hdone] at hok hpays
  cases hok
  refine ⟨{ c with ledger := ledger, totalCharged := addCapped c.totalCharged fee.network }, ?_,
    hpays, rfl, rfl⟩
  simp [applyForIgnoredDueDiligence, nodeToFunding, hnode, hdone]

theorem applyForIgnoredDueDiligence_unsustained (hbounded : c.ledger.Bounded)
    (hfunding : (c.ledger.funds? c.funding).isSome) {fee : Fee} {node : AccountId}
    (hnode : c.submitting = some node) {n : Int} (hn : c.ledger.funds? node = some n)
    (hcovered : (fee.network.toNat : Int) ≤ n)
    (hnot : ¬ c.ledger.Sustains [⟨node, c.funding, fee.network.toNat⟩]) :
    c.applyForIgnoredDueDiligence fee = (.failInvalid, c) := by
  obtain ⟨t, ht⟩ := Option.isSome_iff_exists.1 hfunding
  rw [sustains_singleton] at hnot
  obtain ⟨e, he, hstatus⟩ := hbounded.transfer_unborne hn ht hcovered hnot
  simp only [applyForIgnoredDueDiligence, nodeToFunding, hnode, he, hstatus]
  rw [← hnode]

theorem applyForIgnoredDueDiligence_uncovered {fee : Fee} {node : AccountId}
    (hnode : c.submitting = some node) (hnonzero : fee.network ≠ 0)
    (hshort : ∀ n, c.ledger.funds? node = some n → n < (fee.network.toNat : Int)) :
    ∃ e : LedgerError, c.applyForIgnoredDueDiligence fee = (e.status, c) := by
  obtain ⟨⟨e, he⟩, hsame⟩ := transfer_uncovered c.funding hnonzero hshort
  rcases hdone : c.ledger.transfer node c.funding fee.network with ⟨result, ledger⟩
  rw [hdone] at he hsame
  cases he
  cases hsame
  refine ⟨e, ?_⟩
  simp only [applyForIgnoredDueDiligence, nodeToFunding, hnode, hdone]
  rw [← hnode]

end Charging

end ConsensusLedger
